import Mathlib.Data.List.Infix
import Mathlib.Tactic.Common
import VirtueSensing.Shared.Attempt
import VirtueSensing.Shared.Bytes

set_option autoImplicit false

/-!
# Trees of files

A tree is the list of its entries under their absolute paths, the newest first. The operations are those
of Python's `os` and `shutil` on a POSIX system, for trees without links.
-/

namespace VirtueSensing.FileTree

abbrev Name := Bytes
abbrev Path := List Name

inductive Node where
  | dir
  | file (contents : Bytes)
  deriving DecidableEq, Repr

-- `OSError` is the class of all that the system refuses, and `FileExistsError` one of its kinds.
inductive Failure where
  | keyError
  | typeError
  | osError
  | fileExistsError
  | exit
  deriving DecidableEq, Repr

abbrev Tree := List (Path × Node)

def slash : UInt8 := 47

def enter (path : Path) (part : Name) : Path :=
  if part = [] ∨ part = ascii "." then path
  else if part = ascii ".." then path.dropLast
  else path ++ [part]

def parts (text : Bytes) : List Name := text.splitOn slash

def start (root : Path) (text : Bytes) : Path := if text.head? = some slash then [] else root

-- `os.path.abspath(os.path.join(root, text))`
def resolve (root : Path) (text : Bytes) : Path := (parts text).foldl enter (start root text)

def passed : Path → List Name → List Path
  | _, [] => []
  | p, part :: rest => p :: passed (enter p part) rest

-- Where the system looks the next part up, when it follows the joined path as it is written.
def stops (root : Path) (text : Bytes) : List Path := passed (start root text) (parts text)

-- No directory can be removed under such a name.
def dotted (text : Bytes) : Bool :=
  match ((parts text).filter (· ≠ [])).getLast? with
  | some part => part = ascii "." || part = ascii ".."
  | none => false

def basename (p : Path) : Name := p.getLastD []

def Apart (p q : Path) : Prop := ¬ p <+: q ∧ ¬ q <+: p

instance (p q : Path) : Decidable (Apart p q) := inferInstanceAs (Decidable (_ ∧ _))

namespace Tree

def node : Tree → Path → Option Node
  | [], _ => none
  | e :: rest, p => if e.1 = p then some e.2 else node rest p

def reached (t : Tree) (root : Path) (text : Bytes) : Bool :=
  (stops root text).all fun p => t.node p = some .dir

-- What is at `os.path.join(root, text)`.
def lookup (t : Tree) (root : Path) (text : Bytes) : Option Node :=
  if t.reached root text then t.node (resolve root text) else none

def isFile (t : Tree) (root : Path) (text : Bytes) : Bool :=
  match t.lookup root text with
  | some (.file _) => true
  | _ => false

def set (t : Tree) (p : Path) (n : Node) : Tree := (p, n) :: t

def remove (t : Tree) (p : Path) : Tree := t.filter fun e => ¬ p <+: e.1

-- What is under a path, under another one.
def copied (t : Tree) (src dst : Path) : Tree :=
  (t.filter fun e => src <+: e.1).map fun e => (dst ++ e.1.drop src.length, e.2)

/-- What is under a path, under the rest of its own. -/
def below (t : Tree) (src : Path) : List (Path × Node) :=
  ((t.map Prod.fst).filter fun p => src <+: p).filterMap fun p =>
    (t.node p).map fun n => (p.drop src.length, n)

def HasFile (t : Tree) (p : Path) : Prop := ∃ contents, t.node p = some (.file contents)

theorem hasFile_iff {t : Tree} {p : Path} :
    t.HasFile p ↔ t.node p ≠ none ∧ t.node p ≠ some .dir := by
  constructor
  · rintro ⟨contents, file⟩
    simp [file]
  · rintro ⟨there, noDir⟩
    cases node : t.node p with
    | none => exact absurd node there
    | some n =>
      cases n with
      | dir => exact absurd node noDir
      | file contents => exact ⟨contents, node⟩

instance (t : Tree) (p : Path) : Decidable (t.HasFile p) :=
  decidable_of_iff _ hasFile_iff.symm

/-- The root is a directory, and so is what anything is in. -/
structure Closed (t : Tree) : Prop where
  root : t.node [] = some .dir
  parent : ∀ p name n, t.node (p ++ [name]) = some n → t.node p = some .dir

variable {t : Tree} {p q : Path} {n : Node}

theorem node_set : (t.set p n).node q = if p = q then some n else t.node q := rfl

theorem node_append (a b : Tree) (p : Path) : (a ++ b : Tree).node p = (a.node p).or (b.node p) := by
  induction a with
  | nil => rfl
  | cons e a ih =>
    rw [List.cons_append, node, node, ih]
    split <;> rfl

theorem node_remove : (t.remove p).node q = if p <+: q then none else t.node q := by
  induction t with
  | nil => simp [remove, node]
  | cons e t ih =>
    unfold remove at ih ⊢
    by_cases under : p <+: e.1
    · rw [List.filter_cons_of_neg (by simpa using under), ih, node]
      by_cases here : e.1 = q
      · rw [if_pos (here ▸ under), if_pos (here ▸ under)]
      · rw [if_neg here]
    · rw [List.filter_cons_of_pos (by simpa using under), node, node, ih]
      by_cases here : e.1 = q
      · rw [if_pos here, if_pos here, if_neg (here ▸ under)]
      · rw [if_neg here, if_neg here]

theorem node_copied {src dst : Path} :
    (t.copied src dst).node q = if dst <+: q then t.node (src ++ q.drop dst.length) else none := by
  induction t with
  | nil => simp [copied, node]
  | cons e t ih =>
    unfold copied at ih ⊢
    by_cases under : src <+: e.1
    · rw [List.filter_cons_of_pos (by simpa using under), List.map_cons, node, ih]
      obtain ⟨r, path⟩ := under
      have place : e.1.drop src.length = r := by rw [← path, List.drop_left]
      dsimp only
      rw [place]
      by_cases behind : dst <+: q
      · obtain ⟨s, rfl⟩ := behind
        rw [List.drop_left, if_pos (List.prefix_append _ _), if_pos (List.prefix_append _ _), node, ← path]
        simp only [List.append_cancel_left_eq]
      · have other : dst ++ r ≠ q := fun same => behind (same ▸ List.prefix_append _ _)
        rw [if_neg other, if_neg behind, if_neg behind]
    · rw [List.filter_cons_of_neg (by simpa using under), ih, node]
      have other : e.1 ≠ src ++ q.drop dst.length := fun same => under (same ▸ List.prefix_append _ _)
      rw [if_neg other]

theorem mem_keys (there : t.node p = some n) : p ∈ t.map Prod.fst := by
  induction t with
  | nil => cases there
  | cons e t ih =>
    rw [node] at there
    split at there
    · next here => exact here ▸ List.mem_cons_self
    · exact List.mem_cons_of_mem _ (ih there)

theorem mem_below {src r : Path} : (r, n) ∈ t.below src ↔ t.node (src ++ r) = some n := by
  simp only [below, List.mem_filterMap, List.mem_filter, Option.map_eq_some_iff, Prod.mk.injEq,
    decide_eq_true_eq]
  constructor
  · rintro ⟨_, ⟨-, ⟨s, rfl⟩⟩, m, there, rfl, rfl⟩
    rwa [List.drop_left]
  · intro there
    exact ⟨src ++ r, ⟨mem_keys there, List.prefix_append _ _⟩, n, there, List.drop_left, rfl⟩

theorem hasFile_of_isFile {root : Path} {text : Bytes} (file : t.isFile root text) :
    t.HasFile (resolve root text) := by
  rw [isFile, lookup] at file
  split at file
  · next contents found =>
    split at found
    · exact ⟨contents, found⟩
    · cases found
  · cases file

namespace Closed

theorem of_entries (root : t.node [] = some .dir)
    (parents : t.all fun e => decide (e.1 = []) || decide (t.node e.1.dropLast = some .dir)) :
    t.Closed := by
  refine ⟨root, fun p name n there => ?_⟩
  obtain ⟨e, member, path⟩ := List.mem_map.mp (mem_keys there)
  have parent := List.all_eq_true.mp parents e member
  rw [path] at parent
  simpa using parent

theorem above (closed : t.Closed) (there : t.node q = some n) (before : p <+: q) (strict : p ≠ q) :
    t.node p = some .dir := by
  induction q using List.reverseRecOn generalizing n with
  | nil => exact absurd (List.prefix_nil.mp before) strict
  | append_singleton q name ih =>
    have up := closed.parent q name n there
    rcases List.prefix_concat_iff.mp before with same | shorter
    · exact absurd same strict
    · by_cases same : p = q
      · exact same ▸ up
      · exact ih up shorter same

theorem nothing (closed : t.Closed) (absent : t.node p = none) (before : p <+: q) :
    t.node q = none := by
  cases there : t.node q with
  | none => rfl
  | some n =>
    by_cases same : p = q
    · exact absurd (same ▸ absent) (by simp [there])
    · exact absurd (closed.above there before same) (by simp [absent])

theorem set {name : Name} (closed : t.Closed) (parent : t.node p = some .dir)
    (kept : n = .dir ∨ t.node (p ++ [name]) ≠ some .dir) : (t.set (p ++ [name]) n).Closed := by
  constructor
  · rw [node_set, if_neg (by simp)]
    exact closed.root
  · intro q other m there
    rw [node_set] at there
    have up : t.node q = some .dir := by
      split at there
      · next same =>
        obtain ⟨rfl, -⟩ := List.append_inj' same rfl
        exact parent
      · exact closed.parent q other m there
    rw [node_set]
    split
    · next same =>
      rcases kept with dir | free
      · rw [dir]
      · exact absurd up (same ▸ free)
    · exact up

theorem remove (closed : t.Closed) (some : p ≠ []) : (t.remove p).Closed := by
  constructor
  · rw [node_remove, if_neg (fun root => some (List.prefix_nil.mp root))]
    exact closed.root
  · intro q name m there
    rw [node_remove] at there ⊢
    split at there
    · cases there
    · next outside =>
      rw [if_neg fun under => outside (under.trans (List.prefix_append _ _))]
      exact closed.parent q name m there

end Closed

end Tree

open Attempt

abbrev Action := Attempt Tree Failure Unit

def mkdir (p : Path) : Action := fun t =>
  if t.node p = none ∧ t.node p.dropLast = some .dir then (.ok (), t.set p .dir)
  else (.error .osError, t)

-- The path is read from its end, as `os.path.split` takes it apart.
def makedirsUp : List Name → Action
  | [], t => (.error .osError, t)
  | name :: up, t =>
    if (t.node up.reverse).isSome then mkdir (up.reverse ++ [name]) t
    else next (makedirsUp up) (fun _ => mkdir (up.reverse ++ [name])) t

def makedirs (p : Path) : Action := makedirsUp p.reverse

-- What is in the directory goes first, also where the directory itself cannot go, as under a name that
-- led through what is gone.
def rmtree (root : Path) (text : Bytes) : Action := fun t =>
  if t.lookup root text = some .dir then
    let p := resolve root text
    let emptied := (t.remove p).set p .dir
    if p = [] ∨ dotted text ∨ emptied.reached root text = false then (.error .osError, emptied)
    else (.ok (), t.remove p)
  else (.error .osError, t)

-- `open(p, "w")`, and what is written then.
def writeFile (p : Path) (contents : Bytes) : Action := fun t =>
  if t.node p.dropLast = some .dir ∧ t.node p ≠ some .dir then (.ok (), t.set p (.file contents))
  else (.error .osError, t)

def writeText (p : Path) (contents : Tree → Bytes) : Action := fun t => writeFile p (contents t) t

def copy (src dst : Path) : Action := fun t =>
  let dst := if t.node dst = some .dir then dst ++ [basename src] else dst
  match t.node src with
  | some (.file contents) => if src = dst then (.error .osError, t) else writeFile dst contents t
  | _ => (.error .osError, t)

-- The source is listed before its copy is made. A copy below one of its own directories never ends,
-- until its paths are too long.
def copytree (src dst : Path) : Action := fun t =>
  if t.node src = some .dir ∧ ¬ (src <+: dst ∧ (t.node (dst.take (src.length + 1))).isSome) then
    next (makedirs dst) (fun _ u => (.ok (), t.copied src dst ++ u)) t
  else (.error .osError, t)

def listdir (p : Path) : Action := fun t =>
  if t.node p = some .dir then (.ok (), t) else (.error .osError, t)

section Succeeding

variable {t : Tree} {p src dst : Path} {contents : Bytes}

/-- The directories of a path are made as far as there are none. -/
def Made (t u : Tree) (p : Path) : Prop :=
  ∀ q, u.node q = if q <+: p ∧ t.node q = none then some .dir else t.node q

theorem mkdir_ok {name : Name} (fresh : t.node (p ++ [name]) = none) (parent : t.node p = some .dir) :
    mkdir (p ++ [name]) t = (.ok (), t.set (p ++ [name]) .dir) := by
  rw [mkdir, List.dropLast_concat, if_pos ⟨fresh, parent⟩]

theorem made_set {name : Name} (closed : t.Closed) (fresh : t.node (p ++ [name]) = none)
    (parent : t.node p = some .dir) : Made t (t.set (p ++ [name]) .dir) (p ++ [name]) := by
  intro q
  rw [Tree.node_set]
  by_cases here : p ++ [name] = q
  · rw [if_pos here, if_pos ⟨here ▸ List.prefix_refl _, here ▸ fresh⟩]
  · have old : ¬ (q <+: p ++ [name] ∧ t.node q = none) := by
      rintro ⟨before, none⟩
      rcases List.prefix_concat_iff.mp before with same | shorter
      · exact here same.symm
      · exact absurd (closed.nothing none shorter) (by simp [parent])
    rw [if_neg here, if_neg old]

theorem Made.dir {u : Tree} (made : Made t u p) (fresh : t.node p = none) : u.node p = some .dir := by
  rw [made, if_pos ⟨List.prefix_refl p, fresh⟩]

theorem Made.still {u : Tree} {name : Name} (made : Made t u p) (fresh : t.node (p ++ [name]) = none) :
    u.node (p ++ [name]) = none := by
  have apart : ¬ p ++ [name] <+: p := fun before => by
    have lengths := before.length_le
    rw [List.length_append, List.length_singleton] at lengths
    omega
  rw [made, if_neg fun both => apart both.1]
  exact fresh

theorem Made.set {u : Tree} {name : Name} (made : Made t u p) (fresh : t.node (p ++ [name]) = none) :
    Made t (u.set (p ++ [name]) .dir) (p ++ [name]) := by
  intro q
  rw [Tree.node_set, made]
  by_cases here : p ++ [name] = q
  · rw [if_pos here, if_pos ⟨here ▸ List.prefix_refl _, here ▸ fresh⟩]
  · rw [if_neg here]
    refine if_congr ?_ rfl rfl
    rw [List.prefix_concat_iff]
    simp [Ne.symm here]

theorem makedirsUp_ok (closed : t.Closed) {up : List Name} (fresh : t.node up.reverse = none)
    (clear : ∀ p, p <+: up.reverse → ∀ c, t.node p ≠ some (.file c)) :
    ∃ u : Tree, makedirsUp up t = (.ok (), u) ∧ u.Closed ∧ Made t u up.reverse := by
  induction up with
  | nil => exact absurd closed.root (by rw [List.reverse_nil] at fresh; simp [fresh])
  | cons name up ih =>
    rw [List.reverse_cons] at fresh clear ⊢
    have below := List.prefix_append up.reverse [name]
    rw [makedirsUp]
    cases there : t.node up.reverse with
    | some n =>
      have parent : t.node up.reverse = some .dir := by
        cases n with
        | dir => exact there
        | file c => exact absurd there (clear _ below c)
      rw [if_pos Option.isSome_some, mkdir_ok fresh parent]
      exact ⟨_, rfl, closed.set parent (.inl rfl), made_set closed fresh parent⟩
    | none =>
      obtain ⟨u, ran, uClosed, made⟩ := ih there fun p before => clear p (before.trans below)
      have parent := made.dir there
      have after : next (makedirsUp up) (fun _ => mkdir (up.reverse ++ [name])) t =
          mkdir (up.reverse ++ [name]) u := bind_ok ran
      rw [if_neg (by simp), after, mkdir_ok (made.still fresh) parent]
      exact ⟨_, rfl, uClosed.set parent (.inl rfl), made.set fresh⟩

theorem makedirs_ok (closed : t.Closed) (fresh : t.node p = none)
    (clear : ∀ q, q <+: p → ∀ c, t.node q ≠ some (.file c)) :
    ∃ u : Tree, makedirs p t = (.ok (), u) ∧ u.Closed ∧ Made t u p := by
  have up := @makedirsUp_ok t closed p.reverse
  rw [List.reverse_reverse] at up
  exact up fresh clear

theorem writeFile_ok {name : Name} (parent : t.node p = some .dir)
    (free : t.node (p ++ [name]) ≠ some .dir) :
    writeFile (p ++ [name]) contents t = (.ok (), t.set (p ++ [name]) (.file contents)) := by
  rw [writeFile, List.dropLast_concat, if_pos ⟨parent, free⟩]

/-- The copy is in its place, and besides it the directories above. -/
def Copied (t u : Tree) (src dst : Path) : Prop :=
  ∀ q, u.node q = if dst <+: q then t.node (src ++ q.drop dst.length)
    else if q <+: dst ∧ t.node q = none then some .dir else t.node q

theorem copied_of_made {u : Tree} (closed : t.Closed) (dir : t.node src = some .dir)
    (fresh : t.node dst = none) (made : Made t u dst) :
    Copied t (t.copied src dst ++ u) src dst := by
  intro q
  rw [Tree.node_append, Tree.node_copied]
  by_cases behind : dst <+: q
  · rw [if_pos behind, if_pos behind]
    cases copied : t.node (src ++ q.drop dst.length) with
    | some n => rfl
    | none =>
      have different : q ≠ dst := by
        rintro rfl
        rw [List.drop_length, List.append_nil, dir] at copied
        cases copied
      have longer : ¬ q <+: dst := fun before => different (before.eq_of_length_le behind.length_le)
      rw [Option.none_or, made, if_neg fun both => longer both.1]
      exact closed.nothing fresh behind
  · rw [if_neg behind, if_neg behind, Option.none_or, made]

theorem Copied.closed {u v : Tree} (copied : Copied t v src dst) (closed : t.Closed) (uClosed : u.Closed)
    (fresh : t.node dst = none) (clear : ∀ q, q <+: dst → ∀ c, t.node q ≠ some (.file c))
    (made : Made t u dst) : v.Closed := by
  refine ⟨?_, fun q name n there => ?_⟩
  · rw [copied, if_neg fun root => ?_, if_neg fun both => ?_]
    · exact closed.root
    · exact absurd both.2 (by simp [closed.root])
    · rw [List.prefix_nil.mp root, closed.root] at fresh
      cases fresh
  · rw [copied] at there ⊢
    by_cases behind : dst <+: q
    · rw [if_pos (behind.trans (List.prefix_append _ _)),
        List.drop_append_of_le_length behind.length_le, ← List.append_assoc] at there
      rw [if_pos behind]
      exact closed.parent _ name n there
    · rw [if_neg behind]
      by_cases here : dst = q ++ [name]
      · have before : q <+: dst := here ▸ List.prefix_append _ _
        by_cases none : t.node q = none
        · rw [if_pos ⟨before, none⟩]
        · rw [if_neg fun both => none both.2]
          cases old : t.node q with
          | none => exact absurd old none
          | some m =>
            cases m with
            | dir => rfl
            | file c => exact absurd old (clear q before c)
      · have outside : ¬ dst <+: q ++ [name] := fun before => by
          rcases List.prefix_concat_iff.mp before with same | shorter
          · exact here same
          · exact behind shorter
        rw [if_neg outside] at there
        have up := uClosed.parent q name n (by rw [made]; exact there)
        rwa [made] at up

theorem copytree_ok (closed : t.Closed) (dir : t.node src = some .dir) (outside : ¬ src <+: dst)
    (fresh : t.node dst = none) (clear : ∀ q, q <+: dst → ∀ c, t.node q ≠ some (.file c)) :
    ∃ u : Tree, copytree src dst t = (.ok (), u) ∧ u.Closed ∧ Copied t u src dst := by
  obtain ⟨u, ran, uClosed, made⟩ := makedirs_ok closed fresh clear
  have done : copytree src dst t = (.ok (), t.copied src dst ++ u) := by
    rw [copytree, if_pos ⟨dir, fun both => outside both.1⟩]
    exact bind_ok ran
  have copied := copied_of_made closed dir fresh made
  exact ⟨_, done, copied.closed closed uClosed fresh clear made, copied⟩

end Succeeding

section Failing

variable {t : Tree} {p q src dst : Path}

def Fails (attempt : Action) (t : Tree) : Prop := ∃ e u, attempt t = (.error e, u)

theorem Fails.next {first : Action} {rest : Unit → Action} (failed : Fails first t) :
    Fails (Attempt.next first rest) t := by
  obtain ⟨e, u, failed⟩ := failed
  exact ⟨e, u, bind_error failed⟩

theorem mkdir_fails (taken : ¬ (t.node p = none ∧ t.node p.dropLast = some .dir)) :
    Fails (mkdir p) t :=
  ⟨_, _, if_neg taken⟩

theorem makedirs_taken (closed : t.Closed) (taken : t.node p ≠ none) : Fails (makedirs p) t := by
  rcases List.eq_nil_or_concat p with rfl | ⟨up, name, rfl⟩
  · exact ⟨_, _, rfl⟩
  · rw [List.concat_eq_append] at taken ⊢
    obtain ⟨n, there⟩ := Option.ne_none_iff_exists'.mp taken
    have parent := closed.parent up name n there
    have failed : Fails (mkdir (up ++ [name])) t := mkdir_fails fun both => taken both.1
    have ran : makedirs (up ++ [name]) t = mkdir (up ++ [name]) t := by
      rw [makedirs, List.reverse_append, List.reverse_singleton, List.singleton_append, makedirsUp,
        List.reverse_reverse, if_pos (by simp [parent])]
    obtain ⟨e, u, failed⟩ := failed
    exact ⟨e, u, ran.trans failed⟩

theorem makedirsUp_file (closed : t.Closed) {up : List Name} {c : Bytes} (before : q <+: up.reverse)
    (file : t.node q = some (.file c)) : Fails (makedirsUp up) t := by
  induction up with
  | nil => exact ⟨_, _, rfl⟩
  | cons name up ih =>
    rw [List.reverse_cons] at before
    by_cases there : (t.node up.reverse).isSome
    · have failed : Fails (mkdir (up.reverse ++ [name])) t := by
        refine mkdir_fails fun both => ?_
        rw [List.dropLast_concat] at both
        rcases List.prefix_concat_iff.mp before with rfl | shorter
        · rw [both.1] at file
          cases file
        · by_cases same : q = up.reverse
          · rw [same, both.2] at file
            cases file
          · rw [closed.above both.2 shorter same] at file
            cases file
      obtain ⟨e, u, failed⟩ := failed
      exact ⟨e, u, by rw [makedirsUp, if_pos there, failed]⟩
    · have shorter : q <+: up.reverse := by
        rcases List.prefix_concat_iff.mp before with rfl | shorter
        · have parent := closed.parent _ _ _ file
          rw [parent] at there
          exact absurd rfl there
        · exact shorter
      have failed : Fails (next (makedirsUp up) fun _ => mkdir (up.reverse ++ [name])) t :=
        (ih shorter).next
      obtain ⟨e, u, failed⟩ := failed
      exact ⟨e, u, by rw [makedirsUp, if_neg there, failed]⟩

theorem makedirs_raises {up : List Name} {e : Failure} {u : Tree}
    (failed : makedirsUp up t = (.error e, u)) : e = .osError := by
  induction up generalizing u with
  | nil => exact (Except.error.inj (congrArg Prod.fst failed)).symm
  | cons name up ih =>
    have made : ∀ {s : Tree}, mkdir (up.reverse ++ [name]) s = (.error e, u) → e = .osError := by
      intro s failed
      rw [mkdir] at failed
      split at failed
      · cases failed
      · exact (Except.error.inj (congrArg Prod.fst failed)).symm
    rw [makedirsUp] at failed
    split at failed
    · exact made failed
    · cases ran : makedirsUp up t with
      | mk result v =>
        cases result with
        | error f =>
          rw [next, ran] at failed
          cases failed
          exact ih ran
        | ok done =>
          rw [next, ran] at failed
          exact made failed

theorem makedirs_fails (closed : t.Closed)
    (blocked : t.node p ≠ none ∨ ∃ q c, q <+: p ∧ t.node q = some (.file c)) : Fails (makedirs p) t := by
  rcases blocked with taken | ⟨q, c, before, file⟩
  · exact makedirs_taken closed taken
  · exact makedirsUp_file closed (by rwa [List.reverse_reverse]) file

theorem writeFile_fails {contents : Bytes} (noParent : t.node p.dropLast ≠ some .dir) :
    Fails (writeFile p contents) t :=
  ⟨_, _, if_neg fun both => noParent both.1⟩

end Failing

end VirtueSensing.FileTree
