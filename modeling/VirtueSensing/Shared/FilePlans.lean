import VirtueSensing.Shared.JoinedPaths

set_option autoImplicit false

/-!
# Plans of file operations

A plan makes some directories anew and fills them. It goes through, and leaves in them what it put there
and nothing else, when every step finds its place free and its directory made.
-/

namespace VirtueSensing.FileTree

inductive Expected where
  | dir
  | file (contents : Bytes)
  | text
  deriving DecidableEq, Repr

def Expected.Meets : Expected → Option Node → Prop
  | .dir, n => n = some .dir
  | .file contents, n => n = some (.file contents)
  | .text, n => ∃ contents, n = some (.file contents)

def Node.expected : Node → Expected
  | .dir => .dir
  | .file contents => .file contents

abbrev Entry := Path × Expected

inductive Contents where
  | fixed (contents : Bytes)
  | made (contents : Tree → Bytes)

def Contents.of : Contents → Tree → Bytes
  | .fixed contents, _ => contents
  | .made contents, t => contents t

def Contents.expected : Contents → Expected
  | .fixed contents => .file contents
  | .made _ => .text

inductive Step where
  | fresh (root : Path) (text : Bytes)
  | makedirs (p : Path)
  | copy (src dst : Path)
  | copytree (src dst : Path)
  | listdir (p : Path)
  | write (root : Path) (text : Bytes) (name : Name) (contents : Contents)

-- A directory is removed if it is there, and made, by its joined path.
def fresh (root : Path) (text : Bytes) : Action := fun t =>
  if (t.lookup root text).isSome then
    Attempt.next (rmtree root text) (fun _ => makedirsJoined (start root text) (written text)) t
  else makedirsJoined (start root text) (written text) t

def write (root : Path) (text : Bytes) (name : Name) (contents : Contents) : Action := fun t =>
  if t.lookup root text = some .dir then
    writeFile (resolve root text ++ [name]) (contents.of t) t
  else (.error .osError, t)

def exec : Step → Action
  | .fresh root text => fresh root text
  | .makedirs p => makedirs p
  | .copy src dst => copy src dst
  | .copytree src dst => copytree src dst
  | .listdir p => listdir p
  | .write root text name contents => write root text name contents

def run : List Step → Action
  | [], t => (.ok (), t)
  | step :: rest, t => Attempt.next (exec step) (fun _ => run rest) t

def Under (dirs : List Path) (p : Path) : Prop := ∃ d ∈ dirs, d <+: p

instance (dirs : List Path) (p : Path) : Decidable (Under dirs p) :=
  inferInstanceAs (Decidable (∃ d ∈ dirs, d <+: p))

def isDirIn (made : List Entry) (p : Path) : Bool :=
  made.any fun e => decide (p <+: e.1) && (decide (e.1 ≠ p) || decide (e.2 = .dir))

-- A copy into a directory keeps its name.
def landing (made : List Entry) (src dst : Path) : Path :=
  if isDirIn made dst then dst ++ [basename src] else dst

def contentsAt (base : Tree) (p : Path) : List Expected :=
  ((base.node p).map Node.expected).toList

def entries (base : Tree) (made : List Entry) : Step → List Entry
  | .fresh root text => [(resolve root text, .dir)]
  | .makedirs p => [(p, .dir)]
  | .copy src dst => (contentsAt base src).map fun c => (landing made src dst, c)
  | .copytree src dst => (base.below src).map fun e => (dst ++ e.1, e.2.expected)
  | .listdir _ => []
  | .write root text name contents => [(resolve root text ++ [name], contents.expected)]

def folders : Step → List Path
  | .fresh root text => [resolve root text]
  | _ => []

def foldersOf : List Path → List Step → List Path
  | dirs, [] => dirs
  | dirs, step :: rest => foldersOf (folders step ++ dirs) rest

def outcome (base : Tree) : List Entry → List Step → List Entry
  | made, [] => made
  | made, step :: rest => outcome base (made ++ entries base made step) rest

-- Nothing is at the path or in it, and nothing above it is a file.
def Vacant (made : List Entry) (p : Path) : Prop :=
  ∀ e ∈ made, ¬ p <+: e.1 ∧ (e.1 <+: p → e.2 = .dir)

def Absent (base : Tree) (dirs : List Path) (made : List Entry) (p : Path) : Prop :=
  (∀ e ∈ made, ¬ p <+: e.1) ∧ (Under dirs p ∨ base.node p = none)

def DirAt (base : Tree) (dirs : List Path) (made : List Entry) (p : Path) : Prop :=
  if Under dirs p then isDirIn made p = true else base.node p = some .dir ∨ ∃ d ∈ dirs, p <+: d

-- A file may be put where there is none, or the same.
def Free (made : List Entry) (p : Path) (expected : Expected) : Prop :=
  ∀ e ∈ made, p <+: e.1 → e = (p, expected)

def Sourced (base : Tree) : Step → Prop
  | .copy src _ => base.HasFile src
  | .copytree src _ => base.node src = some .dir
  | _ => True

-- What is put is put into the directories of the plan, from outside, and over nothing else. The name of
-- such a directory goes nowhere up, or what it goes through is made too.
def Placed (base : Tree) (dirs : List Path) (made : List Entry) : Step → Prop
  | .fresh root text =>
    let p := resolve root text
    p ≠ [] ∧ ascii ".." ∉ parts text ∧ ∀ e ∈ made, p <+: e.1 → e = (p, .dir)
  | .makedirs p => Under dirs p
  | .copy src dst =>
    Under dirs dst ∧ ¬ Under dirs src ∧ ∀ c ∈ contentsAt base src, Free made (landing made src dst) c
  | .copytree src dst => Under dirs dst ∧ ∀ d ∈ dirs, Apart d src
  | .listdir p => Under dirs p
  | .write root text name contents =>
    let p := resolve root text
    Under dirs p ∧ Free made (p ++ [name]) contents.expected

-- A new directory is not there yet, nor a file above it, and any other place has its directory.
def Possible (base : Tree) (dirs : List Path) (made : List Entry) : Step → Prop
  | .fresh root text =>
    let p := resolve root text
    (∀ e ∈ made, e.1 <+: p → e.2 = .dir) ∧
      (∀ q ∈ p.inits, Under dirs q ∨ base.node q = none ∨ base.node q = some .dir) ∧
      (Absent base dirs made p ∨ (¬ dotted text ∧ ∀ q ∈ stops root text, DirAt base dirs made q))
  | .makedirs p => Vacant made p
  | .copy src dst => isDirIn made (landing made src dst).dropLast
  | .copytree _ dst => Vacant made dst
  | .listdir p => isDirIn made p
  | .write root text _ _ =>
    isDirIn made (resolve root text) ∧ ∀ q ∈ stops root text, DirAt base dirs made q

/-- Of each step, after what the steps before it have made. -/
def Along (base : Tree) (holds : List Path → List Entry → Step → Prop) :
    List Path → List Entry → List Step → Prop
  | _, _, [] => True
  | dirs, made, step :: rest =>
    holds dirs made step ∧
      Along base holds (folders step ++ dirs) (made ++ entries base made step) rest

def Laid (base : Tree) (steps : List Step) : Prop := Along base (Placed base) [] [] steps

def Orderly (base : Tree) (steps : List Step) : Prop := Along base (Possible base) [] [] steps

instance (made : List Entry) (p : Path) : Decidable (Vacant made p) :=
  inferInstanceAs (Decidable (∀ e ∈ made, ¬ p <+: e.1 ∧ (e.1 <+: p → e.2 = .dir)))

instance (base : Tree) (dirs : List Path) (made : List Entry) (p : Path) :
    Decidable (Absent base dirs made p) :=
  inferInstanceAs (Decidable ((∀ e ∈ made, ¬ p <+: e.1) ∧ (Under dirs p ∨ base.node p = none)))

instance (base : Tree) (dirs : List Path) (made : List Entry) (p : Path) :
    Decidable (DirAt base dirs made p) :=
  inferInstanceAs (Decidable (if Under dirs p then isDirIn made p = true
    else base.node p = some .dir ∨ ∃ d ∈ dirs, p <+: d))

instance (made : List Entry) (p : Path) (expected : Expected) : Decidable (Free made p expected) :=
  inferInstanceAs (Decidable (∀ e ∈ made, p <+: e.1 → e = (p, expected)))

instance (base : Tree) (dirs : List Path) (made : List Entry) :
    (step : Step) → Decidable (Placed base dirs made step)
  | .fresh _ _ => inferInstanceAs (Decidable (_ ∧ _ ∧ _))
  | .makedirs p => inferInstanceAs (Decidable (Under dirs p))
  | .copy _ _ => inferInstanceAs (Decidable (_ ∧ _ ∧ _))
  | .copytree _ _ => inferInstanceAs (Decidable (_ ∧ _))
  | .listdir p => inferInstanceAs (Decidable (Under dirs p))
  | .write _ _ _ _ => inferInstanceAs (Decidable (_ ∧ _))

instance (base : Tree) (dirs : List Path) (made : List Entry) :
    (step : Step) → Decidable (Possible base dirs made step)
  | .fresh _ _ => inferInstanceAs (Decidable (_ ∧ _ ∧ _))
  | .makedirs p => inferInstanceAs (Decidable (Vacant made p))
  | .copy _ _ => inferInstanceAs (Decidable (_ = true))
  | .copytree _ dst => inferInstanceAs (Decidable (Vacant made dst))
  | .listdir _ => inferInstanceAs (Decidable (_ = true))
  | .write _ _ _ _ => inferInstanceAs (Decidable (_ ∧ _))

instance Along.decide (base : Tree) {holds : List Path → List Entry → Step → Prop}
    [decideHolds : ∀ dirs made step, Decidable (holds dirs made step)] (dirs : List Path)
    (made : List Entry) : (steps : List Step) → Decidable (Along base holds dirs made steps)
  | [] => isTrue trivial
  | step :: rest =>
    have := @Along.decide base holds decideHolds (folders step ++ dirs) (made ++ entries base made step)
      rest
    inferInstanceAs (Decidable (_ ∧ _))

instance (base : Tree) (steps : List Step) : Decidable (Laid base steps) :=
  Along.decide base [] [] steps

instance (base : Tree) (steps : List Step) : Decidable (Orderly base steps) :=
  Along.decide base [] [] steps

structure Built (base : Tree) (dirs : List Path) (made : List Entry) (t : Tree) : Prop where
  closed : t.Closed
  inside : ∀ e ∈ made, Under dirs e.1
  roots : ∀ d ∈ dirs, (d, .dir) ∈ made
  entry : ∀ e ∈ made, e.2.Meets (t.node e.1)
  nothing : ∀ p, Under dirs p → (∀ e ∈ made, ¬ p <+: e.1) → t.node p = none
  other : ∀ p, ¬ Under dirs p →
    t.node p = if base.node p = none ∧ ∃ d ∈ dirs, p <+: d then some .dir else base.node p

theorem built_base {base : Tree} (closed : base.Closed) : Built base [] [] base where
  closed := closed
  inside := fun _ member => absurd member List.not_mem_nil
  roots := fun _ member => absurd member List.not_mem_nil
  entry := fun _ member => absurd member List.not_mem_nil
  nothing := fun _ ⟨_, member, _⟩ => absurd member List.not_mem_nil
  other := fun p _ => by simp

theorem Expected.Meets.some {expected : Expected} {n : Option Node} (meets : expected.Meets n) :
    ∃ m, n = some m := by
  cases expected with
  | dir => exact ⟨_, meets⟩
  | file contents => exact ⟨_, meets⟩
  | text => exact ⟨_, meets.choose_spec⟩

theorem Expected.meets_dir {expected : Expected} (meets : expected.Meets (some .dir)) :
    expected = .dir := by
  cases expected with
  | dir => rfl
  | file contents => cases meets
  | text => exact absurd meets.choose_spec (by simp)

theorem Node.meets_expected (n : Node) : n.expected.Meets (some n) := by
  cases n <;> rfl

theorem Contents.meets_expected (contents : Contents) (t : Tree) :
    contents.expected.Meets (some (.file (contents.of t))) := by
  cases contents with
  | fixed contents => rfl
  | made contents => exact ⟨_, rfl⟩

theorem Under.mono {dirs : List Path} {p q : Path} (under : Under dirs p) (before : p <+: q) :
    Under dirs q := by
  obtain ⟨d, member, first⟩ := under
  exact ⟨d, member, first.trans before⟩

section

variable {base t : Tree} {dirs : List Path} {made : List Entry} {p q : Path}

namespace Built

variable (built : Built base dirs made t)
include built

theorem dir_of_isDirIn (dir : isDirIn made p) : t.node p = some .dir := by
  obtain ⟨e, member, before⟩ := List.any_eq_true.mp dir
  simp only [Bool.and_eq_true, Bool.or_eq_true, decide_eq_true_eq] at before
  obtain ⟨before, strict⟩ := before
  have meets := built.entry e member
  by_cases same : e.1 = p
  · rcases strict with strict | dir
    · exact absurd same strict
    · rw [dir, same] at meets
      exact meets
  · obtain ⟨n, there⟩ := meets.some
    exact built.closed.above there before (Ne.symm same)

theorem at_or_below {n : Node} (under : Under dirs p) (there : t.node p = some n) :
    ∃ e ∈ made, p <+: e.1 := by
  by_contra nowhere
  have absent := built.nothing p under fun e member before => nowhere ⟨e, member, before⟩
  rw [absent] at there
  cases there

theorem isDirIn_of_dir (under : Under dirs p) (dir : t.node p = some .dir) : isDirIn made p := by
  obtain ⟨e, member, before⟩ := built.at_or_below under dir
  refine List.any_eq_true.mpr ⟨e, member, ?_⟩
  simp only [Bool.and_eq_true, Bool.or_eq_true, decide_eq_true_eq]
  refine ⟨before, ?_⟩
  by_cases same : e.1 = p
  · refine .inr ?_
    have meets := built.entry e member
    rw [same, dir] at meets
    exact Expected.meets_dir meets
  · exact .inl same

theorem isDirIn_iff (under : Under dirs p) : isDirIn made p = true ↔ t.node p = some .dir :=
  ⟨built.dir_of_isDirIn, built.isDirIn_of_dir under⟩

theorem dir_of_mem {d : Path} (member : d ∈ dirs) : t.node d = some .dir :=
  built.entry (d, .dir) (built.roots d member)

theorem dir_above (under : Under dirs q) (outside : ¬ Under dirs p) (before : p <+: q) :
    t.node p = some .dir := by
  obtain ⟨d, member, first⟩ := under
  rcases List.prefix_or_prefix_of_prefix before first with shorter | longer
  · by_cases same : p = d
    · exact absurd ⟨d, member, same ▸ List.prefix_refl d⟩ outside
    · exact built.closed.above (built.dir_of_mem member) shorter same
  · exact absurd ⟨d, member, longer⟩ outside

theorem dir_of_dirAt (dirAt : DirAt base dirs made p) : t.node p = some .dir := by
  unfold DirAt at dirAt
  split at dirAt
  · exact built.dir_of_isDirIn dirAt
  · next outside =>
    rcases dirAt with dir | ⟨d, member, before⟩
    · rw [built.other p outside, dir, if_neg (by simp)]
    · exact built.dir_above ⟨d, member, List.prefix_refl d⟩ outside before

theorem none_of_absent (absent : Absent base dirs made p) : t.node p = none := by
  by_cases under : Under dirs p
  · exact built.nothing p under absent.1
  · rcases absent.2 with there | none
    · exact absurd there under
    · rw [built.other p under, none, if_neg]
      rintro ⟨-, d, member, before⟩
      exact absent.1 _ (built.roots d member) before

theorem reached {root : Path} {text : Bytes} (dirs_at : ∀ q ∈ stops root text, DirAt base dirs made q) :
    t.reached root text := by
  refine List.all_eq_true.mpr fun q member => decide_eq_true ?_
  exact built.dir_of_dirAt (dirs_at q member)

/-! One step -/

-- A directory may be made where nothing is planned, also with those above it.
theorem dirs_made {u : Tree} (closed : u.Closed) (nodes : Made t u p) (under : Under dirs p)
    (vacant : Vacant made p) : Built base dirs (made ++ [(p, .dir)]) u := by
  have fresh : t.node p = none := built.nothing p under fun e member => (vacant e member).1
  constructor
  · exact closed
  · intro e member
    rcases List.mem_append.mp member with old | new
    · exact built.inside e old
    · rw [List.mem_singleton.mp new]
      exact under
  · exact fun d member => List.mem_append_left _ (built.roots d member)
  · intro e member
    rcases List.mem_append.mp member with old | new
    · have meets := built.entry e old
      obtain ⟨n, there⟩ := meets.some
      rwa [nodes, if_neg (by simp [there])]
    · rw [List.mem_singleton.mp new]
      exact (nodes p).trans (if_pos ⟨List.prefix_refl p, fresh⟩)
  · intro q inside nowhere
    have outside := nowhere _ (List.mem_append_right _ (List.mem_singleton_self _))
    rw [nodes, if_neg fun both => outside both.1]
    exact built.nothing q inside fun e member => nowhere e (List.mem_append_left _ member)
  · intro q outside
    rw [← built.other q outside, nodes, if_neg]
    rintro ⟨before, none⟩
    rw [built.dir_above under outside before] at none
    cases none

theorem not_file {c : Bytes} (free : ∀ e ∈ made, e.1 <+: p → e.2 = .dir) (before : q <+: p)
    (inside : Under dirs q) : t.node q ≠ some (.file c) := by
  intro file
  obtain ⟨e, member, behind⟩ := built.at_or_below inside file
  have meets := built.entry e member
  have there : t.node q = some .dir := by
    by_cases same : q = e.1
    · rw [free e member (same ▸ before), ← same] at meets
      exact meets
    · obtain ⟨n, below⟩ := meets.some
      exact built.closed.above below behind same
  rw [there] at file
  cases file

theorem clear_of_vacant (under : Under dirs p) (vacant : Vacant made p) :
    ∀ q, q <+: p → ∀ c, t.node q ≠ some (.file c) := by
  intro q before c
  by_cases inside : Under dirs q
  · exact built.not_file (fun e member => (vacant e member).2) before inside
  · rw [built.dir_above under inside before]
    simp

theorem makedirs_built (under : Under dirs p) (vacant : Vacant made p) :
    ∃ u : Tree, makedirs p t = (.ok (), u) ∧ Built base dirs (made ++ [(p, .dir)]) u := by
  have fresh : t.node p = none := built.nothing p under fun e member => (vacant e member).1
  have clear := built.clear_of_vacant under vacant
  obtain ⟨u, ran, closed, nodes⟩ := makedirs_ok built.closed fresh clear
  exact ⟨u, ran, built.dirs_made closed nodes under vacant⟩

theorem writeFile_built {name : Name} {c : Bytes} {expected : Expected}
    (under : Under dirs (p ++ [name])) (parent : t.node p = some .dir)
    (free : Free made (p ++ [name]) expected) (meets : expected.Meets (some (.file c))) :
    ∃ u : Tree, writeFile (p ++ [name]) c t = (.ok (), u) ∧
      Built base dirs (made ++ [(p ++ [name], expected)]) u := by
  have noDir : t.node (p ++ [name]) ≠ some .dir := by
    intro dir
    obtain ⟨e, member, behind⟩ := built.at_or_below under dir
    have met := built.entry e member
    rw [free e member behind, dir] at met
    have kind : expected = .dir := Expected.meets_dir met
    rw [kind] at meets
    cases meets
  refine ⟨_, writeFile_ok parent noDir, built.closed.set parent (.inr noDir), ?_, ?_, ?_, ?_, ?_⟩
  · intro e member
    rcases List.mem_append.mp member with old | new
    · exact built.inside e old
    · rw [List.mem_singleton.mp new]
      exact under
  · exact fun d member => List.mem_append_left _ (built.roots d member)
  · intro e member
    rw [Tree.node_set]
    split
    · next here =>
      rcases List.mem_append.mp member with old | new
      · rw [free e old (here ▸ List.prefix_refl _)]
        exact meets
      · rw [List.mem_singleton.mp new]
        exact meets
    · next elsewhere =>
      rcases List.mem_append.mp member with old | new
      · exact built.entry e old
      · rw [List.mem_singleton.mp new] at elsewhere
        exact absurd rfl elsewhere
  · intro q inside nowhere
    have elsewhere : p ++ [name] ≠ q := by
      rintro rfl
      exact nowhere _ (List.mem_append_right _ (List.mem_singleton_self _)) (List.prefix_refl _)
    rw [Tree.node_set, if_neg elsewhere]
    exact built.nothing q inside fun e member => nowhere e (List.mem_append_left _ member)
  · intro q outside
    have elsewhere : p ++ [name] ≠ q := by
      rintro rfl
      exact outside under
    rw [Tree.node_set, if_neg elsewhere]
    exact built.other q outside

theorem base_node {src r : Path} (apart : ∀ d ∈ dirs, Apart d src) :
    t.node (src ++ r) = base.node (src ++ r) := by
  have below := List.prefix_append src r
  have outside : ¬ Under dirs (src ++ r) := by
    rintro ⟨d, member, before⟩
    rcases List.prefix_or_prefix_of_prefix before below with first | second
    · exact (apart d member).1 first
    · exact (apart d member).2 second
  rw [built.other _ outside, if_neg]
  rintro ⟨-, d, member, before⟩
  exact (apart d member).2 (below.trans before)

theorem copytree_built {src dst : Path} (under : Under dirs dst) (apart : ∀ d ∈ dirs, Apart d src)
    (vacant : Vacant made dst) (source : base.node src = some .dir) :
    ∃ u : Tree, copytree src dst t = (.ok (), u) ∧
      Built base dirs (made ++ entries base made (.copytree src dst)) u := by
  have fresh : t.node dst = none := built.nothing dst under fun e member => (vacant e member).1
  have outside : ¬ src <+: dst := by
    intro before
    obtain ⟨d, member, first⟩ := under
    rcases List.prefix_or_prefix_of_prefix before first with shorter | longer
    · exact (apart d member).2 shorter
    · exact (apart d member).1 longer
  have same : ∀ r, t.node (src ++ r) = base.node (src ++ r) := fun r => built.base_node apart
  have dir : t.node src = some .dir := by
    have top := same []
    rwa [List.append_nil, source] at top
  obtain ⟨u, ran, closed, nodes⟩ :=
    copytree_ok built.closed dir outside fresh (built.clear_of_vacant under vacant)
  have copied : ∀ e ∈ entries base made (.copytree src dst), ∃ r n, e = (dst ++ r, n.expected) ∧
      base.node (src ++ r) = some n := by
    intro e member
    obtain ⟨⟨r, n⟩, found, rfl⟩ := List.mem_map.mp member
    exact ⟨r, n, rfl, Tree.mem_below.mp found⟩
  have all : ∀ r n, base.node (src ++ r) = some n →
      (dst ++ r, n.expected) ∈ entries base made (.copytree src dst) := fun r n there =>
    List.mem_map.mpr ⟨(r, n), Tree.mem_below.mpr there, rfl⟩
  have top : (dst, Expected.dir) ∈ entries base made (.copytree src dst) := by
    have here := all [] .dir (by rwa [List.append_nil])
    rwa [List.append_nil] at here
  refine ⟨u, ran, closed, ?_, ?_, ?_, ?_, ?_⟩
  · intro e member
    rcases List.mem_append.mp member with old | new
    · exact built.inside e old
    · obtain ⟨r, n, rfl, -⟩ := copied e new
      exact under.mono (List.prefix_append _ _)
  · exact fun d member => List.mem_append_left _ (built.roots d member)
  · intro e member
    rcases List.mem_append.mp member with old | new
    · have meets := built.entry e old
      obtain ⟨n, there⟩ := meets.some
      rwa [nodes, if_neg (vacant e old).1, if_neg (by simp [there])]
    · obtain ⟨r, n, rfl, there⟩ := copied e new
      rw [nodes, if_pos (List.prefix_append _ _), List.drop_left, same, there]
      exact n.meets_expected
  · intro q inside nowhere
    rw [nodes]
    by_cases behind : dst <+: q
    · obtain ⟨r, rfl⟩ := behind
      rw [if_pos (List.prefix_append _ _), List.drop_left, same]
      cases there : base.node (src ++ r) with
      | none => rfl
      | some n =>
        exact absurd (List.prefix_refl _) (nowhere _ (List.mem_append_right _ (all r n there)))
    · have above := nowhere _ (List.mem_append_right _ top)
      rw [if_neg behind, if_neg fun both => above both.1]
      exact built.nothing q inside fun e member => nowhere e (List.mem_append_left _ member)
  · intro q beyond
    rw [nodes, if_neg fun behind => beyond (under.mono behind), ← built.other q beyond, if_neg]
    rintro ⟨before, none⟩
    rw [built.dir_above under beyond before] at none
    cases none

-- A directory is added to the plan where nothing is left at it or in it.
theorem root_made {s u : Tree} (closed : u.Closed)
    (left : ∀ q, s.node q = if p <+: q then none else t.node q) (nodes : Made s u p)
    (bare : ∀ e ∈ made, p <+: e.1 → e = (p, .dir)) :
    Built base (p :: dirs) (made ++ [(p, .dir)]) u := by
  have gone : s.node p = none := by rw [left, if_pos (List.prefix_refl p)]
  have here : u.node p = some .dir := by rw [nodes, if_pos ⟨List.prefix_refl p, gone⟩]
  constructor
  · exact closed
  · intro e member
    rcases List.mem_append.mp member with old | new
    · obtain ⟨d, listed, before⟩ := built.inside e old
      exact ⟨d, List.mem_cons_of_mem _ listed, before⟩
    · rw [List.mem_singleton.mp new]
      exact ⟨p, List.mem_cons_self, List.prefix_refl p⟩
  · intro d member
    rcases List.mem_cons.mp member with rfl | old
    · exact List.mem_append_right _ (List.mem_singleton_self _)
    · exact List.mem_append_left _ (built.roots d old)
  · intro e member
    rcases List.mem_append.mp member with old | new
    · by_cases behind : p <+: e.1
      · rw [bare e old behind]
        exact here
      · have meets := built.entry e old
        obtain ⟨n, there⟩ := meets.some
        have kept : s.node e.1 = some n := by rw [left, if_neg behind, there]
        rwa [nodes, if_neg (by simp [kept]), kept, ← there]
    · rw [List.mem_singleton.mp new]
      exact here
  · intro q inside nowhere
    have above := nowhere _ (List.mem_append_right _ (List.mem_singleton_self _))
    rw [nodes, if_neg fun both => above both.1, left]
    split
    · rfl
    · next beyond =>
      obtain ⟨d, member, before⟩ := inside
      rcases List.mem_cons.mp member with rfl | old
      · exact absurd before beyond
      · exact built.nothing q ⟨d, old, before⟩ fun e member => nowhere e (List.mem_append_left _ member)
  · intro q outside
    have beyond : ¬ p <+: q := fun behind => outside ⟨p, List.mem_cons_self, behind⟩
    have before : ¬ Under dirs q := by
      rintro ⟨d, member, first⟩
      exact outside ⟨d, List.mem_cons_of_mem _ member, first⟩
    have old := built.other q before
    rw [nodes, left, if_neg beyond, old]
    simp only [List.mem_cons, exists_eq_or_imp]
    by_cases none : base.node q = none
    · by_cases within : ∃ d ∈ dirs, q <+: d
      · simp [none, within]
      · simp [none, within]
    · simp [none]

theorem clear_of_possible {root : Path} {text : Bytes}
    (possible : Possible base dirs made (.fresh root text)) :
    ∀ q, q <+: resolve root text → ∀ c, t.node q ≠ some (.file c) := by
  obtain ⟨dirsAbove, aboves, -⟩ := possible
  intro q before c
  by_cases inside : Under dirs q
  · exact built.not_file dirsAbove before inside
  · rw [built.other q inside]
    split
    · simp
    · rcases aboves q ((List.mem_inits _ _).mpr before) with under | none | dir
      · exact absurd under inside
      · simp [none]
      · simp [dir]

theorem remade_built {root : Path} {text : Bytes} {s : Tree} (closed : s.Closed)
    (left : ∀ q, s.node q = if resolve root text <+: q then none else t.node q)
    (placed : Placed base dirs made (.fresh root text))
    (possible : Possible base dirs made (.fresh root text)) :
    ∃ u : Tree, makedirsJoined (start root text) (written text) s = (.ok (), u) ∧
      Built base (resolve root text :: dirs) (made ++ [(resolve root text, .dir)]) u := by
  have gone : s.node (resolve root text) = none := by rw [left, if_pos (List.prefix_refl _)]
  have clear : ∀ q, q <+: resolve root text → ∀ c, s.node q ≠ some (.file c) := by
    intro q before c
    rw [left]
    split
    · simp
    · exact built.clear_of_possible possible q before c
  obtain ⟨-, down, bare⟩ := placed
  have made := resolve_written root text
  rw [made] at gone clear
  obtain ⟨u, ran, uClosed, nodes⟩ := makedirsJoined_ok closed (written_downward down) gone clear
  exact ⟨u, ran, built.root_made uClosed left (made ▸ nodes) bare⟩

theorem fresh_built {root : Path} {text : Bytes} (placed : Placed base dirs made (.fresh root text))
    (possible : Possible base dirs made (.fresh root text)) :
    ∃ u : Tree, fresh root text t = (.ok (), u) ∧
      Built base (resolve root text :: dirs) (made ++ [(resolve root text, .dir)]) u := by
  by_cases absent : t.node (resolve root text) = none
  · have unseen : t.lookup root text = none := by
      rw [Tree.lookup]
      split
      · exact absent
      · rfl
    have left : ∀ q, t.node q = if resolve root text <+: q then none else t.node q := by
      intro q
      split
      · next behind => exact built.closed.nothing absent behind
      · rfl
    obtain ⟨u, ran, after⟩ := built.remade_built built.closed left placed possible
    refine ⟨u, ?_, after⟩
    rw [fresh, unseen]
    exact ran
  · have passable : ¬ dotted text = true ∧ ∀ q ∈ stops root text, DirAt base dirs made q :=
      possible.2.2.resolve_left fun nowhere => absent (built.none_of_absent nowhere)
    have dir : t.node (resolve root text) = some .dir := by
      cases there : t.node (resolve root text) with
      | none => exact absurd there absent
      | some n =>
        cases n with
        | dir => rfl
        | file c => exact absurd there (built.clear_of_possible possible _ (List.prefix_refl _) c)
    have seen : t.lookup root text = some .dir := by
      rw [Tree.lookup, if_pos (built.reached passable.2), dir]
    have removed : rmtree root text t = (.ok (), t.remove (resolve root text)) := by
      have found := reached_emptied placed.2.1 (built.reached passable.2)
      rw [rmtree, if_pos seen]
      exact if_neg (not_or.mpr ⟨placed.1, not_or.mpr ⟨passable.1, by simp [found]⟩⟩)
    obtain ⟨u, ran, after⟩ := built.remade_built (built.closed.remove placed.1)
      (fun q => Tree.node_remove) placed possible
    refine ⟨u, ?_, after⟩
    rw [fresh, if_pos (by rw [seen]; rfl)]
    exact (Attempt.bind_ok removed).trans ran

theorem copy_built {src dst : Path} (placed : Placed base dirs made (.copy src dst))
    (possible : Possible base dirs made (.copy src dst)) (source : Sourced base (.copy src dst)) :
    ∃ u : Tree, copy src dst t = (.ok (), u) ∧
      Built base dirs (made ++ entries base made (.copy src dst)) u := by
  obtain ⟨under, outside, free⟩ := placed
  obtain ⟨c, file⟩ := source
  have place : (if t.node dst = some .dir then dst ++ [basename src] else dst) = landing made src dst :=
    if_congr (built.isDirIn_iff under).symm rfl rfl
  have inside : Under dirs (landing made src dst) := by
    rw [landing]
    split
    · exact under.mono (List.prefix_append _ _)
    · exact under
  have nonempty : landing made src dst ≠ [] := by
    intro empty
    rw [landing] at empty
    split at empty
    · cases List.append_ne_nil_of_right_ne_nil dst (List.cons_ne_nil _ _) empty
    · next noDir =>
      subst empty
      exact noDir (built.isDirIn_of_dir under built.closed.root)
  have ends := List.dropLast_append_getLast nonempty
  have same : t.node src = some (.file c) := by
    rw [built.other src outside, if_neg (by simp [file]), file]
  have different : src ≠ landing made src dst := fun same => outside (same ▸ inside)
  have planned : entries base made (.copy src dst) = [(landing made src dst, .file c)] := by
    rw [entries, contentsAt, file]
    rfl
  have own : Free made (landing made src dst) (.file c) :=
    free _ (by simp [contentsAt, file, Node.expected])
  rw [← ends] at inside own
  obtain ⟨u, ran, after⟩ := built.writeFile_built inside (built.dir_of_isDirIn possible) own rfl
  rw [ends] at ran after
  refine ⟨u, ?_, planned ▸ after⟩
  simp only [copy, place, same]
  rw [if_neg different]
  exact ran

theorem write_built {root : Path} {text : Bytes} {name : Name} {contents : Contents}
    (placed : Placed base dirs made (.write root text name contents))
    (possible : Possible base dirs made (.write root text name contents)) :
    ∃ u : Tree, write root text name contents t = (.ok (), u) ∧
      Built base dirs (made ++ entries base made (.write root text name contents)) u := by
  obtain ⟨under, free⟩ := placed
  obtain ⟨dir, passable⟩ := possible
  have parent := built.dir_of_isDirIn dir
  obtain ⟨u, ran, after⟩ := built.writeFile_built (under.mono (List.prefix_append _ _)) parent free
    (contents.meets_expected t)
  refine ⟨u, ?_, after⟩
  rw [write, Tree.lookup, if_pos (built.reached passable), if_pos parent]
  exact ran

theorem listdir_built (dir : isDirIn made p) : listdir p t = (.ok (), t) := by
  rw [listdir, if_pos (built.dir_of_isDirIn dir)]

theorem exec_built (step : Step) (placed : Placed base dirs made step)
    (possible : Possible base dirs made step) (source : Sourced base step) :
    ∃ u : Tree, exec step t = (.ok (), u) ∧
      Built base (folders step ++ dirs) (made ++ entries base made step) u := by
  cases step with
  | fresh root text => exact built.fresh_built placed possible
  | makedirs p => exact built.makedirs_built placed possible
  | copy src dst => exact built.copy_built placed possible source
  | copytree src dst => exact built.copytree_built placed.1 placed.2 possible source
  | listdir p =>
    refine ⟨t, built.listdir_built possible, ?_⟩
    rw [entries, List.append_nil]
    exact built
  | write root text name contents => exact built.write_built placed possible

end Built

theorem run_built_from (steps : List Step) (built : Built base dirs made t)
    (laid : Along base (Placed base) dirs made steps)
    (orderly : Along base (Possible base) dirs made steps) (sourced : ∀ step ∈ steps, Sourced base step) :
    ∃ u : Tree, run steps t = (.ok (), u) ∧
      Built base (foldersOf dirs steps) (outcome base made steps) u := by
  induction steps generalizing t dirs made with
  | nil => exact ⟨t, rfl, built⟩
  | cons step rest ih =>
    have source := sourced step List.mem_cons_self
    obtain ⟨u, ran, between⟩ := built.exec_built step laid.1 orderly.1 source
    obtain ⟨v, ended, after⟩ := ih between laid.2 orderly.2 fun other member =>
      sourced other (List.mem_cons_of_mem _ member)
    exact ⟨v, (Attempt.bind_ok ran).trans ended, after⟩

theorem run_built (closed : base.Closed) {steps : List Step} (laid : Laid base steps)
    (orderly : Orderly base steps) (sourced : ∀ step ∈ steps, Sourced base step) :
    ∃ u : Tree, run steps base = (.ok (), u) ∧
      Built base (foldersOf [] steps) (outcome base [] steps) u :=
  run_built_from steps (built_base closed) laid orderly sourced

theorem mem_foldersOf {steps : List Step} {d : Path} :
    d ∈ foldersOf dirs steps ↔ (∃ step ∈ steps, d ∈ folders step) ∨ d ∈ dirs := by
  induction steps generalizing dirs with
  | nil => simp [foldersOf]
  | cons step rest ih =>
    rw [foldersOf, ih, List.mem_append]
    simp only [List.mem_cons, exists_eq_or_imp]
    exact or_left_comm.trans or_assoc.symm

theorem run_append (first second : List Step) :
    run (first ++ second) = Attempt.next (run first) fun _ => run second := by
  induction first with
  | nil => rfl
  | cons step rest ih =>
    funext t
    rw [List.cons_append, run, ih, Attempt.next, Attempt.next, run, Attempt.next]
    cases exec step t with
    | mk result u => cases result <;> rfl

end

end VirtueSensing.FileTree
