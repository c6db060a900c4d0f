import VirtueSensing.Shared.FileTree

set_option autoImplicit false

/-!
# Directories of joined paths

`os.makedirs` of a path that was joined and not normalised: the system follows it part by part.
-/

namespace VirtueSensing.FileTree

open Attempt

-- What is found when the names are followed from a directory.
def Tree.follow (t : Tree) (p : Path) (names : List Name) : Option Node :=
  if (passed p names).all (fun q => t.node q = some .dir) then t.node (names.foldl enter p) else none

-- As `os.path.split` takes them off, the last one first.
def written (text : Bytes) : List Name := ((parts text).filter (· ≠ [])).reverse

def place (p : Path) (up : List Name) : Path := up.reverse.foldl enter p

def mkdirJoined (p : Path) (up : List Name) (tail : Name) : Action := fun t =>
  if t.follow p up.reverse ≠ some .dir then (.error .osError, t)
  else if tail = ascii "." ∨ tail = ascii ".." ∨ (t.node (place p up ++ [tail])).isSome then
    (.error .fileExistsError, t)
  else (.ok (), t.set (place p up ++ [tail]) .dir)

-- A directory above may be there by then, as `x/..` is once `x` is made.
def makedirsJoined (p : Path) : List Name → Action
  | [], t => makedirs p t
  | tail :: up, t =>
    if (t.follow p up.reverse).isSome then mkdirJoined p up tail t
    else
      match makedirsJoined p up t with
      | (.ok (), u) | (.error .fileExistsError, u) =>
        if tail = ascii "." then (.ok (), u) else mkdirJoined p up tail u
      | (.error e, u) => (.error e, u)

-- What the path goes through is made first, and the path is there by then.
example : (makedirsJoined [] (written (ascii "sensors/../sensors")) [([], .dir)]).1 =
    .error .fileExistsError := by decide

/-- A part that is followed downwards or not at all. -/
def Downward (name : Name) : Prop := name ≠ [] ∧ name ≠ ascii ".."

section

variable {t : Tree} {p : Path} {name : Name} {up : List Name}

theorem place_cons : place p (name :: up) = enter (place p up) name := by
  rw [place, place, List.reverse_cons, List.foldl_append]
  rfl

theorem enter_dot : enter p (ascii ".") = p := rfl

theorem enter_name (down : Downward name) (other : name ≠ ascii ".") : enter p name = p ++ [name] := by
  rw [enter, if_neg (not_or.mpr ⟨down.1, other⟩), if_neg down.2]

theorem passed_append (names : List Name) :
    passed p (names ++ [name]) = passed p names ++ [names.foldl enter p] := by
  induction names generalizing p with
  | nil => rfl
  | cons first rest ih => exact congrArg (p :: ·) ih

theorem follow_cons :
    t.follow p (name :: up).reverse =
      if t.follow p up.reverse = some .dir then t.node (place p (name :: up)) else none := by
  rw [Tree.follow, List.reverse_cons, passed_append, List.all_append, Tree.follow]
  by_cases passes : (passed p up.reverse).all (fun q => t.node q = some .dir)
  · rw [if_pos passes, passes, Bool.true_and, List.all_cons, List.all_nil, Bool.and_true,
      place, List.reverse_cons]
    simp only [decide_eq_true_eq]
  · have stops : ((passed p up.reverse).all fun q => t.node q = some .dir) = false := by simpa using passes
    rw [stops, Bool.false_and]
    rfl

theorem node_of_follow {n : Node} (found : t.follow p up.reverse = some n) :
    t.node (place p up) = some n := by
  rw [Tree.follow] at found
  split at found
  · exact found
  · cases found

theorem follow_dir (closed : t.Closed) (down : ∀ x ∈ up, Downward x)
    (dir : t.node (place p up) = some .dir) : t.follow p up.reverse = some .dir := by
  induction up with
  | nil => exact dir
  | cons name up ih =>
    obtain ⟨here, others⟩ := List.forall_mem_cons.mp down
    have parent : t.node (place p up) = some .dir := by
      rw [place_cons] at dir
      by_cases dot : name = ascii "."
      · rwa [dot, enter_dot] at dir
      · rw [enter_name here dot] at dir
        exact closed.parent _ _ _ dir
    rw [follow_cons, if_pos (ih others parent)]
    exact dir

theorem resolve_written (root : Path) (text : Bytes) :
    resolve root text = place (start root text) (written text) := by
  rw [place, written, List.reverse_reverse, resolve]
  generalize start root text = from_
  induction parts text generalizing from_ with
  | nil => rfl
  | cons name rest ih =>
    by_cases empty : name = []
    · subst empty
      exact ih from_
    · rw [List.filter_cons_of_pos (by simpa using empty)]
      exact ih (enter from_ name)

theorem written_downward {text : Bytes} (down : ascii ".." ∉ parts text) :
    ∀ x ∈ written text, Downward x := by
  intro x member
  have part := List.mem_filter.mp (List.mem_reverse.mp member)
  exact ⟨by simpa using part.2, fun same => down (same ▸ part.1)⟩

theorem foldl_enter_prefix {names : List Name} (down : ascii ".." ∉ names) : p <+: names.foldl enter p := by
  induction names generalizing p with
  | nil => exact List.prefix_refl p
  | cons first rest ih =>
    obtain ⟨here, others⟩ := List.ne_and_not_mem_of_not_mem_cons down
    have entered : p <+: enter p first := by
      rw [enter, if_neg (Ne.symm here)]
      split
      · exact List.prefix_refl p
      · exact List.prefix_append p [first]
    exact entered.trans (ih others)

theorem passed_prefix {names : List Name} (down : ascii ".." ∉ names) {q : Path}
    (member : q ∈ passed p names) : q <+: names.foldl enter p := by
  induction names generalizing p with
  | nil => cases member
  | cons first rest ih =>
    rcases List.mem_cons.mp member with rfl | later
    · exact foldl_enter_prefix down
    · exact ih (List.not_mem_of_not_mem_cons down) later

-- A directory whose name goes nowhere up is still found once it is empty.
theorem reached_emptied {root : Path} {text : Bytes} (down : ascii ".." ∉ parts text)
    (reached : t.reached root text) :
    ((t.remove (resolve root text)).set (resolve root text) .dir).reached root text := by
  refine List.all_eq_true.mpr fun q member => decide_eq_true ?_
  rw [Tree.node_set, Tree.node_remove]
  by_cases same : resolve root text = q
  · rw [if_pos same]
  · have before : q <+: resolve root text := passed_prefix down member
    have above : ¬ resolve root text <+: q := fun below =>
      same (below.eq_of_length_le before.length_le)
    rw [if_neg same, if_neg above]
    exact of_decide_eq_true (List.all_eq_true.mp reached q member)

theorem mkdirJoined_ok (parent : t.follow p up.reverse = some .dir) (down : Downward name)
    (other : name ≠ ascii ".") (fresh : t.node (place p up ++ [name]) = none) :
    mkdirJoined p up name t = (.ok (), t.set (place p up ++ [name]) .dir) := by
  rw [mkdirJoined, if_neg (not_not.mpr parent), if_neg]
  rintro (dot | dots | there)
  · exact other dot
  · exact down.2 dots
  · rw [fresh] at there
    cases there

/-- Without a step upwards the directories of the normalised path are made. -/
theorem makedirsJoined_ok (closed : t.Closed) (down : ∀ x ∈ up, Downward x)
    (fresh : t.node (place p up) = none)
    (clear : ∀ q, q <+: place p up → ∀ c, t.node q ≠ some (.file c)) :
    ∃ u : Tree, makedirsJoined p up t = (.ok (), u) ∧ u.Closed ∧ Made t u (place p up) := by
  induction up with
  | nil => exact makedirs_ok closed fresh clear
  | cons name up ih =>
    obtain ⟨here, others⟩ := List.forall_mem_cons.mp down
    rw [place_cons] at fresh clear ⊢
    rw [makedirsJoined]
    by_cases dot : name = ascii "."
    · -- The place is that of the parts above.
      subst dot
      have absent : ¬ (t.follow p up.reverse).isSome := by
        intro found
        obtain ⟨n, found⟩ := Option.isSome_iff_exists.mp found
        rw [enter_dot, node_of_follow found] at fresh
        cases fresh
      obtain ⟨u, ran, uClosed, made⟩ := ih others fresh clear
      rw [if_neg absent, ran]
      exact ⟨u, rfl, uClosed, made⟩
    · rw [enter_name here dot] at fresh clear ⊢
      have below := List.prefix_append (place p up) [name]
      by_cases found : (t.follow p up.reverse).isSome
      · obtain ⟨n, found⟩ := Option.isSome_iff_exists.mp found
        have parent := node_of_follow found
        cases n with
        | file c => exact absurd parent (clear _ below c)
        | dir =>
          rw [if_pos (by simp [found]), mkdirJoined_ok found here dot fresh]
          exact ⟨_, rfl, closed.set parent (.inl rfl), made_set closed fresh parent⟩
      · have absent : t.node (place p up) = none := by
          cases there : t.node (place p up) with
          | none => rfl
          | some n =>
            cases n with
            | file c => exact absurd there (clear _ below c)
            | dir => exact absurd (Option.isSome_of_eq_some (follow_dir closed others there)) found
        obtain ⟨u, ran, uClosed, made⟩ := ih others absent fun q before => clear q (before.trans below)
        have parent := made.dir absent
        rw [if_neg found, ran]
        dsimp only
        rw [if_neg dot, mkdirJoined_ok (follow_dir uClosed others parent) here dot (made.still fresh)]
        exact ⟨_, rfl, uClosed.set parent (.inl rfl), made.set fresh⟩

-- A file in the way is not followed, and what is raised for it is not caught.
theorem makedirsJoined_file (closed : t.Closed) (down : ∀ x ∈ up, Downward x) {q : Path} {c : Bytes}
    (unseen : t.follow p up.reverse = none) (before : q <+: place p up)
    (file : t.node q = some (.file c)) : ∃ u, makedirsJoined p up t = (.error .osError, u) := by
  induction up with
  | nil =>
    obtain ⟨e, u, failed⟩ := makedirs_fails closed (.inr ⟨q, c, before, file⟩)
    obtain rfl := makedirs_raises failed
    exact ⟨u, failed⟩
  | cons name up ih =>
    obtain ⟨here, others⟩ := List.forall_mem_cons.mp down
    rw [follow_cons] at unseen
    rw [makedirsJoined]
    by_cases parent : t.follow p up.reverse = some .dir
    · -- The file would be found at the last part.
      rw [if_pos parent] at unseen
      have dir := node_of_follow parent
      rw [place_cons] at before unseen
      by_cases dot : name = ascii "."
      · rw [dot, enter_dot, dir] at unseen
        cases unseen
      · rw [enter_name here dot] at before unseen
        rcases List.prefix_concat_iff.mp before with same | shorter
        · rw [← same, file] at unseen
          cases unseen
        · by_cases same : q = place p up
          · rw [same, dir] at file
            cases file
          · rw [closed.above dir shorter same] at file
            cases file
    · by_cases found : (t.follow p up.reverse).isSome
      · rw [if_pos found, mkdirJoined, if_pos parent]
        exact ⟨t, rfl⟩
      · have absent : t.follow p up.reverse = none := by simpa using found
        have shorter : q <+: place p up := by
          rw [place_cons] at before
          by_cases dot : name = ascii "."
          · rwa [dot, enter_dot] at before
          · rw [enter_name here dot] at before
            rcases List.prefix_concat_iff.mp before with same | shorter
            · rw [same] at file
              exact absurd (follow_dir closed others (closed.parent _ _ _ file)) parent
            · exact shorter
        obtain ⟨u, failed⟩ := ih others absent shorter
        rw [if_neg found, failed]
        exact ⟨u, rfl⟩

theorem makedirsJoined_fails (closed : t.Closed) (down : ∀ x ∈ up, Downward x)
    (blocked : t.node (place p up) ≠ none ∨ ∃ q c, q <+: place p up ∧ t.node q = some (.file c)) :
    Fails (makedirsJoined p up) t := by
  cases up with
  | nil => exact makedirs_fails closed blocked
  | cons name up =>
    obtain ⟨here, others⟩ := List.forall_mem_cons.mp down
    by_cases parent : t.follow p up.reverse = some .dir
    · have dir := node_of_follow parent
      have taken : name = ascii "." ∨ name = ascii ".." ∨ (t.node (place p up ++ [name])).isSome := by
        by_cases dot : name = ascii "."
        · exact .inl dot
        · rw [place_cons, enter_name here dot] at blocked
          refine .inr (.inr (Option.isSome_iff_ne_none.mpr ?_))
          rcases blocked with there | ⟨q, c, before, file⟩
          · exact there
          · rcases List.prefix_concat_iff.mp before with same | shorter
            · rw [← same, file]
              nofun
            · by_cases same : q = place p up
              · rw [same, dir] at file
                cases file
              · rw [closed.above dir shorter same] at file
                cases file
      exact ⟨_, _, by rw [makedirsJoined, if_pos (by simp [parent]), mkdirJoined,
        if_neg (not_not.mpr parent), if_pos taken]⟩
    · by_cases found : (t.follow p up.reverse).isSome
      · exact ⟨_, _, by rw [makedirsJoined, if_pos found, mkdirJoined, if_pos parent]⟩
      · have absent : t.follow p up.reverse = none := by simpa using found
        have noDir : t.node (place p up) ≠ some .dir := fun dir =>
          parent (follow_dir closed others dir)
        obtain ⟨q, c, before, file⟩ : ∃ q c, q <+: place p up ∧ t.node q = some (.file c) := by
          rw [place_cons] at blocked
          by_cases dot : name = ascii "."
          · rw [dot, enter_dot] at blocked
            rcases blocked with there | file
            · obtain ⟨c, file⟩ := Tree.hasFile_iff.mpr ⟨there, noDir⟩
              exact ⟨_, c, List.prefix_refl _, file⟩
            · exact file
          · rw [enter_name here dot] at blocked
            have shorter : t.node (place p up ++ [name]) = none := by
              cases there : t.node (place p up ++ [name]) with
              | none => rfl
              | some n => exact absurd (closed.parent _ _ _ there) noDir
            rcases blocked with there | ⟨q, c, before, file⟩
            · exact absurd shorter there
            · rcases List.prefix_concat_iff.mp before with same | before
              · rw [same, shorter] at file
                cases file
              · exact ⟨q, c, before, file⟩
        obtain ⟨u, failed⟩ := makedirsJoined_file closed others absent before file
        exact ⟨_, u, by rw [makedirsJoined, if_neg found, failed]⟩

end

end VirtueSensing.FileTree
