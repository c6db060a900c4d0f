import VirtueSensing.Shared.FilePlans

set_option autoImplicit false

/-!
# Plans that fail

Of the plans that put their files where they should, those in order are the only ones that go through.
-/

namespace VirtueSensing.FileTree

section

variable {base t : Tree} {dirs : List Path} {made : List Entry} {p : Path}

namespace Built

variable (built : Built base dirs made t)
include built

theorem dirAt_of_dir (dir : t.node p = some .dir) : DirAt base dirs made p := by
  rw [DirAt]
  split
  · next under => exact built.isDirIn_of_dir under dir
  · next outside =>
    rw [built.other p outside] at dir
    split at dir
    · next both => exact .inr both.2
    · exact .inl dir

theorem absent_of_none (none : t.node p = none) : Absent base dirs made p := by
  refine ⟨fun e member before => ?_, ?_⟩
  · obtain ⟨n, there⟩ := (built.entry e member).some
    rw [built.closed.nothing none before] at there
    cases there
  · by_cases under : Under dirs p
    · exact .inl under
    · rw [built.other p under] at none
      split at none
      · cases none
      · exact .inr none

theorem blocked_of_file {e : Entry} (member : e ∈ made) (before : e.1 <+: p) (noDir : e.2 ≠ .dir) :
    ∃ q c, q <+: p ∧ t.node q = some (.file c) := by
  have meets := built.entry e member
  obtain ⟨n, there⟩ := meets.some
  cases n with
  | dir =>
    rw [there] at meets
    exact absurd (Expected.meets_dir meets) noDir
  | file c => exact ⟨e.1, c, before, there⟩

theorem blocked (taken : ¬ Vacant made p) :
    t.node p ≠ none ∨ ∃ q c, q <+: p ∧ t.node q = some (.file c) := by
  simp only [Vacant, not_forall, not_and_or, not_not] at taken
  obtain ⟨e, member, behind | ⟨before, noDir⟩⟩ := taken
  · refine .inl fun none => ?_
    exact (built.absent_of_none none).1 e member behind
  · exact .inr (built.blocked_of_file member before noDir)

theorem unseen {root : Path} {text : Bytes} (stuck : ¬ ∀ q ∈ stops root text, DirAt base dirs made q) :
    t.lookup root text = none := by
  rw [Tree.lookup, if_neg]
  intro reached
  refine stuck fun q member => built.dirAt_of_dir ?_
  exact of_decide_eq_true (List.all_eq_true.mp reached q member)

theorem makedirs_blocked {root : Path} {text : Bytes} (down : ascii ".." ∉ parts text)
    (blocked : t.node (resolve root text) ≠ none ∨
      ∃ q c, q <+: resolve root text ∧ t.node q = some (.file c)) :
    Fails (makedirsJoined (start root text) (written text)) t := by
  rw [resolve_written] at blocked
  exact makedirsJoined_fails built.closed (written_downward down) blocked

theorem fresh_blocked {root : Path} {text : Bytes} (down : ascii ".." ∉ parts text) {q : Path} {c : Bytes}
    (before : q <+: resolve root text) (file : t.node q = some (.file c)) :
    Fails (fresh root text) t := by
  by_cases seen : t.lookup root text = none
  · obtain ⟨e, u, failed⟩ := built.makedirs_blocked down (.inr ⟨q, c, before, file⟩)
    exact ⟨e, u, by rw [fresh, seen]; exact failed⟩
  · have noDir : t.lookup root text ≠ some .dir := by
      intro dir
      rw [Tree.lookup] at dir
      split at dir
      · by_cases same : q = resolve root text
        · rw [← same, file] at dir
          cases dir
        · rw [built.closed.above dir before same] at file
          cases file
      · cases dir
    have failed : Fails (Attempt.next (rmtree root text) fun _ =>
        makedirsJoined (start root text) (written text)) t := Fails.next ⟨_, _, if_neg noDir⟩
    obtain ⟨e, u, failed⟩ := failed
    exact ⟨e, u, by rw [fresh, if_pos (Option.isSome_iff_ne_none.mpr seen), failed]⟩

theorem fresh_taken {root : Path} {text : Bytes} (down : ascii ".." ∉ parts text) (there : t.node (resolve root text) ≠ none)
    (stuck : ¬ (¬ dotted text ∧ ∀ q ∈ stops root text, DirAt base dirs made q)) :
    Fails (fresh root text) t := by
  by_cases seen : t.lookup root text = none
  · obtain ⟨e, u, failed⟩ := built.makedirs_blocked down (.inl there)
    exact ⟨e, u, by rw [fresh, seen]; exact failed⟩
  · have passable : ∀ q ∈ stops root text, DirAt base dirs made q :=
      not_not.mp fun stopped => seen (built.unseen stopped)
    have dots : dotted text := by
      by_contra plain
      exact stuck ⟨plain, passable⟩
    have kept : Fails (rmtree root text) t := by
      by_cases dir : t.lookup root text = some .dir
      · exact ⟨_, _, by rw [rmtree, if_pos dir, if_pos (.inr (.inl dots))]⟩
      · exact ⟨_, _, if_neg dir⟩
    have failed : Fails (Attempt.next (rmtree root text) fun _ =>
        makedirsJoined (start root text) (written text)) t := kept.next
    obtain ⟨e, u, failed⟩ := failed
    exact ⟨e, u, by rw [fresh, if_pos (Option.isSome_iff_ne_none.mpr seen), failed]⟩

theorem fresh_fails {root : Path} {text : Bytes} (placed : Placed base dirs made (.fresh root text))
    (impossible : ¬ Possible base dirs made (.fresh root text)) : Fails (fresh root text) t := by
  have down := placed.2.1
  by_cases dirsAbove : ∀ e ∈ made, e.1 <+: resolve root text → e.2 = .dir
  · by_cases aboves : ∀ q ∈ (resolve root text).inits,
        Under dirs q ∨ base.node q = none ∨ base.node q = some .dir
    · apply built.fresh_taken down
      · exact fun none => impossible ⟨dirsAbove, aboves, .inl (built.absent_of_none none)⟩
      · exact fun ready => impossible ⟨dirsAbove, aboves, .inr ready⟩
    · simp only [not_forall, not_or, List.mem_inits] at aboves
      obtain ⟨q, before, outside, some, noDir⟩ := aboves
      obtain ⟨c, file⟩ := Tree.hasFile_iff.mpr ⟨some, noDir⟩
      refine built.fresh_blocked down before (c := c) ?_
      rw [built.other q outside, if_neg fun both => some both.1, file]
  · simp only [not_forall] at dirsAbove
    obtain ⟨e, member, before, noDir⟩ := dirsAbove
    obtain ⟨q, c, first, file⟩ := built.blocked_of_file (p := e.1) member (List.prefix_refl _) noDir
    exact built.fresh_blocked down (first.trans before) file

theorem isDirIn_of_parent {src dst : Path} (under : Under dirs dst)
    (parent : t.node (landing made src dst).dropLast = some .dir) :
    isDirIn made (landing made src dst).dropLast := by
  rw [landing] at parent ⊢
  split at parent
  · next dir => rwa [if_pos dir, List.dropLast_concat]
  · next noDir =>
    rw [if_neg noDir]
    refine built.isDirIn_of_dir ?_ parent
    obtain ⟨d, member, before⟩ := under
    have different : d ≠ dst := by
      rintro rfl
      exact noDir (built.isDirIn_of_dir ⟨d, member, before⟩ (built.dir_of_mem member))
    have nonempty : dst ≠ [] := by
      rintro rfl
      exact different (List.prefix_nil.mp before)
    rw [← List.dropLast_append_getLast nonempty, List.prefix_concat_iff,
      List.dropLast_append_getLast nonempty] at before
    exact ⟨d, member, before.resolve_left different⟩

theorem copy_fails {src dst : Path} (placed : Placed base dirs made (.copy src dst))
    (impossible : ¬ (Possible base dirs made (.copy src dst) ∧ Sourced base (.copy src dst))) :
    Fails (copy src dst) t := by
  obtain ⟨under, outside, -⟩ := placed
  have place : (if t.node dst = some .dir then dst ++ [basename src] else dst) = landing made src dst :=
    if_congr (built.isDirIn_iff under).symm rfl rfl
  cases there : t.node src with
  | none => exact ⟨.osError, t, by simp only [copy, there]⟩
  | some n =>
    cases n with
    | dir => exact ⟨.osError, t, by simp only [copy, there]⟩
    | file c =>
      have source : Sourced base (.copy src dst) := by
        rw [built.other src outside] at there
        split at there
        · cases there
        · exact ⟨c, there⟩
      have noParent : t.node (landing made src dst).dropLast ≠ some .dir := fun parent =>
        impossible ⟨built.isDirIn_of_parent under parent, source⟩
      by_cases same : src = landing made src dst
      · exact ⟨.osError, t, by simp only [copy, there, place]; exact if_pos same⟩
      · have written : Fails (writeFile (landing made src dst) c) t := writeFile_fails noParent
        obtain ⟨e, u, failed⟩ := written
        exact ⟨e, u, by simp only [copy, there, place]; rw [if_neg same, failed]⟩

theorem copytree_fails {src dst : Path} (placed : Placed base dirs made (.copytree src dst))
    (impossible : ¬ (Possible base dirs made (.copytree src dst) ∧ Sourced base (.copytree src dst))) :
    Fails (copytree src dst) t := by
  obtain ⟨under, apart⟩ := placed
  by_cases ready : t.node src = some .dir ∧
      ¬ (src <+: dst ∧ (t.node (dst.take (src.length + 1))).isSome)
  · have source : Sourced base (.copytree src dst) := by
      have same := built.base_node (r := []) apart
      rw [List.append_nil] at same
      exact same.symm.trans ready.1
    have failed : Fails (Attempt.next (makedirs dst) fun _ u => (.ok (), t.copied src dst ++ u)) t :=
      Fails.next (makedirs_fails built.closed (built.blocked fun vacant => impossible ⟨vacant, source⟩))
    obtain ⟨e, u, failed⟩ := failed
    exact ⟨e, u, by rw [copytree, if_pos ready, failed]⟩
  · exact ⟨_, _, if_neg ready⟩

theorem write_fails {root : Path} {text : Bytes} {name : Name} {contents : Contents}
    (placed : Placed base dirs made (.write root text name contents))
    (impossible : ¬ Possible base dirs made (.write root text name contents)) :
    Fails (write root text name contents) t := by
  refine ⟨_, _, if_neg fun dir => ?_⟩
  by_cases passable : ∀ q ∈ stops root text, DirAt base dirs made q
  · rw [Tree.lookup, if_pos (built.reached passable)] at dir
    exact impossible ⟨built.isDirIn_of_dir placed.1 dir, passable⟩
  · rw [built.unseen passable] at dir
    cases dir

theorem exec_fails (step : Step) (placed : Placed base dirs made step)
    (impossible : ¬ (Possible base dirs made step ∧ Sourced base step)) : Fails (exec step) t := by
  cases step with
  | fresh root text => exact built.fresh_fails placed fun possible => impossible ⟨possible, trivial⟩
  | makedirs p =>
    exact makedirs_fails built.closed (built.blocked fun vacant => impossible ⟨vacant, trivial⟩)
  | copy src dst => exact built.copy_fails placed impossible
  | copytree src dst => exact built.copytree_fails placed impossible
  | listdir p =>
    refine ⟨_, _, if_neg fun dir => impossible ⟨built.isDirIn_of_dir placed dir, trivial⟩⟩
  | write root text name contents =>
    exact built.write_fails placed fun possible => impossible ⟨possible, trivial⟩

end Built

/-- Of what is laid out, only a plan in order with its sources goes through. -/
theorem orderly_of_run (steps : List Step) {u : Tree} (built : Built base dirs made t)
    (laid : Along base (Placed base) dirs made steps) (ran : run steps t = (.ok (), u)) :
    Along base (Possible base) dirs made steps ∧ ∀ step ∈ steps, Sourced base step := by
  induction steps generalizing t dirs made with
  | nil => exact ⟨trivial, fun _ member => absurd member List.not_mem_nil⟩
  | cons step rest ih =>
    have both : Possible base dirs made step ∧ Sourced base step := by
      by_contra impossible
      have stopped : Fails (run (step :: rest)) t := (built.exec_fails step laid.1 impossible).next
      obtain ⟨e, v, failed⟩ := stopped
      rw [failed] at ran
      cases ran
    obtain ⟨v, here, between⟩ := built.exec_built step laid.1 both.1 both.2
    have after : run rest v = (.ok (), u) := (Attempt.bind_ok here).symm.trans ran
    obtain ⟨orderly, sourced⟩ := ih between laid.2 after
    refine ⟨⟨both.1, orderly⟩, fun other member => ?_⟩
    rcases List.mem_cons.mp member with rfl | later
    · exact both.2
    · exact sourced other later

end

end VirtueSensing.FileTree
