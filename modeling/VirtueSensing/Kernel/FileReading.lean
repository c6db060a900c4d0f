import Mathlib.Algebra.Group.Nat.Defs
import VirtueSensing.Shared.Machine
import VirtueSensing.Shared.Memory

set_option autoImplicit false

/-!
# Reading a file chunk by chunk

The loop of `vfs_read_file`. Every turn reads at the position in the file, to the same place in the
block, and lets the block grow by a whole chunk however little was read.
-/

namespace VirtueSensing.Kernel.FileReading

def enomem : Int := -12

/-- An open file, and what the loop is run with. `chunk` is the module parameter `chunk_size`; no
allocation above `limit` succeeds, so that the sizes stay below 2^63. -/
structure Setting where
  content : Bytes
  chunk : Nat
  maxCount : Nat
  allocator : Allocator
  limit : Nat
  positive : 0 < chunk
  small : limit < 2 ^ 63

inductive Stage where
  | reading
  | done (ccode : Int)
  | freed (ccode : Int)
  deriving DecidableEq, Repr

structure Reading where
  pos : Nat
  allocated : Nat
  memory : Memory
  stage : Stage

/-- What the environment answers in one turn: the result of `kernel_read`, and whether there is memory
for `krealloc`. -/
structure Turn where
  ccode : Int
  grows : Bool
  deriving DecidableEq, Repr

variable (f : Setting)

-- A read may be short. It returns zero at the end of the file only.
def Setting.reads (pos : Nat) (ccode : Int) : Prop :=
  ccode ≤ f.chunk ∧ pos + ccode ≤ f.content.length ∧ (ccode = 0 → pos = f.content.length)

instance (pos : Nat) (ccode : Int) : Decidable (f.reads pos ccode) :=
  inferInstanceAs (Decidable (_ ∧ _ ∧ (_ → _)))

-- `kernel_read(f, *buf + cursor, chunk, pos)`, when it reads so many bytes.
def Setting.kernelRead (s : Reading) (count : Nat) : Reading :=
  let cursor := s.pos
  { s with
    pos := s.pos + count
    memory := fun j =>
      if cursor ≤ j ∧ j < cursor + count then f.content.getD (s.pos + (j - cursor)) 0 else s.memory j }

def Setting.grow (s : Reading) (t : Turn) : Reading :=
  if t.grows ∧ s.allocated + f.chunk ≤ f.limit then
    let allocated := s.allocated + f.chunk
    { s with
      allocated := allocated
      memory := f.allocator.krealloc s.allocated allocated s.memory
      stage := if allocated ≤ f.maxCount then .reading else .done t.ccode }
  else { s with stage := .freed enomem }

def Setting.step (s : Reading) (t : Turn) : Option Reading :=
  match s.stage with
  | .reading =>
    if f.reads s.pos t.ccode then
      if t.ccode < 0 then some { s with stage := .freed t.ccode }
      else if 0 < t.ccode then some (f.grow (f.kernelRead s t.ccode.toNat) t)
      else some { s with stage := .done 0 }
    else none
  | _ => none

def Setting.kzalloc : Reading :=
  if f.chunk ≤ f.limit then ⟨0, f.chunk, fun _ => 0, .reading⟩ else ⟨0, 0, fun _ => 0, .freed enomem⟩

def Setting.vfsReadFile : Machine Reading Turn := ⟨f.kzalloc, f.step⟩

section Turns

variable {f} {s s' : Reading} {t : Turn}

theorem step_cases (moved : f.step s t = some s') :
    s.stage = .reading ∧ f.reads s.pos t.ccode ∧
      ((t.ccode < 0 ∧ s' = { s with stage := .freed t.ccode }) ∨
        (t.ccode = 0 ∧ s' = { s with stage := .done 0 }) ∨
        (0 < t.ccode ∧ s' = f.grow (f.kernelRead s t.ccode.toNat) t)) := by
  unfold Setting.step at moved
  split at moved
  · next reading =>
    split_ifs at moved with reads negative positive
    · exact ⟨reading, reads, .inl ⟨negative, (Option.some.inj moved).symm⟩⟩
    · exact ⟨reading, reads, .inr (.inr ⟨positive, (Option.some.inj moved).symm⟩)⟩
    · exact ⟨reading, reads, .inr (.inl ⟨by omega, (Option.some.inj moved).symm⟩)⟩
  · cases moved

/-- What has been read stands in the block, and there is room for another chunk behind it. -/
structure Kept (f : Setting) (s : Reading) : Prop where
  read : s.pos ≤ f.content.length
  copied : ∀ j < s.pos, s.memory j = f.content.getD j 0
  room : s.stage = .reading → s.pos + f.chunk ≤ s.allocated
  granted : s.allocated ≤ f.limit
  ended : s.stage = .done 0 → s.pos = f.content.length

theorem kept_kzalloc (f : Setting) : Kept f f.kzalloc := by
  unfold Setting.kzalloc
  split_ifs with fits
  · exact ⟨Nat.zero_le _, nofun, fun _ => Nat.le_of_eq (Nat.zero_add _), fits, nofun⟩
  · exact ⟨Nat.zero_le _, nofun, nofun, Nat.zero_le _, nofun⟩

theorem kernelRead_copied (kept : Kept f s) (count : Nat) :
    ∀ j < s.pos + count, (f.kernelRead s count).memory j = f.content.getD j 0 := by
  intro j inside
  simp only [Setting.kernelRead]
  split_ifs with here
  · rw [Nat.add_sub_cancel' here.1]
  · exact kept.copied j (by omega)

theorem kept_grow (kept : Kept f s) (reading : s.stage = .reading) (reads : f.reads s.pos t.ccode)
    (positive : 0 < t.ccode) : Kept f (f.grow (f.kernelRead s t.ccode.toNat) t) := by
  have room := kept.room reading
  have copied := kernelRead_copied kept t.ccode.toNat
  have within : t.ccode.toNat ≤ f.chunk ∧ s.pos + t.ccode.toNat ≤ f.content.length := by
    have bounds := reads
    simp only [Setting.reads] at bounds
    omega
  unfold Setting.grow
  split_ifs with granted
  · refine ⟨within.2, fun j inside => ?_, fun _ => ?_, granted.2, fun ended => ?_⟩
    · have old : j < min s.allocated (s.allocated + f.chunk) := by
        have inside : j < s.pos + t.ccode.toNat := inside
        omega
      exact (f.allocator.keeps _ _ _ j old).trans (copied j inside)
    · show s.pos + t.ccode.toNat + f.chunk ≤ s.allocated + f.chunk
      omega
    · dsimp only at ended
      split_ifs at ended
      exact absurd (Stage.done.inj ended) (by omega)
  · exact ⟨within.2, copied, nofun, kept.granted, nofun⟩

theorem kept_step (kept : Kept f s) (moved : f.step s t = some s') : Kept f s' := by
  obtain ⟨reading, reads, ⟨-, rfl⟩ | ⟨zero, rfl⟩ | ⟨positive, rfl⟩⟩ := step_cases moved
  · exact ⟨kept.read, kept.copied, nofun, kept.granted, nofun⟩
  · exact ⟨kept.read, kept.copied, nofun, kept.granted, fun _ => reads.2.2 zero⟩
  · exact kept_grow kept reading reads positive

theorem turns_step {turns : Nat} (moved : f.step s t = some s')
    (before : s.stage = .reading → turns ≤ s.pos) :
    turns ≤ s.pos ∧ (s'.stage = .reading → turns + 1 ≤ s'.pos) := by
  obtain ⟨reading, -, ⟨-, rfl⟩ | ⟨-, rfl⟩ | ⟨positive, rfl⟩⟩ := step_cases moved
  · exact ⟨before reading, nofun⟩
  · exact ⟨before reading, nofun⟩
  · refine ⟨before reading, fun _ => ?_⟩
    have bound := before reading
    have position : (f.grow (f.kernelRead s t.ccode.toNat) t).pos = s.pos + t.ccode.toNat := by
      unfold Setting.grow
      split_ifs <;> rfl
    omega

-- While it reads there is always a next turn: the end of the file if nothing else.
theorem progress (kept : Kept f s) (reading : s.stage = .reading) :
    ∃ t s', f.step s t = some s' := by
  have read := kept.read
  have positive := f.positive
  unfold Setting.step
  rw [reading]
  by_cases finished : s.pos = f.content.length
  next =>
    have reads : f.reads s.pos 0 := ⟨by omega, by omega, fun _ => finished⟩
    exact ⟨⟨0, true⟩, _, if_pos reads⟩
  next =>
    have reads : f.reads s.pos 1 := ⟨by omega, by omega, by omega⟩
    exact ⟨⟨1, true⟩, _, if_pos reads⟩

end Turns

variable {turns : List Turn} {s : Reading}

theorem kept_of_run (reached : f.vfsReadFile.Reachable s) : Kept f s :=
  f.vfsReadFile.invariant (kept_kzalloc f) (fun _ _ _ _ kept moved => kept_step kept moved) reached

theorem turns_of_run (reached : f.vfsReadFile.run turns = some s) :
    turns.length ≤ f.content.length + 1 ∧ (s.stage = .reading → turns.length ≤ s.pos) := by
  induction turns using List.reverseRecOn generalizing s with
  | nil => exact ⟨Nat.zero_le _, fun _ => Nat.zero_le _⟩
  | append_singleton turns t ih =>
    obtain ⟨before, reachedBefore, moved⟩ := f.vfsReadFile.run_snoc_eq_some reached
    obtain ⟨bound, next⟩ := turns_step moved (ih reachedBefore).2
    have inside := (kept_of_run f ⟨turns, reachedBefore⟩).read
    rw [List.length_append, List.length_singleton]
    exact ⟨by omega, next⟩

theorem contents_of_kept (kept : Kept f s) (ended : s.stage = .done 0) :
    s.memory.Reads 0 f.content := by
  refine (Memory.reads_ofList f.content).congr fun j _ inside => kept.copied j ?_
  rw [kept.ended ended]
  omega

/-- In every run each read stays in the block, the number of turns is bounded by the size of the file
while a reading that has not ended can go on, and at the end of the file the block begins with its
contents. -/
theorem file_read (reached : f.vfsReadFile.run turns = some s) :
    f.vfsReadFile.Throughout (fun s _ => s.pos + f.chunk ≤ s.allocated) turns ∧
      turns.length ≤ f.content.length + 1 ∧
      (s.stage = .reading → ∃ t s', f.step s t = some s') ∧
      (s.stage = .done 0 → s.pos = f.content.length ∧ s.memory.Reads 0 f.content) := by
  have kept := kept_of_run f ⟨turns, reached⟩
  refine ⟨fun first t rest s split before => ?_, (turns_of_run f reached).1, progress kept,
    fun ended => ⟨kept.ended ended, contents_of_kept f kept ended⟩⟩
  rw [split] at reached
  rw [f.vfsReadFile.run_append before] at reached
  obtain ⟨s', moved, -⟩ := Option.bind_eq_some_iff.mp reached
  exact (kept_of_run f ⟨first, before⟩).room (step_cases moved).1

-- Five bytes in chunks of four: two short reads, a third one and the end of the file.
def fiveBytes : Setting where
  content := [10, 20, 30, 40, 50]
  chunk := 4
  maxCount := 100
  allocator := .clearing
  limit := 1000
  positive := by decide
  small := by decide

def shortReads : List Turn := [⟨1, true⟩, ⟨3, true⟩, ⟨1, true⟩, ⟨0, true⟩]

theorem fiveBytes_read : ∃ s, fiveBytes.vfsReadFile.run shortReads = some s ∧
    s.stage = .done 0 ∧ s.pos = 5 ∧ s.memory.Reads 0 [10, 20, 30, 40, 50] :=
  ⟨_, rfl, rfl, (@file_read fiveBytes shortReads _ rfl).2.2.2 rfl⟩

end VirtueSensing.Kernel.FileReading
