import Mathlib.Logic.Function.Basic
import VirtueSensing.Shared.Bytes

set_option autoImplicit false

/-!
# Memory from an address on

Every byte from the start of an allocation on has a value, those behind the allocation too. What an
allocator puts where it keeps nothing is left open.
-/

namespace VirtueSensing

abbrev Memory := Nat → UInt8

namespace Memory

def Reads (m : Memory) : Nat → Bytes → Prop
  | _, [] => True
  | i, b :: rest => m i = b ∧ Reads m (i + 1) rest

def decidableReads (m : Memory) : (i : Nat) → (bytes : Bytes) → Decidable (m.Reads i bytes)
  | _, [] => .isTrue trivial
  | i, b :: rest =>
    match decidableReads m (i + 1) rest with
    | .isTrue reads => decidable_of_iff (m i = b) ⟨fun first => ⟨first, reads⟩, And.left⟩
    | .isFalse wrong => .isFalse fun reads => wrong reads.2

instance (m : Memory) (i : Nat) (bytes : Bytes) : Decidable (m.Reads i bytes) := decidableReads m i bytes

def Holds (m : Memory) (i : Nat) (text : Bytes) : Prop := m.Reads i (text ++ [0])

instance (m : Memory) (i : Nat) (text : Bytes) : Decidable (m.Holds i text) := decidableReads m i _

variable {m m' : Memory}

theorem reads_append {i : Nat} {bytes rest : Bytes} :
    m.Reads i (bytes ++ rest) ↔ m.Reads i bytes ∧ m.Reads (i + bytes.length) rest := by
  induction bytes generalizing i with
  | nil => simp [Reads]
  | cons b bytes ih =>
    have next : i + (bytes.length + 1) = i + 1 + bytes.length := by omega
    rw [List.cons_append, Reads, Reads, ih, List.length_cons, next, and_assoc]

theorem Reads.congr {i : Nat} {bytes : Bytes} (reads : m.Reads i bytes)
    (same : ∀ j, i ≤ j → j < i + bytes.length → m' j = m j) : m'.Reads i bytes := by
  induction bytes generalizing i with
  | nil => trivial
  | cons b bytes ih =>
    rw [List.length_cons] at same
    exact ⟨(same i (Nat.le_refl i) (by omega)).trans reads.1,
      ih reads.2 fun j low high => same j (by omega) (by omega)⟩

theorem Reads.byte {i j : Nat} {bytes : Bytes} (reads : m.Reads i bytes) (inside : j < bytes.length) :
    m (i + j) = bytes[j] := by
  induction bytes generalizing i j with
  | nil => cases inside
  | cons b bytes ih =>
    cases j with
    | zero => exact reads.1
    | succ j =>
      have next : i + (j + 1) = i + 1 + j := by omega
      rw [next]
      exact ih reads.2 (Nat.lt_of_succ_lt_succ inside)

theorem Holds.reads {i : Nat} {text : Bytes} (holds : m.Holds i text) : m.Reads i text :=
  (reads_append.mp holds).1

theorem Holds.zero {i : Nat} {text : Bytes} (holds : m.Holds i text) : m (i + text.length) = 0 :=
  (reads_append.mp holds).2.1

theorem Holds.cons {i : Nat} {c : UInt8} {text : Bytes} (first : m i = c) (rest : m.Holds (i + 1) text) :
    m.Holds i (c :: text) := ⟨first, rest⟩

theorem Holds.nonzero {i j : Nat} {text : Bytes} (holds : m.Holds i text) (nonzero : 0 ∉ text)
    (inside : j < text.length) : m (i + j) ≠ 0 := by
  intro zero
  rw [holds.reads.byte inside] at zero
  exact nonzero (zero ▸ List.getElem_mem inside)

-- The first zero ends the string, so a memory holds one string only.
theorem Holds.unique {i : Nat} {first second : Bytes} (one : m.Holds i first) (other : m.Holds i second)
    (nonzero : 0 ∉ first) (nonzero' : 0 ∉ second) : first = second := by
  induction first generalizing i second with
  | nil =>
    cases second with
    | nil => rfl
    | cons c second =>
      have zero : c = 0 := other.1.symm.trans one.1
      exact absurd (zero ▸ List.mem_cons_self) nonzero'
  | cons c first ih =>
    cases second with
    | nil =>
      have zero : c = 0 := one.1.symm.trans other.1
      exact absurd (zero ▸ List.mem_cons_self) nonzero
    | cons d second =>
      rw [List.mem_cons, not_or] at nonzero nonzero'
      rw [ih one.2 other.2 nonzero.2 nonzero'.2, ← one.1, ← other.1]

theorem holds_ofList (front text : Bytes) :
    Memory.Holds (fun i => (front ++ text).getD i 0) front.length text := by
  induction text generalizing front with
  | nil => simp [Holds, Reads]
  | cons c rest ih =>
    have later := ih (front ++ [c])
    rw [List.append_assoc, List.singleton_append, List.length_append, List.length_singleton] at later
    exact .cons (by simp) later

def bytesAt (m : Memory) (start size : Nat) : Bytes := (List.range size).map fun i => m (start + i)

@[simp] theorem length_bytesAt (m : Memory) (start size : Nat) : (m.bytesAt start size).length = size := by
  simp [bytesAt]

theorem reads_ofList (bytes : Bytes) : Memory.Reads (fun i => bytes.getD i 0) 0 bytes :=
  (holds_ofList [] bytes).reads

theorem Reads.bytesAt {start size : Nat} {bytes : Bytes} (reads : m.Reads 0 bytes)
    (inside : start + size ≤ bytes.length) : m.bytesAt start size = (bytes.drop start).take size := by
  refine List.ext_getElem ?_ fun i here there => ?_
  · simp only [Memory.bytesAt, List.length_map, List.length_range, List.length_take, List.length_drop]
    omega
  · have small : i < size := by simpa [Memory.bytesAt] using here
    have byte := reads.byte (show start + i < bytes.length by omega)
    rw [Nat.zero_add] at byte
    simp only [Memory.bytesAt, List.getElem_map, List.getElem_range, byte, List.getElem_take,
      List.getElem_drop]

-- `strpbrk` and `strchr`, which read no further than the zero `room` bytes behind.
def find (m : Memory) (accept : UInt8 → Bool) : (room : Nat) → (i : Nat) → Option Nat
  | 0, _ => none
  | room + 1, i =>
    if m i = 0 then none
    else if accept (m i) then some i
    else m.find accept room (i + 1)

end Memory

/-- A `krealloc` that succeeds: what stands in both sizes is kept. -/
structure Allocator where
  krealloc : (old new : Nat) → Memory → Memory
  keeps : ∀ old new m i, i < min old new → krealloc old new m i = m i

namespace Allocator

/-- A smaller allocation stays where it is, and nothing behind it changes. -/
def ShrinksInPlace (a : Allocator) : Prop :=
  ∀ old new m i, new ≤ old → a.krealloc old new m i = m i

-- One that shrinks in place and clears what it adds.
def clearing : Allocator where
  krealloc old new m i := if new ≤ old ∨ i < old then m i else 0
  keeps _ _ _ _ inside := if_pos (.inr (by omega))

-- One that clears what it adds, with other bytes behind what it has cut off.
def cutting : Allocator where
  krealloc old new m i := if i < min old new then m i else if old < new then 0 else 1
  keeps _ _ _ _ inside := if_pos inside

theorem clearing_shrinksInPlace : clearing.ShrinksInPlace :=
  fun _ _ _ _ smaller => if_pos (.inl smaller)

variable {a : Allocator} {m : Memory} {old new : Nat} {text : Bytes}

theorem holds_krealloc (holds : m.Holds 0 text) (fits : text.length < min old new) :
    (a.krealloc old new m).Holds 0 text := by
  refine Memory.Reads.congr holds fun j _ inside => a.keeps old new m j ?_
  rw [List.length_append, List.length_singleton] at inside
  omega

theorem ShrinksInPlace.holds (inPlace : a.ShrinksInPlace) (holds : m.Holds 0 text)
    (smaller : new ≤ old) : (a.krealloc old new m).Holds 0 text :=
  Memory.Reads.congr holds fun j _ _ => inPlace old new m j smaller

-- A size without room for the terminator leaves no string.
theorem cutting_not_holds (holds : m.Holds 0 text) (nonzero : 0 ∉ text) (smaller : text.length ≤ old)
    (other : Bytes) : ¬ (cutting.krealloc old text.length m).Holds 0 other := by
  intro ended
  have zero := ended.zero
  rw [Nat.zero_add] at zero
  simp only [cutting] at zero
  split_ifs at zero with kept grown
  · have inside := holds.nonzero nonzero (show other.length < text.length by omega)
    rw [Nat.zero_add] at inside
    exact inside zero
  · omega
  · cases zero

end Allocator

end VirtueSensing
