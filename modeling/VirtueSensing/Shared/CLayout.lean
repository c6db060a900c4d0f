import Mathlib.Data.List.TakeDrop
import Mathlib.Tactic.Common
import VirtueSensing.Shared.Bytes

set_option autoImplicit false

/-!
# Layout of records in memory

Natural alignment: a field starts at the next multiple of its alignment, and a record ends at the
next multiple of its own. A layout lists every field of the record, nested ones under the name of
the field around them.
-/

namespace VirtueSensing.CLayout

universe u

variable {N : Type u}

def alignUp (n alignment : Nat) : Nat := (n + alignment - 1) / alignment * alignment

theorem le_alignUp {alignment : Nat} (positive : 0 < alignment) (n : Nat) :
    n ≤ alignUp n alignment := by
  have below := Nat.mod_lt (n + alignment - 1) positive
  have whole := Nat.div_add_mod' (n + alignment - 1) alignment
  unfold alignUp
  omega

theorem alignUp_lt {alignment : Nat} (positive : 0 < alignment) (n : Nat) :
    alignUp n alignment < n + alignment := by
  have below := Nat.div_mul_le_self (n + alignment - 1) alignment
  unfold alignUp
  omega

structure Field (N : Type u) where
  path : List N
  offset : Nat
  size : Nat
  deriving DecidableEq, Repr

structure Layout (N : Type u) where
  size : Nat
  alignment : Nat
  fields : List (Field N)
  deriving DecidableEq, Repr

def scalar (size : Nat) : Layout N := ⟨size, size, []⟩

def array (element : Layout N) (count : Nat) : Layout N :=
  ⟨element.size * count, element.alignment, []⟩

def Layout.within (name : N) (offset : Nat) (inner : Layout N) : List (Field N) :=
  ⟨[name], offset, inner.size⟩ ::
    inner.fields.map fun field => ⟨name :: field.path, offset + field.offset, field.size⟩

def place : Nat → List (N × Layout N) → List (Field N) × Nat
  | offset, [] => ([], offset)
  | offset, (name, inner) :: rest =>
    let start := alignUp offset inner.alignment
    let (fields, stop) := place (start + inner.size) rest
    (inner.within name start ++ fields, stop)

def widest (members : List (N × Layout N)) : Nat :=
  members.foldl (fun widest member => max widest member.2.alignment) 1

def struct (members : List (N × Layout N)) : Layout N :=
  let (fields, stop) := place 0 members
  ⟨alignUp stop (widest members), widest members, fields⟩

def union (members : List (N × Layout N)) : Layout N :=
  let size := members.foldl (fun size member => max size member.2.size) 0
  ⟨alignUp size (widest members), widest members,
    members.flatMap fun member => member.2.within member.1 0⟩

structure Write where
  offset : Nat
  bytes : Bytes
  deriving DecidableEq, Repr

def Write.stop (w : Write) : Nat := w.offset + w.bytes.length

def Write.run (buffer : Bytes) (w : Write) : Bytes :=
  buffer.take w.offset ++ w.bytes ++ buffer.drop w.stop

def runWrites (buffer : Bytes) (writes : List Write) : Bytes :=
  writes.foldl Write.run buffer

def load (buffer : Bytes) (offset size : Nat) : Bytes :=
  (buffer.drop offset).take size

def Write.Apart (w v : Write) : Prop := w.stop ≤ v.offset ∨ v.stop ≤ w.offset

instance (w v : Write) : Decidable (w.Apart v) := inferInstanceAs (Decidable (_ ∨ _))

@[simp] theorem length_load (buffer : Bytes) (offset size : Nat) :
    (load buffer offset size).length = min size (buffer.length - offset) := by
  simp [load]

theorem length_run {buffer : Bytes} {w : Write} (inside : w.stop ≤ buffer.length) :
    (w.run buffer).length = buffer.length := by
  unfold Write.stop at inside
  simp only [Write.run, Write.stop, List.length_append, List.length_take, List.length_drop]
  omega

theorem getElem?_run {buffer : Bytes} {w : Write} (inside : w.stop ≤ buffer.length) (i : Nat) :
    (w.run buffer)[i]? =
      if w.offset ≤ i ∧ i < w.stop then w.bytes[i - w.offset]? else buffer[i]? := by
  unfold Write.stop at inside ⊢
  have front : min w.offset buffer.length = w.offset := Nat.min_eq_left (by omega)
  simp only [Write.run, Write.stop, List.getElem?_append, List.length_append, List.length_take,
    List.getElem?_take, List.getElem?_drop, front]
  by_cases before : i < w.offset
  · rw [if_pos (by omega), if_pos before, if_pos before, if_neg (by omega)]
  · by_cases after : i < w.offset + w.bytes.length
    · rw [if_pos after, if_neg before, if_pos ⟨by omega, after⟩]
    · rw [if_neg after, if_neg (by omega)]
      congr 1
      omega

theorem load_run_same {buffer : Bytes} {w : Write} (inside : w.stop ≤ buffer.length) :
    load (w.run buffer) w.offset w.bytes.length = w.bytes := by
  apply List.ext_getElem?
  intro i
  simp only [load, List.getElem?_take, List.getElem?_drop, getElem?_run inside]
  by_cases within : i < w.bytes.length
  · rw [if_pos within, if_pos ⟨by omega, by unfold Write.stop; omega⟩, Nat.add_sub_cancel_left]
  · rw [if_neg within, List.getElem?_eq_none (by omega)]

theorem load_run_apart {buffer : Bytes} {w : Write} (inside : w.stop ≤ buffer.length)
    {offset size : Nat} (apart : w.stop ≤ offset ∨ offset + size ≤ w.offset) :
    load (w.run buffer) offset size = load buffer offset size := by
  apply List.ext_getElem?
  intro i
  simp only [load, List.getElem?_take, List.getElem?_drop, getElem?_run inside]
  by_cases within : i < size
  · rw [if_pos within, if_pos within, if_neg (by omega)]
  · rw [if_neg within, if_neg within]

def Write.Inside (length : Nat) (w : Write) : Prop := w.stop ≤ length

instance (length : Nat) (w : Write) : Decidable (w.Inside length) :=
  inferInstanceAs (Decidable (_ ≤ _))

theorem length_runWrites {writes : List Write} {buffer : Bytes}
    (inside : ∀ w ∈ writes, w.Inside buffer.length) :
    (runWrites buffer writes).length = buffer.length := by
  induction writes generalizing buffer with
  | nil => rfl
  | cons w rest ih =>
    have kept : (w.run buffer).length = buffer.length := length_run (inside w List.mem_cons_self)
    change (runWrites (w.run buffer) rest).length = _
    rw [ih (fun v member => kept ▸ inside v (List.mem_cons_of_mem w member)), kept]

theorem run_append {buffer : Bytes} {w : Write} (inside : w.Inside buffer.length) (tail : Bytes) :
    w.run (buffer ++ tail) = w.run buffer ++ tail := by
  unfold Write.Inside Write.stop at inside
  have start : w.offset ≤ buffer.length := by omega
  simp only [Write.run, Write.stop, List.append_assoc]
  rw [List.take_append_of_le_length start, List.drop_append_of_le_length inside]

theorem runWrites_append {writes : List Write} {buffer : Bytes}
    (inside : ∀ w ∈ writes, w.Inside buffer.length) (tail : Bytes) :
    runWrites (buffer ++ tail) writes = runWrites buffer writes ++ tail := by
  induction writes generalizing buffer with
  | nil => rfl
  | cons w rest ih =>
    have here := inside w List.mem_cons_self
    change runWrites (w.run (buffer ++ tail)) rest = runWrites (w.run buffer) rest ++ tail
    rw [run_append here, ih]
    rw [length_run here]
    exact fun v member => inside v (List.mem_cons_of_mem w member)

theorem load_runWrites_apart {writes : List Write} {buffer : Bytes} {offset size : Nat}
    (inside : ∀ w ∈ writes, w.Inside buffer.length)
    (apart : ∀ w ∈ writes, w.stop ≤ offset ∨ offset + size ≤ w.offset) :
    load (runWrites buffer writes) offset size = load buffer offset size := by
  induction writes generalizing buffer with
  | nil => rfl
  | cons w rest ih =>
    have kept : (w.run buffer).length = buffer.length := length_run (inside w List.mem_cons_self)
    change load (runWrites (w.run buffer) rest) offset size = _
    rw [ih (fun v member => kept ▸ inside v (List.mem_cons_of_mem w member))
      (fun v member => apart v (List.mem_cons_of_mem w member)),
      load_run_apart (inside w List.mem_cons_self) (apart w List.mem_cons_self)]

/-- What was written last at a place is read there. -/
theorem load_runWrites {before after : List Write} {w : Write} {buffer : Bytes}
    (inside : ∀ v ∈ before ++ w :: after, v.Inside buffer.length)
    (apart : ∀ v ∈ after, v.Apart w) :
    load (runWrites buffer (before ++ w :: after)) w.offset w.bytes.length = w.bytes := by
  simp only [List.forall_mem_append, List.forall_mem_cons] at inside
  obtain ⟨insideBefore, insideWrite, insideAfter⟩ := inside
  have kept : (runWrites buffer before).length = buffer.length := length_runWrites insideBefore
  have now : w.Inside (runWrites buffer before).length := kept ▸ insideWrite
  rw [runWrites, List.foldl_append, List.foldl_cons]
  change load (runWrites (w.run (runWrites buffer before)) after) _ _ = _
  rw [load_runWrites_apart _ apart, load_run_same now]
  rw [length_run now, kept]
  exact insideAfter

theorem load_runWrites_map {ι : Type u} (write : ι → Write) {before after : List ι} {i : ι}
    {buffer : Bytes} (inside : ∀ j ∈ before ++ i :: after, (write j).Inside buffer.length)
    (apart : ∀ j ∈ after, (write j).Apart (write i)) :
    load (runWrites buffer ((before ++ i :: after).map write)) (write i).offset
      (write i).bytes.length = (write i).bytes := by
  have inside := List.forall_mem_map.mpr inside
  rw [List.map_append, List.map_cons] at inside ⊢
  exact load_runWrites inside (List.forall_mem_map.mpr apart)

theorem load_add (buffer : Bytes) (start first second : Nat) :
    load buffer start (first + second) =
      load buffer start first ++ load buffer (start + first) second := by
  rw [load, load, load, List.take_add, List.drop_drop]

theorem load_drop (buffer : Bytes) (start offset size : Nat) :
    load (buffer.drop start) offset size = load buffer (start + offset) size := by
  rw [load, List.drop_drop, load]

theorem load_load {buffer : Bytes} {start length offset size : Nat}
    (fits : offset + size ≤ length) :
    load (load buffer start length) offset size = load buffer (start + offset) size := by
  simp only [load, List.drop_take, List.drop_drop, List.take_take]
  rw [Nat.min_eq_left (by omega)]

end VirtueSensing.CLayout
