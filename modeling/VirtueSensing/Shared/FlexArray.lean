import Mathlib.Logic.Function.Basic
import Mathlib.Tactic.Common

set_option autoImplicit false

/-!
# Preallocated flex arrays

All parts of the array are allocated when it is made, so every element below its size can be read.
-/

namespace VirtueSensing

universe u

structure FlexArray (α : Type u) where
  size : Nat
  slot : Nat → α

namespace FlexArray

variable {α : Type u} (a : FlexArray α)

def get (i : Nat) : Option α :=
  if i < a.size then some (a.slot i) else none

-- Without effect outside the array, as `flex_array_put` and `flex_array_clear` are.
def put (i : Nat) (x : α) : FlexArray α :=
  if i < a.size then { a with slot := Function.update a.slot i x } else a

@[simp] theorem size_put (i : Nat) (x : α) : (a.put i x).size = a.size := by
  unfold put
  split_ifs <;> rfl

theorem slot_put_same {i : Nat} (inside : i < a.size) (x : α) : (a.put i x).slot i = x := by
  simp [put, inside]

theorem slot_put_other {i j : Nat} (other : j ≠ i) (x : α) : (a.put i x).slot j = a.slot j := by
  unfold put
  split_ifs
  · exact Function.update_of_ne other x a.slot
  · rfl

theorem slot_put (i j : Nat) (x : α) : (a.put i x).slot j = x ∨ (a.put i x).slot j = a.slot j := by
  by_cases here : j = i
  · unfold put
    split_ifs
    · exact .inl (by simp [here])
    · exact .inr rfl
  · exact .inr (a.slot_put_other here x)

theorem get_eq_some {i : Nat} (inside : i < a.size) : a.get i = some (a.slot i) :=
  if_pos inside

-- One element behind the other, from `i` on.
def putAll (a : FlexArray α) : Nat → List α → FlexArray α
  | _, [] => a
  | i, x :: xs => (a.put i x).putAll (i + 1) xs

@[simp] theorem size_putAll (i : Nat) (xs : List α) : (a.putAll i xs).size = a.size := by
  induction xs generalizing a i with
  | nil => rfl
  | cons x xs ih => rw [putAll, ih, size_put]

theorem putAll_append (i : Nat) (xs ys : List α) :
    a.putAll i (xs ++ ys) = (a.putAll i xs).putAll (i + xs.length) ys := by
  induction xs generalizing a i with
  | nil => rfl
  | cons x xs ih =>
    rw [List.cons_append, putAll, ih, putAll, List.length_cons, Nat.add_right_comm, Nat.add_assoc]

theorem slot_putAll_outside {i j : Nat} {xs : List α} (outside : j < i ∨ i + xs.length ≤ j) :
    (a.putAll i xs).slot j = a.slot j := by
  induction xs generalizing a i with
  | nil => rfl
  | cons x xs ih =>
    rw [List.length_cons] at outside
    rw [putAll, ih _ (by omega), a.slot_put_other (by omega)]

theorem slot_putAll {i k : Nat} {xs : List α} (room : i + xs.length ≤ a.size) {x : α}
    (here : xs[k]? = some x) : (a.putAll i xs).slot (i + k) = x := by
  induction xs generalizing a i k with
  | nil => cases here
  | cons y xs ih =>
    rw [List.length_cons] at room
    cases k with
    | zero =>
      obtain rfl := Option.some.inj here
      rw [putAll, slot_putAll_outside _ (.inl (by omega)), Nat.add_zero, a.slot_put_same (by omega)]
    | succ k =>
      have later := ih (a.put i y) (i := i + 1) (by rw [size_put]; omega) here
      rw [putAll, ← later, Nat.add_right_comm, Nat.add_assoc]

end FlexArray

end VirtueSensing
