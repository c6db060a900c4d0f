import Mathlib.Data.List.Basic
import Mathlib.Tactic.Common

set_option autoImplicit false

namespace VirtueSensing

theorem Except.of_bind_ok {ε α β : Type} {x : Except ε α} {f : α → Except ε β} {b : β}
    (bound : x >>= f = .ok b) : ∃ a, x = .ok a ∧ f a = .ok b := by
  cases x with
  | error e => cases bound
  | ok a => exact ⟨a, rfl, bound⟩

theorem Except.ok_bind {ε α β : Type} (a : α) (f : α → Except ε β) :
    (Except.ok a >>= f) = f a := rfl

theorem Except.bind_eq_ok_iff {ε α β : Type} {x : Except ε α} {f : α → Except ε β} {b : β} :
    x >>= f = .ok b ↔ ∃ a, x = .ok a ∧ f a = .ok b := by
  constructor
  · exact Except.of_bind_ok
  · rintro ⟨a, found, next⟩
    rw [found, Except.ok_bind, next]

abbrev Bytes := List UInt8

-- Checked at the bytes of the list, and not at all values that a byte can have.
instance (priority := high) Bytes.decidableForall (p : UInt8 → Prop) [DecidablePred p]
    (bytes : Bytes) : Decidable (∀ b ∈ bytes, p b) :=
  List.decidableBAll p bytes

-- The bytes of a C string literal, without its terminating zero.
def ascii (s : String) : Bytes :=
  s.toList.map fun c => c.toNat.toUInt8

namespace Bytes

-- What C reads as a string at the start of a buffer.
def cString (bytes : Bytes) : Bytes :=
  bytes.takeWhile (· ≠ 0)

theorem length_cString_le (bytes : Bytes) : bytes.cString.length ≤ bytes.length :=
  (List.takeWhile_sublist _).length_le

theorem zero_not_mem_cString (bytes : Bytes) : 0 ∉ bytes.cString := by
  intro member
  have all : bytes.cString.all (· ≠ 0) := List.all_takeWhile
  exact of_decide_eq_true (List.all_eq_true.mp all 0 member) rfl

theorem cString_append (bytes rest : Bytes) (text : 0 ∉ bytes) :
    cString (bytes ++ rest) = bytes ++ rest.cString := by
  apply List.takeWhile_append_of_pos
  intro b member
  exact decide_eq_true fun zero => text (zero ▸ member)

theorem cString_eq_self (bytes : Bytes) (text : 0 ∉ bytes) : bytes.cString = bytes := by
  simpa [cString] using bytes.cString_append [] text

theorem cString_append_zero (bytes rest : Bytes) (text : 0 ∉ bytes) :
    cString (bytes ++ 0 :: rest) = bytes := by
  rw [cString_append bytes _ text]
  simp [cString]

def slice (line : Bytes) (start : Nat) (stop : Int) : Bytes :=
  (line.drop start).take (stop - start).toNat

end Bytes

end VirtueSensing
