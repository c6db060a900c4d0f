import Mathlib.Data.List.TakeWhile
import Mathlib.Tactic.Common

set_option autoImplicit false

/-!
# Parameters of API requests

Decoded JSON values, the validators of `ApiServer.ExtractionPlug` and the casts of Ecto.
-/

namespace VirtueSensing.Api

/-- A decoded JSON value. A map has no order. -/
inductive Json where
  | null
  | bool (b : Bool)
  | integer (n : Int)
  | float (text : String)
  | string (s : String)
  | array (elements : List Json)
  | object (member : String → Option Json)

-- `value[key]`; `none` where Elixir raises.
def Json.access (key : String) : Json → Option Json
  | .null => some .null
  | .object member => some ((member key).getD .null)
  | _ => none

-- `$` also matches in front of a newline that ends the string.
def dropNewline (st : List Char) : List Char :=
  if st.getLast? = some '\n' then st.dropLast else st

def isAlphanumeric (c : Char) : Bool :=
  c.isAlpha || c.isDigit

def isWordChar (c : Char) : Bool :=
  isAlphanumeric c || c == '_'

-- One dot-free part of a host name, which has no dash at its ends.
def isLabel (inside : Char → Bool) (label : List Char) : Bool :=
  label ≠ [] ∧ (label.head?.map inside).getD false ∧ (label.getLast?.map inside).getD false ∧
    label.all fun c => inside c || c == '-'

def isDotted (inside : Char → Bool) (st : String) : Bool :=
  ((dropNewline st.toList).splitOn '.').all (isLabel inside)

def isSensorId (st : String) : Bool := isDotted isAlphanumeric st
def isHostname (st : String) : Bool := isDotted isWordChar st

def isUsername (st : String) : Bool :=
  dropNewline st.toList ≠ [] ∧ (dropNewline st.toList).all fun c => c != '\n'

def isVirtueId (st : String) : Bool :=
  dropNewline st.toList ≠ [] ∧ (dropNewline st.toList).all fun c => isWordChar c || c == '-' || c == '.'

def isUuid (st : String) : Bool :=
  ((dropNewline st.toList).splitOn '-').map List.length = [8, 4, 4, 4, 12] ∧
    (dropNewline st.toList).all fun c => isAlphanumeric c || c == '-'

def isApplicationId (st : String) : Bool := isUuid st
def isResourceId (st : String) : Bool := isUuid st

def splitSign : List Char → Int × List Char
  | '+' :: rest => (1, rest)
  | '-' :: rest => (-1, rest)
  | rest => (1, rest)

-- `Integer.parse`: the number at the start and what follows it.
def integerParse (text : List Char) : Option (Int × List Char) :=
  let (sign, rest) := splitSign text
  let digits := rest.takeWhile Char.isDigit
  if digits = [] then none
  else some (sign * Nat.ofDigitChars 10 digits 0, rest.dropWhile Char.isDigit)

def isSensorPort : Json → Option Bool
  | .integer _ => some true
  | .string p => some (integerParse p.toList).isSome
  | _ => none

mutual

def isIodata : Json → Bool
  | .string _ => true
  | .array elements => areIodata elements
  | _ => false

def areIodata : List Json → Bool
  | [] => true
  | .integer n :: rest => 0 ≤ n ∧ n < 256 ∧ areIodata rest
  | element :: rest => isIodata element && areIodata rest

end

def interpolatePort : Json → String
  | .integer n => toString n
  | .string p => p
  | _ => ""

-- `none` for a value that the cast rejects, `some none` for a missing one. An empty string stands
-- for the default of the field.
def castString (fallback : Option String) : Json → Option (Option String)
  | .null => some none
  | .string s => some (if s = "" then fallback else some s)
  | _ => none

-- A string is taken only if `Integer.parse` consumes all of it.
def castInteger (fallback : Option Int) : Json → Option (Option Int)
  | .null => some none
  | .integer n => some (some n)
  | .string s =>
    if s = "" then some fallback
    else match integerParse s.toList with
      | some (n, []) => some (some n)
      | _ => none
  | _ => none

def DenotesPort (text : String) (port : Int) : Prop :=
  integerParse text.toList = some (port, [])

theorem integerParse_toDigits (n : Nat) : integerParse (Nat.toDigits 10 n) = some ((n : Int), []) := by
  have digits : ∀ c ∈ Nat.toDigits 10 n, c.isDigit := fun c mem =>
    Nat.isDigit_of_mem_toDigits (by decide) (by decide) mem
  have unsigned : splitSign (Nat.toDigits 10 n) = (1, Nat.toDigits 10 n) := by
    unfold splitSign
    split
    · next rest same => exact absurd (digits '+' (by simp [same])) (by decide)
    · next rest same => exact absurd (digits '-' (by simp [same])) (by decide)
    · rfl
  have all : (Nat.toDigits 10 n).takeWhile Char.isDigit = Nat.toDigits 10 n :=
    List.takeWhile_eq_self_iff.mpr digits
  have rest : (Nat.toDigits 10 n).dropWhile Char.isDigit = [] :=
    List.dropWhile_eq_nil_iff.mpr digits
  simp only [integerParse, unsigned, all, rest, Nat.toDigits_ne_nil, if_false,
    Nat.ofDigitChars_ten_toDigits, Int.one_mul]

theorem interpolatePort_denotes {p : Json} {port : Int} (positive : 0 < port)
    (casted : castInteger none p = some (some port)) : DenotesPort (interpolatePort p) port := by
  unfold castInteger at casted
  split at casted
  · simp at casted
  · next n =>
    obtain rfl : n = port := by simpa using casted
    obtain ⟨k, rfl⟩ := Int.eq_ofNat_of_zero_le (Int.le_of_lt positive)
    show integerParse (Nat.repr k).toList = some ((k : Int), [])
    rw [Nat.toList_repr]
    exact integerParse_toDigits k
  · split_ifs at casted with blank
    · simp at casted
    · split at casted
      · next n parsed =>
        obtain rfl : n = port := by simpa using casted
        exact parsed
      · simp at casted
  · simp at casted

end VirtueSensing.Api
