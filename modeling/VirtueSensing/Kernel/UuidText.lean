import Mathlib.Data.List.GetD
import Mathlib.Tactic.IntervalCases
import VirtueSensing.Kernel.Discovery

set_option autoImplicit false

/-!
# The text of an uuid

What `%pUb` prints, `uuid_parse` reads back, in either letter case, and it reads nothing else.
-/

namespace VirtueSensing.Kernel

def toLower (c : UInt8) : UInt8 :=
  if 65 ≤ c ∧ c ≤ 90 then c + 32 else c

theorem hexToBin_eq_some {c d : UInt8} :
    hexToBin c = some d ↔ d < 16 ∧ toLower c = hexDigit d := by
  unfold hexToBin toLower hexDigit
  constructor
  · intro read
    split_ifs at read ⊢ <;> grind
  · intro printed
    split_ifs at printed ⊢ <;> grind

theorem toLower_eq_dash {c : UInt8} : toLower c = 45 ↔ c = 45 := by
  unfold toLower
  split_ifs <;> grind

theorem halves_eq {high low b : UInt8} (highSmall : high < 16) (lowSmall : low < 16) :
    high * 16 + low = b ↔ high = b / 16 ∧ low = b % 16 := by
  grind

theorem halves_lt (b : UInt8) : b / 16 < 16 ∧ b % 16 < 16 := by
  grind

def dashes : List Nat := [8, 13, 18, 23]

theorem printUuid_dash (uuid : Bytes) {p : Nat} (dash : p ∈ dashes) :
    (printUuid uuid)[p]? = some 45 := by
  simp only [dashes, List.mem_cons, List.not_mem_nil, or_false] at dash
  rcases dash with rfl | rfl | rfl | rfl <;> rfl

theorem printUuid_high (uuid : Bytes) {j : Nat} (byte : j < 16) :
    (printUuid uuid)[uuidOffsets.getD j 0]? = some (hexDigit (uuid.getD j 0 / 16)) := by
  interval_cases j <;> rfl

theorem printUuid_low (uuid : Bytes) {j : Nat} (byte : j < 16) :
    (printUuid uuid)[uuidOffsets.getD j 0 + 1]? = some (hexDigit (uuid.getD j 0 % 16)) := by
  interval_cases j <;> rfl

theorem uuid_places : ∀ p < uuidStringLen, p ∈ dashes ∨
    ∃ j < 16, p = uuidOffsets.getD j 0 ∨ p = uuidOffsets.getD j 0 + 1 := by
  decide

section Parse

variable {key uuid : Bytes}

theorem byte_iff {i : Nat} {b : UInt8} :
    (do
      let high ← hexToBin (← key[i]?)
      let low ← hexToBin (← key[i + 1]?)
      pure (high * 16 + low)) = some b ↔
    (key.map toLower)[i]? = some (hexDigit (b / 16)) ∧
      (key.map toLower)[i + 1]? = some (hexDigit (b % 16)) := by
  simp only [Option.bind_eq_bind, Option.bind_eq_some_iff, Option.pure_def, Option.some.injEq,
    List.getElem?_map, Option.map_eq_some_iff]
  constructor
  · rintro ⟨c, first, high, readHigh, c', second, low, readLow, sum⟩
    obtain ⟨highSmall, lowerHigh⟩ := hexToBin_eq_some.mp readHigh
    obtain ⟨lowSmall, lowerLow⟩ := hexToBin_eq_some.mp readLow
    obtain ⟨rfl, rfl⟩ := (halves_eq highSmall lowSmall).mp sum
    exact ⟨⟨c, first, lowerHigh⟩, c', second, lowerLow⟩
  · rintro ⟨⟨c, first, lowerHigh⟩, c', second, lowerLow⟩
    obtain ⟨highSmall, lowSmall⟩ := halves_lt b
    exact ⟨c, first, b / 16, hexToBin_eq_some.mpr ⟨highSmall, lowerHigh⟩, c', second, b % 16,
      hexToBin_eq_some.mpr ⟨lowSmall, lowerLow⟩, (halves_eq highSmall lowSmall).mpr ⟨rfl, rfl⟩⟩

theorem uuidIsValid_iff :
    uuidIsValid key ↔ ∀ p < uuidStringLen,
      ∃ c, key[p]? = some c ∧ if p ∈ dashes then c = 45 else (hexToBin c).isSome := by
  simp only [uuidIsValid, List.all_eq_true, List.mem_range]
  refine forall₂_congr fun p _ => ?_
  cases key[p]? with
  | none => simp
  | some c =>
    simp only [Option.some.injEq, exists_eq_left']
    show (if p ∈ dashes then decide (c = 45) else (hexToBin c).isSome) = true ↔ _
    split
    · exact decide_eq_true_iff
    · exact Iff.rfl

theorem offset_not_dash : ∀ j < 16,
    uuidOffsets.getD j 0 ∉ dashes ∧ uuidOffsets.getD j 0 + 1 ∉ dashes := by
  decide

theorem uuidIsValid_of_lower (printed : key.map toLower = printUuid uuid) : uuidIsValid key := by
  have at_place (p : Nat) : (key[p]?).map toLower = (printUuid uuid)[p]? := by
    rw [← printed, List.getElem?_map]
  rw [uuidIsValid_iff]
  intro p inside
  rcases uuid_places p inside with dash | ⟨j, byte, rfl | rfl⟩
  · have here := at_place p
    rw [printUuid_dash uuid dash, Option.map_eq_some_iff] at here
    obtain ⟨c, found, lower⟩ := here
    exact ⟨c, found, by rw [if_pos dash]; exact toLower_eq_dash.mp lower⟩
  · have here := at_place (uuidOffsets.getD j 0)
    rw [printUuid_high uuid byte, Option.map_eq_some_iff] at here
    obtain ⟨c, found, lower⟩ := here
    refine ⟨c, found, ?_⟩
    rw [if_neg (offset_not_dash j byte).1, hexToBin_eq_some.mpr ⟨(halves_lt _).1, lower⟩]
    rfl
  · have here := at_place (uuidOffsets.getD j 0 + 1)
    rw [printUuid_low uuid byte, Option.map_eq_some_iff] at here
    obtain ⟨c, found, lower⟩ := here
    refine ⟨c, found, ?_⟩
    rw [if_neg (offset_not_dash j byte).2, hexToBin_eq_some.mpr ⟨(halves_lt _).2, lower⟩]
    rfl

theorem bytes_iff (sized : uuid.length = 16) :
    List.Forall₂ (fun i b =>
      (key.map toLower)[i]? = some (hexDigit (b / 16)) ∧
        (key.map toLower)[i + 1]? = some (hexDigit (b % 16))) uuidOffsets uuid ↔
      ∀ j < 16, (key.map toLower)[uuidOffsets.getD j 0]? = some (hexDigit (uuid.getD j 0 / 16)) ∧
        (key.map toLower)[uuidOffsets.getD j 0 + 1]? = some (hexDigit (uuid.getD j 0 % 16)) := by
  rw [List.forall₂_iff_get]
  constructor
  · rintro ⟨-, each⟩ j byte
    rw [List.getD_eq_getElem uuidOffsets 0 byte, List.getD_eq_getElem uuid 0 (sized ▸ byte)]
    exact each j byte (sized ▸ byte)
  · intro each
    refine ⟨sized.symm, fun j byte within => ?_⟩
    have here := each j byte
    rw [List.getD_eq_getElem uuidOffsets 0 byte, List.getD_eq_getElem uuid 0 within] at here
    exact here

/-- A key of the length of an uuid is read as the uuid whose text it is, in either letter case. -/
theorem uuidParse_eq_some (sized : key.length = uuidStringLen) :
    uuidParse key = some uuid ↔ uuid.length = 16 ∧ key.map toLower = printUuid uuid := by
  constructor
  · intro parsed
    rw [uuidParse] at parsed
    split at parsed
    · rename_i valid
      rw [uuidIsValid_iff] at valid
      have each := Lists.mapM_eq_some.mp parsed
      simp only [byte_iff] at each
      have length : uuid.length = 16 := each.length_eq.symm
      rw [bytes_iff length] at each
      refine ⟨length, List.ext_getElem? fun p => ?_⟩
      by_cases inside : p < uuidStringLen
      · rcases uuid_places p inside with dash | ⟨j, byte, rfl | rfl⟩
        · obtain ⟨c, found, shape⟩ := valid p inside
          rw [if_pos dash] at shape
          rw [List.getElem?_map, found, printUuid_dash uuid dash, Option.map_some, shape]
          rfl
        · rw [printUuid_high uuid byte]
          exact (each j byte).1
        · rw [printUuid_low uuid byte]
          exact (each j byte).2
      · rw [List.getElem?_eq_none (by simp; omega), List.getElem?_eq_none (by simp; omega)]
    · cases parsed
  · rintro ⟨length, printed⟩
    rw [uuidParse, if_pos (uuidIsValid_of_lower printed), Lists.mapM_eq_some]
    simp only [byte_iff]
    rw [bytes_iff length, printed]
    exact fun j byte => ⟨printUuid_high uuid byte, printUuid_low uuid byte⟩

end Parse

end VirtueSensing.Kernel
