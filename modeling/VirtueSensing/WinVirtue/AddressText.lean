import VirtueSensing.WinVirtue.EventDecoder

set_option autoImplicit false

/-!
# How addresses are printed

`LongLongToHex` takes the absolute value of a number from 2^64, which is its two's complement for the
negative ones only.
-/

namespace VirtueSensing.WinVirtue

open Integers CLayout Driver

-- `hex(n)`
def hexNumeral (n : Nat) : Text := '0' :: 'x' :: Nat.toDigits 16 n

theorem hexNumeral_inj {n m : Nat} : hexNumeral n = hexNumeral m ↔ n = m := by
  simp only [hexNumeral, List.cons.injEq, true_and, toDigits_inj]

theorem longLongToHex_eq (num : Int) : longLongToHex num = hexNumeral (2 ^ 64 - num.natAbs) := rfl

section Words

variable {v w : UInt64}

theorem natAbs_signed (w : UInt64) :
    w.toBitVec.toInt.natAbs = if w.toNat < 2 ^ 63 then w.toNat else 2 ^ 64 - w.toNat := by
  have below := w.toNat_lt
  rw [BitVec.toInt_eq_toNat_cond, UInt64.toNat_toBitVec]
  split_ifs <;> omega

theorem signed_printed_iff : longLongToHex w.toBitVec.toInt = hexNumeral w.toNat ↔ 2 ^ 63 ≤ w.toNat := by
  have below := w.toNat_lt
  rw [longLongToHex_eq, hexNumeral_inj, natAbs_signed]
  split_ifs <;> omega

theorem unsigned_printed_iff : longLongToHex w.toNat = hexNumeral w.toNat ↔ w.toNat = 2 ^ 63 := by
  have below := w.toNat_lt
  rw [longLongToHex_eq, hexNumeral_inj, Int.natAbs_natCast]
  omega

theorem signed_alike_iff :
    longLongToHex v.toBitVec.toInt = longLongToHex w.toBitVec.toInt ↔ v = w ∨ v = -w := by
  have first := v.toNat_lt
  have second := w.toNat_lt
  have opposite : (-w).toNat = (2 ^ 64 - w.toNat) % 2 ^ 64 := UInt64.toNat_neg w
  rw [longLongToHex_eq, longLongToHex_eq, hexNumeral_inj, natAbs_signed, natAbs_signed,
    ← UInt64.toNat_inj, ← UInt64.toNat_inj, opposite]
  split_ifs <;> omega

theorem unsigned_alike_iff : longLongToHex v.toNat = longLongToHex w.toNat ↔ v = w := by
  have first := v.toNat_lt
  have second := w.toNat_lt
  rw [longLongToHex_eq, longLongToHex_eq, hexNumeral_inj, Int.natAbs_natCast, Int.natAbs_natCast,
    ← UInt64.toNat_inj]
  omega

end Words

section Fields

variable {r : Record} {path : List FieldName} {packet : Bytes}

-- The field whose value is passed to `LongLongToHex`.
def Source.hexed : Source → Option (List FieldName)
  | longLongHex path | unsignedLongLongHex path => some path
  | _ => none

def wordAt (r : Record) (path : List FieldName) (packet : Bytes) : UInt64 :=
  .ofNat (little (contents r path packet))

theorem hexed_word (r : Record) : ∀ element ∈ namedTuple r, ∀ path ∈ element.2.hexed,
    (field r path).size = 8 ∧ (field r path).offset + 8 ≤ r.user.size := by
  cases r <;> decide +kernel

theorem length_contents {element : String × Source} (member : element ∈ namedTuple r)
    (hexed : path ∈ element.2.hexed) (whole : r.user.size ≤ packet.length) :
    (contents r path packet).length = 8 := by
  obtain ⟨size, inside⟩ := hexed_word r element member path hexed
  rw [contents, length_load, size]
  omega

theorem toNat_wordAt (eight : (contents r path packet).length = 8) :
    (wordAt r path packet).toNat = little (contents r path packet) := by
  have below : little (contents r path packet) < 256 ^ 8 := by
    have fits := unsigned_lt (contents r path packet).reverse
    rwa [List.length_reverse, eight] at fits
  exact UInt64.toNat_ofNat_of_lt' below

theorem signed_wordAt (eight : (contents r path packet).length = 8) :
    signed (contents r path packet) = (wordAt r path packet).toBitVec.toInt := by
  rw [BitVec.toInt_eq_toNat_cond, UInt64.toNat_toBitVec, toNat_wordAt eight, signed, eight]
  rfl

end Fields

/-- A word is printed right from a signed field exactly if its highest bit is set, and from an unsigned
one exactly if it is 2^63. Distinct words look alike exactly if they are opposite and the field is
signed. -/
theorem addresses_printed_iff (v w : UInt64) (r : Record) (packet : Bytes) (string : Text) :
    ((longLongToHex w.toBitVec.toInt = hexNumeral w.toNat ↔ 2 ^ 63 ≤ w.toNat) ∧
      (longLongToHex w.toNat = hexNumeral w.toNat ↔ w.toNat = 2 ^ 63)) ∧
    ((longLongToHex v.toBitVec.toInt = longLongToHex w.toBitVec.toInt ↔ v = w ∨ v = -w) ∧
      (longLongToHex v.toNat = longLongToHex w.toNat ↔ v = w)) ∧
    (r.user.size ≤ packet.length → ∀ element ∈ namedTuple r, ∀ path,
      (element.2 = .longLongHex path → (element.2.value r packet string =
        some (.text (hexNumeral (wordAt r path packet).toNat)) ↔ 2 ^ 63 ≤ (wordAt r path packet).toNat)) ∧
      (element.2 = .unsignedLongLongHex path → (element.2.value r packet string =
        some (.text (hexNumeral (wordAt r path packet).toNat)) ↔
          (wordAt r path packet).toNat = 2 ^ 63))) := by
  refine ⟨⟨signed_printed_iff, unsigned_printed_iff⟩, ⟨signed_alike_iff, unsigned_alike_iff⟩, ?_⟩
  intro whole element member path
  constructor
  · intro source
    have eight := length_contents member (by rw [source]; rfl) whole
    rw [source, Source.value, signed_wordAt eight, Option.some_inj, Value.text.injEq, signed_printed_iff]
  · intro source
    have eight := length_contents member (by rw [source]; rfl) whole
    rw [source, Source.value, ← toNat_wordAt eight, Option.some_inj, Value.text.injEq,
      unsigned_printed_iff]

-- A record of a process that ends, with the address of its object.
def endedProcess (eProcess : Nat) : Bytes :=
  zeroBytes (field .processDestroyInfo [.eProcess]).offset ++ littleEndian 8 eProcess

theorem kernelAddress_printed :
    Source.value .processDestroyInfo (endedProcess 0xffff888012345678) [] (.longLongHex [.eProcess]) =
      some (.text "0xffff888012345678".toList) := by
  have printed := (addresses_printed_iff 0 0 .processDestroyInfo (endedProcess 0xffff888012345678) []).2.2
    (by decide) ("EProcess", .longLongHex [.eProcess]) (by decide) [.eProcess]
  have word : (wordAt .processDestroyInfo [.eProcess] (endedProcess 0xffff888012345678)).toNat =
      0xffff888012345678 := by decide +kernel
  rw [word] at printed
  exact (printed.1 rfl).mpr (by decide)

-- The base address of an image in user space, and two addresses that are opposite.
theorem userAddress_complemented :
    longLongToHex 0x7ff600000000 = "0xffff800a00000000".toList ∧
    (¬ ∀ w : UInt64, longLongToHex w.toBitVec.toInt = hexNumeral w.toNat) ∧
    ¬ ∀ v w : UInt64, longLongToHex v.toBitVec.toInt = longLongToHex w.toBitVec.toInt → v = w := by
  refine ⟨by decide +kernel, fun all => ?_, fun all => ?_⟩
  · exact absurd (signed_printed_iff.mp (all 0x7ff600000000)) (by decide)
  · exact absurd (all 1 (-1) (signed_alike_iff.mpr (.inr rfl))) (by decide)

end VirtueSensing.WinVirtue
