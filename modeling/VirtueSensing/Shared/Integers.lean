import VirtueSensing.Shared.Dissect

set_option autoImplicit false

/-!
# Integers of a fixed width

Both byte orders, two's complement, and hexadecimal digits with leading zeros.
-/

namespace VirtueSensing.Integers

open Dissect

def littleEndian (width n : Nat) : Bytes := (bigEndian width n).reverse

def little (bytes : Bytes) : Nat := unsigned bytes.reverse

def signed (bytes : Bytes) : Int :=
  if 2 * little bytes < 256 ^ bytes.length then little bytes
  else little bytes - (256 ^ bytes.length : Nat)

def hexDigits : Nat → Nat → List Char
  | 0, _ => []
  | width + 1, n => hexDigits width (n / 16) ++ [Nat.digitChar (n % 16)]

@[simp] theorem length_littleEndian (width n : Nat) : (littleEndian width n).length = width := by
  rw [littleEndian, List.length_reverse, length_bigEndian]

theorem unsigned_lt (bytes : Bytes) : unsigned bytes < 256 ^ bytes.length := by
  induction bytes with
  | nil => exact Nat.one_pos
  | cons b rest ih =>
    have byte : b.toNat * 256 ^ rest.length ≤ 255 * 256 ^ rest.length :=
      Nat.mul_le_mul_right _ (Nat.le_of_lt_succ b.toNat_lt)
    rw [unsigned, List.length_cons, Nat.pow_succ]
    omega

theorem bigEndian_unsigned (bytes : Bytes) : bigEndian bytes.length (unsigned bytes) = bytes := by
  induction bytes with
  | nil => rfl
  | cons b rest ih =>
    have below := unsigned_lt rest
    have positive : 0 < 256 ^ rest.length := Nat.pow_pos (by decide)
    have leading : (b.toNat * 256 ^ rest.length + unsigned rest) / 256 ^ rest.length = b.toNat := by
      rw [Nat.mul_comm, Nat.mul_add_div positive, Nat.div_eq_of_lt below, Nat.add_zero]
    have others : (b.toNat * 256 ^ rest.length + unsigned rest) % 256 ^ rest.length =
        unsigned rest := by
      rw [Nat.mul_comm, Nat.mul_add_mod, Nat.mod_eq_of_lt below]
    rw [unsigned, List.length_cons, bigEndian, leading, others, ih, Nat.toUInt8_eq,
      UInt8.ofNat_toNat]

theorem little_littleEndian {width n : Nat} (fits : n < 256 ^ width) :
    little (littleEndian width n) = n := by
  rw [little, littleEndian, List.reverse_reverse, unsigned_bigEndian fits]

theorem bigEndian_mod (width n : Nat) : bigEndian width (n % 256 ^ width) = bigEndian width n := by
  cases width with
  | zero => rfl
  | succ width =>
    have leading : (n % 256 ^ (width + 1) / 256 ^ width).toUInt8 = (n / 256 ^ width).toUInt8 := by
      rw [Nat.pow_succ, Nat.mod_mul_right_div_self, Nat.toUInt8_eq, Nat.toUInt8_eq]
      exact UInt8.toNat_inj.mp (by simp)
    have others : n % 256 ^ (width + 1) % 256 ^ width = n % 256 ^ width :=
      Nat.mod_mod_of_dvd n (Nat.pow_dvd_pow 256 (Nat.le_succ width))
    rw [bigEndian, bigEndian, leading, others]

theorem little_littleEndian_mod (width n : Nat) : little (littleEndian width n) = n % 256 ^ width := by
  rw [little, littleEndian, List.reverse_reverse, ← bigEndian_mod, unsigned_bigEndian]
  exact Nat.mod_lt n (Nat.pow_pos (by decide))

theorem littleEndian_inj {width n m : Nat} (first : n < 256 ^ width) (second : m < 256 ^ width) :
    littleEndian width n = littleEndian width m ↔ n = m := by
  constructor
  · intro same
    rw [← little_littleEndian first, same, little_littleEndian second]
  · exact fun same => same ▸ rfl

theorem digitChar_inj : ∀ {d e : Nat}, d < 16 → e < 16 → Nat.digitChar d = Nat.digitChar e → d = e := by
  have checked : ∀ d e : Fin 16, Nat.digitChar d = Nat.digitChar e → d = e := by decide
  intro d e first second same
  exact congrArg Fin.val (checked ⟨d, first⟩ ⟨e, second⟩ same)

theorem toDigits_inj {n m : Nat} : Nat.toDigits 16 n = Nat.toDigits 16 m ↔ n = m := by
  refine ⟨fun same => ?_, fun same => same ▸ rfl⟩
  have long (n : Nat) : 0 < (Nat.toDigits 16 n).length := Nat.length_toDigits_pos
  induction n using Nat.strongRecOn generalizing m with
  | ind n ih =>
    rw [Nat.toDigits_eq_if (n := n) (by decide), Nat.toDigits_eq_if (n := m) (by decide)] at same
    split_ifs at same with small small' small'
    · exact digitChar_inj small small' (List.singleton_inj.mp same)
    · have lengths := congrArg List.length same
      have more := long (m / 16)
      simp only [List.length_append, List.length_singleton] at lengths
      omega
    · have lengths := congrArg List.length same
      have more := long (n / 16)
      simp only [List.length_append, List.length_singleton] at lengths
      omega
    · obtain ⟨leading, last⟩ := List.append_inj' same rfl
      have quotients := ih (n / 16) (Nat.div_lt_self (by omega) (by decide)) leading
      have remainders := digitChar_inj (Nat.mod_lt n (by decide)) (Nat.mod_lt m (by decide))
        (List.singleton_inj.mp last)
      omega

@[simp] theorem length_hexDigits (width n : Nat) : (hexDigits width n).length = width := by
  induction width generalizing n with
  | zero => rfl
  | succ width ih => rw [hexDigits, List.length_append, ih, List.length_singleton]

theorem hexDigits_inj {width n m : Nat} (first : n < 16 ^ width) (second : m < 16 ^ width) :
    hexDigits width n = hexDigits width m ↔ n = m := by
  constructor
  · induction width generalizing n m with
    | zero =>
      rw [Nat.lt_one_iff.mp first, Nat.lt_one_iff.mp second]
      exact fun _ => rfl
    | succ width ih =>
      intro same
      rw [Nat.pow_succ] at first second
      rw [hexDigits, hexDigits] at same
      obtain ⟨leading, last⟩ := List.append_inj same (by simp)
      have quotients := ih (Nat.div_lt_of_lt_mul (by omega)) (Nat.div_lt_of_lt_mul (by omega)) leading
      have remainders := digitChar_inj (Nat.mod_lt n (by decide)) (Nat.mod_lt m (by decide))
        (List.singleton_inj.mp last)
      omega
  · exact fun same => same ▸ rfl

end VirtueSensing.Integers
