import Mathlib.Tactic.Common
import VirtueSensing.Shared.Bytes

set_option autoImplicit false

/-!
# UTF-16

Code units in both byte orders, surrogate pairs, and the byte order mark that a decoder without a
given order takes off the front.
-/

namespace VirtueSensing.Utf16

inductive ByteOrder where
  | little
  | big
  deriving DecidableEq, Repr

def joined : ByteOrder → UInt8 → UInt8 → Nat
  | .little, a, b => a.toNat + 256 * b.toNat
  | .big, a, b => 256 * a.toNat + b.toNat

def units (order : ByteOrder) : Bytes → Option (List Nat)
  | [] => some []
  | [_] => none
  | a :: b :: rest => (units order rest).map (joined order a b :: ·)

def unitBytes : ByteOrder → Nat → Bytes
  | .little, u => [u.toUInt8, (u / 256).toUInt8]
  | .big, u => [(u / 256).toUInt8, u.toUInt8]

-- A surrogate that is not one of a pair ends the decoding.
def decodeUnits : List Nat → Option (List Char)
  | [] => some []
  | u :: rest =>
    if u < 0xd800 ∨ 0xe000 ≤ u then (decodeUnits rest).map (Char.ofNat u :: ·)
    else
      match rest with
      | [] => none
      | v :: rest =>
        if u < 0xdc00 ∧ 0xdc00 ≤ v ∧ v < 0xe000 then
          (decodeUnits rest).map (Char.ofNat (0x10000 + (u - 0xd800) * 0x400 + (v - 0xdc00)) :: ·)
        else none

def encodeChar (c : Char) : List Nat :=
  if c.toNat < 0x10000 then [c.toNat]
  else [0xd800 + (c.toNat - 0x10000) / 0x400, 0xdc00 + (c.toNat - 0x10000) % 0x400]

def decode (order : ByteOrder) (bytes : Bytes) : Option (List Char) :=
  (units order bytes).bind decodeUnits

def encode (order : ByteOrder) (text : List Char) : Bytes :=
  text.flatMap fun c => (encodeChar c).flatMap (unitBytes order)

def mark : ByteOrder → Bytes
  | .little => [0xff, 0xfe]
  | .big => [0xfe, 0xff]

def Marked (bytes : Bytes) : Prop := mark .little <+: bytes ∨ mark .big <+: bytes

instance (bytes : Bytes) : Decidable (Marked bytes) := inferInstanceAs (Decidable (_ ∨ _))

/-- Without a mark the bytes are in the order of the machine, the least significant first. -/
def decodeMarked (bytes : Bytes) : Option (List Char) :=
  if mark .little <+: bytes then decode .little (bytes.drop 2)
  else if mark .big <+: bytes then decode .big (bytes.drop 2)
  else decode .little bytes

theorem joined_lt (order : ByteOrder) (a b : UInt8) : joined order a b < 0x10000 := by
  have low := a.toNat_lt
  have high := b.toNat_lt
  cases order with
  | little => simp only [joined]; omega
  | big => simp only [joined]; omega

theorem toUInt8_of_mod {n : Nat} {b : UInt8} (same : n % 256 = b.toNat) : n.toUInt8 = b := by
  apply UInt8.toNat_inj.mp
  rw [Nat.toUInt8_eq, UInt8.toNat_ofNat', same]

theorem unitBytes_joined (order : ByteOrder) (a b : UInt8) :
    unitBytes order (joined order a b) = [a, b] := by
  have low := a.toNat_lt
  have high := b.toNat_lt
  cases order with
  | little =>
    rw [unitBytes, joined, toUInt8_of_mod (b := a) (by omega), toUInt8_of_mod (b := b) (by omega)]
  | big =>
    rw [unitBytes, joined, toUInt8_of_mod (b := a) (by omega), toUInt8_of_mod (b := b) (by omega)]

theorem units_unitBytes (order : ByteOrder) {u : Nat} (small : u < 0x10000) (rest : Bytes) :
    units order (unitBytes order u ++ rest) = (units order rest).map (u :: ·) := by
  have low : u.toUInt8.toNat = u % 256 := by rw [Nat.toUInt8_eq, UInt8.toNat_ofNat']
  have high : (u / 256).toUInt8.toNat = u / 256 := by
    rw [Nat.toUInt8_eq, UInt8.toNat_ofNat', Nat.mod_eq_of_lt (by omega)]
  have whole : joined order (unitBytes order u)[0]! (unitBytes order u)[1]! = u := by
    cases order with
    | little =>
      change u.toUInt8.toNat + 256 * (u / 256).toUInt8.toNat = u
      omega
    | big =>
      change 256 * (u / 256).toUInt8.toNat + u.toUInt8.toNat = u
      omega
  cases order with
  | little => exact congrArg (fun n => (units .little rest).map (n :: ·)) whole
  | big => exact congrArg (fun n => (units .big rest).map (n :: ·)) whole

theorem units_flatMap (order : ByteOrder) {us : List Nat} (small : ∀ u ∈ us, u < 0x10000) :
    units order (us.flatMap (unitBytes order)) = some us := by
  induction us with
  | nil => rfl
  | cons u rest ih =>
    rw [List.flatMap_cons, units_unitBytes order (small u List.mem_cons_self),
      ih fun v member => small v (List.mem_cons_of_mem u member)]
    rfl

theorem units_eq_some {order : ByteOrder} {bytes : Bytes} {us : List Nat} :
    units order bytes = some us ↔
      (∀ u ∈ us, u < 0x10000) ∧ bytes = us.flatMap (unitBytes order) := by
  constructor
  · fun_induction units order bytes generalizing us with
    | case1 =>
      rintro ⟨⟩
      exact ⟨nofun, rfl⟩
    | case2 => exact nofun
    | case3 a b rest ih =>
      intro decoded
      obtain ⟨vs, later, rfl⟩ := Option.map_eq_some_iff.mp decoded
      obtain ⟨small, rfl⟩ := ih later
      refine ⟨List.forall_mem_cons.mpr ⟨joined_lt order a b, small⟩, ?_⟩
      rw [List.flatMap_cons, unitBytes_joined]
      rfl
  · rintro ⟨small, rfl⟩
    exact units_flatMap order small

theorem toNat_lt (c : Char) : c.toNat < 0x110000 := by
  rcases c.valid with low | ⟨-, high⟩
  · exact Nat.lt_trans low (by decide)
  · exact high

theorem encodeChar_lt {c : Char} {u : Nat} (member : u ∈ encodeChar c) : u < 0x10000 := by
  have bound := toNat_lt c
  unfold encodeChar at member
  split at member
  · next small => rwa [List.mem_singleton.mp member]
  · rcases List.mem_cons.mp member with rfl | member
    · omega
    · rw [List.mem_singleton.mp member]
      omega

theorem not_surrogate (c : Char) : c.toNat < 0xd800 ∨ 0xe000 ≤ c.toNat := by
  rcases c.valid with low | ⟨high, -⟩
  · exact .inl low
  · exact .inr high

theorem toNat_ofNat {n : Nat} (valid : n.isValidChar) : (Char.ofNat n).toNat = n := by
  rw [Char.ofNat, dif_pos valid]
  rfl

theorem decodeUnits_plain {u : Nat} (plain : u < 0xd800 ∨ 0xe000 ≤ u) (rest : List Nat) :
    decodeUnits (u :: rest) = (decodeUnits rest).map (Char.ofNat u :: ·) := by
  rw [decodeUnits.eq_def]
  exact if_pos plain

theorem decodeUnits_pair {u v : Nat} (high : 0xd800 ≤ u ∧ u < 0xdc00)
    (low : 0xdc00 ≤ v ∧ v < 0xe000) (rest : List Nat) :
    decodeUnits (u :: v :: rest) =
      (decodeUnits rest).map
        (Char.ofNat (0x10000 + (u - 0xd800) * 0x400 + (v - 0xdc00)) :: ·) := by
  rw [decodeUnits.eq_def]
  have surrogate : ¬ (u < 0xd800 ∨ 0xe000 ≤ u) := by omega
  exact (if_neg surrogate).trans (if_pos ⟨high.2, low⟩)

theorem decodeUnits_encodeChar (c : Char) (rest : List Nat) :
    decodeUnits (encodeChar c ++ rest) = (decodeUnits rest).map (c :: ·) := by
  unfold encodeChar
  split
  · rw [List.singleton_append, decodeUnits_plain (not_surrogate c), Char.ofNat_toNat]
  · next large =>
    have bound := toNat_lt c
    have back : 0x10000 + (0xd800 + (c.toNat - 0x10000) / 0x400 - 0xd800) * 0x400 +
        (0xdc00 + (c.toNat - 0x10000) % 0x400 - 0xdc00) = c.toNat := by
      omega
    rw [List.cons_append, List.singleton_append, decodeUnits_pair (by omega) (by omega), back,
      Char.ofNat_toNat]

theorem decodeUnits_flatMap (text : List Char) :
    decodeUnits (text.flatMap encodeChar) = some text := by
  induction text with
  | nil => rfl
  | cons c rest ih =>
    rw [List.flatMap_cons, decodeUnits_encodeChar, ih]
    rfl

theorem decodeUnits_eq_some {us : List Nat} (small : ∀ u ∈ us, u < 0x10000) {text : List Char} :
    decodeUnits us = some text ↔ us = text.flatMap encodeChar := by
  constructor
  · fun_induction decodeUnits us generalizing text with
    | case1 =>
      rintro ⟨⟩
      rfl
    | case2 u rest plain ih =>
      intro decoded
      obtain ⟨others, later, rfl⟩ := Option.map_eq_some_iff.mp decoded
      have bound := small u List.mem_cons_self
      have valid : u.isValidChar := by
        rcases plain with low | high
        · exact .inl low
        · exact .inr ⟨Nat.lt_of_lt_of_le (by decide) high, by omega⟩
      rw [List.flatMap_cons, ← ih (fun v member => small v (List.mem_cons_of_mem u member)) later,
        encodeChar, toNat_ofNat valid, if_pos bound]
      rfl
    | case3 => exact nofun
    | case4 u plain v rest pair ih =>
      intro decoded
      obtain ⟨others, later, rfl⟩ := Option.map_eq_some_iff.mp decoded
      have valid : (0x10000 + (u - 0xd800) * 0x400 + (v - 0xdc00)).isValidChar :=
        .inr ⟨by omega, by omega⟩
      rw [List.flatMap_cons, ← ih (fun w member => small w (by simp [member])) later, encodeChar,
        toNat_ofNat valid, if_neg (by omega)]
      have first : 0xd800 + (0x10000 + (u - 0xd800) * 0x400 + (v - 0xdc00) - 0x10000) / 0x400 = u := by
        omega
      have second :
          0xdc00 + (0x10000 + (u - 0xd800) * 0x400 + (v - 0xdc00) - 0x10000) % 0x400 = v := by
        omega
      rw [first, second]
      rfl
    | case5 => exact nofun
  · rintro rfl
    exact decodeUnits_flatMap text

theorem encode_eq_flatMap (order : ByteOrder) (text : List Char) :
    encode order text = (text.flatMap encodeChar).flatMap (unitBytes order) := by
  rw [encode, List.flatMap_assoc]

theorem decode_eq_some {order : ByteOrder} {bytes : Bytes} {text : List Char} :
    decode order bytes = some text ↔ bytes = encode order text := by
  rw [decode, Option.bind_eq_some_iff, encode_eq_flatMap]
  constructor
  · rintro ⟨us, split, decoded⟩
    obtain ⟨small, rfl⟩ := units_eq_some.mp split
    rw [(decodeUnits_eq_some small).mp decoded]
  · rintro rfl
    have small : ∀ u ∈ text.flatMap encodeChar, u < 0x10000 := by
      intro u member
      obtain ⟨c, -, member⟩ := List.mem_flatMap.mp member
      exact encodeChar_lt member
    exact ⟨_, units_flatMap order small, decodeUnits_flatMap text⟩

/-- A decoder without a given order reads a mark and a text in its order, or a text without a mark
in the order of the machine. -/
theorem decodeMarked_eq_some {bytes : Bytes} {text : List Char} :
    decodeMarked bytes = some text ↔
      (∃ order, bytes = mark order ++ encode order text) ∨
        (¬ Marked bytes ∧ bytes = encode .little text) := by
  unfold decodeMarked
  by_cases little : mark .little <+: bytes
  · obtain ⟨rest, rfl⟩ := little
    rw [if_pos (List.prefix_append _ _), decode_eq_some]
    constructor
    · rintro rest
      exact .inl ⟨.little, congrArg (mark .little ++ ·) rest⟩
    · rintro (⟨order, same⟩ | ⟨unmarked, -⟩)
      · cases order with
        | little => exact List.append_cancel_left same
        | big => exact absurd (List.cons.inj same).1 (by decide)
      · exact absurd (.inl (List.prefix_append _ _)) unmarked
  · rw [if_neg little]
    by_cases big : mark .big <+: bytes
    · obtain ⟨rest, rfl⟩ := big
      rw [if_pos (List.prefix_append _ _), decode_eq_some]
      constructor
      · rintro rest
        exact .inl ⟨.big, congrArg (mark .big ++ ·) rest⟩
      · rintro (⟨order, same⟩ | ⟨unmarked, -⟩)
        · cases order with
          | little => exact absurd (List.cons.inj same).1 (by decide)
          | big => exact List.append_cancel_left same
        · exact absurd (.inr (List.prefix_append _ _)) unmarked
    · rw [if_neg big, decode_eq_some]
      constructor
      · exact fun same => .inr ⟨not_or.mpr ⟨little, big⟩, same⟩
      · rintro (⟨order, same⟩ | ⟨-, same⟩)
        · cases order with
          | little => exact absurd ⟨_, same.symm⟩ little
          | big => exact absurd ⟨_, same.symm⟩ big
        · exact same

theorem decode_plain {order : ByteOrder} {a b : UInt8} {rest : Bytes} {text : List Char}
    (plain : joined order a b < 0xd800 ∨ 0xe000 ≤ joined order a b)
    (decoded : decode order (a :: b :: rest) = some text) :
    ∃ others, decode order rest = some others ∧
      text = Char.ofNat (joined order a b) :: others := by
  obtain ⟨us, split, whole⟩ := Option.bind_eq_some_iff.mp decoded
  obtain ⟨vs, later, rfl⟩ := Option.map_eq_some_iff.mp split
  rw [decodeUnits_plain plain] at whole
  obtain ⟨others, here, rfl⟩ := Option.map_eq_some_iff.mp whole
  exact ⟨others, Option.bind_eq_some_iff.mpr ⟨vs, later, here⟩, rfl⟩

theorem length_unitBytes (order : ByteOrder) (u : Nat) : (unitBytes order u).length = 2 := by
  cases order <;> rfl

theorem length_flatMap_unitBytes (order : ByteOrder) (us : List Nat) :
    (us.flatMap (unitBytes order)).length = 2 * us.length := by
  induction us with
  | nil => rfl
  | cons u rest ih =>
    rw [List.flatMap_cons, List.length_append, length_unitBytes, ih, List.length_cons]
    omega

theorem length_encode (order : ByteOrder) (text : List Char) :
    (encode order text).length = 2 * (text.flatMap encodeChar).length := by
  rw [encode_eq_flatMap, length_flatMap_unitBytes]

theorem two_mul_length_le (order : ByteOrder) (text : List Char) :
    2 * text.length ≤ (encode order text).length := by
  rw [length_encode]
  refine Nat.mul_le_mul_left 2 ?_
  induction text with
  | nil => exact Nat.zero_le _
  | cons c rest ih =>
    have units : 0 < (encodeChar c).length := by
      unfold encodeChar
      split <;> exact Nat.zero_lt_succ _
    rw [List.flatMap_cons, List.length_append, List.length_cons]
    omega

theorem count_unitBytes (order : ByteOrder) (u : Nat) :
    (unitBytes order u).count 0 = (unitBytes .little u).count 0 := by
  cases order with
  | little => rfl
  | big =>
    have swapped : (unitBytes .big u).Perm (unitBytes .little u) := List.Perm.swap _ _ []
    exact swapped.count_eq 0

theorem count_encode (order : ByteOrder) (text : List Char) :
    (encode order text).count 0 = (encode .little text).count 0 := by
  simp only [encode_eq_flatMap, List.count_flatMap]
  congr 1
  exact List.map_congr_left fun u _ => count_unitBytes order u

end VirtueSensing.Utf16
