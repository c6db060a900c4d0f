import VirtueSensing.Shared.Lists
import VirtueSensing.WinVirtue.EventDecoder

set_option autoImplicit false

/-!
# What the decoder makes of the bytes of a string

`DecodeString` for bytes that start with a UTF-16 string, and `chr` for every second byte of one.
-/

namespace VirtueSensing.WinVirtue

/-- The copied bytes are the string and have no mark in front, or they are a mark and the string
behind it, or they are no UTF-16 but the same string in UTF-8. -/
def Undamaged (copied content : Bytes) (text : Text) : Prop :=
  (copied = content ∧ ¬ Utf16.Marked content) ∨
    (∃ order, copied = Utf16.mark order ++ Utf16.encode order text) ∨
    (Utf16.decodeMarked copied = none ∧ copied = Utf8.encode text)

theorem length_everySecond (bytes : Bytes) : (everySecond bytes).length = (bytes.length + 1) / 2 := by
  fun_induction everySecond bytes with
  | case1 => rfl
  | case2 => simp
  | case3 b _ rest ih =>
    simp only [List.length_cons, ih]
    omega

/-- A string that starts with a mark is decoded without it, or in the other order. -/
theorem decodeMarked_of_marked {content : Bytes} {text : Text}
    (decoded : Utf16.decode .little content = some text) (marked : Utf16.Marked content) :
    (∃ others, Utf16.decodeMarked content = some others ∧ text.length = others.length + 1) ∨
      (Utf16.mark .big <+: content ∧ text.head? = some (Char.ofNat 0xfffe)) := by
  rcases marked with ⟨rest, rfl⟩ | ⟨rest, rfl⟩
  · left
    obtain ⟨others, later, rfl⟩ := Utf16.decode_plain (.inr (by decide)) decoded
    refine ⟨others, ?_, rfl⟩
    exact Utf16.decodeMarked_eq_some.mpr
      (.inl ⟨.little, congrArg (Utf16.mark .little ++ ·) (Utf16.decode_eq_some.mp later)⟩)
  · right
    obtain ⟨others, -, rfl⟩ := Utf16.decode_plain (.inr (by decide)) decoded
    exact ⟨List.prefix_append _ _, rfl⟩

-- The last attempt never restores the string.
theorem everySecond_ne {copied content : Bytes} {text : Text} (start : content <+: copied)
    (decoded : Utf16.decode .little content = some text)
    (failed : Utf16.decodeMarked copied = none) :
    ((everySecond copied).map fun b => Char.ofNat b.toNat) ≠ text := by
  intro same
  have bytes := Utf16.decode_eq_some.mp decoded
  have length := congrArg List.length same
  rw [List.length_map, length_everySecond] at length
  have short := Utf16.two_mul_length_le .little text
  rw [← bytes] at short
  have whole : content = copied := start.eq_of_length_le (by omega)
  subst whole
  by_cases marked : Utf16.Marked content
  · rcases decodeMarked_of_marked decoded marked with ⟨others, succeeded, -⟩ | ⟨⟨rest, rfl⟩, head⟩
    · rw [failed] at succeeded
      exact absurd succeeded nofun
    · rw [← same] at head
      have first : (everySecond (Utf16.mark .big ++ rest)).head? = some 0xfe := rfl
      rw [List.head?_map, first] at head
      exact absurd (Option.some.inj head) (by decide)
  · have succeeded := Utf16.decodeMarked_eq_some.mpr (.inr ⟨marked, bytes⟩)
    rw [failed] at succeeded
    exact absurd succeeded nofun

theorem decodeString_eq_iff {copied content : Bytes} {text : Text} (start : content <+: copied)
    (decoded : Utf16.decode .little content = some text) :
    decodeString copied = text ↔ Undamaged copied content text := by
  have bytes := Utf16.decode_eq_some.mp decoded
  unfold decodeString
  constructor
  · intro same
    split at same
    · next result succeeded =>
      subst same
      rcases Utf16.decodeMarked_eq_some.mp succeeded with marked | ⟨unmarked, plain⟩
      · exact .inr (.inl marked)
      · have whole := plain.trans bytes.symm
        exact .inl ⟨whole, whole ▸ unmarked⟩
    · next failed =>
      split at same
      · next result succeeded =>
        subst same
        exact .inr (.inr ⟨failed, Utf8.decode_eq_some.mp succeeded⟩)
      · exact absurd same (everySecond_ne start decoded failed)
  · rintro (⟨rfl, unmarked⟩ | marked | ⟨failed, other⟩)
    · rw [Utf16.decodeMarked_eq_some.mpr (.inr ⟨unmarked, bytes⟩)]
    · rw [Utf16.decodeMarked_eq_some.mpr (.inl marked)]
    · rw [failed, Utf8.decode_eq_some.mpr other]

theorem undamaged_self {content : Bytes} {text : Text}
    (decoded : Utf16.decode .little content = some text) :
    Undamaged content content text ↔ ¬ Utf16.Marked content := by
  constructor
  · rintro (⟨-, unmarked⟩ | ⟨order, same⟩ | ⟨failed, same⟩) marked
    · exact unmarked marked
    · have length := congrArg List.length same
      rw [List.length_append, Utf16.length_encode, Utf16.decode_eq_some.mp decoded,
        Utf16.length_encode] at length
      have two : (Utf16.mark order).length = 2 := by cases order <;> rfl
      omega
    · rcases decodeMarked_of_marked decoded marked with ⟨others, succeeded, -⟩ | ⟨⟨rest, big⟩, head⟩
      · rw [failed] at succeeded
        exact absurd succeeded nofun
      · obtain ⟨others, rfl⟩ := List.head?_eq_some_iff.mp head
        have first := congrArg List.head? (big.trans same)
        exact absurd (Option.some.inj first) (by decide)
  · exact fun unmarked => .inl ⟨rfl, unmarked⟩

theorem count_utf8_le (text : Text) :
    (Utf8.encode text).count 0 ≤ (Utf16.encode .little text).count 0 := by
  induction text with
  | nil => exact Nat.le_refl 0
  | cons c rest ih =>
    have here : (String.utf8EncodeChar c).count 0 ≤
        ((Utf16.encodeChar c).flatMap (Utf16.unitBytes .little)).count 0 := by
      by_cases zero : c.toNat = 0
      · rw [← Char.ofNat_toNat c, zero]
        decide
      · rw [List.count_eq_zero.mpr (mt Utf8.toNat_of_zero_mem zero)]
        exact Nat.zero_le _
    rw [Utf8.encode, Utf16.encode, List.flatMap_cons, List.flatMap_cons, List.count_append,
      List.count_append]
    exact Nat.add_le_add here ih

theorem not_undamaged_padded {content : Bytes} {text : Text}
    (decoded : Utf16.decode .little content = some text) {padding : Nat} (padded : 0 < padding) :
    ¬ Undamaged (content ++ List.replicate padding 0) content text := by
  have bytes := Utf16.decode_eq_some.mp decoded
  have zeros : (content ++ List.replicate padding (0 : UInt8)).count 0 =
      (Utf16.encode .little text).count 0 + padding := by
    rw [List.count_append, List.count_replicate_self, bytes]
  rintro (⟨same, -⟩ | ⟨order, same⟩ | ⟨-, same⟩)
  · rw [same, bytes] at zeros
    omega
  · have none : (Utf16.mark order).count 0 = 0 := by cases order <;> rfl
    rw [same, List.count_append, none, Utf16.count_encode] at zeros
    omega
  · have fewer := count_utf8_le text
    rw [same] at zeros
    omega

theorem toNat_of_chr {b : UInt8} {c : Char} (made : chr b = some c) : c.toNat < 0x80 := by
  unfold chr at made
  split at made
  · next small =>
    have below : b.toNat < 0x80 := small
    rw [← Option.some.inj made, Utf16.toNat_ofNat (.inl (by omega))]
    exact below
  · exact absurd made nofun

theorem everySecond_encode {text : Text} (ascii : ∀ c ∈ text, c.toNat < 0x80) :
    (everySecond (Utf16.encode .little text)).mapM chr = some text := by
  induction text with
  | nil => rfl
  | cons c rest ih =>
    have small := ascii c List.mem_cons_self
    have unit : Utf16.encodeChar c = [c.toNat] := if_pos (by omega)
    have byte : c.toNat.toUInt8.toNat = c.toNat := by
      rw [Nat.toUInt8_eq, UInt8.toNat_ofNat', Nat.mod_eq_of_lt (by omega)]
    have below : c.toNat.toUInt8 < 0x80 := by
      rw [UInt8.lt_iff_toNat_lt, byte]
      exact small
    have made : chr c.toNat.toUInt8 = some c := by
      rw [chr, if_pos below, byte, Char.ofNat_toNat]
    have first : everySecond (Utf16.encode .little (c :: rest)) =
        c.toNat.toUInt8 :: everySecond (Utf16.encode .little rest) := by
      rw [Utf16.encode, List.flatMap_cons, unit]
      rfl
    rw [first, List.mapM_cons, made, ih fun d member => ascii d (List.mem_cons_of_mem c member)]
    rfl

theorem ascii_of_mapM {bytes : Bytes} {text : Text} (made : bytes.mapM chr = some text) :
    ∀ c ∈ text, c.toNat < 0x80 := by
  intro c member
  obtain ⟨b, -, here⟩ := Lists.exists_of_mapM made member
  exact toNat_of_chr here

theorem mapM_chr_iff {content : Bytes} {text : Text}
    (decoded : Utf16.decode .little content = some text) :
    (everySecond content).mapM chr = some text ↔ ∀ c ∈ text, c.toNat < 0x80 := by
  constructor
  · exact ascii_of_mapM
  · rw [Utf16.decode_eq_some.mp decoded]
    exact everySecond_encode

end VirtueSensing.WinVirtue
