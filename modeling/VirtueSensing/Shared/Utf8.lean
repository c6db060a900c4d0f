import VirtueSensing.Shared.Bytes

set_option autoImplicit false

/-!
# UTF-8

A decoder that reads one byte at a time. Overlong forms, surrogates and code points that are too
large differ from the others in the range of the second byte only. Where the text is needed, it
comes from the decoder of the library.
-/

namespace VirtueSensing.Utf8

/-- How many bytes the character still needs, and the range of the next one. -/
structure Pending where
  owed : Nat
  low : UInt8
  high : UInt8
  deriving DecidableEq, Repr

def Pending.none : Pending := ⟨0, 0x80, 0xbf⟩

def first (b : UInt8) : Option Pending :=
  if b < 0x80 then some .none
  else if b < 0xc2 then Option.none
  else if b < 0xe0 then some ⟨1, 0x80, 0xbf⟩
  else if b = 0xe0 then some ⟨2, 0xa0, 0xbf⟩
  else if b = 0xed then some ⟨2, 0x80, 0x9f⟩
  else if b < 0xf0 then some ⟨2, 0x80, 0xbf⟩
  else if b = 0xf0 then some ⟨3, 0x90, 0xbf⟩
  else if b < 0xf4 then some ⟨3, 0x80, 0xbf⟩
  else if b = 0xf4 then some ⟨3, 0x80, 0x8f⟩
  else Option.none

def step (p : Pending) (b : UInt8) : Option Pending :=
  match p.owed with
  | 0 => first b
  | owed + 1 =>
    if 0x80 ≤ b ∧ p.low ≤ b ∧ b ≤ p.high then some ⟨owed, 0x80, 0xbf⟩ else Option.none

def run : Pending → Bytes → Option Pending
  | p, [] => some p
  | p, b :: rest => (step p b).bind fun q => run q rest

def valid (bytes : Bytes) : Bool :=
  match run .none bytes with
  | some p => p.owed = 0
  | Option.none => false

def continues (b : UInt8) : Bool := 0x80 ≤ b ∧ b < 0xc0

def characters : Bytes → List Bytes
  | [] => []
  | b :: rest =>
    match characters rest with
    | [] => [[b]]
    | c :: cs => if c.head?.any continues then (b :: c) :: cs else [b] :: c :: cs

example : characters [0x61, 0xc3, 0xa9, 0x62] = [[0x61], [0xc3, 0xa9], [0x62]] := by decide

theorem run_append (p : Pending) (start rest : Bytes) :
    run p (start ++ rest) = (run p start).bind fun q => run q rest := by
  induction start generalizing p with
  | nil => rfl
  | cons b start ih =>
    rw [List.cons_append, run, run, Option.bind_assoc]
    apply Option.bind_congr
    intro q _
    exact ih q

theorem step_ascii {b : UInt8} (ascii : b < 0x80) (p : Pending) :
    step p b = if p.owed = 0 then some .none else Option.none := by
  cases owed : p.owed with
  | zero => simp [step, owed, first, ascii]
  | succ n => simp [step, owed, UInt8.not_le.mpr ascii]

theorem valid_split {b : UInt8} (ascii : b < 0x80) (start rest : Bytes) :
    valid (start ++ b :: rest) = (valid start && valid rest) := by
  unfold valid
  rw [run_append]
  cases run .none start with
  | none => rfl
  | some p =>
    rw [Option.bind_some, run, step_ascii ascii]
    by_cases between : p.owed = 0
    · simp [between]
    · simp [between]

theorem valid_append {start : Bytes} (ascii : ∀ b ∈ start, b < 0x80) (rest : Bytes) :
    valid (start ++ rest) = valid rest := by
  induction start with
  | nil => rfl
  | cons b start ih =>
    have split := valid_split (ascii b List.mem_cons_self) [] (start ++ rest)
    rw [List.nil_append] at split
    rw [List.cons_append, split, ih fun c member => ascii c (List.mem_cons_of_mem _ member)]
    rfl

def decode (bytes : Bytes) : Option (List Char) :=
  bytes.toByteArray.utf8Decode?.map Array.toList

def encode (text : List Char) : Bytes :=
  text.flatMap String.utf8EncodeChar

theorem decode_eq_some {bytes : Bytes} {text : List Char} :
    decode bytes = some text ↔ bytes = encode text := by
  have same : text.utf8Encode = (encode text).toByteArray := rfl
  unfold decode
  constructor
  · intro decoded
    obtain ⟨chars, whole, rfl⟩ := Option.map_eq_some_iff.mp decoded
    have back := ByteArray.utf8Encode_get_utf8Decode? (b := bytes.toByteArray) (h := by simp [whole])
    simp only [whole, Option.get_some] at back
    rw [same] at back
    have lists := congrArg (fun b => b.data.toList) back
    simpa using lists.symm
  · rintro rfl
    rw [← same, List.utf8Decode?_utf8Encode]
    simp

theorem encode_append (text rest : List Char) : encode (text ++ rest) = encode text ++ encode rest :=
  List.flatMap_append

theorem encode_flatten (lines : List (List Char)) :
    encode lines.flatten = (lines.map encode).flatten := by
  induction lines with
  | nil => rfl
  | cons line rest ih => rw [List.flatten_cons, encode_append, ih, List.map_cons, List.flatten_cons]

theorem encode_ofNat {b : UInt8} (ascii : b < 0x80) : String.utf8EncodeChar (Char.ofNat b.toNat) = [b] := by
  have all : ∀ n : Fin 128, String.utf8EncodeChar (Char.ofNat n) = [UInt8.ofNat n] := by decide
  have here := all ⟨b.toNat, ascii⟩
  rwa [UInt8.ofNat_toNat] at here

theorem decode_ascii {bytes : Bytes} (ascii : ∀ b ∈ bytes, b < 0x80) :
    decode bytes = some (bytes.map fun b => Char.ofNat b.toNat) := by
  rw [decode_eq_some]
  induction bytes with
  | nil => rfl
  | cons b rest ih =>
    rw [List.forall_mem_cons] at ascii
    rw [List.map_cons, encode, List.flatMap_cons, encode_ofNat ascii.1]
    exact congrArg (b :: ·) (ih ascii.2)

theorem length_encode (text : List Char) : text.length ≤ (encode text).length ∧
    ((encode text).length = text.length ↔ ∀ c ∈ text, c.toNat < 128) := by
  induction text with
  | nil => exact ⟨Nat.le_refl 0, iff_of_true rfl nofun⟩
  | cons c rest ih =>
    have size : (encode (c :: rest)).length = c.utf8Size + (encode rest).length := by
      rw [encode, List.flatMap_cons, List.length_append, String.length_utf8EncodeChar]
      rfl
    have positive := c.utf8Size_pos
    have one : c.utf8Size = 1 ↔ c.toNat < 128 := by
      rw [Char.utf8Size_eq_one_iff, UInt32.le_iff_toNat_le, Nat.lt_succ_iff]
      rfl
    rw [size, List.length_cons, List.forall_mem_cons, ← one, ← ih.2]
    omega

theorem toNat_of_eq_ofNat {b : UInt8} {n : Nat} (same : b = UInt8.ofNat n) : b.toNat = n % 256 := by
  rw [same, UInt8.toNat_ofNat']

theorem encode_of_ascii_mem {c : Char} {b : UInt8} (ascii : b < 0x80)
    (member : b ∈ String.utf8EncodeChar c) : String.utf8EncodeChar c = [b] ∧ c.toNat = b.toNat := by
  have value : c.val.toNat = c.toNat := rfl
  have small : b.toNat < 128 := ascii
  revert member
  fun_cases String.utf8EncodeChar
  all_goals
    intro member
    simp only [List.mem_cons, List.not_mem_nil, or_false] at member
  · have here := toNat_of_eq_ofNat member
    exact ⟨by rw [member], by omega⟩
  · rcases member with member | member
    all_goals
      have here := toNat_of_eq_ofNat member
      omega
  · rcases member with member | member | member
    all_goals
      have here := toNat_of_eq_ofNat member
      omega
  · rcases member with member | member | member | member
    all_goals
      have here := toNat_of_eq_ofNat member
      omega

theorem mem_encode_iff {c : Char} {b : UInt8} (ascii : b < 0x80) (value : c.toNat = b.toNat)
    {text : List Char} : b ∈ encode text ↔ c ∈ text := by
  rw [encode, List.mem_flatMap]
  constructor
  · rintro ⟨d, member, byte⟩
    have same := (encode_of_ascii_mem ascii byte).2.trans value.symm
    rwa [← Char.toNat_inj.mp same]
  · intro member
    have one := encode_ofNat ascii
    rw [← value, Char.ofNat_toNat] at one
    exact ⟨c, member, one ▸ List.mem_singleton_self b⟩

/-- A text falls apart where its encoding has a byte below `0x80`. -/
theorem encode_split {text : List Char} {start rest : Bytes} {b : UInt8} (ascii : b < 0x80)
    (encoded : encode text = start ++ b :: rest) :
    ∃ before c behind, text = before ++ c :: behind ∧ encode before = start ∧ encode behind = rest := by
  induction text generalizing start with
  | nil => simp [encode] at encoded
  | cons c text ih =>
    have whole : String.utf8EncodeChar c ++ encode text = start ++ b :: rest := encoded
    rcases List.append_eq_append_iff.mp whole with ⟨more, same, left⟩ | ⟨more, same, left⟩
    · obtain ⟨before, d, behind, split, front, back⟩ := ih left
      refine ⟨c :: before, d, behind, by rw [split, List.cons_append], ?_, back⟩
      rw [encode, List.flatMap_cons, ← encode, front, same]
    · cases more with
      | nil =>
        rw [List.nil_append] at left
        rw [List.append_nil] at same
        obtain ⟨before, d, behind, split, front, back⟩ := @ih [] left.symm
        refine ⟨c :: before, d, behind, by rw [split, List.cons_append], ?_, back⟩
        rw [encode, List.flatMap_cons, ← encode, front, same, List.append_nil]
      | cons d more =>
        rw [List.cons_append] at left
        obtain ⟨rfl, rest_eq⟩ := List.cons.inj left
        have one := (encode_of_ascii_mem (c := c) ascii (by simp [same])).1
        have alone : start = [] ∧ more = [] := by
          rw [one] at same
          cases start with
          | nil => exact ⟨rfl, (List.cons.inj same).2.symm⟩
          | cons first start => simp at same
        exact ⟨[], c, text, rfl, alone.1.symm, by rw [rest_eq, alone.2, List.nil_append]⟩

theorem toNat_of_zero_mem {c : Char} (member : 0 ∈ String.utf8EncodeChar c) : c.toNat = 0 :=
  (encode_of_ascii_mem (by decide) member).2

end VirtueSensing.Utf8
