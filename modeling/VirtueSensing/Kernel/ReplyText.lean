import VirtueSensing.Kernel.Framing
import VirtueSensing.Kernel.RecordLines
import VirtueSensing.Shared.JsonPieces

set_option autoImplicit false

/-!
# Reply lines as JSON

The format strings of the replies, read by a JSON reader. The nonce is printed as it stood in the
request, where it was the body of a string already; names of processes and paths of files are not.
-/

namespace VirtueSensing.Kernel

open JsonText

def versionKey : Bytes := ascii "Virtue-protocol-version"
def replyKey : Bytes := ascii "reply"

/-- The line is one JSON object, and its reply array has these elements. -/
structure Decodes (line : Bytes) (elements : List Json) : Prop where
  oneLine : IsLine newline line
  utf8 : Utf8.valid line
  reads : ∃ j, parse false line = some j ∧
    j.get versionKey = some (.scalar (.decimal 1 (-1))) ∧ j.get replyKey = some (.array elements)

theorem Decodes.unique {line : Bytes} {elements others : List Json} (first : Decodes line elements)
    (second : Decodes line others) : elements = others := by
  obtain ⟨j, parsed, -, reply⟩ := first.reads
  obtain ⟨j', parsed', -, reply'⟩ := second.reads
  obtain rfl := Option.some.inj (parsed.symm.trans parsed')
  exact Json.array.inj (Option.some.inj (reply.symm.trans reply'))

/-- What the nonce of a request stands for: the value of its string, or else its bytes. -/
def nonceValue (nonce : Bytes) : Bytes :=
  match scan 0 (nonce ++ [quote]) with
  | some (value, []) => value
  | _ => nonce

def isBody (nonce : Bytes) : Bool :=
  match scan 0 (nonce ++ [quote]) with
  | some (_, []) => true
  | _ => false

theorem body_of_isBody {nonce : Bytes} (isBody : isBody nonce) : Body nonce (nonceValue nonce) := by
  unfold Kernel.isBody at isBody
  unfold Body nonceValue
  split at isBody
  · rename_i value found
    rw [found]
  · simp at isBody

theorem nonceValue_of_body {nonce value : Bytes} (body : Body nonce value) :
    nonceValue nonce = value ∧ isBody nonce := by
  unfold Body at body
  simp [nonceValue, isBody, body]

theorem nonceValue_of_not_isBody {nonce : Bytes} (broken : ¬ isBody nonce) :
    nonceValue nonce = nonce := by
  unfold isBody at broken
  unfold nonceValue
  split at broken
  · simp at broken
  · rfl

/-- The nonce is the body of a string, and UTF-8. -/
def NonceFits (nonce : Bytes) : Prop := isBody nonce ∧ Utf8.valid nonce

instance (nonce : Bytes) : Decidable (NonceFits nonce) :=
  inferInstanceAs (Decidable (isBody nonce ∧ Utf8.valid nonce))

/-- Text that a line carries as it is. -/
structure Sendable (text : Bytes) : Prop where
  plain : Plain text
  utf8 : Utf8.valid text

instance (text : Bytes) : Decidable (Sendable text) :=
  decidable_of_iff (Plain text ∧ Utf8.valid text) ⟨fun h => ⟨h.1, h.2⟩, fun h => ⟨h.1, h.2⟩⟩

def replyValue (elements : List Json) : Json :=
  .object [(versionKey, .scalar (.decimal 1 (-1))), (replyKey, .array elements)]

-- `r_header`.
def headerPieces : List Piece :=
  [.mark .beginObject, .string versionKey, .mark .colon, .space,
    .scalar (ascii "0.1") (.decimal 1 (-1)), .mark .comma, .space, .string replyKey, .mark .colon,
    .space, .mark .beginArray]

theorem render_headerPieces : render headerPieces = replyHeader := rfl

theorem readable_headerPieces : Readable headerPieces := by
  simp only [headerPieces, Readable]
  exact ⟨by decide, reads_tenth, by simp [Piece.separates], by decide, trivial⟩

/-- A line with two strings that are printed as they come: the nonce, and the content of a record. -/
structure Format where
  lead : List Piece
  middle : List Piece
  behind : List Piece
  elements : Bytes → Bytes → List Json
  leadReadable : Readable lead
  leadRaw : ∀ raw value, .body raw value ∉ lead
  leadEnds : ∀ p ∈ lead.getLast?, p.separates
  middleFollows : Follows middle
  middleEnds : ∀ p ∈ middle.getLast?, p.separates
  behindFollows : Follows behind
  oneLine : .newline ∉ lead ++ middle ++ behind
  utf8 : ∀ p ∈ lead ++ middle ++ behind, ∀ text ∈ p.quoted, Utf8.valid text
  builds : ∀ nonce content, build [] .value
    ((lead ++ .string nonce :: (middle ++ .string content :: behind)).flatMap Piece.tokens) =
      some (replyValue (elements nonce content))

namespace Format

variable (f : Format)

def pieces (nonce : Piece) (content : Bytes) : List Piece :=
  f.lead ++ nonce :: (f.middle ++ .string content :: f.behind)

def line (nonce content : Bytes) : Bytes :=
  render (f.pieces (.string nonce) content ++ [.newline])

theorem line_body (nonce value content : Bytes) :
    f.line nonce content = render (f.pieces (.body nonce value) content ++ [.newline]) := by
  simp [line, pieces, Piece.bytes]

theorem readable_pieces {nonce value content : Bytes} (body : Body nonce value) (plain : Plain content) :
    Readable (f.pieces (.body nonce value) content) := by
  have last : Readable (.string content :: f.behind) := ⟨plain, f.behindFollows.readable⟩
  have rest : Readable (f.middle ++ .string content :: f.behind) :=
    readable_append f.middleFollows.readable last (.inl f.middleEnds)
  exact readable_append f.leadReadable ⟨body, rest⟩ (.inl f.leadEnds)

theorem follows_newline : Follows (f.behind ++ [.newline]) := by
  obtain ⟨readable, raw, p, head, separates⟩ := f.behindFollows
  refine ⟨readable.newline, ?_, p, ?_, separates⟩
  · intro raw' value member
    simp only [List.mem_append, List.mem_singleton, reduceCtorEq, or_false] at member
    exact raw raw' value member
  · simp [Option.mem_def.mp head]

theorem valid_line (nonce content : Bytes) :
    Utf8.valid (f.line nonce content) ↔ Utf8.valid nonce ∧ Utf8.valid content := by
  have scalars (text : Bytes) (value : Scalar)
      (member : .scalar text value ∈ f.pieces (.string nonce) content ++ [.newline]) :
      Reads text value := by
    simp only [pieces, List.mem_append, List.mem_cons, reduceCtorEq, false_or, List.not_mem_nil,
      or_false] at member
    rcases member with lead | middle | behind
    · exact f.leadReadable.reads lead
    · exact f.middleFollows.readable.reads middle
    · exact f.behindFollows.readable.reads behind
  have others := f.utf8
  simp only [List.forall_mem_append] at others
  obtain ⟨⟨lead, middle⟩, behind⟩ := others
  rw [line, valid_render scalars]
  simp only [pieces, List.forall_mem_append, List.forall_mem_cons, Piece.quoted]
  constructor
  · rintro ⟨⟨-, nonceValid, -, contentValid, -⟩, -⟩
    exact ⟨nonceValid nonce rfl, contentValid content rfl⟩
  · rintro ⟨nonceValid, contentValid⟩
    refine ⟨⟨lead, ?_, middle, ?_, behind⟩, by simp, by simp⟩
    · simpa using nonceValid
    · simpa using contentValid

theorem parse_line (extended : Bool) {nonce value content : Bytes} (body : Body nonce value)
    (plain : Plain content) :
    parse extended (f.line nonce content) = some (replyValue (f.elements value content)) := by
  rw [f.line_body nonce value content, parse_render extended (f.readable_pieces body plain).newline]
  have built := f.builds value content
  simpa [pieces, Piece.tokens] using built

theorem decodes_line {nonce value content : Bytes} (body : Body nonce value) (plain : Plain content)
    (valid : Utf8.valid nonce ∧ Utf8.valid content) :
    Decodes (f.line nonce content) (f.elements value content) := by
  refine ⟨?_, (f.valid_line nonce content).mpr valid, replyValue (f.elements value content),
    f.parse_line false body plain, rfl, rfl⟩
  refine ⟨render (f.pieces (.body nonce value) content), ?_, ?_⟩
  · apply newline_not_mem_render (f.readable_pieces body plain)
    have none := f.oneLine
    simp only [List.mem_append, not_or] at none
    simp [pieces, none]
  · rw [f.line_body nonce value content, render_append]
    rfl

theorem plain_of_decodes {nonce content : Bytes} {elements : List Json}
    (decodes : Decodes (f.line nonce content) elements)
    (present : [nonceValue nonce, content].Sublist (Json.array elements).strings) :
    isBody nonce ∧ Plain content := by
  obtain ⟨j, parsed, -, reply⟩ := decodes.reads
  have inOrder := present.trans (get_strings reply)
  by_cases body : isBody nonce
  · refine ⟨body, ?_⟩
    have readable : Readable (f.lead ++ .body nonce (nonceValue nonce) :: f.middle) :=
      readable_append f.leadReadable ⟨body_of_isBody body, f.middleFollows.readable⟩ (.inl f.leadEnds)
    have split : f.line nonce content = render ((f.lead ++ .body nonce (nonceValue nonce) :: f.middle) ++
        .string content :: (f.behind ++ [.newline])) := by
      simp [line, pieces, Piece.bytes]
    rw [split] at parsed
    obtain ⟨tail, strings, plain⟩ := plain_of_parse_behind readable f.follows_newline parsed
    have seen : tokenStrings ((f.lead ++ .body nonce (nonceValue nonce) :: f.middle).flatMap
        Piece.tokens) ++ tail = tokenStrings (f.lead.flatMap Piece.tokens) ++ nonceValue nonce ::
          (tokenStrings (f.middle.flatMap Piece.tokens) ++ tail) := by
      simp [tokenStrings, Piece.tokens, Token.strings]
    rw [strings, seen] at inOrder
    have leadPlain := plain_tokens f.leadReadable f.leadRaw
    -- Before the content only the nonce can be anything but plain, and it stands there once.
    rcases Lists.mem_of_pair_sublist inOrder with later | early | ⟨early, same⟩
    · rcases List.mem_append.mp later with middle | behind
      · exact plain_tokens f.middleFollows.readable f.middleFollows.raw _ middle
      · exact plain behind
    · exact leadPlain _ early
    · exact same ▸ leadPlain _ early
  · rw [nonceValue_of_not_isBody body] at inOrder
    have split : f.line nonce content =
        render (f.lead ++ .string nonce ::
          (f.middle ++ .string content :: (f.behind ++ [.newline]))) := by
      simp [line, pieces]
    rw [split] at parsed
    obtain ⟨plainNonce, plainContent⟩ := plain_of_parse_two f.leadReadable f.leadRaw f.middleFollows
      f.follows_newline parsed inOrder
    exact ⟨(nonceValue_of_body (Body.of_plain plainNonce)).2, plainContent⟩

theorem decodes_iff {nonce content : Bytes} {elements : List Json}
    (present : [nonceValue nonce, content].Sublist (Json.array elements).strings) :
    Decodes (f.line nonce content) elements ↔
      NonceFits nonce ∧ Sendable content ∧ elements = f.elements (nonceValue nonce) content := by
  constructor
  · intro decodes
    obtain ⟨body, plain⟩ := f.plain_of_decodes decodes present
    obtain ⟨validNonce, validContent⟩ := (f.valid_line nonce content).mp decodes.utf8
    have expected := f.decodes_line (body_of_isBody body) plain ⟨validNonce, validContent⟩
    exact ⟨⟨body, validNonce⟩, ⟨plain, validContent⟩, decodes.unique expected⟩
  · rintro ⟨⟨body, validNonce⟩, ⟨plain, validContent⟩, rfl⟩
    exact f.decodes_line (body_of_isBody body) plain ⟨validNonce, validContent⟩

section Heads

variable {nonce : Bytes} (plain : Plain nonce)

/-- The line up to its content, with a nonce that needs no escape. -/
def head (nonce : Bytes) : List Piece := f.lead ++ .string nonce :: f.middle

theorem line_head (nonce content : Bytes) :
    f.line nonce content =
      render (f.head nonce) ++ quote :: (content ++ quote :: (render f.behind ++ [newline])) := by
  simp [line, pieces, head, Piece.bytes, newline]

theorem raw_head (nonce : Bytes) : ∀ raw value, .body raw value ∉ f.head nonce := by
  simp [head, f.leadRaw, f.middleFollows.raw]

include plain in
theorem readable_head : Readable (f.head nonce) :=
  readable_append f.leadReadable ⟨plain, f.middleFollows.readable⟩ (.inl f.leadEnds)

include plain in
theorem visible_head : ∀ b ∈ render (f.head nonce), ¬ isControl b := by
  apply visible_render (f.readable_head plain)
  have none := f.oneLine
  simp only [List.mem_append, not_or] at none
  simp [head, none]

theorem visible_behind : ∀ b ∈ render f.behind, ¬ isControl b := by
  apply visible_render f.behindFollows.readable
  have none := f.oneLine
  simp only [List.mem_append, not_or] at none
  exact none.2

end Heads

end Format

def isPrintable (b : UInt8) : Bool :=
  b ≠ quote ∧ b ≠ JsonText.backslash ∧ ¬ isControl b ∧ b < 0x80

theorem sendable_of_printable {text : Bytes} (all : ∀ b ∈ text, isPrintable b) : Sendable text := by
  have each : ∀ b ∈ text, b ≠ quote ∧ b ≠ JsonText.backslash ∧ ¬ isControl b ∧ b < 0x80 :=
    fun b member => of_decide_eq_true (all b member)
  refine ⟨fun b member => ⟨(each b member).1, (each b member).2.1, (each b member).2.2.1⟩, ?_⟩
  have valid := Utf8.valid_append (fun b member => (each b member).2.2.2) []
  rw [List.append_nil] at valid
  exact valid

theorem mem_toDigits {base n : Nat} {c : Char} (large : 1 < base) (member : c ∈ Nat.toDigits base n) :
    ∃ d < base, c = d.digitChar := by
  induction n using Nat.strongRecOn with
  | ind n ih =>
    rw [Nat.toDigits_eq_if large] at member
    split at member
    · rename_i small
      exact ⟨n, small, by simpa using member⟩
    · rename_i more
      rcases List.mem_append.mp member with before | last
      · exact ih _ (Nat.div_lt_self (by omega) large) before
      · exact ⟨n % base, Nat.mod_lt n (by omega), by simpa using last⟩

theorem sendable_digits {base : Nat} (large : 1 < base) (small : base ≤ 16) (n : Nat) :
    ∀ b ∈ (Nat.toDigits base n).map fun c => c.toNat.toUInt8, isPrintable b := by
  intro b member
  obtain ⟨c, digit, rfl⟩ := List.mem_map.mp member
  obtain ⟨d, bound, rfl⟩ := mem_toDigits large digit
  have each : ∀ d < 16, isPrintable d.digitChar.toNat.toUInt8 := by decide
  exact each d (by omega)

theorem sendable_printInt (n : Int) : Sendable (printInt n) := by
  apply sendable_of_printable
  show ∀ b ∈ intText n, isPrintable b
  cases n with
  | ofNat n =>
    rw [Int.ofNat_eq_natCast, intText_ofNat]
    exact sendable_digits (by decide) (by decide) n
  | negSucc n =>
    rw [intText_neg]
    exact List.forall_mem_cons.mpr ⟨by decide, sendable_digits (by decide) (by decide) (n + 1)⟩

theorem sendable_printHex (n : UInt64) : Sendable (printHex n) := by
  apply sendable_of_printable
  simpa [printHex, ascii] using @sendable_digits 16 (by decide) (by decide) n.toNat

theorem isPrintable_hexDigit {n : UInt8} (small : n < 16) : isPrintable (hexDigit n) := by
  have each : ∀ m < 16, isPrintable (hexDigit (UInt8.ofNat m)) := by decide
  have here := each n.toNat (UInt8.lt_iff_toNat_lt.mp small)
  rwa [UInt8.ofNat_toNat] at here

theorem sendable_printUuid (uuid : Bytes) : Sendable (printUuid uuid) := by
  apply sendable_of_printable
  intro b member
  obtain ⟨i, -, inside⟩ := List.mem_flatMap.mp member
  rcases List.mem_append.mp inside with dash | digits
  · split at dash
    · obtain rfl : b = 45 := by simpa [ascii] using dash
      rfl
    · simp at dash
  · have small : ∀ x : UInt8, x / 16 < 16 ∧ x % 16 < 16 := by
      intro x
      have bound := x.toNat_lt
      simp only [UInt8.lt_iff_toNat_lt, UInt8.toNat_div, UInt8.toNat_mod]
      show x.toNat / 16 < 16 ∧ x.toNat % 16 < 16
      omega
    simp only [List.mem_cons, List.not_mem_nil, or_false] at digits
    rcases digits with rfl | rfl
    · exact isPrintable_hexDigit (small _).1
    · exact isPrintable_hexDigit (small _).2

theorem signed_eq_iff (n : UInt32) : (n.toNat : Int) = n.toBitVec.toInt ↔ n.toNat < 2 ^ 31 := by
  have bound := n.toNat_lt
  have same : n.toBitVec.toNat = n.toNat := rfl
  rw [BitVec.toInt_eq_toNat_cond, same]
  split <;> omega

end VirtueSensing.Kernel
