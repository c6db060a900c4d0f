import VirtueSensing.Shared.JsonFields
import VirtueSensing.Shared.Utf8

set_option autoImplicit false

/-!
# Texts that are printed piece by piece

The output of a format string: marks, blanks and numbers of the format, and strings between quotes
that are printed as they are.
-/

namespace VirtueSensing.JsonText

inductive Piece where
  | space
  | newline
  | mark (m : Mark)
  | string (text : Bytes)
  -- Bytes that already are the body of a string.
  | body (raw value : Bytes)
  | scalar (text : Bytes) (value : Scalar)

def Mark.byte : Mark → UInt8
  | beginArray => 91
  | endArray => 93
  | beginObject => 123
  | endObject => 125
  | colon => 58
  | comma => 44

namespace Piece

def int (n : Int) : Piece := .scalar (intText n) (.int n)

def bytes : Piece → Bytes
  | space => [32]
  | newline => [10]
  | mark m => [m.byte]
  | string text => quote :: text ++ [quote]
  | body raw _ => quote :: raw ++ [quote]
  | scalar text _ => text

def tokens : Piece → List Token
  | space | newline => []
  | mark m => [.mark m]
  | string text => [.string text]
  | body _ value => [.string value]
  | scalar _ value => [.scalar value]

def quoted : Piece → Option Bytes
  | string text => some text
  | body raw _ => some raw
  | space | newline | mark _ | scalar _ _ => none

-- Ends a number that stands before it.
def separates : Piece → Bool
  | space | newline | mark _ => true
  | string _ | body _ _ | scalar _ _ => false

end Piece

def render (ps : List Piece) : Bytes := ps.flatMap Piece.bytes

@[simp] theorem render_nil : render [] = [] := rfl

@[simp] theorem render_cons (p : Piece) (ps : List Piece) : render (p :: ps) = p.bytes ++ render ps :=
  List.flatMap_cons

@[simp] theorem render_append (ps qs : List Piece) : render (ps ++ qs) = render ps ++ render qs :=
  List.flatMap_append

/-- A printed scalar that reads as its value where nothing goes on with it. -/
structure Reads (text : Bytes) (value : Scalar) : Prop where
  lexes : ∀ extended rest, EndsNumber rest → lex extended 0 (text ++ rest) =
    (lex extended 0 rest).map fun ts => .scalar value :: ts
  raw : ∀ b ∈ text, b ≠ backslash ∧ ¬ isControl b ∧ b < 0x80

theorem natText_raw (n : Nat) : ∀ b ∈ natText n, b ≠ backslash ∧ ¬ isControl b ∧ b < 0x80 := by
  intro b member
  have digit := natText_digits n b member
  simp only [isDigit, decide_eq_true_eq] at digit
  exact ⟨by grind [backslash], by grind [isControl], by grind⟩

theorem reads_int (n : Int) : Reads (intText n) (.int n) := by
  refine ⟨fun extended rest ends => lex_int extended n ends, ?_⟩
  cases n with
  | ofNat n =>
    rw [Int.ofNat_eq_natCast, intText_ofNat]
    exact natText_raw n
  | negSucc n =>
    rw [intText_neg]
    exact List.forall_mem_cons.mpr ⟨by decide, natText_raw (n + 1)⟩

theorem reads_tenth : Reads (ascii "0.1") (.decimal 1 (-1)) := by
  refine ⟨fun extended rest ends => ?_, by decide⟩
  have whole : wholePart (48 :: 46 :: 49 :: rest) = [48] := rfl
  have digit : digits (49 :: rest) = [49] := @digits_append [49] rest (by decide) ends
  have found : number (48 :: 46 :: 49 :: rest) = some (.decimal 1 (-1), 3) := by
    simp [number, whole, fraction, digit, exponent_ends ends, digitsValue]
  exact lex_scalar extended rfl (by decide) found

/-- The strings are plain, and every scalar reads and is followed by a separator. -/
def Readable : List Piece → Prop
  | [] => True
  | .string text :: ps => Plain text ∧ Readable ps
  | .body raw value :: ps => Body raw value ∧ Readable ps
  | .scalar text value :: ps => Reads text value ∧ (∀ p ∈ ps.head?, p.separates) ∧ Readable ps
  | .space :: ps | .newline :: ps | .mark _ :: ps => Readable ps

theorem endsNumber_render {ps : List Piece} {rest : Bytes} (ends : EndsNumber rest)
    (separated : ∀ p ∈ ps.head?, p.separates) : EndsNumber (render ps ++ rest) := by
  cases ps with
  | nil => exact ends
  | cons p ps =>
    have separates := separated p rfl
    cases p with
    | space | newline => simp [EndsNumber, Piece.bytes, isDigit]
    | mark m => cases m <;> simp [EndsNumber, Piece.bytes, Mark.byte, isDigit]
    | string | body | scalar => simp [Piece.separates] at separates

theorem lex_mark (extended : Bool) (m : Mark) (rest : Bytes) :
    lex extended 0 (m.byte :: rest) = (lex extended 0 rest).map fun ts => .mark m :: ts := by
  cases m <;> rfl

theorem lex_render (extended : Bool) {ps : List Piece} (readable : Readable ps) {rest : Bytes}
    (ends : EndsNumber rest) :
    lex extended 0 (render ps ++ rest) =
      (lex extended 0 rest).map fun ts => ps.flatMap Piece.tokens ++ ts := by
  induction ps with
  | nil => simp
  | cons p ps ih =>
    cases p with
    | space => exact ih readable
    | newline => exact ih readable
    | mark m =>
      rw [render_cons, Piece.bytes, List.append_assoc, List.singleton_append, lex_mark, ih readable,
        Option.map_map]
      rfl
    | string text =>
      have split : render (.string text :: ps) ++ rest =
          quote :: text ++ quote :: (render ps ++ rest) := by
        simp [Piece.bytes]
      rw [split, lex_plain extended readable.1, ih readable.2, Option.map_map]
      rfl
    | body raw value =>
      have split : render (.body raw value :: ps) ++ rest =
          quote :: (raw ++ quote :: (render ps ++ rest)) := by
        simp [Piece.bytes]
      rw [split, lex_string extended (readable.1.scan _), ih readable.2, Option.map_map]
      rfl
    | scalar text value =>
      have ends' := endsNumber_render ends readable.2.1
      rw [render_cons, Piece.bytes, List.append_assoc, readable.1.lexes extended _ ends',
        ih readable.2.2, Option.map_map]
      rfl

theorem parse_render (extended : Bool) {ps : List Piece} (readable : Readable ps) :
    parse extended (render ps) = build [] .value (ps.flatMap Piece.tokens) := by
  have lexed := @lex_render extended ps readable [] (by simp [EndsNumber])
  rw [List.append_nil] at lexed
  rw [parse, lexed]
  simp [lex]

/-- Backslashes come from bodies only, and control bytes from line ends only. -/
structure Piece.Visible (p : Piece) : Prop where
  escapes : backslash ∈ p.bytes → ∃ raw value, p = .body raw value
  controls : ∀ b ∈ p.bytes, isControl b → p = .newline

theorem Piece.Visible.of_raw {p : Piece} (raw : ∀ b ∈ p.bytes, b ≠ backslash ∧ ¬ isControl b) :
    p.Visible :=
  ⟨fun member => absurd rfl (raw _ member).1, fun b member control => absurd control (raw b member).2⟩

theorem Readable.tail {p : Piece} {ps : List Piece} (readable : Readable (p :: ps)) : Readable ps := by
  cases p with
  | space | newline | mark => exact readable
  | string | body => exact readable.2
  | scalar => exact readable.2.2

theorem Readable.head {p : Piece} {ps : List Piece} (readable : Readable (p :: ps)) : p.Visible := by
  cases p with
  | space => exact .of_raw (by decide)
  | newline => exact ⟨fun member => absurd member (by decide), fun _ _ _ => rfl⟩
  | mark m => exact .of_raw (by cases m <;> decide)
  | string text =>
    apply Piece.Visible.of_raw
    simp only [Piece.bytes, List.cons_append, List.forall_mem_cons, List.forall_mem_append]
    exact ⟨by decide, fun b member => (readable.1 b member).2, by decide, by simp⟩
  | body raw value =>
    have visible : ∀ b ∈ (Piece.body raw value).bytes, ¬ isControl b := by
      simp only [Piece.bytes, List.cons_append, List.forall_mem_cons, List.forall_mem_append]
      exact ⟨by decide, readable.1.visible, by decide, by simp⟩
    exact ⟨fun _ => ⟨raw, value, rfl⟩, fun b member control => absurd control (visible b member)⟩
  | scalar text value =>
    exact .of_raw fun b member =>
      ⟨(readable.1.raw b member).1, (readable.1.raw b member).2.1⟩

theorem Readable.visible {ps : List Piece} (readable : Readable ps) : ∀ p ∈ ps, p.Visible := by
  induction ps with
  | nil => simp
  | cons p ps ih => exact List.forall_mem_cons.mpr ⟨readable.head, ih readable.tail⟩

theorem raw_render {ps : List Piece} (readable : Readable ps)
    (none : ∀ raw value, .body raw value ∉ ps) : backslash ∉ render ps := by
  intro member
  obtain ⟨p, present, inside⟩ := List.mem_flatMap.mp member
  obtain ⟨raw, value, rfl⟩ := (readable.visible p present).escapes inside
  exact none raw value present

theorem visible_render {ps : List Piece} (readable : Readable ps) (none : Piece.newline ∉ ps) :
    ∀ b ∈ render ps, ¬ isControl b := by
  intro b member control
  obtain ⟨p, present, inside⟩ := List.mem_flatMap.mp member
  obtain rfl := (readable.visible p present).controls b inside control
  exact none present

theorem newline_not_mem_render {ps : List Piece} (readable : Readable ps)
    (none : Piece.newline ∉ ps) : 10 ∉ render ps :=
  fun member => visible_render readable none 10 member rfl

/-- Pieces that stand behind a field: readable, raw, and set off from it. -/
structure Follows (ps : List Piece) : Prop where
  readable : Readable ps
  raw : ∀ raw value, .body raw value ∉ ps
  separated : ∃ p ∈ ps.head?, p.separates

theorem Follows.between {ps : List Piece} (follows : Follows ps) : Between (render ps) := by
  refine ⟨?_, raw_render follows.readable follows.raw⟩
  cases ps with
  | nil => simpa using follows.separated
  | cons p ps =>
    obtain ⟨p', head, separates⟩ := follows.separated
    obtain rfl := Option.some.inj head
    cases p with
    | space | newline => exact ⟨_, rfl, by decide⟩
    | mark m => exact ⟨_, rfl, by cases m <;> decide⟩
    | string | body | scalar => simp [Piece.separates] at separates

theorem readable_append {ps qs : List Piece} (first : Readable ps) (second : Readable qs)
    (joint : (∀ p ∈ ps.getLast?, p.separates) ∨ ∀ q ∈ qs.head?, q.separates) :
    Readable (ps ++ qs) := by
  induction ps with
  | nil => exact second
  | cons p ps ih =>
    have later : Readable (ps ++ qs) := by
      apply ih first.tail
      rcases joint with last | next
      · refine .inl fun q member => last q ?_
        rw [List.getLast?_cons_of_ne_nil (List.ne_nil_of_mem (List.mem_of_mem_getLast? member))]
        exact member
      · exact .inr next
    cases p with
    | space | newline | mark => exact later
    | string | body => exact ⟨first.1, later⟩
    | scalar text value =>
      refine ⟨first.1, fun q head => ?_, later⟩
      cases ps with
      | nil =>
        rcases joint with last | next
        · exact absurd (last _ rfl) (by simp [Piece.separates])
        · exact next q head
      | cons r ps => exact first.2.1 q head

theorem Readable.newline {ps : List Piece} (readable : Readable ps) : Readable (ps ++ [.newline]) :=
  readable_append readable trivial (.inr (by simp [Piece.separates]))

theorem Readable.reads {text : Bytes} {value : Scalar} {ps : List Piece} (readable : Readable ps)
    (member : .scalar text value ∈ ps) : Reads text value := by
  induction ps with
  | nil => simp at member
  | cons p ps ih =>
    rcases List.mem_cons.mp member with rfl | later
    · exact readable.1
    · exact ih readable.tail later

theorem readable_of_strings {ps : List Piece}
    (all : ∀ p ∈ ps, p.separates ∨ ∃ text, p = .string text ∧ Plain text) : Readable ps := by
  induction ps with
  | nil => trivial
  | cons p ps ih =>
    obtain ⟨here, rest⟩ := List.forall_mem_cons.mp all
    have later := ih rest
    cases p with
    | space | newline | mark => exact later
    | string text => exact ⟨by simpa [Piece.separates] using here, later⟩
    | body | scalar => simp [Piece.separates] at here

theorem plain_tokens {ps : List Piece} (readable : Readable ps)
    (raw : ∀ raw value, .body raw value ∉ ps) :
    ∀ s ∈ tokenStrings (ps.flatMap Piece.tokens), Plain s := by
  induction ps with
  | nil => simp [tokenStrings]
  | cons p ps ih =>
    have later := ih readable.tail fun raw' value member =>
      raw raw' value (List.mem_cons_of_mem _ member)
    cases p with
    | space | newline | mark | scalar => exact later
    | string text => exact List.forall_mem_cons.mpr ⟨readable.1, later⟩
    | body raw' value => exact absurd List.mem_cons_self (raw raw' value)

section Fields

variable {extended : Bool} {ps qs rs : List Piece} {first second : Bytes} {v : Json}

theorem plain_of_parse (before : Readable ps) (raw : ∀ raw value, .body raw value ∉ ps)
    (behind : Follows qs) (parsed : parse extended (render (ps ++ .string first :: qs)) = some v)
    (present : first ∈ v.strings) : Plain first := by
  obtain ⟨rest, occurs⟩ := parse_occurs parsed present
  have split : render (ps ++ .string first :: qs) =
      render ps ++ quote :: (first ++ quote :: render qs) := by
    simp [Piece.bytes]
  rw [split] at occurs
  exact plain_of_occurs (raw_render before raw) behind.between occurs

theorem plain_of_parse_two (before : Readable ps) (raw : ∀ raw value, .body raw value ∉ ps)
    (between : Follows qs) (behind : Follows rs)
    (parsed : parse extended (render (ps ++ .string first :: (qs ++ .string second :: rs))) = some v)
    (present : [first, second].Sublist v.strings) : Plain first ∧ Plain second := by
  obtain ⟨rest, occurs, rest', occurs'⟩ := parse_occurs_two parsed present
  have split : render (ps ++ .string first :: (qs ++ .string second :: rs)) =
      render ps ++ quote :: (first ++ quote :: (render qs ++ quote ::
        (second ++ quote :: render rs))) := by
    simp [Piece.bytes]
  rw [split] at occurs
  exact plain_of_occurs_two (raw_render before raw) between.between behind.between occurs occurs'

-- The pieces before the field are read as printed, so all that is left to chance stands behind them.
theorem plain_of_parse_behind (before : Readable ps) (behind : Follows qs)
    (parsed : parse extended (render (ps ++ .string first :: qs)) = some v) :
    ∃ tail, v.strings = tokenStrings (ps.flatMap Piece.tokens) ++ tail ∧
      (first ∈ tail → Plain first) := by
  obtain ⟨ts, lexed, built⟩ := Option.bind_eq_some_iff.mp parsed
  have split : render (ps ++ .string first :: qs) =
      render ps ++ quote :: (first ++ quote :: render qs) := by
    simp [Piece.bytes]
  have ends : EndsNumber (quote :: (first ++ quote :: render qs)) := by
    simp [EndsNumber, quote, isDigit]
  rw [split, lex_render extended before ends] at lexed
  obtain ⟨tail, rest, rfl⟩ := Option.map_eq_some_iff.mp lexed
  refine ⟨tokenStrings tail, ?_, fun present => ?_⟩
  · rw [build_strings built]
    simp [stackStrings, Place.strings, tokenStrings]
  · obtain ⟨rest', -, occurs, -⟩ := lex_occurs rest (List.singleton_sublist.mpr present)
    exact @plain_of_occurs [] first (render qs) rest' (by simp) behind.between occurs

end Fields

theorem valid_render {ps : List Piece} (readable : ∀ text value, .scalar text value ∈ ps →
      Reads text value) :
    Utf8.valid (render ps) ↔ ∀ p ∈ ps, ∀ text ∈ p.quoted, Utf8.valid text := by
  induction ps with
  | nil => simp [Utf8.valid, Utf8.run, Utf8.Pending.none]
  | cons p ps ih =>
    have later := ih fun text value member => readable text value (List.mem_cons_of_mem _ member)
    have others (silent : p.quoted = none) (small : ∀ b ∈ p.bytes, b < 0x80) :
        Utf8.valid (render (p :: ps)) ↔ ∀ q ∈ p :: ps, ∀ text ∈ q.quoted, Utf8.valid text := by
      rw [render_cons, Utf8.valid_append small, later]
      simp [silent]
    have quoted (text : Bytes) (same : p.quoted = some text)
        (bytes : p.bytes = quote :: text ++ [quote]) :
        Utf8.valid (render (p :: ps)) ↔ ∀ q ∈ p :: ps, ∀ text ∈ q.quoted, Utf8.valid text := by
      have split : render (p :: ps) = [] ++ quote :: (text ++ quote :: render ps) := by
        simp [bytes]
      rw [split, Utf8.valid_split (by decide), Utf8.valid_split (by decide)]
      simp [later, same, show Utf8.valid [] = true from rfl]
    cases p with
    | space | newline => exact others rfl (by decide)
    | mark m => exact others rfl (by cases m <;> decide)
    | scalar text value =>
      exact others rfl fun b member => ((readable text value List.mem_cons_self).raw b member).2.2
    | string text => exact quoted text rfl rfl
    | body raw value => exact quoted raw rfl rfl

end VirtueSensing.JsonText
