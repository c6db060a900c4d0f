import Mathlib.Data.List.Chain
import Mathlib.Data.List.TakeWhile
import VirtueSensing.Shared.JsonFields

set_option autoImplicit false

/-!
# Texts as tokens and blanks

A text that the lexer reads falls apart into its tokens and the blanks between them, and two such texts
read one behind the other, as long as no scalar runs into another one.
-/

namespace VirtueSensing.JsonText

/-- The bytes of numbers and of words. -/
def isScalarByte (b : UInt8) : Bool :=
  isDigit b || b = 43 || b = 45 || b = 46 || (65 ≤ b && b ≤ 90) || (97 ≤ b && b ≤ 122)

-- What follows does not go on with a scalar.
def Breaks (rest : Bytes) : Prop := ∀ b ∈ rest.head?, isScalarByte b = false

theorem isDigit_scalarByte {b : UInt8} (digit : isDigit b) : isScalarByte b := by
  simp [isScalarByte, digit]

theorem scalarByte_ne {b c : UInt8} (byte : isScalarByte b) (other : isScalarByte c = false) : b ≠ c := by
  rintro rfl
  simp [other] at byte

theorem Breaks.endsNumber {rest : Bytes} (breaks : Breaks rest) : EndsNumber rest := by
  intro b head
  have other := breaks b head
  refine ⟨fun digit => ?_, ?_, ?_, ?_⟩
  · simp [isDigit_scalarByte digit] at other
  all_goals
    rintro rfl
    exact absurd other (by decide)

theorem scalarByte_mark {b : UInt8} (byte : isScalarByte b) : mark b = none := by
  have ne {c : UInt8} (other : isScalarByte c = false) := scalarByte_ne byte other
  simp [mark, @ne 91 rfl, @ne 93 rfl, @ne 123 rfl, @ne 125 rfl, @ne 58 rfl, @ne 44 rfl]

theorem scalarByte_other {b : UInt8} (byte : isScalarByte b) :
    isSpace b = false ∧ mark b = none ∧ b ≠ quote ∧ b ≠ backslash := by
  have ne {c : UInt8} (other : isScalarByte c = false) := scalarByte_ne byte other
  refine ⟨?_, scalarByte_mark byte, ne rfl, ne rfl⟩
  simp [isSpace, @ne 32 rfl, @ne 9 rfl, @ne 10 rfl, @ne 13 rfl]

section Numerals

structure Power where
  letter : UInt8
  sign : Bytes
  digits : Bytes
  letters : letter = 101 ∨ letter = 69
  signs : sign = [] ∨ sign = [43] ∨ sign = [45]
  all : ∀ b ∈ digits, isDigit b
  some : digits ≠ []

namespace Power

variable (p : Power)

def text : Bytes := p.letter :: (p.sign ++ p.digits)

def value : Int :=
  if p.sign = [45] then -(digitsValue p.digits : Int) else digitsValue p.digits

end Power

/-- A number as it is written. -/
structure Numeral where
  negative : Bool
  whole : Bytes
  fractional : Bytes
  power : Option Power
  wholeDigits : ∀ b ∈ whole, isDigit b
  nonempty : whole ≠ []
  leading : whole.head? = some 48 → whole = [48]
  fractionDigits : ∀ b ∈ fractional, isDigit b

namespace Numeral

variable (n : Numeral)

def sign : Bytes := if n.negative then [45] else []

def point : Bytes := if n.fractional = [] then [] else 46 :: n.fractional

def powerText : Bytes := (n.power.map Power.text).getD []

def text : Bytes := n.sign ++ n.whole ++ n.point ++ n.powerText

def signed : Int :=
  if n.negative then -(digitsValue (n.whole ++ n.fractional) : Int)
  else digitsValue (n.whole ++ n.fractional)

def value : Scalar :=
  if n.fractional = [] ∧ n.power = none then .int n.signed
  else .decimal n.signed ((n.power.map Power.value).getD 0 - n.fractional.length)

end Numeral

theorem digits_stop {ds rest : Bytes} (all : ∀ b ∈ ds, isDigit b)
    (stops : ∀ b ∈ rest.head?, isDigit b = false) : digits (ds ++ rest) = ds := by
  rw [digits, List.takeWhile_append_of_pos all]
  cases rest with
  | nil => simp
  | cons b rest => simp [stops b rfl]

theorem Power.exponent_text (p : Power) {rest : Bytes} (breaks : Breaks rest) :
    exponent (p.text ++ rest) = (p.value, p.text.length) := by
  have stop := digits_append p.all breaks.endsNumber
  have letter : (p.text ++ rest).head? = Option.some 101 ∨ (p.text ++ rest).head? = Option.some 69 := by
    simpa [text] using p.letters
  have tail : (p.text ++ rest).tail = p.sign ++ (p.digits ++ rest) := by simp [text]
  rw [exponent, if_pos letter, tail]
  rcases p.signs with none | plus | minus
  · obtain ⟨d, ds, split⟩ := List.exists_cons_of_ne_nil p.some
    have digit := p.all d (by simp [split])
    have unsigned : d ≠ 43 ∧ d ≠ 45 := by
      unfold isDigit at digit
      grind
    have head : (p.digits ++ rest).head? = Option.some d := by simp [split]
    simp [none, head, unsigned.1, unsigned.2, stop, p.some, value, text]
    omega
  · simp [plus, stop, p.some, value, text]
    omega
  · simp [minus, stop, p.some, value, text]
    omega

theorem letter_not_digit {b : UInt8} (letter : b = 101 ∨ b = 69) : isDigit b = false ∧ b ≠ 46 := by
  rcases letter with rfl | rfl <;> decide

namespace Numeral

variable (n : Numeral) {rest : Bytes}

theorem powerText_stops (breaks : Breaks rest) :
    ∀ b ∈ (n.powerText ++ rest).head?, isDigit b = false ∧ b ≠ 46 := by
  unfold powerText
  cases n.power with
  | none =>
    intro b head
    have ends := breaks.endsNumber b head
    exact ⟨by simpa using ends.1, ends.2.1⟩
  | some p =>
    intro b head
    obtain rfl : p.letter = b := by simpa [Power.text] using head
    exact letter_not_digit p.letters

theorem point_stops (breaks : Breaks rest) :
    ∀ b ∈ (n.point ++ (n.powerText ++ rest)).head?, isDigit b = false := by
  unfold point
  split
  · exact fun b head => (n.powerText_stops breaks b head).1
  · intro b head
    obtain rfl : 46 = b := by simpa using head
    rfl

theorem wholePart_text (breaks : Breaks rest) :
    wholePart (n.whole ++ (n.point ++ (n.powerText ++ rest))) = n.whole := by
  rw [wholePart, digits_stop n.wholeDigits (n.point_stops breaks)]
  cases whole : n.whole with
  | nil => rfl
  | cons d ds =>
    dsimp only
    split
    · rename_i zero
      have alone := n.leading (by rw [whole, zero]; rfl)
      rw [whole] at alone
      rw [(List.cons.inj alone).1, (List.cons.inj alone).2]
    · rfl

theorem fraction_text (breaks : Breaks rest) :
    fraction (n.point ++ (n.powerText ++ rest)) = n.fractional := by
  have stops := n.powerText_stops breaks
  unfold point
  split
  · rename_i none
    have other : (n.powerText ++ rest).head? ≠ some 46 := fun head => (stops 46 head).2 rfl
    rw [none, List.nil_append, fraction, if_neg other]
  · rw [List.cons_append, fraction, List.head?_cons, if_pos rfl, List.tail_cons,
      digits_stop n.fractionDigits fun b head => (stops b head).1]

theorem exponent_powerText (breaks : Breaks rest) :
    exponent (n.powerText ++ rest) =
      ((n.power.map Power.value).getD 0, n.powerText.length) := by
  unfold powerText
  cases n.power with
  | none => exact exponent_ends breaks.endsNumber
  | some p => exact p.exponent_text breaks

theorem sign_iff (more : Bytes) : (n.sign ++ (n.whole ++ more)).head? = some 45 ↔ n.negative = true := by
  obtain ⟨d, ds, split⟩ := List.exists_cons_of_ne_nil n.nonempty
  have digit := n.wholeDigits d (by simp [split])
  have unsigned : d ≠ 45 := by
    rintro rfl
    exact absurd digit (by decide)
  unfold sign
  cases n.negative <;> simp [split, unsigned]

theorem length_point : n.point.length = if n.fractional = [] then 0 else n.fractional.length + 1 := by
  unfold point
  split <;> simp

theorem length_powerText : n.powerText.length = 0 ↔ n.power = none := by
  unfold powerText
  cases n.power <;> simp [Power.text]

theorem number_text (breaks : Breaks rest) :
    number (n.text ++ rest) = some (n.value, n.text.length) := by
  have shape : n.text ++ rest = n.sign ++ (n.whole ++ (n.point ++ (n.powerText ++ rest))) := by
    simp [text]
  have signLength : (if n.negative = true then 1 else 0) = n.sign.length := by
    unfold sign
    split <;> rfl
  have behind : n.sign.length + n.whole.length = (n.sign ++ n.whole).length := by simp
  have afterWhole : List.drop (n.sign ++ n.whole).length
      (n.sign ++ (n.whole ++ (n.point ++ (n.powerText ++ rest)))) =
        n.point ++ (n.powerText ++ rest) := by
    rw [← List.append_assoc, List.drop_left]
  simp only [number, shape, n.sign_iff, signLength, List.drop_left, n.wholePart_text breaks,
    n.nonempty, if_false, behind, afterWhole, n.fraction_text breaks, ← n.length_point,
    n.exponent_powerText breaks, n.length_powerText, value, signed]
  split
  · simp [text, Nat.add_assoc]
  · simp [text, Nat.add_assoc]

end Numeral

theorem digits_prefix (text : Bytes) : ∃ rest, text = digits text ++ rest :=
  ⟨text.dropWhile isDigit, (List.takeWhile_append_dropWhile).symm⟩

theorem digits_all (text : Bytes) : ∀ b ∈ digits text, isDigit b :=
  fun _ member => List.mem_takeWhile_imp member

def powerSign (text : Bytes) : Bytes :=
  if text.head? = some 43 then [43] else if text.head? = some 45 then [45] else []

theorem powerSign_prefix (text : Bytes) : ∃ rest, text = powerSign text ++ rest := by
  unfold powerSign
  split_ifs with plus minus
  · exact ⟨text.tail, (List.cons_head?_tail plus).symm⟩
  · exact ⟨text.tail, (List.cons_head?_tail minus).symm⟩
  · exact ⟨text, rfl⟩

theorem powerSign_cases (text : Bytes) :
    powerSign text = [] ∨ powerSign text = [43] ∨ powerSign text = [45] := by
  unfold powerSign
  split_ifs <;> simp

theorem exponent_cons {b : UInt8} (letter : b = 101 ∨ b = 69) (tail : Bytes) :
    exponent (b :: tail) =
      if digits (tail.drop (powerSign tail).length) = [] then (0, 0)
      else
        (if powerSign tail = [45] then -(digitsValue (digits (tail.drop (powerSign tail).length)) : Int)
          else digitsValue (digits (tail.drop (powerSign tail).length)),
          1 + (powerSign tail).length + (digits (tail.drop (powerSign tail).length)).length) := by
  by_cases plus : tail.head? = some 43
  · simp [exponent, letter, powerSign, plus]
  · by_cases minus : tail.head? = some 45
    · simp [exponent, letter, powerSign, minus]
    · simp [exponent, letter, powerSign, plus, minus]

theorem exponent_split (text : Bytes) :
    exponent text = (0, 0) ∨
      ∃ (p : Power) (rest : Bytes), text = p.text ++ rest ∧ exponent text = (p.value, p.text.length) := by
  by_cases letter : text.head? = some 101 ∨ text.head? = some 69
  · obtain ⟨b, head⟩ : ∃ b, text.head? = some b := letter.elim (fun h => ⟨_, h⟩) fun h => ⟨_, h⟩
    obtain ⟨tail, rfl⟩ : ∃ tail, text = b :: tail := ⟨text.tail, (List.cons_head?_tail head).symm⟩
    have letter : b = 101 ∨ b = 69 := by simpa using letter
    obtain ⟨afterSign, signSplit⟩ := powerSign_prefix tail
    have dropped : tail.drop (powerSign tail).length = afterSign := by
      conv => lhs; arg 2; rw [signSplit]
      exact List.drop_left
    rw [exponent_cons letter, dropped]
    by_cases none : digits afterSign = []
    · exact .inl (if_pos none)
    · obtain ⟨rest, digitSplit⟩ := digits_prefix afterSign
      refine .inr ⟨⟨b, powerSign tail, digits afterSign, letter, powerSign_cases tail, digits_all _, none⟩,
        rest, ?_, ?_⟩
      · simp only [Power.text, List.cons_append, List.append_assoc, ← digitSplit, ← signSplit]
      · rw [if_neg none]
        simp only [Power.value, Power.text, List.length_cons, List.length_append, Prod.mk.injEq, true_and]
        omega
  · exact .inl (if_neg letter)

theorem wholePart_split (text : Bytes) :
    (∃ rest, text = wholePart text ++ rest) ∧ (∀ b ∈ wholePart text, isDigit b) ∧
      ((wholePart text).head? = some 48 → wholePart text = [48]) := by
  obtain ⟨rest, split⟩ := digits_prefix text
  have all := digits_all text
  unfold wholePart
  cases whole : digits text with
  | nil => exact ⟨⟨text, rfl⟩, nofun, nofun⟩
  | cons d ds =>
    rw [whole] at all split
    by_cases zero : d = 48
    · simp only [zero, if_true]
      exact ⟨⟨ds ++ rest, by rw [split, zero]; rfl⟩, by decide, by simp⟩
    · simp only [zero, if_false]
      exact ⟨⟨rest, split⟩, all, fun head => absurd (Option.some.inj head) zero⟩

theorem fraction_split (text : Bytes) :
    ∃ rest, text = (if fraction text = [] then [] else 46 :: fraction text) ++ rest := by
  by_cases point : text.head? = some 46
  · obtain ⟨tail, rfl⟩ : ∃ tail, text = 46 :: tail := ⟨text.tail, (List.cons_head?_tail point).symm⟩
    obtain ⟨rest, split⟩ := digits_prefix tail
    have same : fraction (46 :: tail) = digits tail := if_pos rfl
    rw [same]
    by_cases none : digits tail = []
    · exact ⟨46 :: tail, by simp [none]⟩
    · exact ⟨rest, by simp [none, ← split]⟩
  · have none : fraction text = [] := if_neg point
    exact ⟨text, by simp [none]⟩

theorem fraction_digits (text : Bytes) : ∀ b ∈ fraction text, isDigit b := by
  unfold fraction
  split
  · exact digits_all text.tail
  · exact nofun

theorem number_split {text : Bytes} {v : Scalar} {k : Nat} (found : number text = some (v, k)) :
    ∃ (n : Numeral) (rest : Bytes), text = n.text ++ rest ∧ v = n.value ∧ k = n.text.length := by
  obtain ⟨negative, signed⟩ : ∃ negative : Bool, negative = true ↔ text.head? = some 45 :=
    ⟨decide (text.head? = some 45), decide_eq_true_iff⟩
  obtain ⟨body, signSplit⟩ : ∃ body, text = (if negative then [45] else []) ++ body := by
    cases negative with
    | true => exact ⟨text.tail, (List.cons_head?_tail (signed.mp rfl)).symm⟩
    | false => exact ⟨text, rfl⟩
  obtain ⟨⟨afterWhole, wholeSplit⟩, wholeDigits, leading⟩ := wholePart_split body
  obtain ⟨afterPoint, pointSplit⟩ := fraction_split afterWhole
  have signLength : (if negative = true then 1 else 0) = (if negative then [45] else [] : Bytes).length := by
    cases negative <;> rfl
  have bodyDrop : text.drop (if negative then [45] else [] : Bytes).length = body := by
    conv => lhs; arg 2; rw [signSplit]
    exact List.drop_left
  have wholeDrop : text.drop ((if negative then [45] else [] : Bytes).length + (wholePart body).length) =
      afterWhole := by
    rw [← List.drop_drop, bodyDrop]
    conv => lhs; arg 2; rw [wholeSplit]
    exact List.drop_left
  have pointLength : (if fraction afterWhole = [] then 0 else (fraction afterWhole).length + 1) =
      (if fraction afterWhole = [] then [] else 46 :: fraction afterWhole).length := by
    split <;> rfl
  have pointDrop : afterWhole.drop
      (if fraction afterWhole = [] then [] else 46 :: fraction afterWhole).length = afterPoint := by
    conv => lhs; arg 2; rw [pointSplit]
    exact List.drop_left
  simp only [number, ← signed, signLength, bodyDrop, wholeDrop, pointLength, pointDrop] at found
  split at found
  · cases found
  · rename_i nonempty
    have power : ∃ (power : Option Power) (rest : Bytes),
        afterPoint = (power.map Power.text).getD [] ++ rest ∧
          exponent afterPoint =
            ((power.map Power.value).getD 0, ((power.map Power.text).getD []).length) := by
      rcases exponent_split afterPoint with absent | ⟨p, rest, split, read⟩
      · exact ⟨none, afterPoint, rfl, absent⟩
      · exact ⟨some p, rest, split, read⟩
    obtain ⟨power, rest, powerSplit, read⟩ := power
    let n : Numeral := ⟨negative, wholePart body, fraction afterWhole, power, wholeDigits, nonempty,
      leading, fraction_digits afterWhole⟩
    refine ⟨n, rest, ?_, ?_⟩
    · have shape : n.text ++ rest = n.sign ++ (n.whole ++ (n.point ++ (n.powerText ++ rest))) := by
        simp [Numeral.text]
      rw [shape, signSplit]
      exact congrArg (_ ++ ·) (wholeSplit.trans (congrArg (_ ++ ·)
        (pointSplit.trans (congrArg (_ ++ ·) powerSplit))))
    · have length : n.text.length = n.sign.length + n.whole.length + n.point.length + n.powerText.length := by
        simp only [Numeral.text, List.length_append]
      rw [read] at found
      split at found
      · rename_i integral
        obtain ⟨rfl, rfl⟩ := Prod.mk.inj (Option.some.inj found)
        exact ⟨(if_pos ⟨integral.1, n.length_powerText.mp integral.2⟩).symm, length.symm⟩
      · rename_i fractional
        obtain ⟨rfl, rfl⟩ := Prod.mk.inj (Option.some.inj found)
        refine ⟨(if_neg fun integral => fractional ?_).symm, length.symm⟩
        exact ⟨integral.1, n.length_powerText.mpr integral.2⟩

theorem Power.scalarBytes (p : Power) : ∀ b ∈ p.text, isScalarByte b := by
  rw [text, List.forall_mem_cons, List.forall_mem_append]
  refine ⟨?_, ?_, fun b member => isDigit_scalarByte (p.all b member)⟩
  · rcases p.letters with letter | letter <;> rw [letter] <;> rfl
  · rcases p.signs with sign | sign | sign <;> rw [sign] <;> decide

theorem Numeral.scalarBytes (n : Numeral) : ∀ b ∈ n.text, isScalarByte b := by
  simp only [text, List.forall_mem_append]
  refine ⟨⟨⟨?_, fun b member => isDigit_scalarByte (n.wholeDigits b member)⟩, ?_⟩, ?_⟩
  · unfold sign
    split <;> decide
  · unfold point
    split
    · exact nofun
    · exact List.forall_mem_cons.mpr
        ⟨rfl, fun b member => isDigit_scalarByte (n.fractionDigits b member)⟩
  · unfold powerText
    cases n.power with
    | none => exact nofun
    | some p => exact p.scalarBytes

theorem Numeral.startsNumber_text (n : Numeral) (rest : Bytes) : startsNumber (n.text ++ rest) := by
  obtain ⟨d, ds, split⟩ := List.exists_cons_of_ne_nil n.nonempty
  have digit := n.wholeDigits d (by simp [split])
  have shape : n.text ++ rest = n.sign ++ d :: (ds ++ n.point ++ n.powerText ++ rest) := by
    simp [text, split]
  rw [shape]
  unfold sign
  cases n.negative with
  | true =>
    show (isDigit 45 || (decide ((45 : UInt8) = 45) && isDigit d)) = true
    rw [digit]
    rfl
  | false =>
    cases ds ++ n.point ++ n.powerText ++ rest with
    | nil => exact digit
    | cons c more =>
      show (isDigit d || (decide (d = 45) && isDigit c)) = true
      rw [digit, Bool.true_or]

end Numerals

section Literals

variable {extended : Bool}

/-- Bytes that are read as one scalar, whatever else stands behind them. -/
structure Literal (extended : Bool) (raw : Bytes) (value : Scalar) : Prop where
  nonempty : raw ≠ []
  bytes : ∀ b ∈ raw, isScalarByte b
  reads : ∀ rest, Breaks rest → scalar extended (raw ++ rest) = some (value, raw.length)

theorem Numeral.literal (n : Numeral) : Literal extended n.text n.value where
  nonempty empty := by
    have nonempty := n.nonempty
    simp [text, nonempty] at empty
  bytes := n.scalarBytes
  reads rest breaks := by
    rw [scalar_number extended (n.startsNumber_text rest)]
    exact n.number_text breaks

theorem words_find {word : Bytes × Scalar} (member : word ∈ words extended) (rest : Bytes) :
    (words extended).find? (fun w => w.1.isPrefixOf (word.1 ++ rest)) = some word := by
  cases extended with
  | true =>
    simp only [words, literals, constants, if_true, List.map_cons, List.map_nil, List.cons_append,
      List.nil_append, List.mem_cons, List.not_mem_nil, or_false] at member
    rcases member with rfl | rfl | rfl | rfl | rfl | rfl <;> rfl
  | false =>
    simp only [words, literals, if_false, List.append_nil, List.mem_cons, List.not_mem_nil, or_false,
      Bool.false_eq_true] at member
    rcases member with rfl | rfl | rfl <;> rfl

theorem words_bytes {word : Bytes × Scalar} (member : word ∈ words extended) :
    word.1 ≠ [] ∧ ∀ b ∈ word.1, isScalarByte b := by
  revert word
  cases extended <;> decide

theorem word_literal {word : Bytes × Scalar} (member : word ∈ words extended) :
    Literal extended word.1 word.2 where
  nonempty := (words_bytes member).1
  bytes := (words_bytes member).2
  reads rest _ := by rw [scalar, words_find member rest]

theorem scalar_split {text : Bytes} {v : Scalar} {k : Nat} (found : scalar extended text = some (v, k)) :
    ∃ raw rest, text = raw ++ rest ∧ k = raw.length ∧ Literal extended raw v := by
  unfold scalar at found
  split at found
  · rename_i word value isWord
    obtain ⟨rfl, rfl⟩ := Prod.mk.inj (Option.some.inj found)
    have starts := List.find?_some isWord
    obtain ⟨rest, split⟩ := List.isPrefixOf_iff_prefix.mp starts
    exact ⟨word, rest, split.symm, rfl, word_literal (List.mem_of_find?_eq_some isWord)⟩
  · obtain ⟨n, rest, split, rfl, rfl⟩ := number_split found
    exact ⟨n.text, rest, split, rfl, n.literal⟩

end Literals

def Token.isScalar : Token → Bool
  | .scalar _ => true
  | .mark _ | .string _ => false

-- No scalar stands directly behind another one.
def Apart (ts : List Token) : Prop := ts.IsChain fun t u => ¬ (t.isScalar ∧ u.isScalar)

section Spelling

variable {extended : Bool} {text s rest : Bytes} {ts us : List Token}

/-- The tokens of a text, in order, and the blanks between them. -/
inductive Spells (extended : Bool) : Bytes → List Token → Prop where
  | nil : Spells extended [] []
  | space {b : UInt8} {text : Bytes} {ts : List Token} (blank : isSpace b)
    (later : Spells extended text ts) : Spells extended (b :: text) ts
  | mark {b : UInt8} {m : Mark} {text : Bytes} {ts : List Token} (marks : JsonText.mark b = some m)
    (later : Spells extended text ts) : Spells extended (b :: text) (.mark m :: ts)
  | string {raw s text : Bytes} {ts : List Token} (body : Body raw s)
    (later : Spells extended text ts) : Spells extended (quote :: (raw ++ quote :: text)) (.string s :: ts)
  | scalar {raw text : Bytes} {v : Scalar} {ts : List Token} (literal : Literal extended raw v)
    (breaks : Breaks text) (later : Spells extended text ts) :
    Spells extended (raw ++ text) (.scalar v :: ts)

theorem Scans.body (scans : Scans text s rest) : ∃ raw, text = raw ++ quote :: rest ∧ Body raw s := by
  induction scans with
  | ends rest => exact ⟨[], rfl, rfl⟩
  | @escaped text value s rest n taken later ih =>
    obtain ⟨raw, split, body⟩ := ih
    have inside := escape_inside taken
    have whole : text = text.take n ++ raw ++ quote :: rest := by
      rw [List.append_assoc, ← split, List.take_append_drop]
    have length : (text.take n).length = n := by
      rw [List.length_take]
      exact Nat.min_eq_left inside.within
    have nonempty : text.take n ++ raw ≠ [] := by
      intro empty
      have short := congrArg List.length empty
      rw [List.length_append, length, List.length_nil] at short
      have takes := inside.takes
      omega
    have same := escape_field nonempty rest
    rw [← whole, taken] at same
    refine ⟨backslash :: (text.take n ++ raw), congrArg (backslash :: ·) whole, ?_⟩
    refine (Scans.escaped same.symm ?_).scan
    rw [List.append_assoc, List.drop_append_of_le_length (Nat.le_of_eq length.symm),
      List.drop_of_length_le (Nat.le_of_eq length), List.nil_append]
    exact scans_of_scan body
  | plain plain later ih =>
    obtain ⟨raw, rfl, body⟩ := ih
    exact ⟨_ :: raw, rfl, (Scans.plain plain (scans_of_scan body)).scan⟩

theorem lex_scalar_cons {b : UInt8} (byte : isScalarByte b) :
    lex extended 0 (b :: text) =
      (scalar extended (b :: text)).bind fun s =>
        (lex extended 0 (text.drop (s.2 - 1))).map fun ts => .scalar s.1 :: ts := by
  obtain ⟨visible, unmarked, unquoted, -⟩ := scalarByte_other byte
  simp only [lex, visible, unmarked, unquoted, if_false, Bool.false_eq_true]
  cases scalar extended (b :: text) with
  | none => rfl
  | some s => exact congrArg (Option.map _) (lex_skip extended _ _)

theorem breaks_of_lex (lexed : lex extended 0 text = some ts)
    (other : ∀ t ∈ ts.head?, t.isScalar = false) : Breaks text := by
  cases text with
  | nil => exact nofun
  | cons b text =>
    rintro c ⟨⟩
    by_contra byte
    rw [lex_scalar_cons (by simpa using byte)] at lexed
    obtain ⟨s, -, later⟩ := Option.bind_eq_some_iff.mp lexed
    obtain ⟨us, -, rfl⟩ := Option.map_eq_some_iff.mp later
    exact Bool.noConfusion (other (.scalar s.1) rfl)

theorem mark_not_space {b : UInt8} {m : Mark} (marks : mark b = some m) : isSpace b = false ∧ b ≠ quote := by
  constructor
  · by_contra blank
    simp only [isSpace, Bool.not_eq_false, decide_eq_true_eq] at blank
    rcases blank with rfl | rfl | rfl | rfl <;> cases marks
  · rintro rfl
    cases marks

theorem Spells.lex (spells : Spells extended text ts) : lex extended 0 text = some ts := by
  induction spells with
  | nil => rfl
  | space blank later ih => simp [JsonText.lex, blank, ih]
  | mark marks later ih => simp [JsonText.lex, mark_not_space marks, marks, ih]
  | string body later ih =>
    rw [lex_string extended (body.scan _), ih]
    rfl
  | @scalar raw text v ts literal breaks later ih =>
    have read := literal.reads text breaks
    obtain ⟨b, raw, rfl⟩ := List.exists_cons_of_ne_nil literal.nonempty
    rw [List.cons_append] at read ⊢
    rw [lex_scalar_cons (literal.bytes b List.mem_cons_self), read, Option.bind_some]
    dsimp only
    rw [List.length_cons, Nat.add_sub_cancel, List.drop_left, ih]
    rfl

theorem Apart.tail {t : Token} (apart : Apart (t :: ts)) : Apart ts := List.IsChain.tail apart

theorem Apart.behind_scalar {v : Scalar} (apart : Apart (.scalar v :: ts)) :
    ∀ t ∈ ts.head?, t.isScalar = false := by
  cases ts with
  | nil => exact nofun
  | cons t ts =>
    rintro u ⟨⟩
    have differ := (List.isChain_cons_cons.mp apart).1
    simpa [Token.isScalar] using differ

theorem spells_of_lex (lexed : lex extended 0 text = some ts) (apart : Apart ts) :
    Spells extended text ts := by
  induction size : text.length using Nat.strongRecOn generalizing text ts with
  | ind k ih =>
    cases text with
    | nil =>
      obtain rfl := Option.some.inj lexed
      exact .nil
    | cons b text =>
      rw [List.length_cons] at size
      by_cases quoted : b = quote
      · subst quoted
        cases found : scan 0 text with
        | none =>
          simp [JsonText.lex, found, show isSpace quote = false from rfl,
            show JsonText.mark quote = none from rfl] at lexed
        | some pair =>
          rw [lex_string extended found] at lexed
          obtain ⟨us, later, rfl⟩ := Option.map_eq_some_iff.mp lexed
          obtain ⟨raw, rfl, body⟩ := (scans_of_scan found).body
          rw [List.length_append, List.length_cons] at size
          exact .string body (ih _ (by omega) later apart.tail rfl)
      · by_cases blank : isSpace b
        · simp only [JsonText.lex, blank, if_true] at lexed
          exact .space blank (ih _ (by omega) lexed apart rfl)
        · cases marks : mark b with
          | some m =>
            simp only [JsonText.lex, blank, marks, if_false, Bool.false_eq_true] at lexed
            obtain ⟨us, later, rfl⟩ := Option.map_eq_some_iff.mp lexed
            exact .mark marks (ih _ (by omega) later apart.tail rfl)
          | none =>
            simp only [JsonText.lex, blank, marks, quoted, if_false, Bool.false_eq_true] at lexed
            split at lexed
            · cases lexed
            · rename_i v n found
              obtain ⟨us, later, rfl⟩ := Option.map_eq_some_iff.mp lexed
              obtain ⟨raw, rest, split, rfl, literal⟩ := scalar_split found
              rw [lex_skip] at later
              obtain ⟨c, raw, rfl⟩ := List.exists_cons_of_ne_nil literal.nonempty
              rw [List.cons_append] at split
              obtain ⟨rfl, rfl⟩ := List.cons.inj split
              rw [List.length_cons, Nat.add_sub_cancel, List.drop_left] at later
              rw [List.length_append] at size
              exact .scalar literal (breaks_of_lex later apart.behind_scalar)
                (ih _ (by omega) later apart.tail rfl)

theorem Spells.breaks (spells : Spells extended text ts) (other : ∀ t ∈ ts.head?, t.isScalar = false) :
    Breaks text := breaks_of_lex spells.lex other

theorem Breaks.append_left {more : Bytes} (breaks : Breaks (text ++ more)) : Breaks text := by
  intro b head
  exact breaks b (List.mem_head?_append_of_mem_head? head)

theorem Breaks.append {more : Bytes} (breaks : Breaks text) (behind : text = [] → Breaks more) :
    Breaks (text ++ more) := by
  cases text with
  | nil => exact behind rfl
  | cons b text => exact breaks

theorem Spells.append (first : Spells extended text ts) {more : Bytes}
    (second : Spells extended more us) (apart : Apart (ts ++ us)) :
    Spells extended (text ++ more) (ts ++ us) := by
  induction first with
  | nil => exact second
  | space blank later ih => exact .space blank (ih apart)
  | mark marks later ih => exact .mark marks (ih apart.tail)
  | @string raw s text ts body later ih =>
    have whole := Spells.string body (ih apart.tail)
    simpa using whole
  | @scalar raw text v ts literal breaks later ih =>
    rw [List.append_assoc]
    refine .scalar literal (breaks.append ?_) (ih apart.tail)
    rintro rfl
    obtain rfl := Option.some.inj later.lex
    exact second.breaks apart.behind_scalar

theorem append_split {α : Type} {c : α} {raw rest x y : List α} (same : raw ++ rest = x ++ c :: y)
    (outside : c ∉ raw) : ∃ more, x = raw ++ more ∧ rest = more ++ c :: y := by
  rcases List.append_eq_append_iff.mp same with ⟨more, rfl, split⟩ | ⟨more, rfl, split⟩
  · exact ⟨more, rfl, split⟩
  · cases more with
    | nil => exact ⟨[], by simp, split.symm⟩
    | cons d more =>
      obtain ⟨rfl, -⟩ := List.cons.inj split
      simp at outside

theorem Spells.cut (spells : Spells extended text ts) {x y : Bytes} (split : text = x ++ 10 :: y) :
    ∃ us vs, ts = us ++ vs ∧ Spells extended x us ∧ Spells extended y vs := by
  induction spells generalizing x with
  | nil => simp at split
  | space blank later ih =>
    cases x with
    | nil =>
      obtain ⟨-, rfl⟩ := List.cons.inj split
      exact ⟨[], _, rfl, .nil, later⟩
    | cons c x =>
      obtain ⟨rfl, rfl⟩ := List.cons.inj split
      obtain ⟨us, vs, rfl, first, second⟩ := ih rfl
      exact ⟨us, vs, rfl, .space blank first, second⟩
  | mark marks later ih =>
    cases x with
    | nil =>
      obtain ⟨rfl, -⟩ := List.cons.inj split
      cases marks
    | cons c x =>
      obtain ⟨rfl, rfl⟩ := List.cons.inj split
      obtain ⟨us, vs, rfl, first, second⟩ := ih rfl
      exact ⟨_ :: us, vs, rfl, .mark marks first, second⟩
  | @string raw s text ts body later ih =>
    have outside : (10 : UInt8) ∉ quote :: (raw ++ [quote]) := by
      simp only [List.mem_cons, List.mem_append, List.not_mem_nil, or_false, not_or]
      exact ⟨by decide, fun inside => body.visible 10 inside rfl, by decide⟩
    have shape : quote :: (raw ++ [quote]) ++ text = x ++ 10 :: y := by simpa using split
    obtain ⟨more, rfl, rfl⟩ := append_split shape outside
    obtain ⟨us, vs, rfl, first, second⟩ := ih rfl
    exact ⟨_ :: us, vs, rfl, by simpa using Spells.string body first, second⟩
  | scalar literal breaks later ih =>
    have outside : (10 : UInt8) ∉ _ := fun inside => absurd (literal.bytes 10 inside) (by decide)
    obtain ⟨more, rfl, rfl⟩ := append_split split outside
    obtain ⟨us, vs, rfl, first, second⟩ := ih rfl
    exact ⟨_ :: us, vs, rfl, .scalar literal breaks.append_left first, second⟩

-- A token starts and ends with such a byte.
def isEdge (b : UInt8) : Bool := (mark b).isSome || b = quote || isScalarByte b

theorem isEdge_quote : isEdge quote = true := rfl

theorem isEdge_mark {b : UInt8} {m : Mark} (marks : mark b = some m) : isEdge b := by
  simp [isEdge, marks]

theorem isEdge_scalarByte {b : UInt8} (byte : isScalarByte b) : isEdge b := by
  simp [isEdge, byte]

theorem Spells.cons_cases {b : UInt8} (spells : Spells extended text ts) (split : text = b :: rest) :
    (isSpace b ∧ Spells extended rest ts) ∨ isEdge b := by
  cases spells with
  | nil => cases split
  | space blank later =>
    obtain ⟨rfl, rfl⟩ := List.cons.inj split
    exact .inl ⟨blank, later⟩
  | mark marks later =>
    obtain ⟨rfl, rfl⟩ := List.cons.inj split
    exact .inr (isEdge_mark marks)
  | string body later =>
    obtain ⟨rfl, rfl⟩ := List.cons.inj split
    exact .inr isEdge_quote
  | scalar literal breaks later =>
    obtain ⟨c, raw, rfl⟩ := List.exists_cons_of_ne_nil literal.nonempty
    obtain ⟨rfl, -⟩ := List.cons.inj split
    exact .inr (isEdge_scalarByte (literal.bytes c List.mem_cons_self))

theorem snoc_split {α : Type} {c : α} {raw rest x : List α} (same : raw ++ rest = x ++ [c]) :
    (rest = [] ∧ raw = x ++ [c]) ∨ ∃ more, rest = more ++ [c] ∧ x = raw ++ more := by
  rcases List.eq_nil_or_concat rest with rfl | ⟨more, d, rfl⟩
  · exact .inl ⟨rfl, by simpa using same⟩
  · rw [List.concat_eq_append, ← List.append_assoc] at same
    obtain ⟨rfl, last⟩ := List.append_inj' same rfl
    exact .inr ⟨more, by rw [List.concat_eq_append, last], rfl⟩

theorem Spells.snoc_cases {b : UInt8} (spells : Spells extended text ts) (split : text = rest ++ [b]) :
    (isSpace b ∧ Spells extended rest ts) ∨ isEdge b := by
  induction spells generalizing rest with
  | nil => simp at split
  | @space c text ts blank later ih =>
    rcases snoc_split (show [c] ++ text = rest ++ [b] from split) with ⟨rfl, same⟩ | ⟨more, rfl, rfl⟩
    · obtain ⟨rfl, last⟩ := List.append_inj' (show [] ++ [c] = rest ++ [b] from same) rfl
      obtain rfl := List.singleton_inj.mp last
      exact .inl ⟨blank, later⟩
    · exact (ih rfl).imp_left fun ⟨last, earlier⟩ => ⟨last, .space blank earlier⟩
  | @mark c m text ts marks later ih =>
    rcases snoc_split (show [c] ++ text = rest ++ [b] from split) with ⟨rfl, same⟩ | ⟨more, rfl, rfl⟩
    · obtain ⟨-, last⟩ := List.append_inj' (show [] ++ [c] = rest ++ [b] from same) rfl
      obtain rfl := List.singleton_inj.mp last
      exact .inr (isEdge_mark marks)
    · exact (ih rfl).imp_left fun ⟨last, earlier⟩ => ⟨last, .mark marks earlier⟩
  | @string raw s text ts body later ih =>
    have shape : quote :: (raw ++ [quote]) ++ text = rest ++ [b] := by simpa using split
    rcases snoc_split shape with ⟨rfl, same⟩ | ⟨more, rfl, rfl⟩
    · obtain ⟨-, rfl⟩ : quote :: raw = rest ∧ quote = b := by
        rw [← List.cons_append] at same
        exact (List.append_inj' same rfl).imp_right List.singleton_inj.mp
      exact .inr isEdge_quote
    · refine (ih rfl).imp_left fun ⟨last, earlier⟩ => ⟨last, ?_⟩
      simpa using Spells.string body earlier
  | @scalar raw text v ts literal breaks later ih =>
    rcases snoc_split split with ⟨rfl, rfl⟩ | ⟨more, rfl, rfl⟩
    · exact .inr (isEdge_scalarByte (literal.bytes b (by simp)))
    · exact (ih rfl).imp_left fun ⟨last, earlier⟩ =>
        ⟨last, .scalar literal breaks.append_left earlier⟩

theorem isEdge_not_space {b : UInt8} (edge : isEdge b) : isSpace b = false := by
  by_contra blank
  simp only [isSpace, Bool.not_eq_false, decide_eq_true_eq] at blank
  rcases blank with rfl | rfl | rfl | rfl <;> cases edge

theorem Spells.of_space {b : UInt8} (blank : isSpace b) (spells : Spells extended (b :: text) ts) :
    Spells extended text ts := by
  rcases spells.cons_cases rfl with ⟨-, later⟩ | edge
  · exact later
  · simp [isEdge_not_space edge] at blank

theorem Spells.of_snoc_space {b : UInt8} (blank : isSpace b) (spells : Spells extended (text ++ [b]) ts) :
    Spells extended text ts := by
  rcases spells.snoc_cases rfl with ⟨-, earlier⟩ | edge
  · exact earlier
  · simp [isEdge_not_space edge] at blank

theorem Spells.all_space (spells : Spells extended text []) : ∀ b ∈ text, isSpace b := by
  generalize none : ([] : List Token) = ts at spells
  induction spells with
  | nil => exact nofun
  | space blank later ih => exact List.forall_mem_cons.mpr ⟨blank, ih none⟩
  | mark | string | scalar => cases none

end Spelling

section Prefixes

variable {extended : Bool} {stack : List Frame} {place : Place} {ts us : List Token} {u v : Json}

theorem next_scalar {value : Scalar} {s : List Frame × Place}
    (stepped : next stack place (.scalar value) = some s) : s = (stack, .after (.scalar value)) := by
  unfold next at stepped
  split at stepped <;> simp_all [start]

theorem next_after_scalar (stack : List Frame) (v : Json) (value : Scalar) :
    next stack (.after v) (.scalar value) = none := by
  unfold next
  split <;> simp_all

theorem build_apart (built : build stack place ts = some v) : Apart ts := by
  induction ts generalizing stack place with
  | nil => exact List.isChain_nil
  | cons t ts ih =>
    rw [build_cons] at built
    obtain ⟨s, stepped, later⟩ := Option.bind_eq_some_iff.mp built
    cases ts with
    | nil => exact List.isChain_singleton t
    | cons t' ts =>
      refine List.isChain_cons_cons.mpr ⟨?_, ih later⟩
      rintro ⟨scalar, scalar'⟩
      cases t with
      | mark | string => cases scalar
      | scalar value =>
        cases t' with
        | mark | string => cases scalar'
        | scalar value' =>
          rw [next_scalar stepped, build_cons, next_after_scalar] at later
          cases later

/-- Tokens that are a whole value go on to no other one. -/
theorem build_ends (first : build stack place ts = some u)
    (second : build stack place (ts ++ us) = some v) : us = [] := by
  induction ts generalizing stack place with
  | nil =>
    cases us with
    | nil => rfl
    | cons t us =>
      match stack, place with
      | [], .after w =>
        rw [List.nil_append, build_cons, next] at second
        all_goals simp_all
      | [], .value | [], .firstItem | [], .key | [], .firstKey | [], .colon _ | _ :: _, _ => cases first
  | cons t ts ih =>
    rw [build_cons] at first
    rw [List.cons_append, build_cons] at second
    obtain ⟨s, stepped, later⟩ := Option.bind_eq_some_iff.mp first
    rw [stepped] at second
    exact ih later second

theorem spells_of_parse {text : Bytes} (parsed : parse extended text = some v) :
    ∃ ts, Spells extended text ts ∧ build [] .value ts = some v := by
  obtain ⟨ts, lexed, built⟩ := Option.bind_eq_some_iff.mp parsed
  exact ⟨ts, spells_of_lex lexed (build_apart built), built⟩

theorem Spells.parse {text : Bytes} (spells : Spells extended text ts) :
    parse extended text = build [] .value ts := by
  rw [JsonText.parse, spells.lex]
  rfl

end Prefixes

end VirtueSensing.JsonText
