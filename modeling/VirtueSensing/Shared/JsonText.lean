import Mathlib.Data.List.Basic
import VirtueSensing.Shared.Bytes

set_option autoImplicit false

/-!
# JSON texts

The bytes of a text are cut into tokens, and a stack machine builds the value from the tokens. A
string is the bytes of its UTF-8 form; whether the bytes of the text are UTF-8 is not asked here.
-/

namespace VirtueSensing.JsonText

inductive Scalar where
  | null
  | bool (b : Bool)
  | int (n : Int)
  -- `digits * 10 ^ scale`, as written.
  | decimal (digits scale : Int)
  | constant (name : Bytes)
  deriving DecidableEq, Repr

inductive Json where
  | scalar (value : Scalar)
  | string (text : Bytes)
  | array (items : List Json)
  | object (members : List (Bytes × Json))

-- The last of several members with one key counts.
def Json.get (key : Bytes) : Json → Option Json
  | .object members => (members.reverse.find? fun m => m.1 = key).map Prod.snd
  | _ => none

def quote : UInt8 := 34
def backslash : UInt8 := 92

def isControl (b : UInt8) : Bool := b < 32

def Plain (text : Bytes) : Prop :=
  ∀ b ∈ text, b ≠ quote ∧ b ≠ backslash ∧ ¬ isControl b

instance (text : Bytes) : Decidable (Plain text) :=
  inferInstanceAs (Decidable (∀ b ∈ text, b ≠ quote ∧ b ≠ backslash ∧ ¬ isControl b))

theorem plain_cons {b : UInt8} {text : Bytes} : Plain (b :: text) ↔ Plain [b] ∧ Plain text := by
  simp [Plain]

def hexValue (b : UInt8) : Option Nat :=
  if 48 ≤ b ∧ b ≤ 57 then some (b.toNat - 48)
  else if 97 ≤ b ∧ b ≤ 102 then some (b.toNat - 87)
  else if 65 ≤ b ∧ b ≤ 70 then some (b.toNat - 55)
  else none

-- The letter `u` and four digits.
def codeUnit : Bytes → Option Nat
  | u :: a :: b :: c :: d :: _ =>
    if u = 117 then do
      some ((((← hexValue a) * 16 + (← hexValue b)) * 16 + (← hexValue c)) * 16 + (← hexValue d))
    else none
  | _ => none

-- A surrogate without its partner gets three bytes, as the other code points of its size.
def encode (n : Nat) : Bytes :=
  if n < 0x80 then [n.toUInt8]
  else if n < 0x800 then [(0xc0 + n / 64).toUInt8, (0x80 + n % 64).toUInt8]
  else if n < 0x10000 then
    [(0xe0 + n / 4096).toUInt8, (0x80 + n / 64 % 64).toUInt8, (0x80 + n % 64).toUInt8]
  else
    [(0xf0 + n / 262144).toUInt8, (0x80 + n / 4096 % 64).toUInt8, (0x80 + n / 64 % 64).toUInt8,
      (0x80 + n % 64).toUInt8]

def simpleEscape (b : UInt8) : Option UInt8 :=
  if b = quote ∨ b = backslash ∨ b = 47 then some b
  else if b = 98 then some 8
  else if b = 102 then some 12
  else if b = 110 then some 10
  else if b = 114 then some 13
  else if b = 116 then some 9
  else none

def lowSurrogate (text : Bytes) : Option Nat :=
  match text with
  | b :: rest => if b = backslash then (codeUnit rest).filter fun n => 0xdc00 ≤ n ∧ n < 0xe000 else none
  | [] => none

/-- What stands behind a backslash, and how many bytes of it the escape takes. -/
def escape (text : Bytes) : Option (Bytes × Nat) :=
  match text.head?.bind simpleEscape with
  | some b => some ([b], 1)
  | none =>
    (codeUnit text).map fun n =>
      match lowSurrogate (text.drop 5) with
      | some low =>
        if 0xd800 ≤ n ∧ n < 0xdc00 then
          (encode (0x10000 + (n - 0xd800) * 0x400 + (low - 0xdc00)), 11)
        else (encode n, 5)
      | none => (encode n, 5)

/-- The string that starts behind a quote, and what follows the quote that ends it. The number says
how many bytes belong to the escape before. -/
def scan : Nat → Bytes → Option (Bytes × Bytes)
  | _, [] => none
  | n + 1, _ :: text => scan n text
  | 0, b :: text =>
    if b = quote then some ([], text)
    else if b = backslash then
      match escape text with
      | none => none
      | some (value, n) => (scan n text).map fun s => (value ++ s.1, s.2)
    else if isControl b then none
    else (scan 0 text).map fun s => (b :: s.1, s.2)

def isDigit (b : UInt8) : Bool := 48 ≤ b ∧ b ≤ 57

def digits (text : Bytes) : Bytes := text.takeWhile isDigit

def digitsValue (ds : Bytes) : Nat :=
  ds.foldl (fun n d => 10 * n + (d.toNat - 48)) 0

def wholePart (text : Bytes) : Bytes :=
  match digits text with
  | [] => []
  | d :: ds => if d = 48 then [d] else d :: ds

def fraction (text : Bytes) : Bytes :=
  if text.head? = some 46 then digits text.tail else []

def exponent (text : Bytes) : Int × Nat :=
  if text.head? = some 101 ∨ text.head? = some 69 then
    let sign := text.tail.head?
    let signLength := if sign = some 43 ∨ sign = some 45 then 1 else 0
    let ds := digits (text.tail.drop signLength)
    if ds = [] then (0, 0)
    else (if sign = some 45 then -(digitsValue ds : Int) else digitsValue ds, 1 + signLength + ds.length)
  else (0, 0)

def number (text : Bytes) : Option (Scalar × Nat) :=
  let negative := text.head? = some 45
  let signLength := if negative then 1 else 0
  let whole := wholePart (text.drop signLength)
  if whole = [] then none
  else
    let afterWhole := text.drop (signLength + whole.length)
    let fractional := fraction afterWhole
    let fractionLength := if fractional = [] then 0 else fractional.length + 1
    let power := exponent (afterWhole.drop fractionLength)
    let size := digitsValue (whole ++ fractional)
    let signed : Int := if negative then -size else size
    let length := signLength + whole.length + fractionLength + power.2
    if fractional = [] ∧ power.2 = 0 then some (.int signed, length)
    else some (.decimal signed (power.1 - fractional.length), length)

def literals : List (Bytes × Scalar) :=
  [(ascii "null", .null), (ascii "true", .bool true), (ascii "false", .bool false)]

def constants : List Bytes :=
  [ascii "NaN", ascii "Infinity", ascii "-Infinity"]

inductive Mark where
  | beginArray
  | endArray
  | beginObject
  | endObject
  | colon
  | comma
  deriving DecidableEq, Repr

def mark (b : UInt8) : Option Mark :=
  if b = 91 then some .beginArray
  else if b = 93 then some .endArray
  else if b = 123 then some .beginObject
  else if b = 125 then some .endObject
  else if b = 58 then some .colon
  else if b = 44 then some .comma
  else none

inductive Token where
  | mark (m : Mark)
  | string (text : Bytes)
  | scalar (value : Scalar)
  deriving DecidableEq, Repr

def isSpace (b : UInt8) : Bool := b = 32 ∨ b = 9 ∨ b = 10 ∨ b = 13

-- Some readers know more constants than the grammar does.
variable (extended : Bool)

def words : List (Bytes × Scalar) :=
  literals ++ if extended then constants.map fun c => (c, Scalar.constant c) else []

def scalar (text : Bytes) : Option (Scalar × Nat) :=
  match (words extended).find? fun w => w.1.isPrefixOf text with
  | some (word, value) => some (value, word.length)
  | none => number text

def lex : Nat → Bytes → Option (List Token)
  | _, [] => some []
  | n + 1, _ :: text => lex n text
  | 0, b :: text =>
    if isSpace b then lex 0 text
    else
      match mark b with
      | some m => (lex 0 text).map fun ts => .mark m :: ts
      | none =>
        if b = quote then
          match scan 0 text with
          | none => none
          | some (s, rest) => (lex (text.length - rest.length) text).map fun ts => .string s :: ts
        else
          match scalar extended (b :: text) with
          | none => none
          | some (v, n) => (lex (n - 1) text).map fun ts => .scalar v :: ts

/-- An array or object that is not yet closed, with what it already has. -/
inductive Frame where
  | items (before : List Json)
  | members (before : List (Bytes × Json))
  | member (before : List (Bytes × Json)) (key : Bytes)

inductive Place where
  | value
  | firstItem
  | key
  | firstKey
  | colon (key : Bytes)
  | after (value : Json)

def start (stack : List Frame) : Token → Option (List Frame × Place)
  | .mark .beginArray => some (.items [] :: stack, .firstItem)
  | .mark .beginObject => some (.members [] :: stack, .firstKey)
  | .string text => some (stack, .after (.string text))
  | .scalar value => some (stack, .after (.scalar value))
  | .mark _ => none

def next : List Frame → Place → Token → Option (List Frame × Place)
  | stack, .value, t => start stack t
  | .items before :: stack, .firstItem, .mark .endArray => some (stack, .after (.array before))
  | stack, .firstItem, t => start stack t
  | .members before :: stack, .firstKey, .mark .endObject => some (stack, .after (.object before))
  | stack, .firstKey, .string key => some (stack, .colon key)
  | stack, .key, .string key => some (stack, .colon key)
  | .members before :: stack, .colon key, .mark .colon => some (.member before key :: stack, .value)
  | .items before :: stack, .after v, .mark .comma => some (.items (before ++ [v]) :: stack, .value)
  | .items before :: stack, .after v, .mark .endArray =>
    some (stack, .after (.array (before ++ [v])))
  | .member before key :: stack, .after v, .mark .comma =>
    some (.members (before ++ [(key, v)]) :: stack, .key)
  | .member before key :: stack, .after v, .mark .endObject =>
    some (stack, .after (.object (before ++ [(key, v)])))
  | _, _, _ => none

def build : List Frame → Place → List Token → Option Json
  | [], .after v, [] => some v
  | _, _, [] => none
  | stack, place, t :: rest =>
    match next stack place t with
    | none => none
    | some (stack, place) => build stack place rest

def parse (text : Bytes) : Option Json :=
  (lex extended 0 text).bind (build [] .value)

theorem build_cons (stack : List Frame) (place : Place) (t : Token) (rest : List Token) :
    build stack place (t :: rest) =
      (next stack place t).bind fun s => build s.1 s.2 rest := by
  simp only [build]
  cases next stack place t <;> rfl

theorem next_value (stack : List Frame) (t : Token) : next stack .value t = start stack t := by
  simp only [next]

theorem scan_skip (n : Nat) (text : Bytes) : scan n text = scan 0 (text.drop n) := by
  induction text generalizing n with
  | nil => cases n <;> rfl
  | cons b text ih =>
    cases n with
    | zero => rfl
    | succ n => exact ih n

theorem lex_skip (n : Nat) (text : Bytes) : lex extended n text = lex extended 0 (text.drop n) := by
  induction text generalizing n with
  | nil => cases n <;> rfl
  | cons b text ih =>
    cases n with
    | zero => rfl
    | succ n => exact ih n

section Escapes

variable {text : Bytes} {n : Nat}

theorem hexValue_visible {b : UInt8} (hex : hexValue b = some n) : b ≠ quote ∧ ¬ isControl b := by
  unfold hexValue at hex
  exact ⟨by grind [quote], by grind [isControl]⟩

theorem codeUnit_inside (unit : codeUnit text = some n) :
    5 ≤ text.length ∧ ∀ b ∈ text.take 5, b ≠ quote ∧ ¬ isControl b := by
  match text with
  | u :: a :: b :: c :: d :: rest =>
    by_cases letter : u = 117
    · simp only [codeUnit, letter, if_true, Option.bind_eq_bind, Option.bind_eq_some_iff] at unit
      obtain ⟨a', hexA, b', hexB, c', hexC, d', hexD, -⟩ := unit
      have each : ∀ x ∈ [u, a, b, c, d], x ≠ quote ∧ ¬ isControl x := by
        simp only [List.forall_mem_cons, letter]
        exact ⟨by decide, hexValue_visible hexA, hexValue_visible hexB, hexValue_visible hexC,
          hexValue_visible hexD, by simp⟩
      exact ⟨by simp, each⟩
    · simp [codeUnit, letter] at unit
  | [] | [_] | [_, _] | [_, _, _] | [_, _, _, _] => simp [codeUnit] at unit

theorem lowSurrogate_inside (low : lowSurrogate text = some n) :
    6 ≤ text.length ∧ ∀ b ∈ text.take 6, b ≠ quote ∧ ¬ isControl b := by
  cases text with
  | nil => simp [lowSurrogate] at low
  | cons b rest =>
    by_cases escaped : b = backslash
    · simp only [lowSurrogate, escaped, if_true, Option.filter_eq_some_iff] at low
      obtain ⟨long, each⟩ := codeUnit_inside low.1
      refine ⟨by simpa using long, ?_⟩
      rw [List.take_succ_cons, escaped]
      exact List.forall_mem_cons.mpr ⟨by decide, each⟩
    · simp [lowSurrogate, escaped] at low

theorem length_encode (n : Nat) : (encode n).length ≤ 4 := by
  unfold encode
  split_ifs <;> simp

/-- An escape stands for at most as many bytes as it takes, and takes a quote only alone. -/
structure Inside (text value : Bytes) (n : Nat) : Prop where
  shrinks : value.length ≤ n
  within : n ≤ text.length
  alone : n = 1 ∨ quote ∉ text.take n
  takes : 0 < n
  visible : ∀ b ∈ text.take n, ¬ isControl b

theorem inside_unit (unit : codeUnit text = some n) : Inside text (encode n) 5 := by
  obtain ⟨long, each⟩ := codeUnit_inside unit
  have size := length_encode n
  exact ⟨by omega, long, .inr fun member => (each _ member).1 rfl, by omega,
    fun b member => (each b member).2⟩

theorem inside_pair {low m : Nat} (unit : codeUnit text = some n)
    (pair : lowSurrogate (text.drop 5) = some low) : Inside text (encode m) 11 := by
  obtain ⟨long, each⟩ := codeUnit_inside unit
  obtain ⟨more, others⟩ := lowSurrogate_inside pair
  have size := length_encode m
  have all : ∀ b ∈ text.take 11, b ≠ quote ∧ ¬ isControl b := by
    rw [show 11 = 5 + 6 from rfl, List.take_add]
    exact List.forall_mem_append.mpr ⟨each, others⟩
  rw [List.length_drop] at more
  exact ⟨by omega, by omega, .inr fun member => (all _ member).1 rfl, by omega,
    fun b member => (all b member).2⟩

theorem simpleEscape_visible {b c : UInt8} (simple : simpleEscape b = some c) : ¬ isControl b := by
  unfold simpleEscape at simple
  grind [isControl, quote, backslash]

theorem escape_inside {value : Bytes} (escaped : escape text = some (value, n)) :
    Inside text value n := by
  unfold escape at escaped
  split at escaped
  · rename_i b simple
    obtain ⟨rfl, rfl⟩ := Prod.mk.inj (Option.some.inj escaped)
    cases text with
    | nil => simp at simple
    | cons b rest =>
      exact ⟨by simp, by simp, .inl rfl, by simp, by simpa using simpleEscape_visible simple⟩
  · obtain ⟨unit, found, same⟩ := Option.map_eq_some_iff.mp escaped
    split at same
    · rename_i low pair
      split at same
      · obtain ⟨rfl, rfl⟩ := Prod.mk.inj same
        exact inside_pair found pair
      · obtain ⟨rfl, rfl⟩ := Prod.mk.inj same
        exact inside_unit found
    · obtain ⟨rfl, rfl⟩ := Prod.mk.inj same
      exact inside_unit found

end Escapes

section Scans

variable {text s rest : Bytes}

theorem scan_plain (plain : Plain s) (rest : Bytes) : scan 0 (s ++ quote :: rest) = some (s, rest) := by
  induction s with
  | nil => rfl
  | cons b s ih =>
    obtain ⟨notQuote, notBackslash, notControl⟩ := plain b List.mem_cons_self
    have later := ih fun c member => plain c (List.mem_cons_of_mem _ member)
    simp [scan, notQuote, notBackslash, notControl, later]

theorem scan_raw (raw : backslash ∉ text.takeWhile (· ≠ quote)) (found : scan 0 text = some (s, rest)) :
    text = s ++ quote :: rest ∧ Plain s := by
  induction text generalizing s with
  | nil => simp [scan] at found
  | cons b text ih =>
    by_cases ends : b = quote
    · simp only [scan, ends, if_true, Option.some.injEq, Prod.mk.injEq] at found
      obtain ⟨rfl, rfl⟩ := found
      exact ⟨by simp [ends], by simp [Plain]⟩
    · simp only [List.takeWhile_cons, ends, ne_eq, not_false_eq_true, decide_true, if_true,
        List.mem_cons, not_or] at raw
      simp only [scan, ends, Ne.symm raw.1, if_false] at found
      split at found
      · simp at found
      · rename_i visible
        obtain ⟨⟨v, r⟩, later, same⟩ := Option.map_eq_some_iff.mp found
        obtain ⟨rfl, rfl⟩ := Prod.mk.inj same
        obtain ⟨split, plain⟩ := ih raw.2 later
        refine ⟨by rw [split]; rfl, fun c member => ?_⟩
        rcases List.mem_cons.mp member with rfl | inside
        · exact ⟨ends, Ne.symm raw.1, visible⟩
        · exact plain c inside

/-- The steps of a scan that finds the end of its string. -/
inductive Scans : Bytes → Bytes → Bytes → Prop where
  | ends (rest : Bytes) : Scans (quote :: rest) [] rest
  | escaped {text value s rest : Bytes} {n : Nat} (taken : escape text = some (value, n))
      (later : Scans (text.drop n) s rest) : Scans (backslash :: text) (value ++ s) rest
  | plain {b : UInt8} {text s rest : Bytes} (plain : Plain [b]) (later : Scans text s rest) :
      Scans (b :: text) (b :: s) rest

theorem scans_of_scan (found : scan 0 text = some (s, rest)) : Scans text s rest := by
  induction size : text.length using Nat.strongRecOn generalizing text s with
  | ind k ih =>
    cases text with
    | nil => simp [scan] at found
    | cons b text =>
      rw [List.length_cons] at size
      rw [scan] at found
      split_ifs at found with ends escaped control
      · obtain ⟨rfl, rfl⟩ := Prod.mk.inj (Option.some.inj found)
        exact ends ▸ .ends text
      · split at found
        · simp at found
        · rename_i value n taken
          obtain ⟨⟨v, r⟩, later, same⟩ := Option.map_eq_some_iff.mp found
          obtain ⟨rfl, rfl⟩ := Prod.mk.inj same
          rw [scan_skip] at later
          exact escaped ▸ .escaped taken (ih _ (by rw [List.length_drop]; omega) later rfl)
      · obtain ⟨⟨v, r⟩, later, same⟩ := Option.map_eq_some_iff.mp found
        obtain ⟨rfl, rfl⟩ := Prod.mk.inj same
        exact .plain (by simp [Plain, ends, escaped, control]) (ih _ (by omega) later rfl)

theorem Scans.scan (scans : Scans text s rest) : scan 0 text = some (s, rest) := by
  induction scans with
  | ends rest => rfl
  | escaped taken later ih =>
    rw [JsonText.scan, if_neg (by decide), if_pos rfl, taken]
    dsimp only
    rw [scan_skip, ih]
    rfl
  | plain plain later ih =>
    obtain ⟨notQuote, notBackslash, notControl⟩ := plain _ List.mem_cons_self
    rw [JsonText.scan, if_neg notQuote, if_neg notBackslash, if_neg notControl, ih]
    rfl

theorem Scans.suffix (scans : Scans text s rest) :
    ∃ raw, text = raw ++ quote :: rest ∧ s.length ≤ raw.length := by
  induction scans with
  | ends rest => exact ⟨[], rfl, Nat.le_refl 0⟩
  | @escaped text value s rest n taken later ih =>
    obtain ⟨raw, split, short⟩ := ih
    have shrinks := (escape_inside taken).shrinks
    have within := (escape_inside taken).within
    refine ⟨backslash :: text.take n ++ raw, ?_, ?_⟩
    · rw [List.append_assoc, ← split, List.cons_append, List.take_append_drop]
    · simp only [List.length_append, List.length_cons, List.length_take]
      omega
  | plain plain later ih =>
    obtain ⟨raw, rfl, short⟩ := ih
    exact ⟨_ :: raw, rfl, Nat.succ_le_succ short⟩

theorem lex_string (found : scan 0 text = some (s, rest)) :
    lex extended 0 (quote :: text) = (lex extended 0 rest).map fun ts => .string s :: ts := by
  obtain ⟨raw, split, -⟩ := (scans_of_scan found).suffix
  have behind : text.drop (text.length - rest.length) = rest := by
    rw [split, List.append_cons, List.length_append, Nat.add_sub_cancel, List.drop_left]
  have step : lex extended 0 (quote :: text) =
      (lex extended (text.length - rest.length) text).map fun ts => .string s :: ts := by
    simp [lex, found, show isSpace quote = false from rfl, show mark quote = none from rfl]
  rw [step, lex_skip, behind]

theorem lex_plain (plain : Plain s) (rest : Bytes) :
    lex extended 0 (quote :: s ++ quote :: rest) =
      (lex extended 0 rest).map fun ts => .string s :: ts :=
  lex_string extended (scan_plain plain rest)

end Scans

section Numbers

def EndsNumber (rest : Bytes) : Prop :=
  ∀ b ∈ rest.head?, ¬ isDigit b ∧ b ≠ 46 ∧ b ≠ 101 ∧ b ≠ 69

theorem ascii_digit {c : Char} (digit : c.isDigit) :
    isDigit c.toNat.toUInt8 ∧ c.toNat.toUInt8.toNat = c.toNat := by
  obtain ⟨low, high⟩ := Char.isDigit_iff_toNat.mp digit
  have small : c.toNat.toUInt8.toNat = c.toNat := by
    have high' : c.toNat ≤ 57 := high
    simp
    omega
  refine ⟨?_, small⟩
  simp only [isDigit, decide_eq_true_eq, UInt8.le_iff_toNat_le, small]
  exact ⟨low, high⟩

theorem digits_append {ds rest : Bytes} (all : ∀ b ∈ ds, isDigit b) (ends : EndsNumber rest) :
    digits (ds ++ rest) = ds := by
  rw [digits, List.takeWhile_append_of_pos all]
  cases rest with
  | nil => simp
  | cons b rest => simp [(ends b rfl).1]

def natText (n : Nat) : Bytes :=
  (Nat.toDigits 10 n).map fun c => c.toNat.toUInt8

theorem natText_ne_nil (n : Nat) : natText n ≠ [] := by
  simp [natText]

theorem natText_digits (n : Nat) : ∀ b ∈ natText n, isDigit b := by
  intro b member
  obtain ⟨c, digit, rfl⟩ := List.mem_map.mp member
  exact (ascii_digit (Nat.isDigit_of_mem_toDigits (by decide) (by decide) digit)).1

theorem digitsValue_natText (n : Nat) : digitsValue (natText n) = n := by
  have value : ∀ (cs : List Char) (init : Nat), (∀ c ∈ cs, c.isDigit) →
      (cs.map fun c => c.toNat.toUInt8).foldl (fun n d => 10 * n + (d.toNat - 48)) init =
        Nat.ofDigitChars 10 cs init := by
    intro cs
    induction cs with
    | nil => intros; rfl
    | cons c cs ih =>
      intro init all
      rw [List.map_cons, List.foldl_cons, Nat.ofDigitChars_cons,
        (ascii_digit (all c List.mem_cons_self)).2]
      exact ih _ fun d member => all d (List.mem_cons_of_mem _ member)
  rw [digitsValue, natText, value, Nat.ofDigitChars_ten_toDigits]
  exact fun c member => Nat.isDigit_of_mem_toDigits (by decide) (by decide) member

theorem natText_head (n : Nat) : natText n = [48] ∨ (natText n).head? ≠ some 48 := by
  induction n using Nat.strongRecOn with
  | ind n ih =>
    by_cases small : n < 10
    · have each : ∀ n < 10, natText n = [48] ∨ (natText n).head? ≠ some 48 := by decide
      exact each n small
    · have last : natText n = natText (n / 10) ++ [(Nat.digitChar (n % 10)).toNat.toUInt8] := by
        rw [natText, Nat.toDigits_of_base_le (by decide) (by omega), List.map_append]
        rfl
      rcases ih (n / 10) (by omega) with zero | nonzero
      · have value := digitsValue_natText (n / 10)
        rw [zero] at value
        have none : n / 10 = 0 := value.symm
        omega
      · right
        rwa [last, List.head?_append_of_ne_nil _ (natText_ne_nil _)]

theorem wholePart_natText (n : Nat) {rest : Bytes} (ends : EndsNumber rest) :
    wholePart (natText n ++ rest) = natText n := by
  rw [wholePart, digits_append (natText_digits n) ends]
  rcases natText_head n with zero | nonzero
  · rw [zero]
    rfl
  · cases split : natText n with
    | nil => rfl
    | cons d ds =>
      rw [split] at nonzero
      exact if_neg fun zero => nonzero (congrArg some zero)

def intText (n : Int) : Bytes := ascii (toString n)

theorem intText_ofNat (n : Nat) : intText n = natText n := by
  show ascii (Nat.repr n) = natText n
  rw [ascii, Nat.toList_repr]
  rfl

theorem intText_neg (n : Nat) : intText (Int.negSucc n) = 45 :: natText (n + 1) := by
  show ascii ("-" ++ Nat.repr (n + 1)) = 45 :: natText (n + 1)
  rw [ascii, String.toList_append, List.map_append, Nat.toList_repr]
  rfl

theorem fraction_ends {rest : Bytes} (ends : EndsNumber rest) : fraction rest = [] := by
  cases rest with
  | nil => rfl
  | cons b rest => simp [fraction, (ends b rfl).2.1]

theorem exponent_ends {rest : Bytes} (ends : EndsNumber rest) : exponent rest = (0, 0) := by
  cases rest with
  | nil => rfl
  | cons b rest => simp [exponent, (ends b rfl).2.2.1, (ends b rfl).2.2.2]

theorem number_natText (n : Nat) {rest : Bytes} (ends : EndsNumber rest) :
    number (natText n ++ rest) = some (.int n, (natText n).length) := by
  have unsigned : (natText n).head? ≠ some 45 := by
    intro sign
    have digit := natText_digits n 45 (List.mem_of_mem_head? sign)
    exact absurd digit (by decide)
  simp [number, unsigned, wholePart_natText n ends, natText_ne_nil n, fraction_ends ends,
    exponent_ends ends, digitsValue_natText]

theorem number_neg (n : Nat) {rest : Bytes} (ends : EndsNumber rest) :
    number (45 :: natText n ++ rest) = some (.int (-n), (natText n).length + 1) := by
  have behind : List.drop (1 + (natText n).length) (45 :: (natText n ++ rest)) = rest := by
    rw [Nat.add_comm, List.drop_succ_cons, List.drop_left]
  simp [number, wholePart_natText n ends, natText_ne_nil n, behind, fraction_ends ends,
    exponent_ends ends, digitsValue_natText, Nat.add_comm]

def startsNumber : Bytes → Bool
  | [] => false
  | [a] => isDigit a
  | a :: b :: _ => isDigit a || (a = 45 && isDigit b)

theorem words_start (word : Bytes × Scalar) (member : word ∈ words extended) :
    2 ≤ word.1.length ∧ startsNumber word.1 = false := by
  revert word
  cases extended <;> decide

theorem scalar_number {text : Bytes} (starts : startsNumber text) :
    scalar extended text = number text := by
  have none : (words extended).find? (fun w => w.1.isPrefixOf text) = Option.none := by
    rw [List.find?_eq_none]
    intro word member found
    obtain ⟨long, other⟩ := words_start extended word member
    obtain ⟨rest, rfl⟩ := List.isPrefixOf_iff_prefix.mp found
    match w : word.1 with
    | [] | [_] => simp [w] at long
    | a :: b :: more =>
      rw [w] at other starts
      exact absurd (starts.symm.trans other) (by decide)
  rw [scalar, none]

theorem startsNumber_head {b : UInt8} {text : Bytes} (starts : startsNumber (b :: text)) :
    isSpace b = false ∧ mark b = none ∧ b ≠ quote := by
  have digitOrMinus : (48 ≤ b ∧ b ≤ 57) ∨ b = 45 := by
    cases text with
    | nil => exact .inl (by simpa [startsNumber, isDigit] using starts)
    | cons c text =>
      simp only [startsNumber, isDigit, Bool.or_eq_true, Bool.and_eq_true, decide_eq_true_eq] at starts
      exact starts.imp_right And.left
  exact ⟨by grind [isSpace], by grind [mark], by grind [quote]⟩

theorem lex_scalar {text rest : Bytes} {v : Scalar} (starts : startsNumber (text ++ rest))
    (nonempty : text ≠ []) (found : number (text ++ rest) = some (v, text.length)) :
    lex extended 0 (text ++ rest) = (lex extended 0 rest).map fun ts => .scalar v :: ts := by
  cases text with
  | nil => exact absurd rfl nonempty
  | cons b text =>
    obtain ⟨notSpace, notMark, notQuote⟩ := startsNumber_head starts
    rw [← scalar_number extended starts] at found
    rw [List.cons_append] at found ⊢
    simp only [lex, notSpace, notMark, notQuote, found, if_false, Bool.false_eq_true]
    rw [lex_skip, List.length_cons, Nat.add_sub_cancel, List.drop_left]

theorem startsNumber_natText (n : Nat) (rest : Bytes) :
    startsNumber (natText n ++ rest) ∧ startsNumber (45 :: natText n ++ rest) := by
  cases split : natText n with
  | nil => exact absurd split (natText_ne_nil n)
  | cons d ds =>
    have digit := natText_digits n d (by simp [split])
    cases more : ds ++ rest with
    | nil => simp [startsNumber, digit, more]
    | cons c rest => simp [startsNumber, digit, more]

theorem lex_int (n : Int) {rest : Bytes} (ends : EndsNumber rest) :
    lex extended 0 (intText n ++ rest) =
      (lex extended 0 rest).map fun ts => .scalar (.int n) :: ts := by
  cases n with
  | ofNat n =>
    rw [Int.ofNat_eq_natCast, intText_ofNat]
    exact lex_scalar extended (startsNumber_natText n rest).1 (natText_ne_nil n)
      (number_natText n ends)
  | negSucc n =>
    rw [intText_neg, Int.negSucc_eq]
    exact lex_scalar extended (startsNumber_natText (n + 1) rest).2 (by simp)
      (number_neg (n + 1) ends)

end Numbers

end VirtueSensing.JsonText
