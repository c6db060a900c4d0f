import Mathlib.Tactic.Ring
import VirtueSensing.Shared.JsonTokens

set_option autoImplicit false

/-!
# Texts that end with a text

A text that is read as a value does not end a longer text that is read as the same value. Only zero
does, behind a minus sign.
-/

namespace VirtueSensing.JsonText

mutual

def Json.weight : Json → Nat
  | .scalar _ | .string _ => 1
  | .array items => 2 + itemWeight items
  | .object members => 2 + memberWeight members

def itemWeight : List Json → Nat
  | [] => 0
  | v :: rest => v.weight + itemWeight rest

def memberWeight : List (Bytes × Json) → Nat
  | [] => 0
  | (_, v) :: rest => 1 + v.weight + memberWeight rest

end

def Token.weight : Token → Nat
  | .mark .comma | .mark .colon => 0
  | .mark _ | .string _ | .scalar _ => 1

def tokenWeight (ts : List Token) : Nat := (ts.map Token.weight).sum

def Frame.weight : Frame → Nat
  | .items before => 1 + itemWeight before
  | .members before => 1 + memberWeight before
  | .member before _ => 2 + memberWeight before

def stackWeight (stack : List Frame) : Nat := (stack.map Frame.weight).sum

def Place.weight : Place → Nat
  | .colon _ => 1
  | .after v => v.weight
  | .value | .firstItem | .key | .firstKey => 0

theorem itemWeight_snoc (items : List Json) (v : Json) :
    itemWeight (items ++ [v]) = itemWeight items + v.weight := by
  induction items with
  | nil => simp [itemWeight]
  | cons w rest ih => simp [itemWeight, ih, Nat.add_assoc]

theorem memberWeight_snoc (members : List (Bytes × Json)) (key : Bytes) (v : Json) :
    memberWeight (members ++ [(key, v)]) = memberWeight members + (1 + v.weight) := by
  induction members with
  | nil => simp [memberWeight]
  | cons m rest ih => simp [memberWeight, ih, Nat.add_assoc]

section Building

variable {stack after : List Frame} {place there : Place} {t : Token} {ts us : List Token} {v : Json}

theorem start_weight (started : start stack t = some (after, there)) :
    stackWeight after + there.weight = stackWeight stack + t.weight := by
  unfold start at started
  split at started <;> cases started
  all_goals
    simp [stackWeight, Frame.weight, Place.weight, Token.weight, Json.weight, itemWeight, memberWeight,
      Nat.add_comm]

theorem next_weight (stepped : next stack place t = some (after, there)) :
    stackWeight after + there.weight = stackWeight stack + place.weight + t.weight := by
  unfold next at stepped
  split at stepped
  case h_1 => simpa [Place.weight] using start_weight stepped
  case h_3 => simpa [Place.weight] using start_weight stepped
  all_goals cases stepped
  all_goals
    simp [stackWeight, Frame.weight, Place.weight, Token.weight, Json.weight, itemWeight_snoc,
      memberWeight_snoc]
  all_goals omega

theorem build_weight (built : build stack place ts = some v) :
    v.weight = stackWeight stack + place.weight + tokenWeight ts := by
  induction ts generalizing stack place with
  | nil =>
    unfold build at built
    split at built
    · simp_all [stackWeight, Place.weight, tokenWeight]
    · simp at built
    · simp_all
  | cons t rest ih =>
    rw [build_cons] at built
    obtain ⟨s, stepped, later⟩ := Option.bind_eq_some_iff.mp built
    rw [ih later, next_weight stepped, tokenWeight, tokenWeight, List.map_cons, List.sum_cons]
    omega

theorem next_nil_after (v : Json) (t : Token) : next [] (.after v) t = none := by
  unfold next
  split <;> simp_all

theorem build_nil_after {w : Json} (built : build [] (.after w) ts = some v) : ts = [] ∧ w = v := by
  cases ts with
  | nil => exact ⟨rfl, Option.some.inj built⟩
  | cons t ts =>
    rw [build_cons, next_nil_after] at built
    cases built

theorem build_suffix (whole : build [] .value (us ++ ts) = some v) (built : build [] .value ts = some v) :
    us = [] := by
  have same := (build_weight whole).symm.trans (build_weight built)
  simp only [tokenWeight, List.map_append, List.sum_append] at same
  cases us with
  | nil => rfl
  | cons t us =>
    rw [List.map_cons, List.sum_cons] at same
    have weightless : t.weight = 0 := by omega
    rw [List.cons_append, build_cons, next_value] at whole
    match t with
    | .mark .comma | .mark .colon => cases whole
    | .mark .beginArray | .mark .endArray | .mark .beginObject | .mark .endObject | .string _
    | .scalar _ => cases weightless

def Json.isContainer : Json → Bool
  | .array _ | .object _ => true
  | .scalar _ | .string _ => false

theorem next_pops (stepped : next stack place t = some (after, there)) (open_ : stack ≠ []) :
    after ≠ [] ∨ ∃ w, there = .after w ∧ w.isContainer := by
  unfold next at stepped
  split at stepped
  case h_1 | h_3 =>
    unfold start at stepped
    split at stepped <;> cases stepped
    all_goals exact .inl (by simp_all)
  all_goals cases stepped
  all_goals simp_all [Json.isContainer]

theorem build_container (built : build stack place ts = some v) (open_ : stack ≠ []) : v.isContainer := by
  induction ts generalizing stack place with
  | nil =>
    unfold build at built
    split at built
    · exact absurd rfl open_
    · cases built
    · simp_all
  | cons t ts ih =>
    rw [build_cons] at built
    obtain ⟨⟨after, there⟩, stepped, later⟩ := Option.bind_eq_some_iff.mp built
    rcases next_pops stepped open_ with still | ⟨w, rfl, container⟩
    · exact ih later still
    · cases after with
      | cons f after => exact ih later (List.cons_ne_nil f after)
      | nil => exact (build_nil_after later).2 ▸ container

theorem build_plain (built : build [] .value ts = some v) (plain : v.isContainer = false) :
    (∃ s, ts = [.string s] ∧ v = .string s) ∨ ∃ x, ts = [.scalar x] ∧ v = .scalar x := by
  cases ts with
  | nil => cases built
  | cons t ts =>
    rw [build_cons, next_value] at built
    match t with
    | .string s =>
      obtain ⟨rfl, rfl⟩ := build_nil_after built
      exact .inl ⟨s, rfl, rfl⟩
    | .scalar x =>
      obtain ⟨rfl, rfl⟩ := build_nil_after built
      exact .inr ⟨x, rfl, rfl⟩
    | .mark .beginArray | .mark .beginObject =>
      have container := build_container built (List.cons_ne_nil _ _)
      simp [plain] at container
    | .mark .endArray | .mark .endObject | .mark .comma | .mark .colon => cases built

theorem build_marked (built : build [] .value ts = some v) (container : v.isContainer) :
    ∃ m us, ts = .mark m :: us := by
  cases ts with
  | nil => cases built
  | cons t ts =>
    rw [build_cons, next_value] at built
    match t with
    | .mark m => exact ⟨m, ts, rfl⟩
    | .string s =>
      obtain ⟨-, rfl⟩ := build_nil_after built
      cases container
    | .scalar x =>
      obtain ⟨-, rfl⟩ := build_nil_after built
      cases container

end Building

section Shifts

variable {extended : Bool} {text raw s rest : Bytes} {ts us : List Token}

theorem Scans.skip (scans : Scans (raw ++ text) s rest) (outside : ∀ b ∈ raw, b ≠ quote ∧ b ≠ backslash) :
    ∃ more, Scans text more rest := by
  induction raw generalizing s with
  | nil => exact ⟨s, scans⟩
  | cons b raw ih =>
    obtain ⟨unquoted, unescaped⟩ := outside b List.mem_cons_self
    rw [List.cons_append] at scans
    cases scans with
    | ends => exact absurd rfl unquoted
    | escaped => exact absurd rfl unescaped
    | plain plain later => exact ih later fun c member => outside c (List.mem_cons_of_mem _ member)

theorem isSpace_outside {b : UInt8} (space : isSpace b) : b ≠ quote ∧ b ≠ backslash := by
  constructor
  all_goals
    rintro rfl
    cases space

theorem mark_outside {b : UInt8} {m : Mark} (marks : mark b = some m) : b ≠ quote ∧ b ≠ backslash := by
  constructor
  all_goals
    rintro rfl
    cases marks

/-- A text does not read both from outside of a string and from inside of one: the strings of one
reading are what stands between the strings of the other, and one of the two does not end. -/
theorem Spells.not_inside (spells : Spells extended text ts) (scans : Scans text s rest)
    (behind : Spells extended rest us) : False := by
  induction size : text.length using Nat.strongRecOn generalizing text ts s rest us with
  | ind k ih =>
    cases spells with
    | nil => cases scans
    | @space b text _ space later =>
      obtain ⟨more, scans⟩ := @Scans.skip text [b] s rest scans (by simpa using isSpace_outside space)
      exact ih text.length (by simp at size; omega) later scans behind rfl
    | @mark b m text ts marks later =>
      obtain ⟨more, scans⟩ := @Scans.skip text [b] s rest scans (by simpa using mark_outside marks)
      exact ih text.length (by simp at size; omega) later scans behind rfl
    | @string raw value text ts body later =>
      cases scans with
      | ends =>
        exact ih _ (by simp at size ⊢; omega) behind (scans_of_scan (body.scan text)) later rfl
      | plain plain => exact absurd rfl (plain quote List.mem_cons_self).1
    | @scalar raw text v ts literal breaks later =>
      obtain ⟨more, scans⟩ := scans.skip fun b member =>
        (scalarByte_other (literal.bytes b member)).2.2
      have nonempty := List.length_pos_iff.mpr literal.nonempty
      exact ih text.length (by rw [List.length_append] at size; omega) later scans behind rfl

def isEscapeByte (b : UInt8) : Bool :=
  (simpleEscape b).isSome || b = 117 || (hexValue b).isSome || b = backslash

theorem codeUnit_bytes {n : Nat} (unit : codeUnit text = some n) : ∀ b ∈ text.take 5, isEscapeByte b := by
  match text with
  | u :: a :: b :: c :: d :: rest =>
    by_cases letter : u = 117
    · simp only [codeUnit, letter, if_true, Option.bind_eq_bind, Option.bind_eq_some_iff] at unit
      obtain ⟨a', hexA, b', hexB, c', hexC, d', hexD, -⟩ := unit
      simp [isEscapeByte, letter, hexA, hexB, hexC, hexD]
    · simp [codeUnit, letter] at unit
  | [] | [_] | [_, _] | [_, _, _] | [_, _, _, _] => simp [codeUnit] at unit

theorem lowSurrogate_bytes {n : Nat} (low : lowSurrogate text = some n) :
    ∀ b ∈ text.take 6, isEscapeByte b := by
  cases text with
  | nil => exact nofun
  | cons b rest =>
    by_cases escaped : b = backslash
    · simp only [lowSurrogate, escaped, if_true, Option.filter_eq_some_iff] at low
      exact List.forall_mem_cons.mpr ⟨by simp [isEscapeByte, escaped], codeUnit_bytes low.1⟩
    · simp [lowSurrogate, escaped] at low

theorem escape_bytes {value : Bytes} {n : Nat} (escaped : escape text = some (value, n)) :
    ∀ b ∈ text.take n, isEscapeByte b := by
  unfold escape at escaped
  split at escaped
  · rename_i c simple
    obtain ⟨rfl, rfl⟩ := Prod.mk.inj (Option.some.inj escaped)
    cases text with
    | nil => exact nofun
    | cons b rest =>
      have isSimple : simpleEscape b = some c := simple
      simp [isEscapeByte, isSimple]
  · obtain ⟨unit, found, same⟩ := Option.map_eq_some_iff.mp escaped
    split at same
    · rename_i low pair
      split at same
      · obtain ⟨rfl, rfl⟩ := Prod.mk.inj same
        rw [show 11 = 5 + 6 from rfl, List.take_add]
        exact List.forall_mem_append.mpr ⟨codeUnit_bytes found, lowSurrogate_bytes pair⟩
      · obtain ⟨rfl, rfl⟩ := Prod.mk.inj same
        exact codeUnit_bytes found
    · obtain ⟨rfl, rfl⟩ := Prod.mk.inj same
      exact codeUnit_bytes found

theorem mark_not_escaped {b : UInt8} {m : Mark} (marks : mark b = some m) : isEscapeByte b = false := by
  unfold mark at marks
  split_ifs at marks with first second third fourth fifth sixth
  all_goals
    subst b
    rfl

theorem Scans.from_mark (scans : Scans text s rest) {c : UInt8} {m : Mark} (marks : mark c = some m)
    {x y : Bytes} (split : text = x ++ c :: y) (past : rest.length ≤ y.length) :
    ∃ more, Scans (c :: y) more rest := by
  induction scans generalizing x with
  | ends rest =>
    cases x with
    | nil => exact absurd (List.cons.inj split).1.symm (mark_outside marks).1
    | cons b x =>
      rw [List.cons_append] at split
      have longer := congrArg List.length (List.cons.inj split).2
      rw [List.length_append, List.length_cons] at longer
      omega
  | @escaped text value s rest n taken later ih =>
    cases x with
    | nil => exact absurd (List.cons.inj split).1.symm (mark_outside marks).2
    | cons b x =>
      obtain ⟨-, rfl⟩ := List.cons.inj split
      by_cases before : n ≤ x.length
      · exact ih (List.drop_append_of_le_length before) past
      · have inside : c ∈ (x ++ c :: y).take n := by
          obtain ⟨k, rfl⟩ := Nat.exists_eq_add_of_lt (Nat.not_le.mp before)
          rw [Nat.add_assoc, List.take_length_add_append]
          simp
        have taken := escape_bytes taken c inside
        simp [mark_not_escaped marks] at taken
  | @plain b text s rest plain later ih =>
    cases x with
    | nil =>
      rw [List.nil_append] at split
      exact ⟨b :: s, split ▸ Scans.plain plain later⟩
    | cons b' x =>
      obtain ⟨rfl, rfl⟩ := List.cons.inj split
      exact ih rfl past

/-- A mark stands between two tokens, or inside of a string. -/
theorem Spells.at_mark (spells : Spells extended text ts) {c : UInt8} {m : Mark}
    (marks : JsonText.mark c = some m) {x y : Bytes} (split : text = x ++ c :: y) :
    (∃ us vs, ts = us ++ vs ∧ Spells extended x us ∧ Spells extended (c :: y) vs) ∨
      ∃ s rest us, Scans (c :: y) s rest ∧ Spells extended rest us := by
  induction spells generalizing x with
  | nil => simp at split
  | @space b text ts space later ih =>
    cases x with
    | nil =>
      rw [List.nil_append] at split
      exact .inl ⟨[], ts, rfl, .nil, split ▸ Spells.space space later⟩
    | cons b' x =>
      rw [List.cons_append] at split
      obtain ⟨rfl, rfl⟩ := List.cons.inj split
      exact (ih rfl).imp_left fun ⟨us, vs, same, first, second⟩ =>
        ⟨us, vs, same, .space space first, second⟩
  | @mark b m' text ts marks' later ih =>
    cases x with
    | nil =>
      rw [List.nil_append] at split
      exact .inl ⟨[], .mark m' :: ts, rfl, .nil, split ▸ Spells.mark marks' later⟩
    | cons b' x =>
      rw [List.cons_append] at split
      obtain ⟨rfl, rfl⟩ := List.cons.inj split
      exact (ih rfl).imp_left fun ⟨us, vs, same, first, second⟩ =>
        ⟨.mark m' :: us, vs, by rw [same]; rfl, .mark marks' first, second⟩
  | @string raw s text ts body later ih =>
    cases x with
    | nil => exact absurd (List.cons.inj split).1.symm (mark_outside marks).1
    | cons b x =>
      rw [List.cons_append] at split
      obtain ⟨rfl, inner⟩ := List.cons.inj split
      rcases List.append_eq_append_iff.mp inner with ⟨more, rfl, behind⟩ | ⟨more, rfl, behind⟩
      · cases more with
        | nil => exact absurd (List.cons.inj behind).1.symm (mark_outside marks).1
        | cons d more =>
          rw [List.cons_append] at behind
          obtain ⟨rfl, rfl⟩ := List.cons.inj behind
          exact (ih rfl).imp_left fun ⟨us, vs, same, first, second⟩ =>
            ⟨.string s :: us, vs, by rw [same]; rfl, .string body first, second⟩
      · cases more with
        | nil => exact absurd (List.cons.inj behind).1 (mark_outside marks).1
        | cons d more =>
          rw [List.cons_append] at behind
          obtain ⟨rfl, rfl⟩ := List.cons.inj behind
          have past : text.length ≤ (more ++ quote :: text).length := by
            rw [List.length_append, List.length_cons]
            omega
          obtain ⟨value, scans⟩ := (scans_of_scan (body.scan text)).from_mark marks
            (by rw [List.append_assoc]; rfl) past
          exact .inr ⟨value, text, ts, scans, later⟩
  | @scalar raw text v ts literal breaks later ih =>
    have outside : c ∉ raw := by
      intro inside
      have unmarked := (scalarByte_other (literal.bytes c inside)).2.1
      simp [marks] at unmarked
    obtain ⟨more, rfl, rfl⟩ := append_split split outside
    exact (ih rfl).imp_left fun ⟨us, vs, same, first, second⟩ =>
      ⟨.scalar v :: us, vs, by rw [same]; rfl, .scalar literal breaks.append_left first, second⟩

theorem marked_suffix {c : UInt8} {m : Mark} (marks : mark c = some m) {x y : Bytes} {v : Json}
    (whole : parse extended (x ++ c :: y) = some v) (parsed : parse extended (c :: y) = some v) :
    Spells extended x [] := by
  obtain ⟨ts, spells, built⟩ := spells_of_parse whole
  obtain ⟨vs, tail, builtTail⟩ := spells_of_parse parsed
  rcases spells.at_mark marks rfl with ⟨us, vs', rfl, first, second⟩ | ⟨s, rest, us, scans, behind⟩
  · obtain rfl := Option.some.inj (second.lex.symm.trans tail.lex)
    obtain rfl := build_suffix built builtTail
    exact first
  · exact (tail.not_inside scans behind).elim

theorem Scans.from_quote (scans : Scans text s rest) (last : rest = []) {x y : Bytes}
    (split : text = x ++ quote :: y) (more : y ≠ []) :
    ∃ first later, s = first ++ later ∧ first ≠ [] ∧ Scans y later [] := by
  induction scans generalizing x with
  | ends rest =>
    subst last
    cases x with
    | nil => exact absurd (List.cons.inj split).2.symm more
    | cons b x => simp at split
  | @escaped text value s rest n taken later ih =>
    have inside := escape_inside taken
    cases x with
    | nil => exact absurd (List.cons.inj split).1 (by decide)
    | cons b x =>
      rw [List.cons_append] at split
      obtain ⟨-, rfl⟩ := List.cons.inj split
      by_cases here : x = []
      · subst here
        have alone : n = 1 := by
          rcases inside.alone with one | outside
          · exact one
          · obtain ⟨k, rfl⟩ := Nat.exists_eq_succ_of_ne_zero (Nat.ne_of_gt inside.takes)
            simp at outside
        have taken : some ([quote], 1) = some (value, n) := taken
        obtain ⟨rfl, -⟩ := Prod.mk.inj (Option.some.inj taken)
        subst alone last
        exact ⟨[quote], s, rfl, by simp, later⟩
      · have within := inside.within_field here
        obtain ⟨first, more, rfl, some, behind⟩ := ih last (List.drop_append_of_le_length within)
        refine ⟨value ++ first, more, (List.append_assoc ..).symm, ?_, behind⟩
        exact List.append_ne_nil_of_right_ne_nil value some
  | @plain b text s rest plain later ih =>
    cases x with
    | nil => exact absurd (List.cons.inj split).1 (plain b List.mem_cons_self).1
    | cons b' x =>
      rw [List.cons_append] at split
      obtain ⟨rfl, rfl⟩ := List.cons.inj split
      obtain ⟨first, more, rfl, -, behind⟩ := ih last rfl
      exact ⟨b :: first, more, rfl, List.cons_ne_nil _ _, behind⟩

end Shifts

theorem append_unique {α : Type} {p : α → Bool} {x y x' y' : List α} (same : x ++ y = x' ++ y')
    (all : ∀ a ∈ x, p a) (stops : ∀ a ∈ y.head?, p a = false) (all' : ∀ a ∈ x', p a)
    (stops' : ∀ a ∈ y'.head?, p a = false) : x = x' ∧ y = y' := by
  have drop {x y : List α} (all : ∀ a ∈ x, p a) (stops : ∀ a ∈ y.head?, p a = false) :
      (x ++ y).dropWhile p = y := by
    rw [List.dropWhile_append_of_pos all]
    cases y with
    | nil => rfl
    | cons a y => exact List.dropWhile_cons_of_neg (by simp [stops a rfl])
  have tails : y = y' := by rw [← drop all stops, same, drop all' stops']
  subst tails
  exact ⟨List.append_cancel_right same, rfl⟩

theorem snoc_unique {α : Type} {p : α → Bool} {x y x' y' : List α} {a a' : α}
    (same : x ++ [a] ++ y = x' ++ [a'] ++ y') (all : ∀ b ∈ y, p b) (last : p a = false)
    (all' : ∀ b ∈ y', p b) (last' : p a' = false) : x ++ [a] = x' ++ [a'] := by
  have mirrored : y.reverse ++ a :: x.reverse = y'.reverse ++ a' :: x'.reverse := by
    simpa using congrArg List.reverse same
  have fronts := (append_unique mirrored (by simpa using all) (by simpa using last)
    (by simpa using all') (by simpa using last')).2
  obtain ⟨rfl, inner⟩ := List.cons.inj fronts
  rw [List.reverse_inj.mp inner]

section Numbers

theorem digitsValue_append (x y : Bytes) :
    digitsValue (x ++ y) = digitsValue x * 10 ^ y.length + digitsValue y := by
  have snoc (x : Bytes) (d : UInt8) : digitsValue (x ++ [d]) = 10 * digitsValue x + (d.toNat - 48) := by
    simp [digitsValue]
  induction y using List.reverseRecOn with
  | nil => simp [digitsValue]
  | append_singleton y d ih =>
    rw [← List.append_assoc, snoc, ih, snoc, List.length_append, List.length_singleton, Nat.pow_succ]
    ring

theorem digitsValue_pos {d : UInt8} (digit : isDigit d) (leading : d ≠ 48) (ds : Bytes) :
    0 < digitsValue (d :: ds) := by
  have first : 0 < digitsValue [d] := by
    simp only [isDigit, decide_eq_true_eq, UInt8.le_iff_toNat_le] at digit
    have other : d.toNat ≠ 48 := fun same => leading (UInt8.toNat_inj.mp same)
    have low : 48 ≤ d.toNat := digit.1
    simp only [digitsValue, List.foldl_cons, List.foldl_nil]
    omega
  rw [← List.singleton_append, digitsValue_append]
  exact Nat.add_pos_left (Nat.mul_pos first (Nat.pow_pos (by decide))) _

def isWholeByte (b : UInt8) : Bool := isDigit b || b = 45

def isPowerLetter (b : UInt8) : Bool := b = 101 || b = 69

theorem digit_not_letter {b : UInt8} (digit : isDigit b) : isPowerLetter b = false ∧ b ≠ 46 ∧ b ≠ 45 := by
  simp only [isDigit, decide_eq_true_eq] at digit
  simp only [isPowerLetter]
  grind

theorem Power.tail_bytes (p : Power) : ∀ b ∈ p.sign ++ p.digits, isPowerLetter b = false ∧ b ≠ 46 := by
  rw [List.forall_mem_append]
  refine ⟨?_, fun b member => (digit_not_letter (p.all b member)).imp_right And.left⟩
  rcases p.signs with sign | sign | sign <;> rw [sign] <;> decide

namespace Numeral

variable (n m : Numeral)

def scale : Int := (n.power.map Power.value).getD 0 - n.fractional.length

def IsInt : Prop := n.fractional = [] ∧ n.power = none

theorem front : ∀ b ∈ n.sign ++ n.whole, isWholeByte b := by
  rw [List.forall_mem_append]
  refine ⟨?_, fun b member => by simp [isWholeByte, n.wholeDigits b member]⟩
  unfold sign
  split <;> decide

theorem tail_digits : ∀ b ∈ (n.sign ++ n.whole).tail, b ∈ n.whole := by
  intro b member
  unfold sign at member
  split at member
  · exact member
  · exact List.mem_of_mem_tail member

theorem point_bytes : ∀ b ∈ n.point, isPowerLetter b = false := by
  unfold point
  split
  · exact nofun
  · exact List.forall_mem_cons.mpr ⟨rfl, fun b member => (digit_not_letter (n.fractionDigits b member)).1⟩

theorem not_point_bytes : ∀ b ∈ n.point, !isPowerLetter b := fun b member => by
  simp [n.point_bytes b member]

theorem powerText_head : ∀ b ∈ n.powerText.head?, isPowerLetter b := by
  unfold powerText
  cases n.power with
  | none => exact nofun
  | some p =>
    rintro b ⟨⟩
    simpa [isPowerLetter] using p.letters

theorem not_powerText_head : ∀ b ∈ n.powerText.head?, (!isPowerLetter b) = false := by
  intro b head
  simpa using n.powerText_head b head

theorem powerText_pointless : 46 ∉ n.powerText := by
  unfold powerText
  cases n.power with
  | none => exact List.not_mem_nil
  | some p =>
    refine List.not_mem_cons_of_ne_of_not_mem ?_ fun member => (p.tail_bytes 46 member).2 rfl
    intro same
    rcases p.letters with letter | letter <;> simp [letter] at same

theorem behind_front : ∀ b ∈ (n.point ++ n.powerText).head?, isWholeByte b = false := by
  unfold point
  split
  · intro b head
    have letter := n.powerText_head b head
    simp only [isPowerLetter, Bool.or_eq_true, decide_eq_true_eq] at letter
    rcases letter with rfl | rfl <;> rfl
  · rintro b ⟨⟩
    rfl

theorem text_eq : n.text = n.sign ++ n.whole ++ (n.point ++ n.powerText) := by simp [text]

theorem text_head : ∃ b rest, n.text = b :: rest ∧ isWholeByte b := by
  obtain ⟨b, front, split⟩ := List.exists_cons_of_ne_nil (List.append_ne_nil_of_right_ne_nil n.sign n.nonempty)
  exact ⟨b, _, by rw [n.text_eq, split]; rfl, n.front b (split ▸ List.mem_cons_self)⟩

theorem isInt_of_bytes (bytes : ∀ b ∈ n.text, isPowerLetter b = false ∧ b ≠ 46) : n.IsInt := by
  simp only [text, List.forall_mem_append] at bytes
  constructor
  · by_contra more
    have pointed := bytes.1.2
    rw [point, if_neg more] at pointed
    exact (pointed 46 List.mem_cons_self).2 rfl
  · by_contra more
    obtain ⟨p, found⟩ := Option.ne_none_iff_exists'.mp more
    have lettered := bytes.2
    rw [powerText, found] at lettered
    have letter := (lettered p.letter List.mem_cons_self).1
    rcases p.letters with same | same <;> simp [isPowerLetter, same] at letter

variable {n m}

theorem value_parts (same : n.value = m.value) :
    n.signed = m.signed ∧ n.scale = m.scale ∧ (n.IsInt ↔ m.IsInt) := by
  have int {k : Numeral} (isInt : k.IsInt) : k.value = .int k.signed ∧ k.scale = 0 :=
    ⟨if_pos isInt, by simp [scale, isInt.1, isInt.2]⟩
  have decimal {k : Numeral} (isInt : ¬ k.IsInt) : k.value = .decimal k.signed k.scale := if_neg isInt
  by_cases isInt : n.IsInt
  · rw [(int isInt).1] at same
    by_cases isInt' : m.IsInt
    · rw [(int isInt').1] at same
      exact ⟨Scalar.int.inj same, (int isInt).2.trans (int isInt').2.symm, iff_of_true isInt isInt'⟩
    · rw [decimal isInt'] at same
      cases same
  · rw [decimal isInt] at same
    by_cases isInt' : m.IsInt
    · rw [(int isInt').1] at same
      cases same
    · rw [decimal isInt'] at same
      exact ⟨(Scalar.decimal.inj same).1, (Scalar.decimal.inj same).2, iff_of_false isInt isInt'⟩

theorem power_eq (same : n.powerText = m.powerText) :
    (n.power.map Power.value).getD 0 = (m.power.map Power.value).getD 0 := by
  have breaks : Breaks [] := nofun
  have first := n.exponent_powerText breaks
  rw [same, m.exponent_powerText breaks] at first
  exact (Prod.mk.inj first).1.symm

theorem fractional_eq (same : n.point = m.point) : n.fractional = m.fractional := by
  unfold point at same
  split_ifs at same with first second
  · rw [first, second]
  · exact (List.cons.inj same).2

theorem letter_not_whole {b : UInt8} (letter : isPowerLetter b) : isWholeByte b = false := by
  simp only [isPowerLetter, Bool.or_eq_true, decide_eq_true_eq] at letter
  rcases letter with rfl | rfl <;> rfl

theorem powerText_suffix {x : Bytes} (split : n.powerText = x ++ m.text) : n.value ≠ m.value := by
  intro same
  obtain ⟨b, more, first, wholeByte⟩ := m.text_head
  cases x with
  | nil =>
    have letter := n.powerText_head b (by rw [split, first]; rfl)
    rw [letter_not_whole letter] at wholeByte
    cases wholeByte
  | cons c x =>
    cases found : n.power with
    | none => simp [powerText, found] at split
    | some p =>
      have shape : p.letter :: (p.sign ++ p.digits) = c :: (x ++ m.text) := by
        rw [List.cons_append, powerText, found] at split
        exact split
      have bytes := p.tail_bytes
      rw [(List.cons.inj shape).2, List.forall_mem_append] at bytes
      have int := (value_parts same).2.2.mpr (isInt_of_bytes m bytes.2)
      simp [int.2] at found

theorem fractional_suffix {x y : Bytes} (split : n.fractional = x ++ y) (more : y ≠ [])
    (tail : m.text = y ++ n.powerText) : n.value ≠ m.value := by
  intro same
  have digits : ∀ b ∈ y, isDigit b := fun b member =>
    n.fractionDigits b (split ▸ List.mem_append_right x member)
  have pointless : 46 ∉ m.text := by
    rw [tail, List.mem_append, not_or]
    exact ⟨fun member => (digit_not_letter (digits 46 member)).2.1 rfl, n.powerText_pointless⟩
  have whole : m.fractional = [] := by
    by_contra more
    rw [text, point, if_neg more] at pointless
    simp at pointless
  have shape : m.sign ++ m.whole ++ m.powerText = y ++ n.powerText := by
    rw [← tail, text, point, if_pos whole, List.append_nil]
  have front : ∀ b ∈ m.sign ++ m.whole, !isPowerLetter b := by
    intro b member
    have wholeByte := m.front b member
    by_contra letter
    simp [letter_not_whole (by simpa using letter)] at wholeByte
  have powers := (append_unique shape front m.not_powerText_head
    (fun b member => by simp [digit_not_letter (digits b member)]) n.not_powerText_head).2
  have scales := (value_parts same).2.1
  rw [scale, scale, power_eq powers, whole, split] at scales
  have positive := List.length_pos_iff.mpr more
  simp at scales
  omega

theorem behind_whole {x : Bytes} (split : n.point ++ n.powerText = x ++ m.text) : n.value ≠ m.value := by
  rcases List.append_eq_append_iff.mp split with ⟨y, -, power⟩ | ⟨y, point, tail⟩
  · exact powerText_suffix power
  · cases y with
    | nil => exact powerText_suffix (x := []) tail.symm
    | cons c y =>
      unfold Numeral.point at point
      split at point
      · simp at point
      · cases x with
        | nil =>
          obtain ⟨b, more, first, wholeByte⟩ := m.text_head
          rw [List.nil_append] at point
          rw [← point, List.cons_append, first] at tail
          obtain ⟨rfl, -⟩ := List.cons.inj tail
          cases wholeByte
        | cons d x =>
          rw [List.cons_append] at point
          exact fractional_suffix (List.cons.inj point).2 (List.cons_ne_nil c y) tail

theorem whole_suffix {x : Bytes} (split : n.sign ++ n.whole = x ++ (m.sign ++ m.whole))
    (fractional : n.fractional = m.fractional) (same : n.signed = m.signed) (nonzero : n.signed ≠ 0) :
    x = [] := by
  cases x with
  | nil => rfl
  | cons b x =>
    have unsigned : 45 ∉ n.whole := fun member => (digit_not_letter (n.wholeDigits 45 member)).2.2 rfl
    have plus' : m.negative = false := Bool.eq_false_iff.mpr fun minus => by
      have behind : 45 ∈ (n.sign ++ n.whole).tail := by
        rw [split, show m.sign = [45] from if_pos minus]
        simp
      exact unsigned (n.tail_digits 45 behind)
    have plus : n.negative = false := Bool.eq_false_iff.mpr fun minus => by
      simp only [signed, plus', minus, if_true, Bool.false_eq_true, if_false] at same nonzero
      omega
    have whole : n.whole = b :: x ++ m.whole := by simpa [sign, plus, plus'] using split
    have first : b ≠ 48 := by
      rintro rfl
      have alone := n.leading (by rw [whole]; rfl)
      rw [whole, List.cons_append] at alone
      exact m.nonempty (List.append_eq_nil_iff.mp (List.cons.inj alone).2).2
    have digit : isDigit b := n.wholeDigits b (by rw [whole]; exact List.mem_cons_self)
    have positive : 0 < digitsValue (b :: x) * 10 ^ (m.whole ++ m.fractional).length :=
      Nat.mul_pos (digitsValue_pos digit first x) (Nat.pow_pos (by decide))
    simp only [signed, plus, plus', whole, fractional, List.append_assoc, digitsValue_append (b :: x),
      Bool.false_eq_true, if_false] at same
    omega

/-- The text of a number does not end with another text of this number, unless it is zero. -/
theorem suffix {x : Bytes} (split : n.text = x ++ m.text) (same : n.value = m.value)
    (nonzero : n.signed ≠ 0) : x = [] := by
  rw [n.text_eq] at split
  rcases List.append_eq_append_iff.mp split with ⟨y, -, behind⟩ | ⟨y, front, tail⟩
  · exact absurd same (behind_whole behind)
  · have wholeBytes := n.front
    rw [front, List.forall_mem_append] at wholeBytes
    rw [m.text_eq] at tail
    obtain ⟨rfl, rests⟩ := append_unique tail m.front m.behind_front wholeBytes.2 n.behind_front
    have points := (append_unique rests m.not_point_bytes m.not_powerText_head n.not_point_bytes
      n.not_powerText_head).1
    exact whole_suffix front (fractional_eq points).symm (value_parts same).1 nonzero

end Numeral

end Numbers

section Plain

variable {extended : Bool} {raw text x : Bytes} {v : Scalar} {t : Token}

def Scalar.isZero : Scalar → Bool
  | .int n => n = 0
  | .decimal digits _ => digits = 0
  | .null | .bool _ | .constant _ => false

def Scalar.isNumber : Scalar → Bool
  | .int _ | .decimal .. => true
  | .null | .bool _ | .constant _ => false

theorem Literal.cases (literal : Literal extended raw v) :
    (raw, v) ∈ words extended ∨ ∃ n : Numeral, raw = n.text ∧ v = n.value := by
  have read := literal.reads [] nofun
  rw [List.append_nil] at read
  unfold scalar at read
  split at read
  · rename_i word value isWord
    obtain ⟨rfl, length⟩ := Prod.mk.inj (Option.some.inj read)
    have found := List.find?_some isWord
    have starts : word <+: raw := List.isPrefixOf_iff_prefix.mp found
    exact .inl (starts.eq_of_length length ▸ List.mem_of_find?_eq_some isWord)
  · obtain ⟨n, rest, split, rfl, length⟩ := number_split read
    obtain rfl : rest = [] := by
      have total := congrArg List.length split
      rw [List.length_append, length] at total
      exact List.length_eq_zero_iff.mp (by omega)
    exact .inr ⟨n, by simpa using split, rfl⟩

theorem Numeral.isNumber_value (n : Numeral) : n.value.isNumber := by
  unfold value
  split <;> rfl

theorem Numeral.isZero_value (n : Numeral) : n.value.isZero = decide (n.signed = 0) := by
  unfold value
  split <;> rfl

theorem words_not_number : ∀ w ∈ words extended, w.2.isNumber = false := by
  cases extended <;> decide

theorem words_unique : ∀ w ∈ words extended, ∀ w' ∈ words extended, w.2 = w'.2 → w.1 = w'.1 := by
  cases extended <;> decide

theorem Literal.suffix (whole : Literal extended (x ++ raw) v) (part : Literal extended raw v)
    (nonzero : v.isZero = false) : x = [] := by
  have notBoth {raw : Bytes} (word : (raw, v) ∈ words extended) (n : Numeral) : v ≠ n.value := by
    rintro rfl
    have number := words_not_number _ word
    rw [n.isNumber_value] at number
    cases number
  rcases whole.cases with word | ⟨n, split, value⟩
  · rcases part.cases with word' | ⟨m, -, value'⟩
    · exact List.append_left_eq_self.mp (words_unique _ word _ word' rfl)
    · exact absurd value' (notBoth word m)
  · rcases part.cases with word' | ⟨m, rfl, value'⟩
    · exact absurd value (notBoth word' n)
    · rw [value, n.isZero_value, decide_eq_false_iff_not] at nonzero
      exact n.suffix split.symm (value.symm.trans value') nonzero

-- The bytes of one string or scalar.
def Writes (extended : Bool) (raw : Bytes) : Token → Prop
  | .string s => ∃ body, raw = quote :: (body ++ [quote]) ∧ Body body s
  | .scalar v => Literal extended raw v
  | .mark _ => False

theorem Spells.alone (spells : Spells extended text [t]) (plain : ∀ m, t ≠ .mark m) :
    ∃ front raw back, text = front ++ raw ++ back ∧ Writes extended raw t ∧
      (∀ b ∈ front, isSpace b) ∧ ∀ b ∈ back, isSpace b := by
  generalize one : [t] = ts at spells
  induction spells with
  | nil => cases one
  | @space b text ts blank later ih =>
    obtain ⟨front, raw, back, rfl, writes, before, behind⟩ := ih one
    exact ⟨b :: front, raw, back, rfl, writes, List.forall_mem_cons.mpr ⟨blank, before⟩, behind⟩
  | mark marks later =>
    exact absurd (List.cons.inj one).1 (plain _)
  | @string body s text ts isBody later =>
    obtain ⟨rfl, rfl⟩ := List.cons.inj one
    exact ⟨[], _, text, by simp, ⟨body, rfl, isBody⟩, nofun, later.all_space⟩
  | @scalar raw text v ts literal breaks later =>
    obtain ⟨rfl, rfl⟩ := List.cons.inj one
    exact ⟨[], raw, text, rfl, literal, nofun, later.all_space⟩

theorem Writes.last (writes : Writes extended raw t) : ∃ front b, raw = front ++ [b] ∧ isSpace b = false := by
  match t with
  | .string s =>
    obtain ⟨body, rfl, -⟩ := writes
    exact ⟨quote :: body, quote, rfl, rfl⟩
  | .scalar v =>
    have literal : Literal extended raw v := writes
    have member := List.getLast_mem literal.nonempty
    exact ⟨_, _, (List.dropLast_append_getLast literal.nonempty).symm,
      (scalarByte_other (literal.bytes _ member)).1⟩

theorem Writes.suffix (whole : Writes extended (x ++ raw) t) (part : Writes extended raw t)
    (nonzero : ∀ v, t = .scalar v → v.isZero = false) : x = [] := by
  match t with
  | .scalar v => exact Literal.suffix whole part (nonzero v rfl)
  | .string s =>
    obtain ⟨body, split, isBody⟩ := whole
    obtain ⟨body', rfl, isBody'⟩ := part
    cases x with
    | nil => rfl
    | cons b x =>
      rw [List.cons_append] at split
      obtain ⟨first, later, same, some, scans⟩ :=
        (scans_of_scan isBody).from_quote rfl (List.cons.inj split).2.symm (by simp)
      obtain ⟨rfl, -⟩ := Prod.mk.inj (Option.some.inj (scans.scan.symm.trans isBody'))
      exact absurd (List.self_eq_append_left.mp same) some

theorem Spells.alone_suffix (whole : Spells extended (x ++ text) [t]) (part : Spells extended text [t])
    (plain : ∀ m, t ≠ .mark m) (nonzero : ∀ v, t = .scalar v → v.isZero = false) : ∀ b ∈ x, isSpace b := by
  obtain ⟨front, raw, back, split, writes, before, behind⟩ := whole.alone plain
  obtain ⟨front', raw', back', rfl, writes', before', behind'⟩ := part.alone plain
  obtain ⟨inner, b, rfl, last⟩ := writes.last
  obtain ⟨inner', b', rfl, last'⟩ := writes'.last
  have cores : x ++ front' ++ (inner' ++ [b']) = front ++ (inner ++ [b]) := by
    have regrouped : x ++ front' ++ inner' ++ [b'] ++ back' = front ++ inner ++ [b] ++ back := by
      simpa using split
    simpa using snoc_unique regrouped behind' last' behind last
  have fronts : ∀ b ∈ x ++ front', isSpace b := by
    rcases List.append_eq_append_iff.mp cores with ⟨more, rfl, -⟩ | ⟨more, same, raw⟩
    · exact fun b member => before b (List.mem_append_left more member)
    · rw [raw] at writes
      obtain rfl := writes.suffix writes' nonzero
      rw [same, List.append_nil]
      exact before
  exact fun b member => fronts b (List.mem_append_left front' member)

theorem Spells.first_mark {m : Mark} {ts : List Token} (spells : Spells extended text (.mark m :: ts)) :
    ∃ front c y, text = front ++ c :: y ∧ JsonText.mark c = some m ∧
      Spells extended (c :: y) (.mark m :: ts) := by
  generalize marked : Token.mark m :: ts = us at spells ⊢
  induction spells with
  | nil => cases marked
  | @space b text us blank later ih =>
    obtain ⟨front, c, y, rfl, marks, here⟩ := ih marked
    exact ⟨b :: front, c, y, rfl, marks, here⟩
  | @mark b m' text us marks later =>
    obtain ⟨same, rfl⟩ := List.cons.inj marked
    exact ⟨[], b, text, rfl, by rw [marks, Token.mark.inj same], .mark marks later⟩
  | string | scalar => cases (List.cons.inj marked).1

def Json.isZero : Json → Bool
  | .scalar v => v.isZero
  | .string _ | .array _ | .object _ => false

/-- What is in front of the text of a value is blank where the value stays the same, unless it is zero. -/
theorem parse_suffix {v : Json} (whole : parse extended (x ++ text) = some v)
    (part : parse extended text = some v) (nonzero : v.isZero = false) : ∀ b ∈ x, isSpace b := by
  obtain ⟨ts, spells, built⟩ := spells_of_parse part
  obtain ⟨us, longer, builtLonger⟩ := spells_of_parse whole
  cases container : v.isContainer with
  | true =>
    obtain ⟨m, ts, rfl⟩ := build_marked built container
    obtain ⟨front, c, y, rfl, marks, here⟩ := spells.first_mark
    rw [← List.append_assoc] at whole
    have blank := (marked_suffix marks whole (here.parse.trans built)).all_space
    exact fun b member => blank b (List.mem_append_left front member)
  | false =>
    rcases build_plain built container with ⟨s, rfl, rfl⟩ | ⟨value, rfl, rfl⟩
    · rcases build_plain builtLonger container with ⟨s', rfl, same⟩ | ⟨_, -, same⟩
      · cases same
        exact longer.alone_suffix spells nofun nofun
      · cases same
    · rcases build_plain builtLonger container with ⟨_, -, same⟩ | ⟨value', rfl, same⟩
      · cases same
      · cases same
        exact longer.alone_suffix spells nofun fun v one => Token.scalar.inj one ▸ nonzero

end Plain

end VirtueSensing.JsonText
