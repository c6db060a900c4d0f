import VirtueSensing.Jsmn.Capacity
import VirtueSensing.Jsmn.Decode

set_option autoImplicit false

/-!
# The texts of a value

The grammar of JSON, with any white space between the parts, over the bytes that are left of a text. A
string needs no quotes where it is one word. jsmn takes many other texts too.
-/

namespace VirtueSensing.Jsmn

inductive Blank : Bytes → Bytes → Prop where
  | none (text : Bytes) : Blank text text
  | skip {c : UInt8} {text rest : Bytes} (white : c ∈ ascii "\t\r\n ") (more : Blank text rest) :
      Blank (c :: text) rest

/-- What is left of a string behind its opening quote: its body, and the text behind the closing one. -/
inductive StringRest : Bytes → Bytes → Bytes → Prop where
  | quote (rest : Bytes) : StringRest (34 :: rest) [] rest
  | char {c : UInt8} {text body rest : Bytes} (plain : c ≠ 0 ∧ c ≠ 34 ∧ c ≠ 92)
      (more : StringRest text body rest) : StringRest (c :: text) (c :: body) rest
  | escape {c : UInt8} {text body rest : Bytes} (known : c ∈ ascii "\"/\\bfrnt")
      (more : StringRest text body rest) : StringRest (92 :: c :: text) (92 :: c :: body) rest
  | unicode {a b c d : UInt8} {text body rest : Bytes} (hex : isHex a ∧ isHex b ∧ isHex c ∧ isHex d)
      (more : StringRest text body rest) :
      StringRest (92 :: 117 :: a :: b :: c :: d :: text) (92 :: 117 :: a :: b :: c :: d :: body) rest

structure Word (word : Bytes) : Prop where
  nonempty : word ≠ []
  bytes : ∀ c ∈ word, 32 < c ∧ c < 127 ∧ c ∉ ascii "\x7b\x7d[]:,\""

-- As `Bytes.decidableForall`, for the byte that a text begins with.
instance (priority := high) decidableHead (p : UInt8 → Prop) [DecidablePred p] (c : Option UInt8) :
    Decidable (∀ b ∈ c, p b) :=
  Option.decidableForallMem c

def closing : TokenType → UInt8
  | .array => 93
  | _ => 125

/-- What a part of a text stands for. The items of a container begin behind its bracket or a comma, and
reach to the closing bracket. -/
inductive Phrase where
  | value (v : Json)
  | item (type : TokenType) (x : Item)
  | body (type : TokenType) (xs : List Item)
  | items (type : TokenType) (xs : List Item)
  | behind (type : TokenType) (xs : List Item)

inductive Derives : Phrase → Bytes → Bytes → Prop where
  | string {text body rest : Bytes} (read : StringRest text body rest) :
      Derives (.value (.scalar body)) (34 :: text) rest
  | word {word rest : Bytes} (isWord : Word word) (ends : ∀ c ∈ rest.head?, endsPrimitive c) :
      Derives (.value (.scalar word)) (word ++ rest) rest
  | array {vs : List Json} {text rest : Bytes} (body : Derives (.body .array (vs.map .value)) text rest) :
      Derives (.value (.array vs)) (91 :: text) rest
  | object {ms : List (Bytes × Json)} {text rest : Bytes}
      (body : Derives (.body .object (ms.map .member)) text rest) :
      Derives (.value (.object ms)) (123 :: text) rest
  | empty {type : TokenType} {text rest : Bytes} (blank : Blank text (closing type :: rest)) :
      Derives (.body type []) text rest
  | full {type : TokenType} {xs : List Item} {text rest : Bytes}
      (items : Derives (.items type xs) text rest) : Derives (.body type xs) text rest
  | items {type : TokenType} {x : Item} {xs : List Item} {text first middle rest : Bytes}
      (blank : Blank text first) (item : Derives (.item type x) first middle)
      (more : Derives (.behind type xs) middle rest) : Derives (.items type (x :: xs)) text rest
  | element {v : Json} {text rest : Bytes} (value : Derives (.value v) text rest) :
      Derives (.item .array (.value v)) text rest
  | member {name : Bytes} {v : Json} {text named bound first rest : Bytes}
      (key : StringRest text name named) (blank : Blank named (58 :: bound)) (space : Blank bound first)
      (value : Derives (.value v) first rest) :
      Derives (.item .object (.member (name, v))) (34 :: text) rest
  | bare {name : Bytes} {v : Json} {named bound first rest : Bytes} (isWord : Word name)
      (blank : Blank named (58 :: bound)) (space : Blank bound first)
      (value : Derives (.value v) first rest) :
      Derives (.item .object (.member (name, v))) (name ++ named) rest
  | last {type : TokenType} {text rest : Bytes} (blank : Blank text (closing type :: rest)) :
      Derives (.behind type []) text rest
  | comma {type : TokenType} {xs : List Item} {text more rest : Bytes} (blank : Blank text (44 :: more))
      (items : Derives (.items type xs) more rest) : Derives (.behind type xs) text rest

/-- The whole text is one value, with white space around it. -/
def IsText (js : Bytes) (v : Json) : Prop :=
  ∃ text rest, Blank js text ∧ Derives (.value v) text rest ∧ Blank rest []

mutual

def Json.count : Json → Nat
  | .scalar _ => 1
  | .array vs => countValues vs + 1
  | .object ms => countMembers ms + 1

def countValues : List Json → Nat
  | [] => 0
  | v :: vs => v.count + countValues vs

def countMembers : List (Bytes × Json) → Nat
  | [] => 0
  | (_, v) :: ms => v.count + 1 + countMembers ms

end

def Item.count : Item → Nat
  | .value v => v.count
  | .member m => m.2.count + 1

def countItems : List Item → Nat
  | [] => 0
  | x :: xs => x.count + countItems xs

theorem countItems_values (vs : List Json) : countItems (vs.map .value) = countValues vs := by
  induction vs with
  | nil => rfl
  | cons v vs ih => simp [countItems, countValues, Item.count, ih]

theorem countItems_members (ms : List (Bytes × Json)) :
    countItems (ms.map .member) = countMembers ms := by
  induction ms with
  | nil => rfl
  | cons m ms ih => simp [countItems, countMembers, Item.count, ih]

section Scanning

variable {text body rest : Bytes}

theorem Blank.suffix (blank : Blank text rest) : rest <:+ text := by
  induction blank with
  | none text => exact List.suffix_refl text
  | skip white more ih => exact ih.trans (List.suffix_cons _ _)

theorem Blank.ends {c : UInt8} (blank : Blank text (c :: rest)) (ends : endsPrimitive c) :
    ∀ b ∈ text.head?, endsPrimitive b := by
  cases blank with
  | none => simpa using ends
  | @skip b text rest white more =>
    have whites : ∀ b ∈ ascii "\t\r\n ", endsPrimitive b := by decide
    simpa using whites b white

theorem StringRest.text_eq (read : StringRest text body rest) : text = body ++ 34 :: rest := by
  induction read with
  | quote rest => rfl
  | char plain more ih => rw [ih, List.cons_append]
  | escape known more ih => rw [ih, List.cons_append, List.cons_append]
  | unicode hex more ih => simp [ih]

theorem StringRest.suffix (read : StringRest text body rest) : rest <:+ text :=
  ⟨body ++ [34], by simp [read.text_eq]⟩

theorem StringRest.parseString (read : StringRest text body rest) (pos : Nat) :
    parseString .plain text pos = .ok (pos + body.length, rest) := by
  induction read generalizing pos with
  | quote rest => rfl
  | @char c text body rest plain more ih =>
    rw [Jsmn.parseString, if_neg plain.1, if_neg plain.2.1, if_neg fun escaped => plain.2.2 escaped.1, ih,
      List.length_cons, Nat.add_right_comm, Nat.add_assoc]
  | @escape c text body rest known more ih =>
    have other : c ≠ 117 := by
      rintro rfl
      exact absurd known (by decide)
    rw [Jsmn.parseString, if_neg (by decide), if_neg (by decide), if_pos ⟨rfl, List.cons_ne_nil _ _⟩,
      Jsmn.parseString, if_neg other, if_pos known, ih]
    rw [List.length_cons, List.length_cons]
    congr 2
    omega
  | @unicode a b c d text body rest hex more ih =>
    have nonzero {x : UInt8} (digit : isHex x) : x ≠ 0 := by
      rintro rfl
      exact absurd digit (by decide)
    rw [Jsmn.parseString, if_neg (by decide), if_neg (by decide), if_pos ⟨rfl, List.cons_ne_nil _ _⟩,
      Jsmn.parseString, if_pos rfl]
    simp only [Jsmn.parseString, nonzero hex.1, nonzero hex.2.1, nonzero hex.2.2.1, nonzero hex.2.2.2, hex,
      not_true, if_false, ih, List.length_cons]
    congr 2
    omega

theorem not_endsPrimitive {c : UInt8} (low : 32 < c) (other : c ∉ ascii "\x7b\x7d[]:,\"") :
    ¬ endsPrimitive c := by
  have marks : ascii "\x7b\x7d[]:,\"" = [123, 125, 91, 93, 58, 44, 34] := rfl
  have ends : ascii ":\t\r\n ,]\x7d" = [58, 9, 13, 10, 32, 44, 93, 125] := rfl
  rw [endsPrimitive, ends, decide_eq_true_eq]
  rw [marks] at other
  simp only [List.mem_cons, List.not_mem_nil, or_false, not_or] at other ⊢
  grind

theorem Word.parsePrimitive {word : Bytes} (bytes : ∀ c ∈ word, 32 < c ∧ c < 127 ∧
    c ∉ ascii "\x7b\x7d[]:,\"") (ends : ∀ c ∈ rest.head?, endsPrimitive c) (pos : Nat) :
    parsePrimitive (word ++ rest) pos = .ok (pos + word.length, rest) := by
  induction word generalizing pos with
  | nil =>
    cases rest with
    | nil => rfl
    | cons c rest =>
      rw [List.nil_append, Jsmn.parsePrimitive, if_pos (.inr (ends c rfl))]
      rfl
  | cons c word ih =>
    obtain ⟨here, others⟩ := List.forall_mem_cons.mp bytes
    obtain ⟨low, high, other⟩ := here
    have inside : ¬ (c = 0 ∨ endsPrimitive c) := not_or.mpr ⟨by grind, not_endsPrimitive low other⟩
    rw [List.cons_append, Jsmn.parsePrimitive, if_neg inside, if_neg (by grind), ih others,
      List.length_cons, Nat.add_right_comm, Nat.add_assoc]

theorem Derives.suffix {phrase : Phrase} (derived : Derives phrase text rest) : rest <:+ text := by
  induction derived with
  | string read => exact read.suffix.trans (List.suffix_cons _ _)
  | word isWord ends => exact List.suffix_append _ _
  | array body ih => exact ih.trans (List.suffix_cons _ _)
  | object body ih => exact ih.trans (List.suffix_cons _ _)
  | empty blank => exact (List.suffix_cons _ _).trans blank.suffix
  | full items ih => exact ih
  | items blank item more ihItem ihMore => exact (ihMore.trans ihItem).trans blank.suffix
  | element value ih => exact ih
  | @member name v text named bound first rest key blank space value ih =>
    have behind := key.suffix.trans (List.suffix_cons 34 text)
    exact ((ih.trans space.suffix).trans (List.suffix_cons _ _)).trans (blank.suffix.trans behind)
  | bare isWord blank space value ih =>
    exact ((ih.trans space.suffix).trans (List.suffix_cons _ _)).trans
      (blank.suffix.trans (List.suffix_append _ _))
  | last blank => exact (List.suffix_cons _ _).trans blank.suffix
  | comma blank items ih => exact (ih.trans (List.suffix_cons _ _)).trans blank.suffix

end Scanning

end VirtueSensing.Jsmn
