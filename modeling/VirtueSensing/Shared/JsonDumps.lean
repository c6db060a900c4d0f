import VirtueSensing.Shared.JsonText
import VirtueSensing.Shared.Utf8

set_option autoImplicit false

/-!
# Strings of `json.dumps`

Only printable ASCII is left as it is. A code point that needs more than four digits is written as its two
surrogates.
-/

namespace VirtueSensing.JsonText

def hexDigitOf (n : Nat) : UInt8 :=
  if n < 10 then (48 + n).toUInt8 else (87 + n).toUInt8

def unitText (n : Nat) : Bytes :=
  [backslash, 117, hexDigitOf (n / 4096 % 16), hexDigitOf (n / 256 % 16), hexDigitOf (n / 16 % 16),
    hexDigitOf (n % 16)]

def codePoint : Bytes → Nat
  | [] => 0
  | first :: rest =>
    let high :=
      match rest.length with
      | 1 => first.toNat % 32
      | 2 => first.toNat % 16
      | _ => first.toNat % 8
    rest.foldl (fun n b => n * 64 + b.toNat % 64) high

def isPlainAscii (b : UInt8) : Bool := 32 ≤ b ∧ b < 127 ∧ b ≠ quote ∧ b ≠ backslash

def escapeCharacter : Bytes → Bytes
  | [b] =>
    if isPlainAscii b then [b]
    else if b = quote ∨ b = backslash then [backslash, b]
    else if b = 10 then ascii "\\n"
    else if b = 13 then ascii "\\r"
    else if b = 9 then ascii "\\t"
    else if b = 12 then ascii "\\f"
    else if b = 8 then ascii "\\b"
    else unitText b.toNat
  | character =>
    let n := codePoint character
    if n < 0x10000 then unitText n
    else unitText (0xd800 + (n - 0x10000) / 0x400) ++ unitText (0xdc00 + (n - 0x10000) % 0x400)

def escapeText (text : Bytes) : Bytes := (Utf8.characters text).flatMap escapeCharacter

def dumpsString (text : Bytes) : Bytes := quote :: (escapeText text ++ [quote])

example : dumpsString (ascii "a\"\n" ++ [0xc3, 0xa9]) = ascii "\"a\\\"\\n\\u00e9\"" := by decide

theorem escapeText_plain {text : Bytes} (plain : ∀ b ∈ text, isPlainAscii b) :
    escapeText text = text := by
  have single : Utf8.characters text = text.map fun b => [b] := by
    induction text with
    | nil => rfl
    | cons b text ih =>
      obtain ⟨here, others⟩ := List.forall_mem_cons.mp plain
      rw [Utf8.characters, ih others]
      cases text with
      | nil => rfl
      | cons c text =>
        have next := of_decide_eq_true (others c List.mem_cons_self)
        have fresh : Utf8.continues c = false := by
          simp only [Utf8.continues, decide_eq_false_iff_not, not_and]
          intro high
          exact absurd next.2.1 (by grind)
        simp [fresh]
  rw [escapeText, single, List.flatMap_map]
  calc text.flatMap (fun b => escapeCharacter [b])
      = text.flatMap fun b => [b] := List.flatMap_congr fun b member => if_pos (plain b member)
    _ = text := List.flatMap_singleton' text

end VirtueSensing.JsonText
