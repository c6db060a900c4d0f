import VirtueSensing.Kernel.RequestTexts
import VirtueSensing.Relay.SensorKernel
import VirtueSensing.Shared.JsonDumps

set_option autoImplicit false

/-!
# The requests of the relay

`send_json_obj` writes what `json.dumps` makes of a request, and the parser of the controller reads the
same strings back, with their escapes left as they are.
-/

namespace VirtueSensing.JsonText

section Reading

open Jsmn

variable {body rest text : Bytes}

theorem isHex_hexDigitOf (n : Nat) : isHex (hexDigitOf (n % 16)) := by
  have each : ∀ d < 16, isHex (hexDigitOf d) := by decide
  exact each _ (Nat.mod_lt n (by decide))

theorem stringRest_unit (n : Nat) (more : StringRest text body rest) :
    StringRest (unitText n ++ text) (unitText n ++ body) rest :=
  .unicode ⟨isHex_hexDigitOf _, isHex_hexDigitOf _, isHex_hexDigitOf _, isHex_hexDigitOf _⟩ more

theorem stringRest_character (character : Bytes) (more : StringRest text body rest) :
    StringRest (escapeCharacter character ++ text) (escapeCharacter character ++ body) rest := by
  unfold escapeCharacter
  split
  · rename_i b
    split_ifs with plain marked
    · have byte := of_decide_eq_true plain
      refine .char ⟨?_, byte.2.2.1, byte.2.2.2⟩ more
      rintro rfl
      exact absurd byte.1 (by decide)
    · refine .escape ?_ more
      rcases marked with rfl | rfl <;> decide
    · exact .escape (by decide) more
    · exact .escape (by decide) more
    · exact .escape (by decide) more
    · exact .escape (by decide) more
    · exact .escape (by decide) more
    · exact stringRest_unit _ more
  · dsimp only
    split
    · exact stringRest_unit _ more
    · rw [List.append_assoc, List.append_assoc]
      exact stringRest_unit _ (stringRest_unit _ more)

/-- jsmn reads what `json.dumps` writes of a string, up to its closing quote. -/
theorem stringRest_escapeText (text rest : Bytes) :
    StringRest (escapeText text ++ 34 :: rest) (escapeText text) rest := by
  rw [escapeText]
  induction Utf8.characters text with
  | nil => exact .quote rest
  | cons character others ih =>
    rw [List.flatMap_cons, List.append_assoc]
    exact stringRest_character character ih

end Reading

end VirtueSensing.JsonText

namespace VirtueSensing.Relay

open JsonText Kernel Jsmn

/-- The line that `send_json_obj` sends for a request; its keys are sorted. -/
def requestLine (nonce cmd sensor : Bytes) : Bytes :=
  ascii "\x7b\"Virtue-protocol-version\": 0.1, \"request\": [" ++ dumpsString nonce ++ ascii ", " ++
    dumpsString cmd ++ ascii ", " ++ dumpsString sensor ++ ascii "]\x7d\n"

theorem derives_dumpsString (text rest : Bytes) :
    Derives (.value (.scalar (escapeText text))) (dumpsString text ++ rest) rest := by
  have read := stringRest_escapeText text rest
  rw [dumpsString, List.cons_append, List.append_assoc]
  exact .string read

theorem stringRest_plain {text : Bytes} (plain : ∀ b ∈ text, isPlainAscii b) (rest : Bytes) :
    StringRest (text ++ 34 :: rest) text rest := by
  have read := stringRest_escapeText text rest
  rwa [escapeText_plain plain] at read

theorem isText_requestLine (nonce cmd sensor : Bytes) :
    IsText (requestLine nonce cmd sensor)
      (requestValue (escapeText nonce) (escapeText cmd) (escapeText sensor) []) := by
  have spaced (text : Bytes) : Blank (32 :: text) text := .skip (by decide) (.none text)
  have array : Derives
      (.value (.array [.scalar (escapeText nonce), .scalar (escapeText cmd), .scalar (escapeText sensor)]))
      (91 :: (dumpsString nonce ++ 44 :: 32 :: (dumpsString cmd ++ 44 :: 32 ::
        (dumpsString sensor ++ ascii "]\x7d\n")))) (ascii "\x7d\n") :=
    .array (.full (.items (.none _) (.element (derives_dumpsString nonce _)) (.comma (.none _)
      (.items (spaced _) (.element (derives_dumpsString cmd _)) (.comma (.none _)
        (.items (spaced _) (.element (derives_dumpsString sensor _))
          (.last (.none _))))))))
  have request := Derives.member (@stringRest_plain (ascii "request") (by decide) _) (.none _)
    (spaced _) array
  have version : Derives (.value (.scalar (ascii "0.1"))) (ascii "0.1" ++ 44 :: 32 :: 34 ::
      (ascii "request" ++ 34 :: 58 :: 32 :: 91 :: (dumpsString nonce ++ 44 :: 32 ::
        (dumpsString cmd ++ 44 :: 32 :: (dumpsString sensor ++ ascii "]\x7d\n"))))) _ :=
    .word ⟨by decide, by decide⟩ (by simp; decide)
  have first := Derives.member (@stringRest_plain (ascii "Virtue-protocol-version") (by decide) _)
    (.none _) (spaced _) version
  have object : Derives (.value (requestValue (escapeText nonce) (escapeText cmd) (escapeText sensor) []))
      _ (ascii "\n") :=
    .object (.full (.items (.none _) first (.comma (.none _)
      (.items (spaced _) request (.last (.none _))))))
  have whole : requestLine nonce cmd sensor = 123 :: 34 :: (ascii "Virtue-protocol-version" ++ 34 ::
      58 :: 32 :: (ascii "0.1" ++ 44 :: 32 :: 34 :: (ascii "request" ++ 34 :: 58 :: 32 :: 91 ::
        (dumpsString nonce ++ 44 :: 32 :: (dumpsString cmd ++ 44 :: 32 ::
          (dumpsString sensor ++ ascii "]\x7d\n")))))) := by
    simp only [requestLine, List.append_assoc]
    rfl
  rw [whole]
  exact ⟨_, _, .none _, object, .skip (by decide) (.none _)⟩

end VirtueSensing.Relay
