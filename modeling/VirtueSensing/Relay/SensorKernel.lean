import Mathlib.Algebra.Group.Nat.Defs
import VirtueSensing.Shared.JsonFields
import VirtueSensing.Shared.Lines
import VirtueSensing.Shared.Utf8

set_option autoImplicit false

/-!
# The relay of the kernel sensors

`sensor_kernel.py` asks the kernel controller for the records of a sensor and turns each line of the
answer into a message. An exception that it does not catch ends the request.
-/

namespace VirtueSensing.Relay

open JsonText

inductive PythonError where
  | attributeError
  | typeError
  | keyError
  | indexError
  deriving DecidableEq, Repr

structure Payload where
  sensor : Json
  data : Json

def newline : UInt8 := 0x0a

-- The module sends zero bytes, which are taken out.
def parseJson (jsonStr : Bytes) : Option Json :=
  if Utf8.valid jsonStr then parse true (jsonStr.filter (· ≠ 0)) else none

-- `not reply`. A decimal is zero from the half of the smallest float on.
def isFalse : Json → Bool
  | .scalar .null => true
  | .scalar (.bool b) => !b
  | .scalar (.int n) => n = 0
  | .scalar (.decimal digits scale) =>
    digits = 0 ∨ (scale < 0 ∧ digits.natAbs * 2 ^ 1075 ≤ 10 ^ (-scale).toNat)
  | .scalar (.constant _) => false
  | .string text => text.isEmpty
  | .array items => items.isEmpty
  | .object members => members.isEmpty

def len : Json → Except PythonError Nat
  | .scalar _ => .error .typeError
  | .string text => .ok (Utf8.characters text).length
  | .array items => .ok items.length
  | .object members => .ok (members.map Prod.fst).eraseDups.length

-- The keys of an object are strings, so none of them is a number.
def item (i : Nat) : Json → Except PythonError Json
  | .scalar _ => .error .typeError
  | .string text =>
    match (Utf8.characters text)[i]? with
    | some c => .ok (.string c)
    | none => .error .indexError
  | .array items =>
    match items[i]? with
    | some v => .ok v
    | none => .error .indexError
  | .object _ => .error .keyError

def isText (text : Bytes) : Json → Bool
  | .string s => s = text
  | _ => false

-- The two sensors have their records at different places.
def replyData (sensor reply : Json) : Except PythonError Json :=
  if isText (ascii "kernel-lsof") sensor then item 4 reply
  else if isText (ascii "kernel-ps") sensor then item 5 reply
  else .ok (.string (ascii "unhandled"))

def convertSensorReply (injson : Option Json) : Except PythonError (Option Payload) :=
  match injson with
  | some (.object members) =>
    match (Json.object members).get (ascii "reply") with
    | none => .ok none
    | some reply =>
      if isFalse reply then .ok none
      else do
        if (← len reply) < 4 then .ok none
        else
          let sensor ← item 2 reply
          .ok (some ⟨sensor, ← replyData sensor reply⟩)
  | _ => .error .attributeError

-- Once no line is left, `readline` waits until the time is over, and what was collected is returned.
def collect : List Bytes → Except PythonError (List Payload)
  | [] => .ok []
  | resp :: rest => do
    match ← convertSensorReply (parseJson resp) with
    | none => .ok []
    | some payload => .ok (payload :: (← collect rest))

/-- What `fetch_sensor_records` returns when the socket delivers these bytes. -/
def fetchSensorRecords (stream : Bytes) : Except PythonError (List Payload) :=
  collect (completeLines newline [] stream)

theorem collect_cons {resp : Bytes} {rest : List Bytes} {payload : Payload} {payloads : List Payload}
    (collected : collect (resp :: rest) = .ok (payload :: payloads)) :
    convertSensorReply (parseJson resp) = .ok (some payload) ∧ collect rest = .ok payloads := by
  rw [collect] at collected
  cases converted : convertSensorReply (parseJson resp) with
  | error e =>
    rw [converted] at collected
    cases collected
  | ok converted' =>
    rw [converted] at collected
    cases converted' with
    | none => cases collected
    | some first =>
      cases later : collect rest with
      | error e =>
        rw [later] at collected
        cases collected
      | ok more =>
        rw [later] at collected
        cases collected
        exact ⟨rfl, rfl⟩

theorem collect_payload {resp : Bytes} {rest : List Bytes} {payload : Payload}
    {payloads : List Payload} (converted : convertSensorReply (parseJson resp) = .ok (some payload))
    (later : collect rest = .ok payloads) : collect (resp :: rest) = .ok (payload :: payloads) := by
  rw [collect, converted]
  show (collect rest).bind _ = _
  rw [later]
  rfl

theorem collect_ends {resp : Bytes} (rest : List Bytes)
    (converted : convertSensorReply (parseJson resp) = .ok none) :
    collect (resp :: rest) = .ok [] := by
  rw [collect, converted]
  rfl

theorem convertSensorReply_some {injson : Option Json} {payload : Payload}
    (converted : convertSensorReply injson = .ok (some payload)) :
    ∃ j reply, injson = some j ∧ j.get (ascii "reply") = some reply ∧
      (payload.data = .string (ascii "unhandled") ∨ ∃ i, item i reply = .ok payload.data) := by
  unfold convertSensorReply at converted
  split at converted
  · rename_i members
    split at converted
    · cases converted
    · rename_i reply found
      refine ⟨_, reply, rfl, found, ?_⟩
      split at converted
      · cases converted
      · obtain ⟨n, -, converted⟩ := Except.of_bind_ok converted
        split at converted
        · cases converted
        · obtain ⟨sensor, -, converted⟩ := Except.of_bind_ok converted
          obtain ⟨data, read, converted⟩ := Except.of_bind_ok converted
          cases converted
          unfold replyData at read
          split_ifs at read
          · exact .inr ⟨4, read⟩
          · exact .inr ⟨5, read⟩
          · cases read
            exact .inl rfl
  · cases converted

theorem item_strings {i : Nat} {j v w : Json} {key : Bytes} (found : item i j = .ok v)
    (member : v.get key = some w) : v.strings.Sublist j.strings := by
  cases j with
  | scalar value => cases found
  | string text =>
    simp only [item] at found
    split at found
    · cases found
      cases member
    · cases found
  | array items =>
    simp only [item] at found
    split at found
    · rename_i v' here
      cases found
      simpa [Json.strings] using itemStrings_sublist (List.mem_of_getElem? here)
    · cases found
  | object members => cases found

theorem convertSensorReply_strings {injson : Option Json} {payload : Payload} {key text : Bytes}
    (converted : convertSensorReply injson = .ok (some payload))
    (found : payload.data.get key = some (.string text)) :
    ∃ j, injson = some j ∧ text ∈ j.strings := by
  obtain ⟨j, reply, rfl, member, unhandled | ⟨i, read⟩⟩ := convertSensorReply_some converted
  · rw [unhandled] at found
    cases found
  · have inItem : [text].Sublist payload.data.strings := by
      simpa [Json.strings] using get_strings found
    have inLine := (inItem.trans (item_strings read found)).trans (get_strings member)
    exact ⟨j, rfl, inLine.subset List.mem_cons_self⟩

end VirtueSensing.Relay
