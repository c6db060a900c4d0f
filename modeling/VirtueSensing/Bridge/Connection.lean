import Mathlib.Algebra.Group.Nat.Defs
import Mathlib.Data.List.DropRight
import VirtueSensing.Shared.JsonTokens
import VirtueSensing.Shared.Lines
import VirtueSensing.Shared.Utf8

set_option autoImplicit false

/-!
# The desktop bridge

`bridge.py` reads JSON documents from a connection and puts them into a queue. Nothing marks the end of
a document: after each line `read_json_doc` tries whether what it has read so far is one.
-/

namespace VirtueSensing.Bridge

open JsonText

-- The code points that `str.strip` takes away.
def whitespace : List Nat :=
  [9, 10, 11, 12, 13, 28, 29, 30, 31, 32, 0x85, 0xa0, 0x1680, 0x2000, 0x2001, 0x2002, 0x2003, 0x2004,
    0x2005, 0x2006, 0x2007, 0x2008, 0x2009, 0x200a, 0x2028, 0x2029, 0x202f, 0x205f, 0x3000]

def isWhitespace (c : Char) : Bool := c.toNat ∈ whitespace

def strip (text : List Char) : List Char := (text.dropWhile isWhitespace).rdropWhile isWhitespace

def loads (body : List Char) : Option Json := parse true (Utf8.encode body)

-- A number is false up to one half of `2 ^ -1074`, the least float, since it is rounded to zero.
def scalarTruthy : Scalar → Bool
  | .null => false
  | .bool b => b
  | .int n => n ≠ 0
  | .decimal digits scale => 10 ^ (-scale).toNat < digits.natAbs * 10 ^ scale.toNat * 2 ^ 1075
  | .constant _ => true

def truthy : Json → Bool
  | .scalar value => scalarTruthy value
  | .string text => text ≠ []
  | .array items => !items.isEmpty
  | .object members => !members.isEmpty

/-- What `readline` returns, one call after another, up to the end of the stream. -/
def readlines : Bytes → List Bytes
  | [] => []
  | b :: rest =>
    if b = 10 then [b] :: readlines rest
    else
      match readlines rest with
      | [] => [[b]]
      | line :: lines => (b :: line) :: lines

/-- `raised` stands for a line that is too long for the reader, or not UTF-8. -/
inductive Decoded where
  | value (decoded : Json)
  | none
  | raised

section Reading

-- The bytes that the reader takes up to a newline, where it has a limit.
variable (limit : Option Nat)

def decodeLine (line : Bytes) : Option (List Char) :=
  if limit.any (· < (line.takeWhile (· ≠ 10)).length) then none else Utf8.decode line

def readJsonDoc : List Char → List Bytes → Decoded × List Bytes
  | _, [] => (.none, [])
  | body, line :: rest =>
    match decodeLine limit line with
    | none => (.raised, rest)
    | some text =>
      let body := body ++ strip text
      match loads body with
      | some decoded => (.value decoded, rest)
      | none => readJsonDoc (if body.length > 8192 then [] else body) rest

theorem readJsonDoc_shorter {body : List Char} {lines rest : List Bytes} {decoded : Json}
    (read : readJsonDoc limit body lines = (.value decoded, rest)) : rest.length < lines.length := by
  induction lines generalizing body with
  | nil => cases read
  | cons line lines ih =>
    rw [readJsonDoc] at read
    split at read
    · cases read
    · dsimp only at read
      split at read
      · obtain ⟨-, rfl⟩ := Prod.mk.inj read
        exact Nat.lt_succ_self _
      · exact Nat.lt_succ_of_lt (ih read)

/-- The documents that both handlers enqueue, and whether the loop comes to its end. -/
def messages (lines : List Bytes) : List Json × Bool :=
  match _read : readJsonDoc limit [] lines with
  | (.value msg, rest) =>
    if truthy msg then
      let (msgs, ended) := messages rest
      (msg :: msgs, ended)
    else ([], true)
  | (.none, _) => ([], true)
  | (.raised, _) => ([], false)
termination_by lines.length
decreasing_by exact readJsonDoc_shorter limit _read

end Reading

def handleConnectionCurio (stream : Bytes) : List (Option Json) :=
  let (msgs, ended) := messages none (readlines stream)
  msgs.map some ++ if ended then [none] else []

def defaultLimit : Nat := 65536

-- `closes` says whether `close` of the writer can be awaited.
def handleConnection (closes : Bool) (stream : Bytes) : List (Option Json) :=
  let (msgs, ended) := messages (some defaultLimit) (readlines stream)
  msgs.map some ++ if ended && closes then [none] else []

/-- What a line does to a connection that has kept a body. -/
inductive Turn where
  | raised
  | closed
  | enqueued (msg : Json)
  | kept (body : List Char)

section Turns

variable (limit : Option Nat)

def turn (body : List Char) (line : Bytes) : Turn :=
  match decodeLine limit line with
  | none => .raised
  | some text =>
    match loads (body ++ strip text) with
    | some msg => if truthy msg then .enqueued msg else .closed
    | none => .kept (if (body ++ strip text).length > 8192 then [] else body ++ strip text)

def receive : List Char → List Bytes → List Json × Bool
  | _, [] => ([], true)
  | body, line :: rest =>
    match turn limit body line with
    | .raised => ([], false)
    | .closed => ([], true)
    | .enqueued msg => (msg :: (receive [] rest).1, (receive [] rest).2)
    | .kept body => receive body rest

theorem receive_readJsonDoc (body : List Char) (lines : List Bytes) :
    receive limit body lines =
      match readJsonDoc limit body lines with
      | (.value msg, rest) =>
        if truthy msg then (msg :: (receive limit [] rest).1, (receive limit [] rest).2) else ([], true)
      | (.none, _) => ([], true)
      | (.raised, _) => ([], false) := by
  induction lines generalizing body with
  | nil => rfl
  | cons line lines ih =>
    rw [receive, readJsonDoc, turn]
    cases decodeLine limit line with
    | none => rfl
    | some text =>
      dsimp only
      cases loads (body ++ strip text) with
      | some msg =>
        dsimp only
        by_cases full : truthy msg
        · rw [if_pos full, if_pos full]
        · rw [if_neg full, if_neg full]
      | none => exact ih _

theorem messages_eq_receive (lines : List Bytes) : messages limit lines = receive limit [] lines := by
  induction size : lines.length using Nat.strongRecOn generalizing lines with
  | ind k ih =>
    rw [messages, receive_readJsonDoc]
    split
    · rename_i msg rest read
      rw [ih rest.length (size ▸ readJsonDoc_shorter limit read) rest rfl]
      rw [read]
    · rename_i read
      rw [read]
    · rename_i read
      rw [read]

end Turns

end VirtueSensing.Bridge
