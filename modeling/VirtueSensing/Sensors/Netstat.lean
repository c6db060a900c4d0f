import VirtueSensing.Bridge.Documents
import VirtueSensing.Shared.Lists

set_option autoImplicit false

/-!
# The lines of `netstat`

`sensor_netstat.py` splits the output of `netstat -natp` into columns again.
-/

namespace VirtueSensing.Sensors.Netstat

open Bridge

abbrev Text := List Char

inductive Failure where
  | unicodeDecodeError
  | indexError
  | valueError
  deriving DecidableEq, Repr

structure Message where
  proto : Text
  recvQ : Text
  sendQ : Text
  state : Text
  localAddress : Text
  localPort : Text
  remoteAddress : Text
  remotePort : Text
  pid : Text
  program : Text
  deriving DecidableEq, Repr

def lineBits (text : Text) : List Text :=
  (text.splitOn ' ').filter fun bit => bit ≠ []

-- Only the last colon separates the port, as there are others in an address.
def splitAddress (column : Text) : Text × Text :=
  let bits := column.splitOn ':'
  ([':'].intercalate bits.dropLast, bits.getLastD [])

def splitProgram (bit : Text) : Except Failure (Text × Text) :=
  if '/' ∈ bit then
    match bit.splitOn '/' with
    | [pid, prog] => .ok (pid, prog)
    | _ => .error .valueError
  else .ok ([], [])

def parseBits : List Text → Except Failure Message
  | proto :: recvQ :: sendQ :: localBit :: remoteBit :: rest => do
    let (pid, program) ← splitProgram (rest.getLastD remoteBit)
    match rest with
    | [] => .error .indexError
    | state :: _ =>
      .ok ⟨proto, recvQ, sendQ, state, (splitAddress localBit).1, (splitAddress localBit).2,
        (splitAddress remoteBit).1, (splitAddress remoteBit).2, pid, program⟩
  | _ => .error .indexError

def parseLine (line : Bytes) : Except Failure Message :=
  match Utf8.decode line with
  | none => .error .unicodeDecodeError
  | some text => parseBits (lineBits (strip text))

-- A line that raises ends the loop, and the sensor with it.
def parseLines : List Bytes → Except Failure (List Message)
  | [] => .ok []
  | line :: rest => do
    let message ← parseLine line
    let messages ← parseLines rest
    return message :: messages

def parseOutput (out : Bytes) : Except Failure (List Message) := parseLines (readlines out)

/-- A value of a column: printable ASCII without a blank. -/
structure Word where
  text : Text
  some : text ≠ []
  visible : ∀ c ∈ text, 33 ≤ c.toNat ∧ c.toNat ≤ 126

structure Endpoint where
  address : Word
  port : Word
  bare : ':' ∉ port.text

/-- The process that owns a socket. Its name is any bytes. -/
structure Owner where
  pid : Word
  bare : '/' ∉ pid.text
  name : Bytes

structure Row where
  proto : Word
  recvQ : Word
  sendQ : Word
  here : Endpoint
  there : Endpoint
  state : Word
  owner : Option Owner

/-- How a row is laid out: how many blanks there are behind a column, besides the one that separates
it from the next, and to which length addresses and names are cut. -/
structure Printer where
  padding : Row → Nat → Nat
  hereWidth : Row → Nat
  thereWidth : Row → Nat
  nameWidth : Row → Nat

def column (text : Text) (padding : Nat) : Text := text ++ List.replicate (padding + 1) ' '

def Endpoint.shown (e : Endpoint) (width : Nat) : Text := e.address.text.take width ++ ':' :: e.port.text

namespace Printer

variable (p : Printer) (r : Row)

def front : Text :=
  column r.proto.text (p.padding r 0) ++ (column r.recvQ.text (p.padding r 1) ++
    (column r.sendQ.text (p.padding r 2) ++ (column (r.here.shown (p.hereWidth r)) (p.padding r 3) ++
      (column (r.there.shown (p.thereWidth r)) (p.padding r 4) ++
        column r.state.text (p.padding r 5)))))

-- The name ends in the padding of its column.
def program : Bytes :=
  match r.owner with
  | none => ascii "-"
  | some owner => Utf8.encode owner.pid.text ++ 47 :: owner.name.take (p.nameWidth r)

def trail : Text := List.replicate (p.padding r 6) ' ' ++ ['\n']

def print : Bytes := Utf8.encode (p.front r) ++ (p.program r ++ Utf8.encode (p.trail r))

/-- Nothing of the row is cut off. -/
structure ShowsAll : Prop where
  here : r.here.address.text.length ≤ p.hereWidth r
  there : r.there.address.text.length ≤ p.thereWidth r
  name : ∀ owner ∈ r.owner, owner.name.length ≤ p.nameWidth r

end Printer

/-- The message has the values of the row. A row without a process has two empty texts for it. -/
structure Message.Shows (m : Message) (r : Row) : Prop where
  proto : m.proto = r.proto.text
  recvQ : m.recvQ = r.recvQ.text
  sendQ : m.sendQ = r.sendQ.text
  state : m.state = r.state.text
  here : m.localAddress = r.here.address.text ∧ m.localPort = r.here.port.text
  there : m.remoteAddress = r.there.address.text ∧ m.remotePort = r.there.port.text
  owner : match r.owner with
    | none => m.pid = [] ∧ m.program = []
    | some owner => m.pid = owner.pid.text ∧ Utf8.encode m.program = owner.name

def Recovers (r : Row) (result : Except Failure (List Message)) : Prop :=
  ∃ m, result = .ok [m] ∧ m.Shows r

/-- A name that stands in one bit of its line, and is all that stands there behind the pid. -/
def PlainName (name : Bytes) : Prop :=
  ∃ text, Utf8.encode text = name ∧ (' ' ∉ text ∧ '/' ∉ text ∧ '\n' ∉ text) ∧
    text.rdropWhile isWhitespace = text

end VirtueSensing.Sensors.Netstat
