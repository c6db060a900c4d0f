import VirtueSensing.Jsmn.Parser
import VirtueSensing.Kernel.Sensor

set_option autoImplicit false

/-!
# Requests to the Linux kernel controller

`jsonl-parse.c`: from the tokens of a line to the handler of its command.
-/

namespace VirtueSensing.Kernel

open Jsmn

def jsmnErrorInval : Int := Error.inval.code
def complete : Int := 3

def maxLineLen : Nat := 0x1000
def maxNonceSize : Nat := uuidStringLen + 4
def maxCmdSize : Nat := 128
def maxTokens : Nat := 64

def protocolVersion : Bytes := ascii "\"Virtue-protocol-version\": 0.1"

def replyHeader : Bytes :=
  ascii "\x7b" ++ protocolVersion ++ ascii ", \"reply\": ["

def quoted (text : Bytes) : Bytes :=
  ascii "\"" ++ text ++ ascii "\""

-- `enum parse_index`, the places at which `parse_json_message` expects the parts of a message.
def objectStartIndex : Nat := 0
def verTagIndex : Nat := 1
def versionIndex : Nat := 2
def msgIndex : Nat := 3
def jsonlBracketIndex : Nat := 4
def nonceIndex : Nat := 5
def cmdIndex : Nat := 6
def sensorIndex : Nat := 7
def jsonrBracketIndex : Nat := 8
def objectEndIndex : Nat := 9

inductive MessageType where
  | empty
  | request
  | reply
  deriving DecidableEq, Repr

structure Session where
  id : Nat
  socket : Nat
  nonce : Bytes
  cmd : Bytes
  sensorName : Bytes
  replies : List Bytes
  deriving DecidableEq, Repr

structure State where
  sessions : List Session
  nextSession : Nat
  sensors : List Sensor
  written : List (Nat × Bytes)
  deriving DecidableEq, Repr

/-- A line that `new_message` accepted, with the tokens jsmn found in it. -/
structure Message where
  socket : Nat
  line : Bytes
  tokens : List Token
  deriving DecidableEq, Repr

-- The message comes from `kzalloc`, so a slot that jsmn did not use is zero.
def Message.token (m : Message) (i : Nat) : Token :=
  m.tokens.getD i Token.zero

def Message.text (m : Message) (i : Nat) : Bytes :=
  (m.token i).text m.line

structure Call where
  message : Message
  session : Session
  command : Command
  deriving DecidableEq, Repr

inductive Handler where
  | jsmnCmd
  | discoveryRequest
  | stateRequest
  | recordsRequest
  deriving DecidableEq, Repr

def cmdTable : Command → Handler
  | .connect => .jsmnCmd
  | .discovery => .discoveryRequest
  | .off | .on | .increase | .decrease | .low | .default | .high | .adversarial | .reset =>
    .stateRequest
  | .records => .recordsRequest

/-- What the parser calls: the tokenizer, the handlers of the table, allocation and the socket. -/
structure Environment where
  jsmnParse : Bytes → Parsed
  allocates : Bool
  socketWrite : Nat → Bytes → Int
  behindNonce : Bytes
  discoveryRequest : Call → State → Int × State
  recordsRequest : Call → State → Int × State

def State.freeSession (k : State) (s : Session) : State :=
  { k with sessions := k.sessions.filter fun t => t.id ≠ s.id }

def Session.link (s : Session) (line : Bytes) : Session :=
  { s with replies := s.replies ++ [line] }

-- Writes until one write fails, which is then the result.
def writeSessionReplies (env : Environment) (s : Session) (k : State) : Int × State :=
  if s.replies = [] then (-2, k)
  else go s.replies k
where
  go : List Bytes → State → Int × State
    | [], k => (0, k)
    | line :: rest, k =>
      let written := env.socketWrite s.socket (line ++ [0])
      if written < 0 then (written, k)
      else go rest { k with written := k.written ++ [(s.socket, line ++ [0])] }

def scnprintf (size : Nat) (text : Bytes) : Bytes :=
  text.take (size - 1)

-- A nonce that fills its array has no terminating zero, so `%s` prints on into the session.
def printedNonce (env : Environment) (nonce : Bytes) : Bytes :=
  if nonce.length < maxNonceSize then nonce else nonce ++ env.behindNonce

def stateReplyLine (env : Environment) (call : Call) (state : Int) : Bytes :=
  scnprintf (call.message.line.length * 2 - 1)
    (ascii "\x7b" ++ protocolVersion ++ ascii ", reply: [" ++ printedNonce env call.session.nonce ++
      ascii ", " ++ cmdStrings.getD state.toNat [] ++ ascii "]\x7d\n")

def processStateRequest (env : Environment) (call : Call) (k : State) : Int × State :=
  match getSensor call.session.sensorName k.sensors with
  | .error ccode => (ccode, k)
  | .ok i =>
    match k.sensors[i]? with
    | none => (enfile, k)
    | some sensor =>
      let (sensor, state) := processStateMessage sensor call.command
      let k := { k with sensors := k.sensors.set i sensor }
      if env.allocates then
        let session := call.session.link (stateReplyLine env call state)
        let (written, k) := writeSessionReplies env session k
        (if written < 0 then written else complete, k.freeSession session)
      else (enomem, k.freeSession call.session)

-- Only requests get here, so the branch for replies is left out.
def processJsmnCmd (_ : Call) (k : State) : Int × State :=
  (0, k)

def Environment.run (env : Environment) (call : Call) (k : State) : Int × State :=
  match cmdTable call.command with
  | .jsmnCmd => processJsmnCmd call k
  | .discoveryRequest => env.discoveryRequest call k
  | .stateRequest => processStateRequest env call k
  | .recordsRequest => env.recordsRequest call k

/-- The result of `parse_json_message`, with the session it opened and the handler call it made. -/
structure Outcome where
  ccode : Int
  state : State
  opened : Option Session
  called : Option Call

namespace Command

def word : Command → Bytes
  | connect => ascii "connect"
  | discovery => ascii "discovery"
  | off => ascii "off"
  | on => ascii "on"
  | increase => ascii "increase"
  | decrease => ascii "decrease"
  | low => ascii "low"
  | default => ascii "default"
  | high => ascii "high"
  | adversarial => ascii "adversarial"
  | reset => ascii "reset"
  | records => ascii "records"

-- How many bytes of its word tell a command apart.
def length : Command → Nat
  | connect => 1
  | discovery => 2
  | off => 2
  | on => 2
  | increase => 1
  | decrease => 3
  | low => 1
  | default => 3
  | high => 1
  | adversarial => 1
  | reset => 3
  | records => 3

def compares (c : Command) (cmd : Bytes) : Bool :=
  let bytes := min c.length cmd.length
  cmd.take bytes = c.word.take bytes

end Command

-- `-JSMN_ERROR_INVAL` is positive.
def indexCommand (cmd : Bytes) : Int :=
  match Command.all.find? fun c => c.compares cmd with
  | some c => c.code
  | none => -jsmnErrorInval

structure Progress where
  type : MessageType
  state : State
  opened : Option Session

def Progress.stop (p : Progress) (ccode : Int) : Outcome :=
  ⟨ccode, p.state, p.opened, none⟩

def sensorNameOf (m : Message) : Bytes :=
  if sensorIndex < m.tokens.length then m.text sensorIndex else []

def Session.fill (s : Session) (m : Message) : Session :=
  { s with cmd := m.text cmdIndex, sensorName := sensorNameOf m }

def State.update (k : State) (s : Session) : State :=
  { k with sessions := k.sessions.map fun t => if t.id = s.id then s else t }

def dispatch (env : Environment) (m : Message) (p : Progress) (s : Session) (ccode : Int) :
    Outcome :=
  if 0 ≤ ccode ∧ ccode ≤ Command.records.code then
    match Command.all[ccode.toNat]? with
    | none => p.stop jsmnErrorInval
    | some command =>
      let call : Call := ⟨m, s, command⟩
      let (ccode, state) := env.run call p.state
      ⟨ccode, state, p.opened, some call⟩
  else p.stop jsmnErrorInval

def preProcessJsmnRequestCmd (env : Environment) (m : Message) (p : Progress) : Outcome :=
  if p.type = .reply then p.stop jsmnErrorInval
  else if (m.text cmdIndex).length = 0 ∨ maxCmdSize ≤ (m.text cmdIndex).length then
    p.stop jsmnErrorInval
  else if m.tokens.length < sensorIndex then p.stop jsmnErrorInval
  else if (m.text sensorIndex).length = 0 ∨ maxNameSize < (m.text sensorIndex).length then
    p.stop jsmnErrorInval
  else
    match p.type, p.opened with
    | .request, some s =>
      let s := s.fill m
      dispatch env m { p with state := p.state.update s } s (indexCommand (m.text cmdIndex))
    | _, _ => p.stop jsmnErrorInval

def State.garbageCollectSession (k : State) (socket : Nat) : State :=
  match k.sessions.find? fun s => s.socket = socket with
  | none => k
  | some s => k.freeSession s

def State.newSession (k : State) (m : Message) : Session × State :=
  let k := k.garbageCollectSession m.socket
  let s : Session := ⟨k.nextSession, m.socket, m.text nonceIndex, [], [], []⟩
  (s, { k with sessions := s :: k.sessions, nextSession := k.nextSession + 1 })

-- The forty bytes of the array agree with the token as far as the token goes.
def Session.nonceMatches (s : Session) (nonce : Bytes) : Bool :=
  (s.nonce ++ List.replicate (maxNonceSize - s.nonce.length) 0).take nonce.length = nonce

/-- A pointer to a session. The cursor of a loop that has run to its end points at the list head. -/
inductive SessionPointer where
  | null
  | session (id : Nat)
  | listHead
  deriving DecidableEq, Repr

-- The loop of `get_session`, with its cursor when it has ended.
def correlateReply (m : Message) : List Session → SessionPointer × List Session
  | [] => (.listHead, [])
  | s :: rest =>
    let s := if s.nonceMatches (m.text nonceIndex) then s.link m.line else s
    let (ns, rest) := correlateReply m rest
    (ns, s :: rest)

theorem correlateReply_eq (m : Message) (sessions : List Session) :
    correlateReply m sessions = (.listHead, sessions.map fun s =>
      if s.nonceMatches (m.text nonceIndex) then s.link m.line else s) := by
  induction sessions with
  | nil => rfl
  | cons s rest ih => simp [correlateReply, ih]

-- `none` where the source returns `NULL`, which the cursor behind the list never is.
def getSession (m : Message) (p : Progress) : Option Progress :=
  let nonce := m.text nonceIndex
  if nonce.length = 0 ∨ maxNonceSize < nonce.length then none
  else if p.type = .request then
    let (s, state) := p.state.newSession m
    some { p with state, opened := some s }
  else
    let (_, sessions) := correlateReply m p.state.sessions
    some { p with state := { p.state with sessions } }

def checkProtocolMessage (m : Message) : Option MessageType :=
  let word := m.text msgIndex
  if word = ascii "reply" then some .reply
  else if word = ascii "request" then some .request
  else none

def checkProtocolVersion (m : Message) : Bool :=
  m.text verTagIndex = ascii "Virtue-protocol-version" ∧ m.text versionIndex = ascii "0.1"

def validateMessageTokens (m : Message) : Bool :=
  m.line.length < maxLineLen ∧
  1 ≤ m.tokens.length ∧ m.tokens.length ≤ maxTokens ∧ (m.token 0).type = .object ∧
  ∀ t ∈ m.tokens, t.start ≤ m.line.length ∧ t.stop ≤ m.line.length ∧ 0 ≤ t.stop - t.start

-- The turn that ends the loop at the command.
def finish (done : Outcome) : Outcome :=
  { done with ccode := if done.ccode = 0 ∨ done.ccode = complete then 0 else jsmnErrorInval }

-- The body of the switch, by the place of the token. The version takes two tokens at once.
def parseToken (env : Environment) (m : Message) (i : Nat) (p : Progress) :
    Except Outcome (Nat × Progress) :=
  if i = objectStartIndex ∨ i = objectEndIndex then .ok (i + 1, p)
  else if i = verTagIndex then
    if checkProtocolVersion m then .ok (versionIndex + 1, p) else .error (p.stop jsmnErrorInval)
  else if i = msgIndex then
    match checkProtocolMessage m with
    | none => .error (p.stop jsmnErrorInval)
    | some type => .ok (i + 1, { p with type })
  else if i = jsonlBracketIndex ∨ i = jsonrBracketIndex then .ok (i + 1, p)
  else if i = nonceIndex then
    match getSession m p with
    | none => .error (p.stop jsmnErrorInval)
    | some p => .ok (i + 1, p)
  else if i = cmdIndex then .error (finish (preProcessJsmnRequestCmd env m p))
  else .error (p.stop jsmnErrorInval)

def parseTokens (env : Environment) (m : Message) : Nat → Nat → Progress → Outcome
  | 0, _, p => p.stop m.tokens.length
  | fuel + 1, i, p =>
    if i < m.tokens.length then
      match parseToken env m i p with
      | .error done => done
      | .ok (i, p) => parseTokens env m fuel i p
    else p.stop m.tokens.length

def Environment.message (env : Environment) (socket : Nat) (line : Bytes) : Message :=
  ⟨socket, line, (env.jsmnParse line).tokens⟩

def parseJsonMessage (env : Environment) (socket : Nat) (line : Bytes) (k : State) : Outcome :=
  let parsed := env.jsmnParse line
  let m := env.message socket line
  if parsed.result < 0 then ⟨parsed.result, k, none, none⟩
  else if ¬ validateMessageTokens m then ⟨parsed.result, k, none, none⟩
  else parseTokens env m m.tokens.length verTagIndex ⟨.empty, k, none⟩

def parseSession (env : Environment) (m : Message) (p : Progress) : Outcome :=
  if m.tokens.length ≤ nonceIndex then p.stop m.tokens.length
  else match getSession m p with
    | none => p.stop jsmnErrorInval
    | some p =>
      if m.tokens.length ≤ cmdIndex then p.stop m.tokens.length
      else finish (preProcessJsmnRequestCmd env m p)

def parseBody (env : Environment) (m : Message) (p : Progress) : Outcome :=
  if m.tokens.length ≤ msgIndex then p.stop m.tokens.length
  else match checkProtocolMessage m with
    | none => p.stop jsmnErrorInval
    | some type => parseSession env m { p with type }

def parseHeader (env : Environment) (m : Message) (p : Progress) : Outcome :=
  if m.tokens.length ≤ verTagIndex then p.stop m.tokens.length
  else if ¬ checkProtocolVersion m then p.stop jsmnErrorInval
  else parseBody env m p

section Turns

variable {env : Environment} {m : Message} {fuel i : Nat} {p : Progress}

theorem parseTokens_turn (enough : m.tokens.length ≤ fuel + i) :
    parseTokens env m fuel i p =
      if m.tokens.length ≤ i then p.stop m.tokens.length
      else match parseToken env m i p with
        | .error done => done
        | .ok (j, q) => parseTokens env m (fuel - 1) j q := by
  cases fuel with
  | zero => rw [parseTokens, if_pos (by omega)]
  | succ fuel =>
    rw [parseTokens]
    by_cases last : m.tokens.length ≤ i
    · rw [if_neg (by omega), if_pos last]
    · rw [if_pos (by omega), if_neg last]
      rfl

theorem parseTokens_cmd (enough : m.tokens.length ≤ fuel + cmdIndex) :
    parseTokens env m fuel cmdIndex p =
      if m.tokens.length ≤ cmdIndex then p.stop m.tokens.length
      else finish (preProcessJsmnRequestCmd env m p) :=
  parseTokens_turn enough

theorem parseTokens_nonce (enough : m.tokens.length ≤ fuel + nonceIndex) :
    parseTokens env m fuel nonceIndex p = parseSession env m p := by
  rw [parseTokens_turn enough, parseSession]
  by_cases last : m.tokens.length ≤ nonceIndex
  · rw [if_pos last, if_pos last]
  · rw [if_neg last, if_neg last]
    have turn : parseToken env m nonceIndex p =
        match getSession m p with
        | none => .error (p.stop jsmnErrorInval)
        | some p => .ok (cmdIndex, p) := rfl
    rw [turn]
    cases getSession m p with
    | none => rfl
    | some q => exact parseTokens_cmd (by simp only [nonceIndex, cmdIndex] at *; omega)

theorem parseTokens_bracket (enough : m.tokens.length ≤ fuel + jsonlBracketIndex) :
    parseTokens env m fuel jsonlBracketIndex p = parseSession env m p := by
  rw [parseTokens_turn enough]
  by_cases last : m.tokens.length ≤ jsonlBracketIndex
  · rw [if_pos last, parseSession, if_pos (Nat.le_trans last (by decide))]
  · rw [if_neg last]
    exact parseTokens_nonce (by simp only [jsonlBracketIndex, nonceIndex] at *; omega)

theorem parseTokens_msg (enough : m.tokens.length ≤ fuel + msgIndex) :
    parseTokens env m fuel msgIndex p = parseBody env m p := by
  rw [parseTokens_turn enough, parseBody]
  by_cases last : m.tokens.length ≤ msgIndex
  · rw [if_pos last, if_pos last]
  · rw [if_neg last, if_neg last]
    have turn : parseToken env m msgIndex p =
        match checkProtocolMessage m with
        | none => .error (p.stop jsmnErrorInval)
        | some type => .ok (jsonlBracketIndex, { p with type }) := rfl
    rw [turn]
    cases checkProtocolMessage m with
    | none => rfl
    | some type =>
      exact parseTokens_bracket (by simp only [jsonlBracketIndex, msgIndex] at *; omega)

theorem parseTokens_header :
    parseTokens env m m.tokens.length verTagIndex p = parseHeader env m p := by
  rw [parseTokens_turn (Nat.le_add_right _ _), parseHeader]
  by_cases last : m.tokens.length ≤ verTagIndex
  · rw [if_pos last, if_pos last]
  · rw [if_neg last, if_neg last]
    have turn : parseToken env m verTagIndex p =
        if checkProtocolVersion m then .ok (msgIndex, p) else .error (p.stop jsmnErrorInval) := rfl
    rw [turn]
    cases checkProtocolVersion m with
    | false => rfl
    | true => exact parseTokens_msg (by simp only [msgIndex, verTagIndex] at *; omega)

end Turns

theorem parseJsonMessage_eq (env : Environment) (socket : Nat) (line : Bytes) (k : State) :
    parseJsonMessage env socket line k =
      if (env.jsmnParse line).result < 0 ∨ ¬ validateMessageTokens (env.message socket line) then
        ⟨(env.jsmnParse line).result, k, none, none⟩
      else parseHeader env (env.message socket line) ⟨.empty, k, none⟩ := by
  simp only [parseJsonMessage, parseTokens_header]
  by_cases failed : (env.jsmnParse line).result < 0
  · simp [failed]
  · simp [failed]

end VirtueSensing.Kernel
