import VirtueSensing.Jsmn.Consumed
import VirtueSensing.Kernel.ReplyFormats
import VirtueSensing.Kernel.Sessions

set_option autoImplicit false

/-!
# Replies to accepted requests

Which of the lines that the controller writes are JSON and carry what they should. The zero byte
that is written behind a line ends its string and is no part of the line.
-/

namespace VirtueSensing.Kernel

open JsonText

namespace RecordSource

-- The elements of a record with its own values; a file whose path was not found has none.
def elements : (p : RecordSource) → Bytes → UInt64 → Entry p → Option (List Json)
  | ps uuid _, nonceText, runs, e =>
    let data : PsData := e.data
    some ((psFormat uuid e.index data.pidNr data.userId.toNat runs).elements nonceText
      data.comm.cString)
  | lsof uuid _ _, nonceText, _, e =>
    let data : LsofData := e.data
    data.dpath.map fun path =>
      (lsofFormat uuid data.userId.toNat data.pidNr.toInt data.flags.toNat data.mode.toNat
        data.count.toInt).elements nonceText path.bytes.cString

def name : RecordSource → Bytes
  | ps _ _ => ascii "Kernel PS Sensor"
  | lsof _ _ _ => ascii "Kernel LSOF Sensor"

def uuid : RecordSource → Bytes
  | ps uuid _ => uuid
  | lsof uuid _ _ => uuid

-- `%d` prints an user id as a signed number.
def Carried : (p : RecordSource) → Entry p → Prop
  | ps _ _, e =>
    let data : PsData := e.data
    Sendable data.comm.cString ∧ data.userId.toNat < 2 ^ 31
  | lsof _ _ _, e =>
    let data : LsofData := e.data
    ∃ path, data.dpath = some path ∧ Sendable path.bytes.cString ∧ data.userId.toNat < 2 ^ 31

theorem ps_line {uuid : Bytes} {tasks : List Task} {nonce : Bytes} {runs : UInt64} {index : Nat}
    {data : PsData} (short : nonce.length ≤ maxNonceSize) (bound : index < 2 ^ 31)
    (typed : data.Typed) :
    (ps uuid tasks).line nonce runs ⟨index, data⟩ =
      (psFormat uuid index data.pidNr data.userId.toBitVec.toInt runs).line nonce
        data.comm.cString := by
  rw [line, record_ps]
  exact @psRecord_line uuid (request nonce runs index) data short bound typed

theorem lsof_line {uuid : Bytes} {tasks : List FilesTask} {stray nonce : Bytes} {runs : UInt64}
    {index : Nat} {data : LsofData} {path : DentryPath} (short : nonce.length ≤ maxNonceSize)
    (found : data.dpath = some path) :
    (lsof uuid tasks stray).line nonce runs ⟨index, data⟩ =
      (lsofFormat uuid data.userId.toBitVec.toInt data.pidNr.toInt data.flags.toNat data.mode.toNat
        data.count.toInt).line nonce path.bytes.cString := by
  rw [line, record_lsof]
  exact @lsofRecord_line uuid stray (request nonce runs index) data path short found

theorem last_line (p : RecordSource) {nonce : Bytes} (runs : UInt64)
    (short : nonce.length ≤ maxNonceSize) :
    p.lastLine nonce runs = (emptyFormat p.uuid).line nonce p.name := by
  cases p with
  | ps uuid tasks => exact @emptyRecord_line uuid (request nonce runs 0) short
  | lsof uuid tasks stray => exact @emptyLsofRecord_line uuid (request nonce runs 0) short

theorem ps_decodes_iff {uuid : Bytes} {tasks : List Task} {nonce : Bytes} {runs : UInt64} {index : Nat}
    {data : PsData} (short : nonce.length ≤ maxNonceSize) (bound : index < 2 ^ 31)
    (typed : data.Typed) :
    Decodes ((ps uuid tasks).line nonce runs ⟨index, data⟩)
        ((psFormat uuid index data.pidNr data.userId.toNat runs).elements (nonceValue nonce)
          data.comm.cString) ↔
      NonceFits nonce ∧ Sendable data.comm.cString ∧ data.userId.toNat < 2 ^ 31 := by
  have present : [nonceValue nonce, data.comm.cString].Sublist (Json.array
      ((psFormat uuid index data.pidNr data.userId.toNat runs).elements (nonceValue nonce)
        data.comm.cString)).strings := by
    simp [psFormat, Json.strings, itemStrings, memberStrings]
  rw [ps_line short bound typed, Format.decodes_iff _ present, psFormat_uid_iff, signed_eq_iff]

theorem lsof_decodes_iff {uuid : Bytes} {tasks : List FilesTask} {stray nonce : Bytes} {runs : UInt64}
    {index : Nat} {data : LsofData} {path : DentryPath} (short : nonce.length ≤ maxNonceSize)
    (found : data.dpath = some path) :
    Decodes ((lsof uuid tasks stray).line nonce runs ⟨index, data⟩)
        ((lsofFormat uuid data.userId.toNat data.pidNr.toInt data.flags.toNat data.mode.toNat
          data.count.toInt).elements (nonceValue nonce) path.bytes.cString) ↔
      NonceFits nonce ∧ Sendable path.bytes.cString ∧ data.userId.toNat < 2 ^ 31 := by
  have present : [nonceValue nonce, path.bytes.cString].Sublist (Json.array
      ((lsofFormat uuid data.userId.toNat data.pidNr.toInt data.flags.toNat data.mode.toNat
        data.count.toInt).elements (nonceValue nonce) path.bytes.cString)).strings := by
    simp [lsofFormat, Json.strings, itemStrings, memberStrings]
  rw [lsof_line short found, Format.decodes_iff _ present, lsofFormat_uid_iff, signed_eq_iff]

theorem line_iff (p : RecordSource) {nonce : Bytes} {runs : UInt64} {e : Entry p}
    (short : nonce.length ≤ maxNonceSize) (typed : e.Typed) :
    (∃ elements, p.elements (nonceValue nonce) runs e = some elements ∧
      Decodes (p.line nonce runs e) elements) ↔ NonceFits nonce ∧ p.Carried e := by
  cases p with
  | ps uuid tasks =>
    obtain ⟨index, data⟩ := e
    simp only [elements, Option.some.injEq, exists_eq_left']
    exact ps_decodes_iff short typed.index typed.data
  | lsof uuid tasks stray =>
    obtain ⟨index, data⟩ := e
    simp only [elements, Option.map_eq_some_iff, Carried]
    constructor
    · rintro ⟨-, ⟨path, found, rfl⟩, decodes⟩
      obtain ⟨nonce, sendable, uid⟩ := (lsof_decodes_iff short found).mp decodes
      exact ⟨nonce, path, found, sendable, uid⟩
    · rintro ⟨nonce, path, found, sendable, uid⟩
      exact ⟨_, ⟨path, found, rfl⟩, (lsof_decodes_iff short found).mpr ⟨nonce, sendable, uid⟩⟩

theorem sendable_name (p : RecordSource) : Sendable p.name := by
  cases p with
  | ps uuid tasks =>
    show Sendable (ascii "Kernel PS Sensor")
    decide
  | lsof uuid tasks stray =>
    show Sendable (ascii "Kernel LSOF Sensor")
    decide

theorem lastLine_iff (p : RecordSource) {nonce : Bytes} (runs : UInt64)
    (short : nonce.length ≤ maxNonceSize) :
    Decodes (p.lastLine nonce runs)
        [.string (nonceValue nonce), .string p.name, .string (printUuid p.uuid)] ↔
      NonceFits nonce := by
  have present : [nonceValue nonce, p.name].Sublist (Json.array
      ((emptyFormat p.uuid).elements (nonceValue nonce) p.name)).strings := by
    simp [emptyFormat, Json.strings, itemStrings]
  have decodes := (emptyFormat p.uuid).decodes_iff present
  rw [p.last_line runs short]
  exact decodes.trans ⟨fun both => both.1, fun fits => ⟨fits, p.sendable_name, rfl⟩⟩

end RecordSource

-- The reply to a state request up to its key, which has no quotes.
def stateLead : List Piece :=
  [.mark .beginObject, .string versionKey, .mark .colon, .space,
    .scalar (ascii "0.1") (.decimal 1 (-1)), .mark .comma, .space]

theorem readable_stateLead : Readable stateLead := by
  simp only [stateLead, Readable]
  exact ⟨by decide, reads_tenth, by simp [Piece.separates], trivial⟩

theorem parse_bare_key (more : Bytes) : parse false (render stateLead ++ 114 :: more) = none := by
  have bare : lex false 0 (114 :: more) = none := by
    rfl
  have ends : EndsNumber (114 :: more) := by simp [EndsNumber, isDigit]
  rw [parse, lex_render false readable_stateLead ends, bare]
  rfl

theorem stateReply_not_decodes (env : Environment) (call : Call) (state : Int) (elements : List Json) :
    ¬ Decodes (stateReplyLine env call state) elements := by
  intro decodes
  obtain ⟨more, text⟩ : ∃ more, ascii "\x7b" ++ protocolVersion ++ ascii ", reply: [" ++
      printedNonce env call.session.nonce ++ ascii ", " ++ cmdStrings.getD state.toNat [] ++
      ascii "]\x7d\n" = render stateLead ++ 114 :: more :=
    ⟨ascii "eply: [" ++ (printedNonce env call.session.nonce ++ (ascii ", " ++
      (cmdStrings.getD state.toNat [] ++ ascii "]\x7d\n"))), by
        simp only [List.append_assoc]
        rfl⟩
  rw [stateReplyLine, text, scnprintf, List.take_append] at decodes
  generalize call.message.line.length * 2 - 1 - 1 = n at decodes
  by_cases cut : n ≤ (render stateLead).length
  · rw [Nat.sub_eq_zero_of_le cut, List.take_zero, List.append_nil] at decodes
    obtain ⟨body, -, line⟩ := decodes.oneLine
    have inside : newline ∈ render stateLead :=
      List.mem_of_mem_take (line ▸ List.mem_append_right body List.mem_cons_self)
    exact absurd inside (by decide)
  · obtain ⟨m, later⟩ := Nat.exists_eq_succ_of_ne_zero (Nat.sub_ne_zero_of_lt (Nat.not_le.mp cut))
    rw [List.take_of_length_le (by omega), later, List.take_succ_cons] at decodes
    obtain ⟨j, parsed, -⟩ := decodes.reads
    simp [parse_bare_key] at parsed

section Discovery

variable {sensors : List Sensor} {nonce : Bytes}

-- A line that is cut ends inside the names, where no line end stands.
theorem cut_not_line (named : Named sensors) (short : nonce.length ≤ maxNonceSize)
    (cut : 1022 < ((discoveryFormat sensors named).line nonce (ascii "discovery")).length) :
    ¬ IsLine newline (((discoveryFormat sensors named).line nonce (ascii "discovery")).take 1022) := by
  generalize rest : Piece.mark .comma :: .space :: .string (ascii "discovery") ::
    discoveryBehind sensors = ps
  have simple : ∀ p ∈ ps, Simple p := by
    rw [← rest]
    simp only [List.forall_mem_cons]
    exact ⟨simple_mark _, simple_space, simple_string (by decide), simple_discoveryBehind named⟩
  have readable : Readable ps := by
    rw [← rest]
    exact (follows_of_simple (rest ▸ simple) ⟨_, rfl, rfl⟩).readable
  have line : (discoveryFormat sensors named).line nonce (ascii "discovery") =
      (replyHeader ++ quote :: nonce) ++ ((quote :: render ps) ++ [newline]) := by
    rw [← rest, ← render_headerPieces]
    simp [Format.line, Format.pieces, discoveryFormat, Piece.bytes, newline]
  have none : newline ∉ quote :: render ps := by
    rw [List.mem_cons, not_or]
    exact ⟨by decide, newline_not_mem_render readable fun member => (simple _ member).1 rfl⟩
  have lead : (replyHeader ++ quote :: nonce).length ≤ 84 := by
    have header : replyHeader.length = 43 := rfl
    simp only [List.length_append, List.length_cons, header, maxNonceSize, uuidStringLen] at *
    omega
  rw [line] at cut ⊢
  simp only [List.length_append, List.length_singleton] at cut lead
  exact not_isLine_take none (by simp only [List.length_append]; omega)
    (by simp only [List.length_append]; omega)

theorem discoveryReply_iff (named : Named sensors) (text : 0 ∉ nonce)
    (short : nonce.length ≤ maxNonceSize) :
    Decodes (scnprintf (connectionMaxHeader - 1) (discoveryReply nonce (discoveryText sensors)))
        [.string (nonceValue nonce), .string (ascii "discovery"),
          .array (sensors.map Sensor.element)] ↔
      NonceFits nonce ∧ discoveryLength nonce sensors ≤ 1022 := by
  have present : [nonceValue nonce, ascii "discovery"].Sublist (Json.array
      ((discoveryFormat sensors named).elements (nonceValue nonce) (ascii "discovery"))).strings := by
    simp [discoveryFormat, Json.strings, itemStrings]
  have decodes := (discoveryFormat sensors named).decodes_iff present
  rw [← length_discoveryReply, discoveryReply_line nonce named text]
  by_cases fits : ((discoveryFormat sensors named).line nonce (ascii "discovery")).length ≤ 1022
  · have whole : scnprintf (connectionMaxHeader - 1)
        ((discoveryFormat sensors named).line nonce (ascii "discovery")) =
        (discoveryFormat sensors named).line nonce (ascii "discovery") :=
      List.take_of_length_le fits
    rw [whole]
    exact decodes.trans ⟨fun both => ⟨both.1, fits⟩, fun both => ⟨both.1, by decide, rfl⟩⟩
  · refine iff_of_false (fun cut => ?_) fun both => fits both.2
    exact cut_not_line named short (Nat.not_le.mp fits) cut.oneLine

end Discovery

inductive Reply (p : RecordSource) where
  | state (code : Int)
  | discovery
  | record (e : RecordSource.Entry p)
  | last

namespace Reply

variable {p : RecordSource} (a : Arrival (FlexArray p.Element)) (call : Call) (sensors : List Sensor)

def line : Reply p → Bytes
  | state code => stateReplyLine a.calls call code
  | discovery => scnprintf (connectionMaxHeader - 1)
      (discoveryReply (printedNonce a.calls call.session.nonce) (discoveryText sensors))
  | record e => p.line (printedNonce a.calls call.session.nonce) a.nonce e
  | last => p.lastLine (printedNonce a.calls call.session.nonce) a.nonce

-- Only the length of a discovery reply leaves the zero byte out.
def bytes (r : Reply p) : Bytes :=
  match r with
  | discovery => r.line a call sensors
  | state _ | record _ | last => r.line a call sensors ++ [0]

-- What the reply array should hold, where there are values for it.
def elements : Reply p → Option (List Json)
  | state code =>
    some [.string (nonceValue call.session.nonce), .string (cmdStrings.getD code.toNat [])]
  | discovery =>
    some [.string (nonceValue call.session.nonce), .string (ascii "discovery"),
      .array (sensors.map Sensor.element)]
  | record e => p.elements (nonceValue call.session.nonce) a.nonce e
  | last =>
    some [.string (nonceValue call.session.nonce), .string p.name, .string (printUuid p.uuid)]

def Documented (r : Reply p) : Prop :=
  ∃ elements, r.elements a call sensors = some elements ∧ Decodes (r.line a call sensors) elements

-- A record is an element of the array as the probe has left it.
def Answers : Reply p → Prop
  | state _ => cmdTable call.command = .stateRequest
  | discovery => cmdTable call.command = .discoveryRequest
  | record e =>
    cmdTable call.command = .recordsRequest ∧ e.Typed ∧
      e.data = (p.stored a.nonce a.data).slot e.index
  | last => cmdTable call.command = .recordsRequest

def EndsNonce : Prop :=
  call.session.nonce.length < maxNonceSize ∨ a.behindNonce = []

def Carried : Reply p → Prop
  | state _ => False
  | discovery =>
    NonceFits call.session.nonce ∧ discoveryLength call.session.nonce sensors ≤ 1022
  | record e => NonceFits call.session.nonce ∧ p.Carried e
  | last => NonceFits call.session.nonce

variable {a call sensors}

theorem documented_iff (named : Named sensors) (text : 0 ∉ call.session.nonce)
    (short : call.session.nonce.length ≤ maxNonceSize) (ended : EndsNonce a call) {r : Reply p}
    (answers : r.Answers a call) : r.Documented a call sensors ↔ r.Carried call sensors := by
  have printed : printedNonce a.calls call.session.nonce = call.session.nonce := by
    unfold printedNonce
    split
    · rfl
    · rename_i full
      rw [show a.calls.behindNonce = [] from ended.resolve_left full, List.append_nil]
  cases r with
  | state code =>
    refine iff_of_false ?_ id
    rintro ⟨elements, -, decodes⟩
    exact stateReply_not_decodes a.calls call code elements decodes
  | discovery =>
    simp only [Documented, elements, line, printed, Option.some.injEq, exists_eq_left']
    exact discoveryReply_iff named text short
  | record e =>
    simp only [Documented, elements, line, printed]
    exact p.line_iff short answers.2.1
  | last =>
    simp only [Documented, elements, line, printed, Option.some.injEq, exists_eq_left']
    exact p.lastLine_iff a.nonce short

end Reply

section Written

variable {p : RecordSource} {a : Arrival (FlexArray p.Element)} {call : Call} {k : State}

theorem State.freeSession_written (k : State) (s : Session) :
    (k.freeSession s).written = k.written := rfl

theorem processStateRequest_written (request : cmdTable call.command = .stateRequest)
    (fresh : call.session.replies = []) :
    ∃ replies : List (Reply p), (processStateRequest (a.environment p.message) call k).2.written =
        k.written ++ replies.map (fun r => (call.session.socket, r.bytes a call k.sensors)) ∧
      ∀ r ∈ replies, r.Answers a call := by
  unfold processStateRequest
  split
  · exact ⟨[], by simp, by simp⟩
  split
  · exact ⟨[], by simp, by simp⟩
  rename_i sensor _
  generalize processStateMessage sensor call.command = out
  obtain ⟨sensor', code⟩ := out
  dsimp only
  split
  · rw [State.freeSession_written]
    have linked : (call.session.link (stateReplyLine (a.environment p.message) call code)).replies =
        [stateReplyLine a.calls call code] := by
      simp only [Session.link, fresh, List.nil_append]
      rfl
    obtain ⟨first, start, written⟩ := writeSessionReplies_written (a.environment p.message)
      (call.session.link (stateReplyLine (a.environment p.message) call code))
      { k with sensors := k.sensors.set _ sensor' }
    rw [written]
    rw [linked] at start
    rcases List.prefix_cons_iff.mp start with rfl | ⟨_, rfl, behind⟩
    · exact ⟨[], by simp, by simp⟩
    · obtain rfl := List.prefix_nil.mp behind
      exact ⟨[.state code], rfl, by simpa [Reply.Answers] using request⟩
  · exact ⟨[], by simp [State.freeSession_written], by simp⟩

theorem processDiscoveryRequest_replies (request : cmdTable call.command = .discoveryRequest) :
    ∃ replies : List (Reply p), (processDiscoveryRequest a.calls a.discovery call k).2.written =
        k.written ++ replies.map (fun r => (call.message.socket, r.bytes a call k.sensors)) ∧
      ∀ r ∈ replies, r.Answers a call := by
  unfold processDiscoveryRequest
  dsimp only
  rw [State.freeSession_written]
  split
  · split
    · exact ⟨[], by simp, by simp⟩
    · rename_i ids built
      obtain ⟨buffer, room⟩ := buildDiscoveryBuffer_eq_ok built
      rw [buffer, buildDiscoveryBuffer_of_hasRoom room] at built
      cases built
      split
      · split
        · exact ⟨[], by simp, by simp⟩
        · exact ⟨[.discovery], rfl, by simpa [Reply.Answers] using request⟩
      · exact ⟨[], by simp, by simp⟩
  · exact ⟨[], by simp, by simp⟩

theorem recordsRequest_written (request : cmdTable call.command = .recordsRequest)
    (tasksTyped : p.TypedTasks) (typed : p.TypedArray a.data) (fresh : call.session.replies = []) :
    ∃ replies : List (Reply p), ((a.environment p.message).recordsRequest call k).2.written =
        k.written ++ replies.map (fun r => (call.session.socket, r.bytes a call k.sensors)) ∧
      ∀ r ∈ replies, r.Answers a call := by
  simp only [Arrival.environment]
  cases ran : a.recordsRequest p.message call k with
  | none => exact ⟨[], by simp, by simp⟩
  | some result =>
    obtain ⟨ccode, k', after⟩ := result
    obtain ⟨entries, ended, written, stored⟩ :=
      processRecordsRequest_written p a.calls tasksTyped typed fresh ran
    refine ⟨entries.map .record ++ if ended then [.last] else [], ?_, ?_⟩
    · dsimp only
      rw [written, RecordSource.lines]
      cases ended <;> simp [Reply.bytes, Reply.line]
    · intro r member
      rcases List.mem_append.mp member with record | last
      · obtain ⟨e, inside, rfl⟩ := List.mem_map.mp record
        exact ⟨request, stored e inside⟩
      · cases ended with
        | false => simp at last
        | true =>
          obtain rfl := List.mem_singleton.mp last
          exact request

theorem run_written (tasksTyped : p.TypedTasks) (typed : p.TypedArray a.data)
    (fresh : call.session.replies = []) (socket : call.message.socket = call.session.socket) :
    ∃ replies : List (Reply p), ((a.environment p.message).run call k).2.written =
        k.written ++ replies.map (fun r => (call.session.socket, r.bytes a call k.sensors)) ∧
      ∀ r ∈ replies, r.Answers a call := by
  unfold Environment.run
  cases request : cmdTable call.command with
  | jsmnCmd => exact ⟨[], by simp [processJsmnCmd], by simp⟩
  | discoveryRequest =>
    rw [← socket]
    exact processDiscoveryRequest_replies request
  | stateRequest => exact processStateRequest_written request fresh
  | recordsRequest => exact recordsRequest_written request tasksTyped typed fresh

theorem Message.text_nonzero (env : Environment) (jsmn : env.jsmnParse = Jsmn.parse maxTokens)
    (socket : Nat) (line : Bytes) (i : Nat) : 0 ∉ (env.message socket line).text i := by
  rw [Message.text, Message.token, List.getD_eq_getElem?_getD]
  cases found : (env.message socket line).tokens[i]? with
  | none => simp [Jsmn.Token.text, Jsmn.Token.zero, Bytes.slice]
  | some t =>
    have member := List.mem_of_getElem? found
    rw [Environment.message, jsmn] at member
    exact Jsmn.parse_text maxTokens line member

end Written

theorem parseJsonMessage_written (p : RecordSource) (a : Arrival (FlexArray p.Element)) (k : State)
    (call : Call)
    (called : (parseJsonMessage (a.environment p.message) a.socket a.line k).called = some call)
    (tasksTyped : p.TypedTasks) (typed : p.TypedArray a.data) :
    ∃ replies : List (Reply p),
      (parseJsonMessage (a.environment p.message) a.socket a.line k).state.written =
        k.written ++ replies.map (fun r => (a.socket, r.bytes a call k.sensors)) ∧
      ∀ r ∈ replies, r.Answers a call := by
  have handled := parseJsonMessage_handled (a.environment p.message) a.socket a.line k
  revert handled called
  generalize parseJsonMessage (a.environment p.message) a.socket a.line k = out
  intro called handled
  cases handled with
  | rejected ccode => simp at called
  | linked ccode nonce reply => simp at called
  | opened ccode nonce request => simp at called
  | called ccode nonce request c word =>
    obtain rfl := Option.some.inj called
    have sensors : (Message.entry ((a.environment p.message).message a.socket a.line) k).sensors =
        k.sensors := k.newSession_sensors _
    have before : (Message.entry ((a.environment p.message).message a.socket a.line) k).written =
        k.written := k.newSession_written _
    obtain ⟨replies, written, answers⟩ := @run_written p a
      (Message.call ((a.environment p.message).message a.socket a.line) k c)
      (Message.entry ((a.environment p.message).message a.socket a.line) k)
      tasksTyped typed rfl rfl
    rw [sensors, before] at written
    exact ⟨replies, written, answers⟩

theorem called_parts {env : Environment} {socket : Nat} {line : Bytes} {k : State} {call : Call}
    (called : (parseJsonMessage env socket line k).called = some call) :
    call.message.line = line ∧ call.session.nonce = (env.message socket line).text nonceIndex := by
  have handled := parseJsonMessage_handled env socket line k
  revert handled called
  generalize parseJsonMessage env socket line k = out
  intro called handled
  cases handled with
  | rejected ccode => cases called
  | linked ccode nonce reply => cases called
  | opened ccode nonce request => cases called
  | called ccode nonce request c word =>
    obtain rfl := Option.some.inj called
    exact ⟨rfl, rfl⟩

/-- Whatever an accepted request has written, a line of it is one object with the documented elements
exactly if it is no reply to a state request, is not cut off, and prints only text that needs no
escape. -/
theorem reply_documented_iff (p : RecordSource) (a : Arrival (FlexArray p.Element)) (k : State)
    (call : Call)
    (called : (parseJsonMessage (a.environment p.message) a.socket a.line k).called = some call)
    (tasksTyped : p.TypedTasks) (typed : p.TypedArray a.data) (named : Named k.sensors) :
    ∃ replies : List (Reply p),
      (parseJsonMessage (a.environment p.message) a.socket a.line k).state.written =
        k.written ++ replies.map (fun r => (a.socket, r.bytes a call k.sensors)) ∧
      ∀ r ∈ replies, r.Answers a call ∧
        (Reply.EndsNonce a call → (r.Documented a call k.sensors ↔ r.Carried call k.sensors)) := by
  obtain ⟨-, nonce⟩ := called_parts called
  have text : 0 ∉ call.session.nonce :=
    nonce ▸ Message.text_nonzero (a.environment p.message) rfl a.socket a.line nonceIndex
  have sized := (requestLine_of_called called).nonce
  rw [Message.hasNonce, decide_eq_true_eq, ← nonce] at sized
  obtain ⟨replies, written, answers⟩ := parseJsonMessage_written p a k call called tasksTyped typed
  exact ⟨replies, written, fun r member =>
    ⟨answers r member, fun ended => Reply.documented_iff named text sized.2 ended (answers r member)⟩⟩

def psProbe (comm : Bytes) : RecordSource := .ps (List.replicate 16 0) [⟨comm, 9, 1000⟩]

def psArrival (comm word : Bytes) : Arrival (FlexArray (psProbe comm).Element) :=
  let array : FlexArray PsData := ⟨4, fun _ => .free⟩
  { connectArrival 0 with line := psRequest word, turns := 3, data := array }

def psOutcome (comm word : Bytes) : Outcome :=
  parseJsonMessage ((psArrival comm word).environment (psProbe comm).message)
    (psArrival comm word).socket (psArrival comm word).line ⟨[], 0, [kernelPs], []⟩

def psCall (comm : Bytes) (word : Bytes) (c : Command) : Call :=
  Message.call (((psArrival comm word).environment (psProbe comm).message).message 0 (psRequest word))
    ⟨[], 0, [kernelPs], []⟩ c

theorem psStored_carried (e : RecordSource.Entry (psProbe (ascii "bash")))
    (stored : e.data = ((psProbe (ascii "bash")).stored
      (psArrival (ascii "bash") (ascii "records")).nonce
      (psArrival (ascii "bash") (ascii "records")).data).slot e.index) :
    (psProbe (ascii "bash")).Carried e := by
  have stores : (psProbe (ascii "bash")).stored (psArrival (ascii "bash") (ascii "records")).nonce
      (psArrival (ascii "bash") (ascii "records")).data =
      (⟨4, fun _ => .free⟩ : FlexArray PsData).put 0 ((⟨ascii "bash", 9, 1000⟩ : Task).psData 7) := rfl
  have bash : Sendable ((⟨ascii "bash", 9, 1000⟩ : Task).psData 7).comm.cString := by decide
  have free : Sendable PsData.free.comm.cString := by decide
  rw [stores] at stored
  rcases (⟨4, fun _ => .free⟩ : FlexArray PsData).slot_put 0 e.index
    ((⟨ascii "bash", 9, 1000⟩ : Task).psData 7) with put | kept
  · rw [put] at stored
    simp only [psProbe, RecordSource.Carried, stored]
    exact ⟨bash, by decide⟩
  · rw [kept] at stored
    simp only [psProbe, RecordSource.Carried, stored]
    exact ⟨free, by decide⟩

theorem psFree_typed : PsData.free.Typed := ⟨by decide, by decide, by decide⟩

theorem reply_documented_bash :
    ∃ replies : List (Reply (psProbe (ascii "bash"))),
      (psOutcome (ascii "bash") (ascii "records")).state.written =
        replies.map (fun r => ((psArrival (ascii "bash") (ascii "records")).socket,
          r.bytes (psArrival (ascii "bash") (ascii "records"))
            (psCall (ascii "bash") (ascii "records") .records) [kernelPs])) ∧
      replies.length = 2 ∧
      ∀ r ∈ replies, r.Documented (psArrival (ascii "bash") (ascii "records"))
        (psCall (ascii "bash") (ascii "records") .records) [kernelPs] := by
  have called : (psOutcome (ascii "bash") (ascii "records")).called =
      some (psCall (ascii "bash") (ascii "records") .records) := by decide +kernel
  have nonce : (psCall (ascii "bash") (ascii "records") .records).session.nonce = ascii "n1" := by
    decide +kernel
  have two : (psOutcome (ascii "bash") (ascii "records")).state.written.length = 2 := by
    decide +kernel
  have tasksTyped : (psProbe (ascii "bash")).TypedTasks := by simp [psProbe, RecordSource.TypedTasks]
  have typed : (psProbe (ascii "bash")).TypedArray (psArrival (ascii "bash") (ascii "records")).data :=
    ⟨by decide, fun _ => psFree_typed⟩
  have named : Named [kernelPs] := by
    simp only [Named, List.forall_mem_singleton]
    decide
  obtain ⟨replies, written, each⟩ := reply_documented_iff (psProbe (ascii "bash"))
    (psArrival (ascii "bash") (ascii "records")) ⟨[], 0, [kernelPs], []⟩
    (psCall (ascii "bash") (ascii "records") .records) called tasksTyped typed named
  rw [List.nil_append] at written
  refine ⟨replies, written, ?_, fun r member => ?_⟩
  · rw [← two]
    exact (List.length_map _).symm.trans (congrArg List.length written).symm
  obtain ⟨answers, documented⟩ := each r member
  have ended : Reply.EndsNonce (psArrival (ascii "bash") (ascii "records"))
      (psCall (ascii "bash") (ascii "records") .records) := .inr rfl
  have fits : NonceFits (psCall (ascii "bash") (ascii "records") .records).session.nonce := by
    rw [nonce]
    decide
  apply (documented ended).mpr
  cases r with
  | state code => cases answers
  | discovery => cases answers
  | record e =>
    exact ⟨fits, psStored_carried e answers.2.2⟩
  | last => exact fits

theorem reply_not_documented :
    (∃ line, (psOutcome (ascii "bash") (ascii "on")).state.written = [(0, line ++ [0])] ∧
      ∀ elements, ¬ Decodes line elements) ∧
    (∃ line last, (psOutcome (ascii "a\"b") (ascii "records")).state.written =
        [(0, line ++ [0]), (0, last ++ [0])] ∧
      ∀ elements, ¬ Decodes line elements) := by
  have unread {line : Bytes} (none : (parse false line).isNone) (elements : List Json) :
      ¬ Decodes line elements := by
    intro decodes
    obtain ⟨j, parsed, -⟩ := decodes.reads
    simp [parsed] at none
  refine ⟨⟨ascii "\x7b\"Virtue-protocol-version\": 0.1, reply: [n1, On]\x7d\n", ?_, unread ?_⟩,
    ⟨(psProbe (ascii "a\"b")).line (ascii "n1") 7 ⟨0, (⟨ascii "a\"b", 9, 1000⟩ : Task).psData 7⟩,
      (psProbe (ascii "a\"b")).lastLine (ascii "n1") 7, ?_, unread ?_⟩⟩
  · decide +kernel
  · decide +kernel
  · decide +kernel
  · decide +kernel

end VirtueSensing.Kernel
