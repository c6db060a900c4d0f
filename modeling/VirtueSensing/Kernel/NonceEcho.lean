import VirtueSensing.Jsmn.Order
import VirtueSensing.Kernel.Replies
import VirtueSensing.Shared.CLayout
import VirtueSensing.Shared.Integers

set_option autoImplicit false

/-!
# The nonce in the replies

All replies print the array of the nonce with `%s`, which stops at a zero byte. What stands behind an
array that is full depends on the layout of `struct jsmn_session`.
-/

namespace VirtueSensing.Kernel

open CLayout Dissect Integers

inductive SessionField where
  | next
  | prev
  | sessionEntry
  | sl
  | nonce
  | req
  | hReplies
  | cmd
  | sensorName
  | sensorUuid
  deriving DecidableEq, Repr

def listHead : Layout SessionField := struct [(.next, scalar 8), (.prev, scalar 8)]

def sensorUuidSize : Nat := 16

-- The size of `spinlock_t` is that of the kernel configuration.
def jsmnSession (spinlock : Layout SessionField) : Layout SessionField :=
  struct [(.sessionEntry, listHead), (.sl, spinlock), (.nonce, array (scalar 1) maxNonceSize),
    (.req, scalar 8), (.hReplies, listHead), (.cmd, array (scalar 1) maxCmdSize),
    (.sensorName, array (scalar 1) maxNameSize), (.sensorUuid, array (scalar 1) sensorUuidSize)]

-- The bytes between the array of the nonce and the field behind it.
def nonceGap (spinlock : Layout SessionField) : Nat :=
  let field (name : SessionField) :=
    (jsmnSession spinlock).fields.find? fun f => f.path = [name]
  match field .nonce, field .req with
  | some nonce, some req => req.offset - (nonce.offset + nonce.size)
  | _, _ => 0

/-- The memory of a session behind its nonce. The request is what `kzalloc` has returned. -/
structure SessionMemory where
  spinlock : Layout SessionField
  req : UInt64
  aligned : 8 ∣ req.toNat
  rest : Bytes

namespace SessionMemory

def behindArray (m : SessionMemory) : Bytes :=
  List.replicate (nonceGap m.spinlock) 0 ++ littleEndian 8 m.req.toNat ++ m.rest

def behindNonce (m : SessionMemory) : Bytes := m.behindArray.cString

/-- A zero byte ends the nonce. -/
def EndsNonce (m : SessionMemory) (nonce : Bytes) : Prop :=
  nonce.length < maxNonceSize ∨ 0 < nonceGap m.spinlock ∨ m.req.toNat % 256 = 0

end SessionMemory

theorem getLast?_bigEndian (width n : Nat) :
    (bigEndian (width + 1) n).getLast? = some (n % 256).toUInt8 := by
  induction width generalizing n with
  | zero =>
    have byte : n.toUInt8 = (n % 256).toUInt8 := by
      apply UInt8.toNat_inj.mp
      simp
    simp [bigEndian, byte]
  | succ width ih =>
    have low : n % 256 ^ (width + 1) % 256 = n % 256 :=
      Nat.mod_mod_of_dvd n (Dvd.intro_left _ (Nat.pow_succ 256 width).symm)
    rw [bigEndian, List.getLast?_cons, ih, low]
    rfl

theorem littleEndian_succ (width n : Nat) :
    ∃ more, littleEndian (width + 1) n = (n % 256).toUInt8 :: more := by
  apply List.head?_eq_some_iff.mp
  rw [littleEndian, List.head?_reverse, getLast?_bigEndian]

namespace SessionMemory

variable (m : SessionMemory)

theorem behindNonce_cases :
    ((0 < nonceGap m.spinlock ∨ m.req.toNat % 256 = 0) ∧ m.behindNonce = []) ∨
      (¬ (0 < nonceGap m.spinlock ∨ m.req.toNat % 256 = 0) ∧
        ∃ more, m.behindNonce = (m.req.toNat % 256).toUInt8 :: more) := by
  unfold behindNonce behindArray
  cases nonceGap m.spinlock with
  | succ gap => exact .inl ⟨.inl gap.succ_pos, by simp [List.replicate_succ, Bytes.cString]⟩
  | zero =>
    obtain ⟨more, low⟩ := littleEndian_succ 7 m.req.toNat
    have below : m.req.toNat % 256 < 256 := Nat.mod_lt _ (by decide)
    rw [List.replicate_zero, List.nil_append, low, List.cons_append]
    by_cases zero : m.req.toNat % 256 = 0
    · exact .inl ⟨.inr zero, by simp [zero, Bytes.cString]⟩
    · refine .inr ⟨by simp [zero], Bytes.cString (more ++ m.rest), ?_⟩
      have nonzero : (m.req.toNat % 256).toUInt8 ≠ 0 := by
        intro same
        apply zero
        have value := congrArg UInt8.toNat same
        simpa [Nat.mod_eq_of_lt below] using value
      simp [Bytes.cString, nonzero]

theorem behindNonce_eq_nil_iff :
    m.behindNonce = [] ↔ 0 < nonceGap m.spinlock ∨ m.req.toNat % 256 = 0 := by
  rcases m.behindNonce_cases with ⟨ends, none⟩ | ⟨runs, more, some⟩
  · exact iff_of_true none ends
  · exact iff_of_false (by simp [some]) runs

-- An address of an allocation is a multiple of eight, which no delimiter is.
theorem head?_behindNonce {d : UInt8} (delimiter : d.toNat % 8 ≠ 0) :
    m.behindNonce.head? ≠ some d := by
  rcases m.behindNonce_cases with ⟨-, none⟩ | ⟨-, more, some⟩
  · simp [none]
  · rw [some, List.head?_cons, Ne, Option.some.injEq]
    rintro rfl
    apply delimiter
    have aligned := m.aligned
    have below : m.req.toNat % 256 < 256 := Nat.mod_lt _ (by decide)
    simp [Nat.mod_eq_of_lt below]
    omega

end SessionMemory

/-- Behind `lead` stand the bytes of the nonce, and then what the format has next. -/
def Echoes (lead delimiter nonce line : Bytes) : Prop :=
  lead ++ nonce ++ delimiter <+: line

instance (lead delimiter nonce line : Bytes) : Decidable (Echoes lead delimiter nonce line) :=
  inferInstanceAs (Decidable (_ <+: _))

theorem echoes_iff {lead delimiter nonce behind tail : Bytes} {size : Nat} {d : UInt8}
    (starts : delimiter.head? = some d) (differs : behind.head? ≠ some d)
    (room : lead.length + nonce.length + delimiter.length < size) :
    Echoes lead delimiter nonce
        (scnprintf size (lead ++ ((nonce ++ behind) ++ (delimiter ++ tail)))) ↔
      behind = [] := by
  unfold Echoes scnprintf
  rw [List.prefix_take_iff]
  constructor
  · rintro ⟨inside, -⟩
    rw [List.append_assoc lead, List.append_assoc nonce, List.prefix_append_right_inj,
      List.prefix_append_right_inj] at inside
    cases behind with
    | nil => rfl
    | cons b rest =>
      cases delimiter with
      | nil => cases starts
      | cons c more =>
        have same : c = b := (List.cons_prefix_cons.mp inside).1
        rw [List.head?_cons] at starts differs
        exact absurd (same ▸ starts) differs
  · rintro rfl
    refine ⟨?_, by simp only [List.length_append]; omega⟩
    simp

namespace RecordSource

variable (p : RecordSource)

-- The two sensors give `scnprintf` different sizes.
def recordSize : RecordSource → Nat
  | ps _ _ => connectionMaxReply - 1
  | lsof _ _ _ => connectionMaxReply

theorem le_recordSize : connectionMaxReply - 1 ≤ p.recordSize := by
  cases p with
  | ps uuid tasks => exact Nat.le_refl _
  | lsof uuid tasks stray => exact Nat.sub_le _ _

theorem record_quotes (rr : RecordsRequest) (data : p.Element) :
    ∃ tail, p.record rr data = scnprintf p.recordSize
      (replyHeader ++ ascii " " ++ ascii "\"" ++ (rr.jsonNonce ++ (ascii "\"" ++ tail))) := by
  cases p with
  | ps uuid tasks =>
    show ∃ tail, psRecord (psSensor uuid) (ascii "kernel-ps") rr data = _
    apply Exists.intro
    simp only [psRecord, quoted, recordSize, List.append_assoc]
    rfl
  | lsof uuid tasks stray =>
    show ∃ tail, lsofRecord (lsofSensor uuid) (ascii "kernel-lsof") stray rr data = _
    apply Exists.intro
    simp only [lsofRecord, quoted, recordSize, List.append_assoc]
    rfl

theorem emptyRecord_quotes (rr : RecordsRequest) :
    ∃ tail, p.emptyRecord rr = scnprintf p.recordSize
      (replyHeader ++ ascii " " ++ ascii "\"" ++ (rr.jsonNonce ++ (ascii "\"" ++ tail))) := by
  cases p with
  | ps uuid tasks =>
    apply Exists.intro
    rw [emptyRecord, Kernel.emptyRecord]
    simp only [quoted, recordSize, List.append_assoc]
    rfl
  | lsof uuid tasks stray =>
    apply Exists.intro
    rw [emptyRecord, emptyLsofRecord]
    simp only [quoted, recordSize, List.append_assoc]
    rfl

end RecordSource

namespace Reply

variable {p : RecordSource}

def lead : Reply p → Bytes
  | state _ => ascii "\x7b" ++ protocolVersion ++ ascii ", reply: ["
  | discovery => replyHeader ++ ascii "\""
  | record _ | last => replyHeader ++ ascii " " ++ ascii "\""

def delimiter : Reply p → Bytes
  | state _ => ascii ", "
  | discovery | record _ | last => ascii "\""

def size (call : Call) : Reply p → Nat
  | state _ => call.message.line.length * 2 - 1
  | discovery => connectionMaxHeader - 1
  | record _ | last => p.recordSize

variable (a : Arrival (FlexArray p.Element)) (call : Call) (sensors : List Sensor)

def EchoesNonce (r : Reply p) : Prop :=
  Echoes r.lead r.delimiter call.session.nonce (r.line a call sensors)

variable {a call}

theorem line_prints (text : 0 ∉ printedNonce a.calls call.session.nonce) (r : Reply p) :
    ∃ tail, r.line a call sensors = scnprintf (r.size call)
      (r.lead ++ (printedNonce a.calls call.session.nonce ++ (r.delimiter ++ tail))) := by
  cases r with
  | state code =>
    apply Exists.intro
    simp only [line, stateReplyLine, size, lead, delimiter, List.append_assoc]
    rfl
  | discovery =>
    apply Exists.intro
    simp only [line, discoveryReply, quoted, Bytes.cString_eq_self _ text, size, lead, delimiter,
      List.append_assoc]
    rfl
  | record e => exact p.record_quotes _ e.data
  | last => exact p.emptyRecord_quotes _

theorem room {p : RecordSource} {call : Call} (short : call.session.nonce.length ≤ maxNonceSize)
    (line : 23 + call.session.nonce.length ≤ call.message.line.length) (r : Reply p) :
    r.lead.length + call.session.nonce.length + r.delimiter.length < r.size call := by
  have header : replyHeader.length = 43 := rfl
  simp only [maxNonceSize, uuidStringLen] at short
  cases r with
  | state code =>
    have lead : (state code : Reply p).lead.length = 41 := rfl
    have delimiter : (state code : Reply p).delimiter.length = 2 := rfl
    rw [lead, delimiter, size]
    omega
  | discovery =>
    have lead : (discovery : Reply p).lead.length = 44 := rfl
    have delimiter : (discovery : Reply p).delimiter.length = 1 := rfl
    rw [lead, delimiter, size, connectionMaxHeader]
    omega
  | record e =>
    have lead : (record e : Reply p).lead.length = 45 := rfl
    have delimiter : (record e : Reply p).delimiter.length = 1 := rfl
    have size := p.le_recordSize
    rw [connectionMaxReply] at size
    rw [lead, delimiter, Reply.size]
    omega
  | last =>
    have lead : (last : Reply p).lead.length = 45 := rfl
    have delimiter : (last : Reply p).delimiter.length = 1 := rfl
    have size := p.le_recordSize
    rw [connectionMaxReply] at size
    rw [lead, delimiter, Reply.size]
    omega

theorem delimiter_head (r : Reply p) : ∃ d, r.delimiter.head? = some d ∧ d.toNat % 8 ≠ 0 := by
  cases r with
  | state code => exact ⟨44, rfl, by decide⟩
  | discovery | record | last => exact ⟨34, rfl, by decide⟩

theorem echoesNonce_iff {m : SessionMemory} (memory : a.behindNonce = m.behindNonce)
    (text : 0 ∉ call.session.nonce) (short : call.session.nonce.length ≤ maxNonceSize)
    (line : 23 + call.session.nonce.length ≤ call.message.line.length) (r : Reply p) :
    r.EchoesNonce a call sensors ↔ m.EndsNonce call.session.nonce := by
  obtain ⟨d, starts, delimiter⟩ := r.delimiter_head
  have room := r.room short line
  unfold EchoesNonce SessionMemory.EndsNonce
  by_cases full : call.session.nonce.length < maxNonceSize
  · have printed : printedNonce a.calls call.session.nonce = call.session.nonce ++ [] := by
      rw [printedNonce, if_pos full, List.append_nil]
    have plain : 0 ∉ printedNonce a.calls call.session.nonce := by rwa [printed, List.append_nil]
    obtain ⟨tail, prints⟩ := r.line_prints sensors plain
    rw [prints, printed, echoes_iff starts (by simp) room]
    exact iff_of_true rfl (.inl full)
  · have printed : printedNonce a.calls call.session.nonce =
        call.session.nonce ++ m.behindNonce := by
      rw [printedNonce, if_neg full, ← memory]
      rfl
    have plain : 0 ∉ printedNonce a.calls call.session.nonce := by
      rw [printed, List.mem_append, not_or]
      exact ⟨text, m.behindArray.zero_not_mem_cString⟩
    obtain ⟨tail, prints⟩ := r.line_prints sensors plain
    rw [prints, printed, echoes_iff starts (m.head?_behindNonce delimiter) room,
      m.behindNonce_eq_nil_iff]
    simp [full]

end Reply

theorem RequestLine.length_nonce {env : Environment} {socket : Nat} {line : Bytes}
    (asked : RequestLine env socket line) (jsmn : env.jsmnParse = Jsmn.parse maxTokens) :
    23 + ((env.message socket line).text nonceIndex).length ≤ line.length := by
  have long := asked.command
  obtain ⟨t, first⟩ : ∃ t, (env.message socket line).tokens[verTagIndex]? = some t :=
    ⟨_, List.getElem?_eq_getElem (Nat.lt_trans (by decide) long)⟩
  obtain ⟨u, second⟩ : ∃ u, (env.message socket line).tokens[nonceIndex]? = some u :=
    ⟨_, List.getElem?_eq_getElem (Nat.lt_trans (by decide) long)⟩
  have version := asked.version
  rw [checkProtocolVersion, decide_eq_true_eq, Message.text_eq first] at version
  have tag : t.text line = ascii "Virtue-protocol-version" := version.1
  rw [Message.text_eq second]
  rw [Environment.message, jsmn] at first second
  have apart := Jsmn.texts_apart maxTokens line (show verTagIndex < nonceIndex by decide) first
    second (by simp [tag, ascii])
  rw [tag] at apart
  exact apart

/-- Every line that is written for a request has exactly the bytes of its nonce in their place if and
only if a zero byte ends them: the nonce leaves room in its array, or the layout of the session has a
gap behind the array, or the address behind it has a low byte that is zero. -/
theorem nonce_echoed_iff (p : RecordSource) (a : Arrival (FlexArray p.Element)) (k : State)
    (call : Call)
    (called : (parseJsonMessage (a.environment p.message) a.socket a.line k).called = some call)
    (tasksTyped : p.TypedTasks) (typed : p.TypedArray a.data) (m : SessionMemory)
    (memory : a.behindNonce = m.behindNonce) :
    ∃ replies : List (Reply p),
      (parseJsonMessage (a.environment p.message) a.socket a.line k).state.written =
        k.written ++ replies.map (fun r => (a.socket, r.bytes a call k.sensors)) ∧
      ∀ r ∈ replies, r.Answers a call ∧
        (r.EchoesNonce a call k.sensors ↔ m.EndsNonce call.session.nonce) := by
  have asked := requestLine_of_called called
  obtain ⟨line, nonce⟩ := called_parts called
  have text : 0 ∉ call.session.nonce :=
    nonce ▸ Message.text_nonzero (a.environment p.message) rfl a.socket a.line nonceIndex
  have sized := asked.nonce
  rw [Message.hasNonce, decide_eq_true_eq, ← nonce] at sized
  have room := asked.length_nonce rfl
  rw [← nonce, ← line] at room
  obtain ⟨replies, written, answers⟩ := parseJsonMessage_written p a k call called tasksTyped typed
  exact ⟨replies, written, fun r member =>
    ⟨answers r member, r.echoesNonce_iff k.sensors memory text sized.2 room⟩⟩

-- A lock of four bytes, and one that a kernel with checks for its locks has.
def plainLock : Layout SessionField := scalar 4
def checkedLock : Layout SessionField := array (scalar 8) 3

theorem nonce_echoed_bash :
    ∃ replies : List (Reply (psProbe (ascii "bash"))),
      (psOutcome (ascii "bash") (ascii "records")).state.written =
        replies.map (fun r => ((psArrival (ascii "bash") (ascii "records")).socket,
          r.bytes (psArrival (ascii "bash") (ascii "records"))
            (psCall (ascii "bash") (ascii "records") .records) [kernelPs])) ∧
      ∀ r ∈ replies, r.EchoesNonce (psArrival (ascii "bash") (ascii "records"))
        (psCall (ascii "bash") (ascii "records") .records) [kernelPs] := by
  have called : (psOutcome (ascii "bash") (ascii "records")).called =
      some (psCall (ascii "bash") (ascii "records") .records) := by decide +kernel
  have tasksTyped : (psProbe (ascii "bash")).TypedTasks := by simp [psProbe, RecordSource.TypedTasks]
  have typed : (psProbe (ascii "bash")).TypedArray (psArrival (ascii "bash") (ascii "records")).data :=
    ⟨by decide, fun _ => psFree_typed⟩
  obtain ⟨replies, written, each⟩ := nonce_echoed_iff (psProbe (ascii "bash"))
    (psArrival (ascii "bash") (ascii "records")) ⟨[], 0, [kernelPs], []⟩
    (psCall (ascii "bash") (ascii "records") .records) called tasksTyped typed
    ⟨plainLock, 0xffff888012345608, by decide, []⟩ (by decide)
  exact ⟨replies, written, fun r member => (each r member).2.mpr (.inr (.inl (by decide)))⟩

def longRequest : Bytes :=
  ascii "\x7bVirtue-protocol-version: 0.1, request: [" ++ List.replicate 40 97 ++
    ascii ", on, kernel-ps]\x7d\n"

def checkedSession : SessionMemory := ⟨checkedLock, 0xffff888012345608, by decide, []⟩

def longArrival : Arrival (FlexArray (psProbe (ascii "bash")).Element) :=
  { psArrival (ascii "bash") (ascii "on") with
    line := longRequest
    behindNonce := checkedSession.behindNonce }

def longOutcome : Outcome :=
  parseJsonMessage (longArrival.environment (psProbe (ascii "bash")).message) longArrival.socket
    longArrival.line ⟨[], 0, [kernelPs], []⟩

def longCall : Call :=
  Message.call ((longArrival.environment (psProbe (ascii "bash")).message).message 0 longRequest)
    ⟨[], 0, [kernelPs], []⟩ .on

theorem nonce_not_echoed :
    longOutcome.called = some longCall ∧
    ∃ r : Reply (psProbe (ascii "bash")),
      longOutcome.state.written = [(0, r.bytes longArrival longCall [kernelPs])] ∧
      ¬ r.EchoesNonce longArrival longCall [kernelPs] := by
  refine ⟨by decide +kernel, .state Command.on.code, by decide +kernel, ?_⟩
  unfold Reply.EchoesNonce
  decide +kernel

end VirtueSensing.Kernel
