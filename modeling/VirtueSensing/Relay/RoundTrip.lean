import VirtueSensing.Kernel.Replies
import VirtueSensing.Relay.SensorKernel

set_option autoImplicit false

/-!
# Records on their way to the relay

The lines of a records request, with the zero byte that follows each of them, read back by
`fetch_sensor_records`. The zero byte of a line comes in at the start of the next one.
-/

namespace VirtueSensing.Relay

open JsonText Kernel

theorem newline_eq : Kernel.newline = newline := rfl

theorem newline_not_mem {text : Bytes} (visible : ∀ b ∈ text, ¬ isControl b) : newline ∉ text :=
  fun member => visible newline member rfl

-- What is left of the line before: nothing, or its zero byte.
def Leftover (start : Bytes) : Prop := ∀ b ∈ start, b = 0

theorem parseJson_leftover {start line : Bytes} (leftover : Leftover start) (text : 0 ∉ line) :
    parseJson (start ++ line) = if Utf8.valid line then parse true line else none := by
  have small : ∀ b ∈ start, b < 0x80 := by
    intro b member
    rw [leftover b member]
    decide
  have dropped : start.filter (· ≠ 0) = [] := by
    simpa [List.filter_eq_nil_iff, Leftover] using leftover
  have kept : line.filter (· ≠ 0) = line := by
    rw [List.filter_eq_self]
    intro b member
    exact decide_eq_true fun zero => text (zero ▸ member)
  rw [parseJson, Utf8.valid_append small, List.filter_append, dropped, kept, List.nil_append]

theorem parseJson_eq_some {start line : Bytes} {j : Json} (leftover : Leftover start) (text : 0 ∉ line)
    (parsed : parseJson (start ++ line) = some j) : Utf8.valid line ∧ parse true line = some j := by
  rw [parseJson_leftover leftover text] at parsed
  split at parsed
  · rename_i valid
    exact ⟨valid, parsed⟩
  · cases parsed

theorem newline_leftover {start : Bytes} (leftover : Leftover start) : newline ∉ start := by
  intro member
  exact absurd (leftover newline member) (by decide)

section Lines

variable (f : Format) {start nonce content more : Bytes} (leftover : Leftover start)
  (plain : Plain nonce) (text : 0 ∉ content)

include plain text in
theorem zero_not_mem_line : 0 ∉ f.line nonce content := by
  have head : 0 ∉ render (f.head nonce) := fun member => f.visible_head plain 0 member rfl
  have behind : 0 ∉ render f.behind := fun member => f.visible_behind 0 member rfl
  rw [f.line_head]
  simp [head, text, behind, quote, Kernel.newline]

include leftover plain in
theorem split_whole (bare : newline ∉ content) :
    completeLines newline [] (start ++ (f.line nonce content ++ more)) =
      (start ++ f.line nonce content) :: completeLines newline [] more := by
  have line : newline ∉
      start ++ (render (f.head nonce) ++ quote :: (content ++ quote :: render f.behind)) := by
    simp only [List.mem_append, List.mem_cons, not_or]
    exact ⟨newline_leftover leftover, newline_not_mem (f.visible_head plain), by decide, bare,
      by decide, newline_not_mem f.visible_behind⟩
  have split := completeLines_cons line [] more
  simpa [f.line_head, newline_eq] using split

include leftover plain in
theorem split_cut {first rest : Bytes} (bare : newline ∉ first)
    (cut : content = first ++ newline :: rest) :
    completeLines newline [] (start ++ (f.line nonce content ++ more)) =
      (start ++ (render (f.head nonce) ++ quote :: (first ++ [newline]))) ::
        completeLines newline [] (rest ++ quote :: (render f.behind ++ newline :: more)) := by
  have line : newline ∉ start ++ (render (f.head nonce) ++ quote :: first) := by
    simp only [List.mem_append, List.mem_cons, not_or]
    exact ⟨newline_leftover leftover, newline_not_mem (f.visible_head plain), by decide, bare⟩
  have split := completeLines_cons line []
    (rest ++ quote :: (render f.behind ++ newline :: more))
  simpa [f.line_head, cut, newline_eq] using split

-- A content that is cut at a line end of its own cannot come back.
include leftover plain text in
theorem plain_of_collect {payload : Payload} {payloads : List Payload} {key : Bytes}
    (collected : collect (completeLines newline [] (start ++ (f.line nonce content ++ more))) =
      .ok (payload :: payloads))
    (found : payload.data.get key = some (.string content)) : Plain content := by
  by_cases bare : newline ∈ content
  · obtain ⟨first, rest, cut, before⟩ := List.eq_append_cons_of_mem bare
    rw [split_cut f leftover plain before cut] at collected
    obtain ⟨j, parsed, present⟩ := convertSensorReply_strings (collect_cons collected).1 found
    have textFirst : 0 ∉ render (f.head nonce) ++ quote :: (first ++ [newline]) := by
      have inside : 0 ∉ first := fun member => text (cut ▸ List.mem_append_left _ member)
      simp only [List.mem_append, List.mem_cons, List.not_mem_nil, not_or]
      exact ⟨fun member => f.visible_head plain 0 member rfl, by decide, inside, by decide, id⟩
    obtain ⟨-, parsed⟩ := parseJson_eq_some leftover textFirst parsed
    obtain ⟨rest', occurs⟩ := parse_occurs parsed present
    apply plain_of_occurs_cut (raw_render (f.readable_head plain) (f.raw_head nonce)) _ occurs
    rw [cut]
    simp
  · rw [split_whole f leftover plain bare] at collected
    obtain ⟨j, parsed, present⟩ := convertSensorReply_strings (collect_cons collected).1 found
    obtain ⟨-, parsed⟩ := parseJson_eq_some leftover (zero_not_mem_line f plain text) parsed
    have pieces : f.line nonce content =
        render (f.head nonce ++ .string content :: (f.behind ++ [.newline])) := by
      simp [Format.line, Format.pieces, Format.head]
    rw [pieces] at parsed
    exact plain_of_parse (f.readable_head plain) (f.raw_head nonce) f.follows_newline parsed present

include leftover plain text in
theorem collect_line {payload : Payload} {payloads : List Payload} {key : Bytes}
    (collected : collect (completeLines newline [] (start ++ (f.line nonce content ++ more))) =
      .ok (payload :: payloads))
    (found : payload.data.get key = some (.string content)) :
    Sendable content ∧
      convertSensorReply (some (replyValue (f.elements nonce content))) = .ok (some payload) ∧
      collect (completeLines newline [] more) = .ok payloads := by
  have plainContent := plain_of_collect f leftover plain text collected found
  have bare : newline ∉ content := fun member => (plainContent newline member).2.2 rfl
  rw [split_whole f leftover plain bare] at collected
  obtain ⟨converted, later⟩ := collect_cons collected
  obtain ⟨j, parsed, -⟩ := convertSensorReply_strings converted found
  obtain ⟨valid, same⟩ := parseJson_eq_some leftover (zero_not_mem_line f plain text) parsed
  rw [f.parse_line true (Body.of_plain plain) plainContent] at same
  refine ⟨⟨plainContent, ((f.valid_line nonce content).mp valid).2⟩, ?_, later⟩
  rw [same, ← parsed]
  exact converted

include leftover plain in
theorem parseJson_line (valid : Utf8.valid nonce) (sendable : Sendable content) :
    parseJson (start ++ f.line nonce content) = some (replyValue (f.elements nonce content)) := by
  have validLine := (f.valid_line nonce content).mpr ⟨valid, sendable.utf8⟩
  have text : 0 ∉ content := fun member => (sendable.plain 0 member).2.2 rfl
  rw [parseJson_leftover leftover (zero_not_mem_line f plain text), if_pos validLine]
  exact f.parse_line true (Body.of_plain plain) sendable.plain

theorem newline_not_mem_plain (sendable : Sendable content) : newline ∉ content :=
  fun member => (sendable.plain newline member).2.2 rfl

end Lines

section Records

variable (p : RecordSource)

def tag : RecordSource → Bytes
  | .ps _ _ => ascii "kernel-ps"
  | .lsof _ _ _ => ascii "kernel-lsof"

-- The values of a record; a file whose path was not found has no path of its own.
def fields : (p : RecordSource) → RecordSource.Entry p → Option (List (Bytes × Json))
  | .ps _ _, e =>
    let data : PsData := e.data
    some [(ascii "comm", .string data.comm.cString), (ascii "pid", .scalar (.int data.pidNr)),
      (ascii "uid", .scalar (.int data.userId.toNat))]
  | .lsof _ _ _, e =>
    let data : LsofData := e.data
    data.dpath.map fun path =>
      [(ascii "uid", .scalar (.int data.userId.toNat)), (ascii "pid", .scalar (.int data.pidNr.toInt)),
        (ascii "flags", .scalar (.int data.flags.toNat)),
        (ascii "mode", .scalar (.int data.mode.toNat)),
        (ascii "count", .scalar (.int data.count.toInt)),
        (ascii "path", .string path.bytes.cString)]

/-- The payload is from the sensor of the record and has its values. -/
def Carries (e : RecordSource.Entry p) (payload : Payload) : Prop :=
  payload.sensor = .string (tag p) ∧
    ∃ values, fields p e = some values ∧ ∀ m ∈ values, payload.data.get m.1 = some m.2

def psPayload (comm : Bytes) (pid uid : Int) : Payload :=
  ⟨.string (ascii "kernel-ps"), .object [(ascii "comm", .string comm),
    (ascii "pid", .scalar (.int pid)), (ascii "uid", .scalar (.int uid))]⟩

theorem convert_ps (uuid nonce comm : Bytes) (index : Nat) (pid uid : Int) (runs : UInt64) :
    convertSensorReply (some (replyValue ((psFormat uuid index pid uid runs).elements nonce comm))) =
      .ok (some (psPayload comm pid uid)) := rfl

theorem psPayload_uid (comm : Bytes) (pid uid : Int) :
    (psPayload comm pid uid).data.get (ascii "uid") = some (.scalar (.int uid)) := rfl

def lsofPayload (uid pid flags mode count : Int) (path : Bytes) : Payload :=
  ⟨.string (ascii "kernel-lsof"), .object [(ascii "uid", .scalar (.int uid)),
    (ascii "pid", .scalar (.int pid)), (ascii "flags", .scalar (.int flags)),
    (ascii "mode", .scalar (.int mode)), (ascii "count", .scalar (.int count)),
    (ascii "path", .string path)]⟩

theorem convert_lsof (uuid nonce path : Bytes) (uid pid flags mode count : Int) :
    convertSensorReply (some (replyValue
      ((lsofFormat uuid uid pid flags mode count).elements nonce path))) =
      .ok (some (lsofPayload uid pid flags mode count path)) := rfl

theorem lsofPayload_uid (uid pid flags mode count : Int) (path : Bytes) :
    (lsofPayload uid pid flags mode count path).data.get (ascii "uid") =
      some (.scalar (.int uid)) := rfl

theorem convert_last (uuid nonce name : Bytes) :
    convertSensorReply (some (replyValue ((emptyFormat uuid).elements nonce name))) = .ok none := rfl

/-- What `uuid4().hex` gives. -/
structure HexNonce (nonce : Bytes) : Prop where
  length : nonce.length = 32
  digits : ∀ b ∈ nonce, (48 ≤ b ∧ b ≤ 57) ∨ (97 ≤ b ∧ b ≤ 102)

theorem HexNonce.sendable {nonce : Bytes} (hex : HexNonce nonce) : Sendable nonce := by
  apply sendable_of_printable
  intro b member
  have digit := hex.digits b member
  simp only [isPrintable, quote, JsonText.backslash, isControl, decide_eq_true_eq]
  grind

theorem HexNonce.short {nonce : Bytes} (hex : HexNonce nonce) : nonce.length ≤ maxNonceSize := by
  rw [hex.length]
  decide

section Entries

variable {p} {start nonce more : Bytes} {runs : UInt64} (leftover : Leftover start)
  (hex : HexNonce nonce) {e : RecordSource.Entry p} (typed : e.Typed) {payloads : List Payload}

include leftover hex typed in
theorem carried_of_collected {payload : Payload}
    (collected : collect (completeLines newline [] (start ++ (p.line nonce runs e ++ more))) =
      .ok (payload :: payloads))
    (carries : Carries p e payload) :
    p.Carried e ∧ collect (completeLines newline [] more) = .ok payloads := by
  obtain ⟨-, values, own, found⟩ := carries
  cases p with
  | ps uuid tasks =>
    obtain ⟨index, data⟩ := e
    cases own
    simp only [List.forall_mem_cons] at found
    obtain ⟨comm, -, uid, -⟩ := found
    rw [RecordSource.ps_line hex.short typed.index typed.data] at collected
    obtain ⟨sendable, converted, later⟩ := collect_line _ leftover hex.sendable.plain
      data.comm.zero_not_mem_cString collected comm
    rw [convert_ps] at converted
    cases converted
    rw [psPayload_uid] at uid
    have same := Scalar.int.inj (Json.scalar.inj (Option.some.inj uid))
    exact ⟨⟨sendable, (signed_eq_iff data.userId).mp same.symm⟩, later⟩
  | lsof uuid tasks stray =>
    obtain ⟨index, data⟩ := e
    obtain ⟨path, located, rfl⟩ := Option.map_eq_some_iff.mp own
    simp only [List.forall_mem_cons] at found
    obtain ⟨uid, -, -, -, -, printed, -⟩ := found
    rw [RecordSource.lsof_line hex.short located] at collected
    obtain ⟨sendable, converted, later⟩ := collect_line _ leftover hex.sendable.plain
      path.bytes.zero_not_mem_cString collected printed
    rw [convert_lsof] at converted
    cases converted
    rw [lsofPayload_uid] at uid
    have same := Scalar.int.inj (Json.scalar.inj (Option.some.inj uid))
    exact ⟨⟨path, located, sendable, (signed_eq_iff data.userId).mp same.symm⟩, later⟩

include leftover hex typed in
theorem collected_of_carried (carried : p.Carried e)
    (later : collect (completeLines newline [] more) = .ok payloads) :
    ∃ payload, Carries p e payload ∧
      collect (completeLines newline [] (start ++ (p.line nonce runs e ++ more))) =
        .ok (payload :: payloads) := by
  cases p with
  | ps uuid tasks =>
    obtain ⟨index, data⟩ := e
    obtain ⟨sendable, small⟩ := carried
    have signed := (signed_eq_iff data.userId).mpr small
    refine ⟨psPayload data.comm.cString data.pidNr data.userId.toNat, ⟨rfl, _, rfl, ?_⟩, ?_⟩
    · simp only [List.forall_mem_cons]
      exact ⟨rfl, rfl, rfl, by simp⟩
    rw [RecordSource.ps_line hex.short typed.index typed.data,
      split_whole _ leftover hex.sendable.plain (newline_not_mem_plain sendable)]
    apply collect_payload _ later
    rw [parseJson_line _ leftover hex.sendable.plain hex.sendable.utf8 sendable, convert_ps, signed]
  | lsof uuid tasks stray =>
    obtain ⟨index, data⟩ := e
    obtain ⟨path, located, sendable, small⟩ := carried
    have signed := (signed_eq_iff data.userId).mpr small
    refine ⟨lsofPayload data.userId.toNat data.pidNr.toInt data.flags.toNat data.mode.toNat
      data.count.toInt path.bytes.cString,
      ⟨rfl, _, Option.map_eq_some_iff.mpr ⟨path, located, rfl⟩, ?_⟩, ?_⟩
    · simp only [List.forall_mem_cons]
      exact ⟨rfl, rfl, rfl, rfl, rfl, rfl, by simp⟩
    rw [RecordSource.lsof_line hex.short located,
      split_whole _ leftover hex.sendable.plain (newline_not_mem_plain sendable)]
    apply collect_payload _ later
    rw [parseJson_line _ leftover hex.sendable.plain hex.sendable.utf8 sendable, convert_lsof, signed]

end Entries

/-- The bytes that `write_session_replies` sends for these lines. -/
def streamOf (lines : List Bytes) : Bytes := (lines.map (· ++ [0])).flatten

/-- One payload for each record, in their order and with their values. -/
def Delivered (entries : List (RecordSource.Entry p)) (stream : Bytes) : Prop :=
  ∃ payloads, fetchSensorRecords stream = .ok payloads ∧ List.Forall₂ (Carries p) entries payloads

variable {p} {nonce : Bytes} (hex : HexNonce nonce) (runs : UInt64)
  {entries : List (RecordSource.Entry p)} (ended : Bool)

include hex in
theorem collect_last {start : Bytes} (leftover : Leftover start) :
    collect (completeLines newline [] (start ++ streamOf (p.lines nonce runs [] ended))) = .ok [] := by
  cases ended with
  | false =>
    have bare := newline_leftover leftover
    simp [streamOf, RecordSource.lines, completeLines_bare bare, collect]
  | true =>
    have stream : streamOf (p.lines nonce runs [] true) =
        (emptyFormat p.uuid).line nonce p.name ++ [0] := by
      rw [← p.last_line runs hex.short]
      simp [streamOf, RecordSource.lines]
    rw [stream, split_whole _ leftover hex.sendable.plain (newline_not_mem_plain p.sendable_name)]
    apply collect_ends
    rw [parseJson_line _ leftover hex.sendable.plain hex.sendable.utf8 p.sendable_name, convert_last]

include hex in
theorem collected_iff {start : Bytes} (leftover : Leftover start) (typed : ∀ e ∈ entries, e.Typed) :
    (∃ payloads, collect (completeLines newline []
        (start ++ streamOf (p.lines nonce runs entries ended))) = .ok payloads ∧
        List.Forall₂ (Carries p) entries payloads) ↔ ∀ e ∈ entries, p.Carried e := by
  induction entries generalizing start with
  | nil => exact ⟨fun _ => by simp, fun _ => ⟨[], collect_last hex runs ended leftover, .nil⟩⟩
  | cons e entries ih =>
    obtain ⟨here, others⟩ := List.forall_mem_cons.mp typed
    have next := @ih [0] (by simp [Leftover]) others
    have stream : streamOf (p.lines nonce runs (e :: entries) ended) =
        p.line nonce runs e ++ ([0] ++ streamOf (p.lines nonce runs entries ended)) := by
      simp [streamOf, RecordSource.lines]
    rw [List.forall_mem_cons, ← next, stream]
    constructor
    · rintro ⟨payloads, collected, delivered⟩
      cases delivered with
      | @cons _ payload _ payloads carries rest =>
        obtain ⟨carried, later⟩ := carried_of_collected leftover hex here collected carries
        exact ⟨carried, payloads, later, rest⟩
    · rintro ⟨carried, payloads, later, rest⟩
      obtain ⟨payload, carries, collected⟩ := collected_of_carried leftover hex here carried later
      exact ⟨payload :: payloads, collected, .cons carries rest⟩

include hex in
theorem delivered_iff (typed : ∀ e ∈ entries, e.Typed) :
    Delivered p entries (streamOf (p.lines nonce runs entries ended)) ↔ ∀ e ∈ entries, p.Carried e :=
  @collected_iff p nonce hex runs entries ended [] (by simp [Leftover]) typed

end Records

/-- The bytes that a records request of the relay is answered with come back as one payload for each
record exactly if every record prints text that needs no escape. -/
theorem records_delivered_iff (p : RecordSource) (env : Environment) (alloc : Allocation) (fuel : Nat)
    (runs : UInt64) (call : Call) (a after : FlexArray p.Element) (k k' : State) (ccode : Int)
    (hex : HexNonce call.session.nonce) (fresh : call.session.replies = [])
    (tasksTyped : p.TypedTasks) (typed : p.TypedArray a)
    (ran : processRecordsRequest env p.message alloc fuel runs call a k = some (ccode, k', after)) :
    ∃ (entries : List (RecordSource.Entry p)) (ended : Bool),
      k'.written = k.written ++ (p.lines call.session.nonce runs entries ended).map
        (fun line => (call.session.socket, line ++ [0])) ∧
      (∀ e ∈ entries, e.Typed ∧ e.data = (p.stored runs a).slot e.index) ∧
      (Delivered p entries (streamOf (p.lines call.session.nonce runs entries ended)) ↔
        ∀ e ∈ entries, p.Carried e) := by
  have printed : printedNonce env call.session.nonce = call.session.nonce := by
    rw [printedNonce, hex.length]
    rfl
  obtain ⟨entries, ended, written, stored⟩ :=
    processRecordsRequest_written p env tasksTyped typed fresh ran
  rw [printed] at written
  refine ⟨entries, ended, written, stored, ?_⟩
  exact delivered_iff hex runs ended fun e member => (stored e member).1

def zeroNonce : Bytes := List.replicate 32 48

theorem hexNonce_zeroNonce : HexNonce zeroNonce := ⟨rfl, by decide⟩

def relayCall : Call :=
  ⟨⟨0, [], []⟩, ⟨0, 0, zeroNonce, ascii "records", ascii "kernel-ps", []⟩, .records⟩

-- One task of this name, and an array with room for four.
def relayRun (comm : Bytes) : Option (Int × State × FlexArray (psProbe comm).Element) :=
  processRecordsRequest localEnvironment (psProbe comm).message ⟨fun _ => true, fun _ => true⟩ 3 7
    relayCall (psArrival comm (ascii "records")).data ⟨[], 0, [kernelPs], []⟩

theorem records_delivered_bash :
    ∃ run, relayRun (ascii "bash") = some run ∧
      ∃ entries : List (RecordSource.Entry (psProbe (ascii "bash"))), entries ≠ [] ∧
        Delivered (psProbe (ascii "bash")) entries (run.2.1.written.map Prod.snd).flatten := by
  have lines : (relayRun (ascii "bash")).map (fun run => run.2.1.written.length) = some 2 := by
    decide +kernel
  obtain ⟨⟨ccode, k, after⟩, ran, two⟩ := Option.map_eq_some_iff.mp lines
  have tasksTyped : (psProbe (ascii "bash")).TypedTasks := by simp [psProbe, RecordSource.TypedTasks]
  have typed : (psProbe (ascii "bash")).TypedArray (psArrival (ascii "bash") (ascii "records")).data :=
    ⟨by decide, fun _ => psFree_typed⟩
  obtain ⟨entries, ended, written, stored, delivered⟩ := records_delivered_iff
    (psProbe (ascii "bash")) localEnvironment ⟨fun _ => true, fun _ => true⟩ 3 7 relayCall _ after
    ⟨[], 0, [kernelPs], []⟩ k ccode hexNonce_zeroNonce rfl tasksTyped typed ran
  refine ⟨_, ran, entries, ?_, ?_⟩
  · rintro rfl
    rw [written] at two
    cases ended <;> simp [RecordSource.lines] at two
  · have stream : (k.written.map Prod.snd).flatten =
        streamOf ((psProbe (ascii "bash")).lines zeroNonce 7 entries ended) := by
      rw [written, List.nil_append, List.map_map]
      rfl
    rw [stream]
    exact delivered.mpr fun e member => psStored_carried e (stored e member).2

theorem quoted_name_raises :
    ∃ run, relayRun (ascii "a\"b") = some run ∧
      fetchSensorRecords (run.2.1.written.map Prod.snd).flatten = .error .attributeError := by
  have raises : (relayRun (ascii "a\"b")).any fun run =>
      match fetchSensorRecords (run.2.1.written.map Prod.snd).flatten with
      | .error e => e = .attributeError
      | .ok _ => false := by
    decide +kernel
  obtain ⟨run, ran, raised⟩ := (Option.any_eq_true _ _).mp raises
  refine ⟨run, ran, ?_⟩
  split at raised
  · rename_i e thrown
    rw [thrown, of_decide_eq_true raised]
  · cases raised

end VirtueSensing.Relay
