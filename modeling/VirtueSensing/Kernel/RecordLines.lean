import VirtueSensing.Kernel.Discovery
import VirtueSensing.Kernel.LsofSensor

set_option autoImplicit false

/-!
# The lines of a records request

What any run of `process_records_request` writes, however its allocations and writes turn out: the
lines of some records of the array, and at most one empty record behind them.
-/

namespace VirtueSensing.Kernel

def psSensor (uuid : Bytes) : PsSensor := ⟨ascii "Kernel PS Sensor", printUuid uuid⟩
def lsofSensor (uuid : Bytes) : LsofSensor := ⟨ascii "Kernel LSOF Sensor", printUuid uuid⟩

-- What the fields of `struct kernel_ps_data` have room for.
structure PsData.Typed (data : PsData) : Prop where
  comm : data.comm.length ≤ taskCommLen + 1
  pid : -2 ^ 31 ≤ data.pidNr ∧ data.pidNr < 2 ^ 31

theorem Task.psData_typed {t : Task} (pid : -2 ^ 31 ≤ t.pid ∧ t.pid < 2 ^ 31) (nonce : UInt64) :
    (t.psData nonce).Typed := by
  refine ⟨?_, pid⟩
  simp only [Task.psData, List.length_append, List.length_take, List.length_singleton]
  omega

/-- The sensors that answer a records request, with what their probes will find. -/
inductive RecordSource where
  | ps (uuid : Bytes) (tasks : List Task)
  | lsof (uuid : Bytes) (tasks : List FilesTask) (stray : Bytes)

namespace RecordSource

def Element : RecordSource → Type
  | ps _ _ => PsData
  | lsof _ _ _ => LsofData

def message : (p : RecordSource) → SensorMessage (FlexArray p.Element)
  | ps uuid tasks => psMessage (psSensor uuid) tasks
  | lsof uuid tasks stray => lsofMessage (lsofSensor uuid) stray tasks

def record : (p : RecordSource) → RecordsRequest → p.Element → Bytes
  | ps uuid _, rr, data => psRecord (psSensor uuid) (ascii "kernel-ps") rr data
  | lsof uuid _ stray, rr, data => lsofRecord (lsofSensor uuid) (ascii "kernel-lsof") stray rr data

theorem record_ps (uuid : Bytes) (tasks : List Task) (rr : RecordsRequest) (data : PsData) :
    (ps uuid tasks).record rr data = psRecord (psSensor uuid) (ascii "kernel-ps") rr data := rfl

theorem record_lsof (uuid : Bytes) (tasks : List FilesTask) (stray : Bytes) (rr : RecordsRequest)
    (data : LsofData) :
    (lsof uuid tasks stray).record rr data =
      lsofRecord (lsofSensor uuid) (ascii "kernel-lsof") stray rr data := rfl

def emptyRecord : RecordSource → RecordsRequest → Bytes
  | ps uuid _, rr => Kernel.emptyRecord (psSensor uuid) rr
  | lsof uuid _ _, rr => emptyLsofRecord (lsofSensor uuid) rr

def TypedElement : (p : RecordSource) → p.Element → Prop
  | ps _ _, data => PsData.Typed data
  | lsof _ _ _, _ => True

-- `pid_t` and the index of a request are ints.
def TypedTasks : RecordSource → Prop
  | ps _ tasks => ∀ t ∈ tasks, -2 ^ 31 ≤ t.pid ∧ t.pid < 2 ^ 31
  | lsof _ _ _ => True

structure TypedArray (p : RecordSource) (a : FlexArray p.Element) : Prop where
  size : a.size ≤ 2 ^ 31
  slots : ∀ i, p.TypedElement (a.slot i)

theorem TypedArray.put {p : RecordSource} {a : FlexArray p.Element} (typed : p.TypedArray a) (i : Nat)
    {x : p.Element} (element : p.TypedElement x) : p.TypedArray (a.put i x) := by
  refine ⟨by simpa using typed.size, fun j => ?_⟩
  rcases a.slot_put i j x with stored | kept
  · rw [stored]
    exact element
  · rw [kept]
    exact typed.slots j

end RecordSource

theorem kernelPsUnlocked_typed {uuid : Bytes} {all tasks : List Task} (nonce : UInt64) (index : Nat)
    {a : FlexArray PsData} (pids : ∀ t ∈ tasks, -2 ^ 31 ≤ t.pid ∧ t.pid < 2 ^ 31)
    (typed : (RecordSource.ps uuid all).TypedArray a) :
    (RecordSource.ps uuid all).TypedArray (kernelPsUnlocked nonce tasks index a).2 := by
  induction tasks generalizing index a with
  | nil => exact typed
  | cons t rest ih =>
    rw [kernelPsUnlocked]
    split
    · have stored : (RecordSource.ps uuid all).TypedArray (a.put index (t.psData nonce)) :=
        typed.put index (Task.psData_typed (pids t List.mem_cons_self) nonce)
      exact ih _ (fun u member => pids u (List.mem_cons_of_mem _ member)) stored
    · exact typed

theorem size_lsofGetFilesStruct (nonce : UInt64) (t : FilesTask) (files : List File) (start : Nat)
    (a : FlexArray LsofData) : (lsofGetFilesStruct nonce t files start a).2.2.size = a.size := by
  induction files generalizing start a with
  | nil => rfl
  | cons f rest ih =>
    rw [lsofGetFilesStruct]
    split
    · rw [ih, FlexArray.size_put]
    · rfl

theorem size_lsofForEachPidUnlocked (nonce : UInt64) (tasks : List FilesTask) (index : Nat)
    (a : FlexArray LsofData) : (lsofForEachPidUnlocked nonce tasks index a).2.size = a.size := by
  induction tasks generalizing index a with
  | nil => rfl
  | cons t rest ih =>
    rw [lsofForEachPidUnlocked, ih, size_lsofGetFilesStruct]

namespace RecordSource

def probed : (p : RecordSource) → RecordsRequest → FlexArray p.Element → Int × FlexArray p.Element
  | ps _ tasks, rr, a => if rr.runProbe then kernelPsUnlocked rr.nonce tasks 0 a else (0, a)
  | lsof _ tasks _, rr, a => if rr.runProbe then kernelLsofUnlocked rr.nonce tasks a else (0, a)

theorem probed_later (p : RecordSource) {rr : RecordsRequest} (a : FlexArray p.Element)
    (later : rr.runProbe = false) : p.probed rr a = (0, a) := by
  cases p with
  | ps uuid tasks => simp [probed, later]
  | lsof uuid tasks stray => simp [probed, later]

theorem probed_typed (p : RecordSource) (rr : RecordsRequest) {a : FlexArray p.Element}
    (tasksTyped : p.TypedTasks) (typed : p.TypedArray a) : p.TypedArray (p.probed rr a).2 := by
  cases later : rr.runProbe with
  | false =>
    rw [p.probed_later a later]
    exact typed
  | true =>
    cases p with
    | ps uuid tasks =>
      simp only [probed, later]
      exact @kernelPsUnlocked_typed uuid tasks tasks rr.nonce 0 a tasksTyped typed
    | lsof uuid tasks stray =>
      simp only [probed, later]
      refine ⟨?_, fun _ => trivial⟩
      exact Nat.le_trans (Nat.le_of_eq (size_lsofForEachPidUnlocked rr.nonce tasks 0 a)) typed.size

/-- What a message prints: the empty record, or the record of the array that was asked for. -/
def Prints (p : RecordSource) (rr : RecordsRequest) (b : FlexArray p.Element)
    (rp : RecordsReply) : Prop :=
  (rp.index = enoent ∧ rp.records = p.emptyRecord rr) ∨
    (rr.index < 2 ^ 31 ∧ rp.index ≠ enoent ∧ rp.records = p.record rr (b.slot rr.index))

theorem prints_record {p : RecordSource} {rr : RecordsRequest} {b : FlexArray p.Element}
    {rp : RecordsReply} (index : rr.index < 2 ^ 31) (more : rp.index ≠ enoent)
    (same : rp.records = p.record rr (b.slot rr.index)) : p.Prints rr b rp :=
  .inr ⟨index, more, same⟩

structure Answers (p : RecordSource) (rr : RecordsRequest) (b : FlexArray p.Element)
    (out : Int × RecordsReply × FlexArray p.Element) : Prop where
  typed : p.TypedArray out.2.2
  kept : ∀ j, rr.index < j → out.2.2.slot j = b.slot j
  prints : out.1 < 0 ∨ (out.1 = 0 ∧ p.Prints rr b out.2.1)

theorem answers_of_prints {p : RecordSource} {rr : RecordsRequest} {rp read : RecordsReply}
    {ccode : Int} {b : FlexArray p.Element} {free : p.Element} (typed : p.TypedArray b)
    (freed : p.TypedElement free) (prints : p.Prints rr b read) :
    p.Answers rr b
      (if ccode < 0 then (ccode, rp, b)
      else (0, read, if rr.clear then b.put rr.index free else b)) := by
  split
  · rename_i failed
    exact ⟨typed, fun _ _ => rfl, .inl failed⟩
  · refine ⟨?_, fun j behind => ?_, .inr ⟨rfl, prints⟩⟩
    · dsimp only
      split
      · exact typed.put rr.index freed
      · exact typed
    · dsimp only
      split
      · exact b.slot_put_other (Nat.ne_of_gt behind) free
      · rfl

theorem ps_prints (uuid : Bytes) (tasks : List Task) (rr : RecordsRequest) {b : FlexArray PsData}
    (typed : (ps uuid tasks).TypedArray b) :
    (ps uuid tasks).Prints rr b (readRecord (psSensor uuid) (ascii "kernel-ps") rr b) := by
  unfold readRecord FlexArray.get
  by_cases inside : rr.index < b.size
  · rw [if_pos inside]
    dsimp only
    split
    · exact .inl ⟨rfl, rfl⟩
    · apply prints_record (Nat.lt_of_lt_of_le inside typed.size) (by simp [enoent])
      rw [record_ps]
  · rw [if_neg inside]
    exact .inl ⟨rfl, rfl⟩

theorem lsof_prints (uuid : Bytes) (tasks : List FilesTask) (stray : Bytes) (rr : RecordsRequest)
    {b : FlexArray LsofData} (typed : (lsof uuid tasks stray).TypedArray b) :
    (lsof uuid tasks stray).Prints rr b
      (readLsofRecord (lsofSensor uuid) (ascii "kernel-lsof") stray rr b) := by
  unfold readLsofRecord FlexArray.get
  by_cases inside : rr.index < b.size
  · rw [if_pos inside]
    dsimp only
    split
    · exact .inl ⟨rfl, rfl⟩
    · apply prints_record (Nat.lt_of_lt_of_le inside typed.size) (by simp [enoent])
      rw [record_lsof]
  · rw [if_neg inside]
    exact .inl ⟨rfl, rfl⟩

theorem answers (p : RecordSource) (rr : RecordsRequest) (rp : RecordsReply) {a : FlexArray p.Element}
    (tasksTyped : p.TypedTasks) (typed : p.TypedArray a) :
    p.Answers rr (p.probed rr a).2 (p.message rr rp a) := by
  have after := p.probed_typed rr tasksTyped typed
  cases p with
  | ps uuid tasks =>
    have freed : (ps uuid tasks).TypedElement PsData.free := ⟨by decide, by decide, by decide⟩
    exact answers_of_prints after freed (ps_prints uuid tasks rr after)
  | lsof uuid tasks stray =>
    have freed : (lsof uuid tasks stray).TypedElement LsofData.free := trivial
    exact answers_of_prints after freed (lsof_prints uuid tasks stray rr after)

/-- An element that was sent, with the index under which it was asked for. -/
structure Entry (p : RecordSource) where
  index : Nat
  data : p.Element

structure Entry.Typed {p : RecordSource} (e : Entry p) : Prop where
  index : e.index < 2 ^ 31
  data : p.TypedElement e.data

/-- The entry is an element of the array, at its index or behind it. -/
structure Entry.From {p : RecordSource} (e : Entry p) (index : Nat) (b : FlexArray p.Element) :
    Prop where
  behind : index ≤ e.index
  stored : e.data = b.slot e.index

def request (jsonNonce : Bytes) (nonce : UInt64) (index : Nat) : RecordsRequest :=
  ⟨jsonNonce, false, true, nonce, index, -1⟩

def line (p : RecordSource) (jsonNonce : Bytes) (nonce : UInt64) (e : Entry p) : Bytes :=
  p.record (request jsonNonce nonce e.index) e.data

-- The empty record does not show its index.
def lastLine (p : RecordSource) (jsonNonce : Bytes) (nonce : UInt64) : Bytes :=
  p.emptyRecord (request jsonNonce nonce 0)

def lines (p : RecordSource) (jsonNonce : Bytes) (nonce : UInt64) (entries : List (Entry p))
    (ended : Bool) : List Bytes :=
  entries.map (p.line jsonNonce nonce) ++ if ended then [p.lastLine jsonNonce nonce] else []

theorem record_request (p : RecordSource) (rr : RecordsRequest) (data : p.Element) :
    p.record rr data = p.line rr.jsonNonce rr.nonce ⟨rr.index, data⟩ := by
  cases p with
  | ps uuid tasks =>
    show psRecord (psSensor uuid) (ascii "kernel-ps") rr data =
      psRecord (psSensor uuid) (ascii "kernel-ps") (request rr.jsonNonce rr.nonce rr.index) data
    simp only [psRecord, request]
  | lsof uuid tasks stray =>
    show lsofRecord (lsofSensor uuid) (ascii "kernel-lsof") stray rr data =
      lsofRecord (lsofSensor uuid) (ascii "kernel-lsof") stray
        (request rr.jsonNonce rr.nonce rr.index) data
    simp only [lsofRecord, request]

theorem emptyRecord_request (p : RecordSource) (rr : RecordsRequest) :
    p.emptyRecord rr = p.lastLine rr.jsonNonce rr.nonce := by
  cases p with
  | ps uuid tasks => rfl
  | lsof uuid tasks stray => rfl

theorem recordsLoop_lines (p : RecordSource) (tasksTyped : p.TypedTasks) {alloc : Allocation}
    {fuel : Nat} {rr : RecordsRequest} {s done : RecordsState (FlexArray p.Element)}
    (typed : p.TypedArray s.data) (ran : recordsLoop p.message alloc fuel rr s = some done) :
    ∃ entries ended, done.linked = s.linked ++ p.lines rr.jsonNonce rr.nonce entries ended ∧
      ∀ e ∈ entries, e.Typed ∧ e.From rr.index (p.probed rr s.data).2 := by
  induction fuel generalizing rr s with
  | zero => simp [recordsLoop] at ran
  | succ fuel ih =>
    rw [recordsLoop] at ran
    split at ran
    · have answers := p.answers rr s.reply tasksTyped typed
      have after := p.probed_typed rr tasksTyped typed
      revert ran answers
      generalize p.message rr s.reply s.data = out
      obtain ⟨ccode, reply, data⟩ := out
      intro ran answers
      dsimp only at ran
      have prints : ccode < 0 ∨ (ccode = 0 ∧ p.Prints rr (p.probed rr s.data).2 reply) :=
        answers.prints
      rcases prints with failed | ⟨rfl, prints⟩
      · rw [if_neg (by omega), if_neg (by omega)] at ran
        cases ran
        exact ⟨[], false, by simp [lines], by simp⟩
      rcases prints with ⟨none, records⟩ | ⟨index, more, records⟩
      · rw [if_neg (by simp [none])] at ran
        cases ran
        refine ⟨[], alloc.reply rr.index, ?_, by simp⟩
        cases alloc.reply rr.index <;> simp [lines, records, emptyRecord_request]
      · rw [if_pos ⟨rfl, more⟩] at ran
        obtain ⟨entries, ended, linked, entriesFrom⟩ := ih answers.typed ran
        rw [p.probed_later _ rfl] at entriesFrom
        have entriesKept : ∀ e ∈ entries, e.Typed ∧ e.From rr.index (p.probed rr s.data).2 := by
          intro e member
          obtain ⟨entryTyped, behind, stored⟩ := entriesFrom e member
          refine ⟨entryTyped, Nat.le_of_succ_le behind, ?_⟩
          rw [stored]
          exact answers.kept e.index behind
        cases allocated : alloc.reply rr.index with
        | false => exact ⟨entries, ended, by simpa [allocated] using linked, entriesKept⟩
        | true =>
          refine ⟨⟨rr.index, (p.probed rr s.data).2.slot rr.index⟩ :: entries, ended, ?_, ?_⟩
          · rw [linked]
            simp [lines, records, record_request, allocated]
          · refine List.forall_mem_cons.mpr ⟨⟨⟨index, after.slots rr.index⟩, ?_⟩, entriesKept⟩
            exact ⟨Nat.le_refl _, rfl⟩
    · cases ran
      exact ⟨[], false, by simp [lines], by simp⟩

theorem lines_prefix (p : RecordSource) {jsonNonce : Bytes} {nonce : UInt64} {entries : List (Entry p)}
    {ended : Bool} {first : List Bytes} (start : first <+: p.lines jsonNonce nonce entries ended) :
    ∃ entries' ended', first = p.lines jsonNonce nonce entries' ended' ∧ entries' <+: entries := by
  obtain ⟨n, rfl⟩ : ∃ n, first = (p.lines jsonNonce nonce entries ended).take n :=
    ⟨_, List.prefix_iff_eq_take.mp start⟩
  refine ⟨entries.take n, ended && decide (entries.length < n), ?_, List.take_prefix n entries⟩
  rw [lines, List.take_append, lines, List.map_take, List.length_map]
  congr 1
  cases ended with
  | false => simp
  | true =>
    by_cases whole : entries.length < n
    · simp only [Bool.true_and, whole, decide_true, if_true]
      exact List.take_of_length_le (by simp; omega)
    · simp [whole, Nat.sub_eq_zero_of_le (Nat.not_lt.mp whole)]

end RecordSource

theorem writeSessionReplies_written (env : Environment) (s : Session) (k : State) :
    ∃ first, first <+: s.replies ∧ (writeSessionReplies env s k).2.written =
      k.written ++ first.map fun line => (s.socket, line ++ [0]) := by
  have go (lines : List Bytes) (k : State) :
      ∃ first, first <+: lines ∧ (writeSessionReplies.go env s lines k).2.written =
        k.written ++ first.map fun line => (s.socket, line ++ [0]) := by
    induction lines generalizing k with
    | nil => exact ⟨[], List.prefix_refl _, by simp [writeSessionReplies.go]⟩
    | cons line rest ih =>
      unfold writeSessionReplies.go
      dsimp only
      split
      · exact ⟨[], List.nil_prefix, by simp⟩
      · obtain ⟨first, start, written⟩ := ih { k with written := k.written ++ [(s.socket, line ++ [0])] }
        exact ⟨line :: first, List.cons_prefix_cons.mpr ⟨rfl, start⟩, by simp [written]⟩
  unfold writeSessionReplies
  split
  · exact ⟨[], List.nil_prefix, by simp⟩
  · exact go s.replies k

def RecordSource.stored (p : RecordSource) (nonce : UInt64) (a : FlexArray p.Element) :
    FlexArray p.Element :=
  (p.probed ⟨[], true, true, nonce, 0, -1⟩ a).2

theorem RecordSource.probed_start (p : RecordSource) (jsonNonce : Bytes) (nonce : UInt64)
    (a : FlexArray p.Element) :
    (p.probed ⟨jsonNonce, true, true, nonce, 0, -1⟩ a).2 = p.stored nonce a := by
  cases p with
  | ps uuid tasks => rfl
  | lsof uuid tasks stray => rfl

/-- Whatever fails on the way, the bytes on the socket are the lines of some records of the array, in
the order in which they were read, and at most one empty record behind them. -/
theorem processRecordsRequest_written (p : RecordSource) (env : Environment) {alloc : Allocation}
    {fuel : Nat} {nonce : UInt64} {call : Call} {a after : FlexArray p.Element} {k k' : State}
    {ccode : Int} (tasksTyped : p.TypedTasks) (typed : p.TypedArray a)
    (fresh : call.session.replies = [])
    (ran : processRecordsRequest env p.message alloc fuel nonce call a k = some (ccode, k', after)) :
    ∃ entries ended, k'.written = k.written ++
        (p.lines (printedNonce env call.session.nonce) nonce entries ended).map
          (fun line => (call.session.socket, line ++ [0])) ∧
      ∀ e ∈ entries, e.Typed ∧ e.data = (p.stored nonce a).slot e.index := by
  unfold processRecordsRequest at ran
  split at ran
  · cases ran
    exact ⟨[], false, by simp [RecordSource.lines], by simp⟩
  · simp only [Option.bind_eq_bind, Option.bind_eq_some_iff] at ran
    obtain ⟨done, loop, rest⟩ := ran
    cases rest
    unfold linkRecords at loop
    obtain ⟨entries, ended, linked, entriesFrom⟩ := p.recordsLoop_lines tasksTyped typed loop
    rw [p.probed_start] at entriesFrom
    obtain ⟨first, start, written⟩ := writeSessionReplies_written env
      { call.session with replies := call.session.replies ++ done.linked } k
    simp only [fresh, linked, List.nil_append] at start
    obtain ⟨entries', ended', rfl, fewer⟩ := p.lines_prefix start
    refine ⟨entries', ended', written, fun e member => ?_⟩
    obtain ⟨entryTyped, -, stored⟩ := entriesFrom e (fewer.subset member)
    exact ⟨entryTyped, stored⟩

end VirtueSensing.Kernel
