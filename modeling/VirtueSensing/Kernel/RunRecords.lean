import VirtueSensing.Kernel.RecordLines

set_option autoImplicit false

/-!
# The records of one run

A records request runs the probe of its sensor and then reads the elements that the run has stored, up
to the first one that is clear or from another run.
-/

namespace VirtueSensing.Kernel

namespace RecordSource

-- What a run of the probe stores, in this order.
def run : (p : RecordSource) → UInt64 → List p.Element
  | ps _ tasks, nonce => tasks.map (Task.psData nonce)
  | lsof _ tasks _, nonce => tasks.flatMap fun t => t.files.map fun f => f.lsofData t nonce

def nonceOf : (p : RecordSource) → p.Element → UInt64
  | ps _ _, data => PsData.nonce data
  | lsof _ _ _, data => LsofData.nonce data

def clearOf : (p : RecordSource) → p.Element → UInt8
  | ps _ _, data => PsData.clear data
  | lsof _ _ _, data => LsofData.clear data

def free : (p : RecordSource) → p.Element
  | ps _ _ => PsData.free
  | lsof _ _ _ => LsofData.free

-- The element is no record of the run that the request asks for.
def ends (p : RecordSource) (data : p.Element) (rr : RecordsRequest) : Bool :=
  p.clearOf data = flexArrayFree ∨ (rr.nonce ≠ 0 ∧ p.nonceOf data ≠ rr.nonce)

-- What both sensors print, once the probe has run.
def read (p : RecordSource) (rr : RecordsRequest) (a : FlexArray p.Element) : RecordsReply :=
  if rr.index < a.size ∧ ¬ p.ends (a.slot rr.index) rr then
    ⟨rr.index, rr.range, p.record rr (a.slot rr.index)⟩
  else ⟨enoent, rr.range, p.emptyRecord rr⟩

theorem read_ps (uuid : Bytes) (tasks : List Task) (rr : RecordsRequest) (b : FlexArray PsData) :
    readRecord (psSensor uuid) (ascii "kernel-ps") rr b = (ps uuid tasks).read rr b := by
  unfold readRecord read FlexArray.get
  by_cases inside : rr.index < b.size
  · rw [if_pos inside]
    by_cases last : (b.slot rr.index).ends rr
    · rw [if_neg fun both => both.2 last]
      exact if_pos last
    · rw [if_pos ⟨inside, last⟩]
      exact if_neg last
  · rw [if_neg inside, if_neg fun both => inside both.1]
    rfl

theorem read_lsof (uuid : Bytes) (tasks : List FilesTask) (stray : Bytes) (rr : RecordsRequest)
    (b : FlexArray LsofData) :
    readLsofRecord (lsofSensor uuid) (ascii "kernel-lsof") stray rr b =
      (lsof uuid tasks stray).read rr b := by
  unfold readLsofRecord read FlexArray.get
  by_cases inside : rr.index < b.size
  · rw [if_pos inside]
    by_cases last : (b.slot rr.index).ends rr
    · rw [if_neg fun both => both.2 last]
      exact if_pos last
    · rw [if_pos ⟨inside, last⟩]
      exact if_neg last
  · rw [if_neg inside, if_neg fun both => inside both.1]
    rfl

theorem message_eq (p : RecordSource) (rr : RecordsRequest) (rp : RecordsReply)
    (a : FlexArray p.Element) :
    p.message rr rp a =
      if (p.probed rr a).1 < 0 then ((p.probed rr a).1, rp, (p.probed rr a).2)
      else (0, p.read rr (p.probed rr a).2,
        if rr.clear then (p.probed rr a).2.put rr.index p.free else (p.probed rr a).2) := by
  cases p with
  | ps uuid tasks =>
    show kernelPsGetRecord (psSensor uuid) (ascii "kernel-ps") tasks rr rp a = _
    unfold kernelPsGetRecord
    simp only [read_ps uuid tasks]
    rfl
  | lsof uuid tasks stray =>
    show kernelLsofGetRecord (lsofSensor uuid) (ascii "kernel-lsof") stray tasks rr rp a = _
    unfold kernelLsofGetRecord
    simp only [read_lsof uuid tasks stray]
    rfl

theorem clearOf_free (p : RecordSource) : p.clearOf p.free = flexArrayFree := by
  cases p <;> rfl

theorem nonceOf_run (p : RecordSource) {nonce : UInt64} {x : p.Element} (member : x ∈ p.run nonce) :
    p.nonceOf x = nonce ∧ p.clearOf x = 0 := by
  cases p with
  | ps uuid tasks =>
    obtain ⟨t, -, rfl⟩ := List.mem_map.mp member
    exact ⟨rfl, rfl⟩
  | lsof uuid tasks stray =>
    obtain ⟨t, -, inFiles⟩ := List.mem_flatMap.mp member
    obtain ⟨f, -, rfl⟩ := List.mem_map.mp inFiles
    exact ⟨rfl, rfl⟩

theorem run_typed (p : RecordSource) (tasksTyped : p.TypedTasks) {nonce : UInt64} {x : p.Element}
    (member : x ∈ p.run nonce) : p.TypedElement x := by
  cases p with
  | ps uuid tasks =>
    obtain ⟨t, inTasks, rfl⟩ := List.mem_map.mp member
    exact Task.psData_typed (tasksTyped t inTasks) nonce
  | lsof uuid tasks stray => trivial

end RecordSource

section Storing

variable (nonce : UInt64)

theorem kernelPsUnlocked_eq {tasks : List Task} {index : Nat} {a : FlexArray PsData}
    (room : index + tasks.length ≤ a.size) :
    kernelPsUnlocked nonce tasks index a =
      (((index + tasks.length : Nat) : Int), a.putAll index (tasks.map (Task.psData nonce))) := by
  induction tasks generalizing index a with
  | nil => rfl
  | cons t rest ih =>
    rw [List.length_cons] at room
    have next := @ih (index + 1) (a.put index (t.psData nonce)) (by rw [FlexArray.size_put]; omega)
    rw [kernelPsUnlocked, if_pos (by omega), next, List.length_cons, Nat.add_right_comm, Nat.add_assoc]
    rfl

theorem lsofGetFilesStruct_eq (t : FilesTask) {files : List File} {start : Nat}
    {a : FlexArray LsofData} (room : start + files.length ≤ a.size) :
    lsofGetFilesStruct nonce t files start a =
      (0, start + files.length, a.putAll start (files.map fun f => f.lsofData t nonce)) := by
  induction files generalizing start a with
  | nil => rfl
  | cons f rest ih =>
    rw [List.length_cons] at room
    have next := @ih (start + 1) (a.put start (f.lsofData t nonce)) (by rw [FlexArray.size_put]; omega)
    rw [lsofGetFilesStruct, if_pos (by omega), next, List.length_cons, Nat.add_right_comm, Nat.add_assoc]
    rfl

theorem lsofForEachPidUnlocked_eq {tasks : List FilesTask} {index : Nat} {a : FlexArray LsofData}
    (room : index + (tasks.flatMap FilesTask.files).length ≤ a.size) :
    lsofForEachPidUnlocked nonce tasks index a =
      (((index + (tasks.flatMap FilesTask.files).length : Nat) : Int),
        a.putAll index (tasks.flatMap fun t => t.files.map fun f => f.lsofData t nonce)) := by
  induction tasks generalizing index a with
  | nil => rfl
  | cons t rest ih =>
    rw [List.flatMap_cons, List.length_append] at room
    have here := @lsofGetFilesStruct_eq nonce t t.files index a (by omega)
    have later := @ih (index + t.files.length)
      (a.putAll index (t.files.map fun f => f.lsofData t nonce)) (by rw [FlexArray.size_putAll]; omega)
    rw [lsofForEachPidUnlocked, here]
    dsimp only
    rw [later, List.flatMap_cons, List.flatMap_cons, List.length_append, FlexArray.putAll_append,
      List.length_map, Nat.add_assoc]

end Storing

namespace RecordSource

section Probing

variable (p : RecordSource) {rr : RecordsRequest} {a : FlexArray p.Element}

theorem probed_eq (runs : rr.runProbe) (room : (p.run rr.nonce).length ≤ a.size) :
    0 ≤ (p.probed rr a).1 ∧ (p.probed rr a).2 = a.putAll 0 (p.run rr.nonce) := by
  cases p with
  | ps uuid tasks =>
    have length : tasks.length ≤ a.size :=
      Nat.le_trans (Nat.le_of_eq (List.length_map (Task.psData rr.nonce)).symm) room
    have stores := @kernelPsUnlocked_eq rr.nonce tasks 0 a (by omega)
    have same : (ps uuid tasks).probed rr a = kernelPsUnlocked rr.nonce tasks 0 a := if_pos runs
    rw [same, stores]
    exact ⟨Int.natCast_nonneg _, rfl⟩
  | lsof uuid tasks stray =>
    have counted : (tasks.flatMap FilesTask.files).length =
        (tasks.flatMap fun t => t.files.map fun f => f.lsofData t rr.nonce).length := by
      simp [List.length_flatMap]
    have length : (tasks.flatMap FilesTask.files).length ≤ a.size :=
      Nat.le_trans (Nat.le_of_eq counted) room
    have stores := @lsofForEachPidUnlocked_eq rr.nonce tasks 0 a (by omega)
    have same : (lsof uuid tasks stray).probed rr a = lsofForEachPidUnlocked rr.nonce tasks 0 a :=
      if_pos runs
    rw [same, stores]
    exact ⟨Int.natCast_nonneg _, rfl⟩

end Probing

section Loop

variable {p : RecordSource} {alloc : Allocation} {rr : RecordsRequest} {elements : List p.Element}

/-- From the index on, the array has these elements and then one that ends them. -/
structure HoldsRun (p : RecordSource) (rr : RecordsRequest) (elements : List p.Element)
    (b : FlexArray p.Element) : Prop where
  room : rr.index + elements.length < b.size
  stored : ∀ i x, elements[i]? = some x → b.slot (rr.index + i) = x
  live : ∀ x ∈ elements, ¬ p.ends x rr
  last : p.ends (b.slot (rr.index + elements.length)) rr

-- The elements with the indices under which they are asked for.
def entriesFrom (p : RecordSource) (index : Nat) (elements : List p.Element) : List (Entry p) :=
  elements.mapIdx fun i x => ⟨index + i, x⟩

theorem entriesFrom_cons (index : Nat) (x : p.Element) :
    p.entriesFrom index (x :: elements) = ⟨index, x⟩ :: p.entriesFrom (index + 1) elements := by
  simp [entriesFrom, List.mapIdx_cons, Nat.add_assoc, Nat.add_comm 1]

theorem HoldsRun.next {x : p.Element} {b : FlexArray p.Element} (holds : p.HoldsRun rr (x :: elements) b) :
    p.HoldsRun (rr.later 1) elements (b.put rr.index p.free) := by
  have room := holds.room
  rw [List.length_cons] at room
  refine ⟨?_, fun i y here => ?_, fun y member => holds.live y (List.mem_cons_of_mem x member), ?_⟩
  · rw [FlexArray.size_put]
    simp only [RecordsRequest.later]
    omega
  · have stored := holds.stored (i + 1) y here
    rw [FlexArray.slot_put_other _ (by simp only [RecordsRequest.later]; omega), ← stored]
    simp only [RecordsRequest.later, Nat.add_assoc, Nat.add_comm 1]
  · have last := holds.last
    rw [FlexArray.slot_put_other _ (by simp only [RecordsRequest.later]; omega)]
    rw [List.length_cons, Nat.add_comm elements.length, ← Nat.add_assoc] at last
    exact last

theorem HoldsRun.message {b : FlexArray p.Element} (holds : p.HoldsRun rr elements b)
    (rp : RecordsReply) (later : rr.runProbe = false) (clears : rr.clear) :
    p.message rr rp b = (0, match elements with
      | [] => ⟨enoent, rr.range, p.emptyRecord rr⟩
      | x :: _ => ⟨rr.index, rr.range, p.record rr x⟩, b.put rr.index p.free) := by
  have made : p.message rr rp b = (0, p.read rr b, b.put rr.index p.free) := by
    rw [message_eq, p.probed_later b later, if_neg (Int.lt_irrefl 0), if_pos clears]
  rw [made]
  have room := holds.room
  cases elements with
  | nil =>
    have last := holds.last
    rw [read, if_neg fun both => both.2 last]
  | cons x elements =>
    have here := holds.stored 0 x rfl
    rw [List.length_cons] at room
    rw [Nat.add_zero] at here
    rw [read, if_pos ⟨by omega, here ▸ holds.live x List.mem_cons_self⟩, here]

theorem recordsLoop_run {s : RecordsState (FlexArray p.Element)} {fuel : Nat}
    (allocated : ∀ i, alloc.records i ∧ alloc.reply i) (later : rr.runProbe = false) (clears : rr.clear)
    (holds : p.HoldsRun rr elements s.data) (enough : elements.length < fuel) :
    ∃ done, recordsLoop p.message alloc fuel rr s = some done ∧ done.ccode = 0 ∧
      done.linked = s.linked ++ p.lines rr.jsonNonce rr.nonce (p.entriesFrom rr.index elements) true := by
  induction elements generalizing rr s fuel with
  | nil =>
    obtain ⟨fuel, rfl⟩ := Nat.exists_eq_succ_of_ne_zero (Nat.ne_of_gt enough)
    have answered := holds.message s.reply later clears
    refine ⟨_, recordsLoop_ends (allocated _) answered rfl, rfl, ?_⟩
    simp [lines, entriesFrom, emptyRecord_request]
  | cons x elements ih =>
    obtain ⟨fuel, rfl⟩ := Nat.exists_eq_succ_of_ne_zero (Nat.ne_of_gt (Nat.zero_lt_of_lt enough))
    have answered := holds.message s.reply later clears
    rw [recordsLoop_continues (allocated _) answered (by simp [enoent])]
    obtain ⟨done, ran, ccode, linked⟩ :=
      @ih (rr.later 1) ⟨0, _, s.data.put rr.index p.free, _⟩ fuel rfl
      clears holds.next (Nat.lt_of_succ_lt_succ enough)
    refine ⟨done, ran, ccode, ?_⟩
    rw [linked, entriesFrom_cons, lines, lines, List.map_cons, ← record_request, List.append_assoc]
    rfl

end Loop

/-- Every element is clear, or from one of the runs. -/
def Marked (p : RecordSource) (drawn : List UInt64) (a : FlexArray p.Element) : Prop :=
  ∀ i, p.clearOf (a.slot i) = flexArrayFree ∨ p.nonceOf (a.slot i) ∈ drawn

section Marks

variable {p : RecordSource} {drawn : List UInt64} {a : FlexArray p.Element}

theorem Marked.put (marked : p.Marked drawn a) (i : Nat) {x : p.Element}
    (mark : p.clearOf x = flexArrayFree ∨ p.nonceOf x ∈ drawn) : p.Marked drawn (a.put i x) := by
  intro j
  rcases a.slot_put i j x with stored | kept
  · rw [stored]
    exact mark
  · rw [kept]
    exact marked j

theorem Marked.mono (marked : p.Marked drawn a) {more : List UInt64} (subset : drawn ⊆ more) :
    p.Marked more a :=
  fun i => (marked i).imp id fun member => subset member

theorem marked_kernelPs {uuid : Bytes} {all tasks : List Task} {nonce : UInt64} {index : Nat}
    {a : FlexArray PsData} (member : nonce ∈ drawn) (marked : (ps uuid all).Marked drawn a) :
    (ps uuid all).Marked drawn (kernelPsUnlocked nonce tasks index a).2 ∧
      (kernelPsUnlocked nonce tasks index a).2.size = a.size := by
  induction tasks generalizing index a with
  | nil => exact ⟨marked, rfl⟩
  | cons t rest ih =>
    rw [kernelPsUnlocked]
    split
    · obtain ⟨after, size⟩ := ih (marked.put index (x := t.psData nonce) (.inr member))
      exact ⟨after, size.trans (a.size_put index _)⟩
    · exact ⟨marked, rfl⟩

theorem marked_lsofFiles {uuid stray : Bytes} {all : List FilesTask} {nonce : UInt64} {t : FilesTask}
    {files : List File} {start : Nat} {a : FlexArray LsofData} (member : nonce ∈ drawn)
    (marked : (lsof uuid all stray).Marked drawn a) :
    (lsof uuid all stray).Marked drawn (lsofGetFilesStruct nonce t files start a).2.2 := by
  induction files generalizing start a with
  | nil => exact marked
  | cons f rest ih =>
    rw [lsofGetFilesStruct]
    split
    · exact ih (marked.put start (x := f.lsofData t nonce) (.inr member))
    · exact marked

theorem marked_kernelLsof {uuid stray : Bytes} {all tasks : List FilesTask} {nonce : UInt64}
    {index : Nat} {a : FlexArray LsofData} (member : nonce ∈ drawn)
    (marked : (lsof uuid all stray).Marked drawn a) :
    (lsof uuid all stray).Marked drawn (lsofForEachPidUnlocked nonce tasks index a).2 := by
  induction tasks generalizing index a with
  | nil => exact marked
  | cons t rest ih =>
    rw [lsofForEachPidUnlocked]
    exact ih (marked_lsofFiles member marked)

theorem Marked.probed {rr : RecordsRequest} (marked : p.Marked drawn a) (member : rr.nonce ∈ drawn) :
    p.Marked drawn (p.probed rr a).2 ∧ (p.probed rr a).2.size = a.size := by
  cases later : rr.runProbe with
  | false =>
    rw [p.probed_later a later]
    exact ⟨marked, rfl⟩
  | true =>
    cases p with
    | ps uuid tasks =>
      have same : (ps uuid tasks).probed rr a = kernelPsUnlocked rr.nonce tasks 0 a := if_pos later
      rw [same]
      exact marked_kernelPs member marked
    | lsof uuid tasks stray =>
      have same : (lsof uuid tasks stray).probed rr a = lsofForEachPidUnlocked rr.nonce tasks 0 a :=
        if_pos later
      rw [same]
      exact ⟨marked_kernelLsof member marked, size_lsofForEachPidUnlocked rr.nonce tasks 0 a⟩

theorem Marked.recordsLoop {alloc : Allocation} {fuel : Nat} {rr : RecordsRequest}
    {s done : RecordsState (FlexArray p.Element)} (marked : p.Marked drawn s.data)
    (member : rr.nonce ∈ drawn) (ran : recordsLoop p.message alloc fuel rr s = some done) :
    p.Marked drawn done.data ∧ done.data.size = s.data.size := by
  induction fuel generalizing rr s with
  | zero => simp [Kernel.recordsLoop] at ran
  | succ fuel ih =>
    rw [Kernel.recordsLoop] at ran
    split at ran
    · have answered : p.Marked drawn (p.message rr s.reply s.data).2.2 ∧
          (p.message rr s.reply s.data).2.2.size = s.data.size := by
        obtain ⟨after, size⟩ := marked.probed member
        rw [message_eq]
        split
        · exact ⟨after, size⟩
        · dsimp only
          split
          · exact ⟨after.put rr.index (.inl p.clearOf_free), (FlexArray.size_put _ _ _).trans size⟩
          · exact ⟨after, size⟩
      revert ran answered
      generalize p.message rr s.reply s.data = out
      obtain ⟨ccode, reply, data⟩ := out
      intro ran answered
      dsimp only at ran answered
      split at ran
      · obtain ⟨after, size⟩ := @ih { rr with runProbe := false, index := rr.index + 1 }
          ⟨ccode, reply, data, _⟩ answered.1 member ran
        exact ⟨after, size.trans answered.2⟩
      · cases ran
        exact answered
    · cases ran
      exact ⟨marked, rfl⟩

end Marks

end RecordSource

section Requests

variable {p : RecordSource} {env : Environment} {alloc : Allocation} {turns : Nat} {nonce : UInt64}
  {call : Call} {a : FlexArray p.Element} {k : State}

-- The state once these lines are written, each with its zero byte.
def State.send (k : State) (socket : Nat) (lines : List Bytes) : State :=
  { k with written := k.written ++ lines.map fun line => (socket, line ++ [0]) }

theorem writeSessionReplies_sent {s : Session} (sent : ∀ line, 0 ≤ env.socketWrite s.socket line)
    (some : s.replies ≠ []) : writeSessionReplies env s k = (0, k.send s.socket s.replies) := by
  have all (lines : List Bytes) (k : State) :
      writeSessionReplies.go env s lines k = (0, k.send s.socket lines) := by
    induction lines generalizing k with
    | nil => simp [writeSessionReplies.go, State.send]
    | cons line rest ih =>
      have here := sent (line ++ [0])
      rw [writeSessionReplies.go, if_neg (by omega), ih]
      simp [State.send]
  rw [writeSessionReplies, if_neg some, all]

theorem recordsLoop_probed {rr : RecordsRequest} {s : RecordsState (FlexArray p.Element)} {fuel : Nat}
    (allocated : ∀ i, alloc.records i ∧ alloc.reply i) (stores : 0 ≤ (p.probed rr s.data).1) :
    recordsLoop p.message alloc fuel rr s =
      recordsLoop p.message alloc fuel (rr.later 0) { s with data := (p.probed rr s.data).2 } := by
  cases fuel with
  | zero => rfl
  | succ fuel =>
    have read (b : FlexArray p.Element) : p.read (rr.later 0) b = p.read rr b := by
      simp only [RecordSource.read, RecordSource.record_request, RecordSource.emptyRecord_request]
      rfl
    have same : p.message (rr.later 0) s.reply (p.probed rr s.data).2 = p.message rr s.reply s.data := by
      rw [p.message_eq rr, p.message_eq (rr.later 0), p.probed_later _ rfl, if_neg (Int.not_lt.mpr stores),
        if_neg (Int.lt_irrefl 0), read]
      rfl
    simp only [recordsLoop, same, allocated]
    rfl

/-- With memory and a socket that takes the replies, a request of the records writes one line for each
element of its run, and the empty record behind them. -/
theorem processRecordsRequest_run (found : ∃ i, getSensor call.session.sensorName k.sensors = .ok i)
    (allocated : ∀ i, alloc.records i ∧ alloc.reply i)
    (sent : ∀ line, 0 ≤ env.socketWrite call.session.socket line) (fresh : call.session.replies = [])
    (nonzero : nonce ≠ 0) (room : (p.run nonce).length < a.size)
    (other : ∀ i, p.clearOf (a.slot i) = flexArrayFree ∨ p.nonceOf (a.slot i) ≠ nonce)
    (enough : (p.run nonce).length < turns) :
    ∃ after, processRecordsRequest env p.message alloc turns nonce call a k =
      some (complete, (k.send call.session.socket (p.lines (printedNonce env call.session.nonce) nonce
        (p.entriesFrom 0 (p.run nonce)) true)).freeSession call.session, after) := by
  obtain ⟨i, found⟩ := found
  let rr : RecordsRequest := ⟨printedNonce env call.session.nonce, true, true, nonce, 0, -1⟩
  obtain ⟨stores, stored⟩ := @RecordSource.probed_eq p rr a rfl (Nat.le_of_lt room)
  have holds : p.HoldsRun (rr.later 0) (p.run nonce) (p.probed rr a).2 := by
    rw [stored]
    refine ⟨?_, fun j x here => ?_, fun x member => ?_, ?_⟩
    · rw [FlexArray.size_putAll]
      simpa [RecordsRequest.later, rr] using room
    · exact a.slot_putAll (by rw [Nat.zero_add]; exact Nat.le_of_lt room) here
    · obtain ⟨own, unclear⟩ := p.nonceOf_run member
      simp only [RecordSource.ends, own, unclear, RecordsRequest.later, rr]
      simp [flexArrayFree]
    · rw [a.slot_putAll_outside (.inr (by simp [RecordsRequest.later, rr])), RecordSource.ends,
        decide_eq_true_eq]
      exact (other _).imp id fun apart => ⟨nonzero, apart⟩
  obtain ⟨done, ran, ccode, linked⟩ := @RecordSource.recordsLoop_run p alloc (rr.later 0) (p.run nonce)
    ⟨0, ⟨0, 0, []⟩, (p.probed rr a).2, []⟩ turns allocated rfl rfl holds enough
  have loop : linkRecords p.message alloc turns (printedNonce env call.session.nonce) nonce a =
      some done := by
    rw [linkRecords, ← ran]
    exact @recordsLoop_probed p alloc rr ⟨0, ⟨0, 0, []⟩, a, []⟩ turns allocated stores
  rw [List.nil_append] at linked
  have some : call.session.replies ++ done.linked ≠ [] := by
    rw [linked, fresh]
    simp [RecordSource.lines]
  refine ⟨done.data, ?_⟩
  unfold processRecordsRequest
  simp only [found, loop, Option.bind_eq_bind, Option.bind_some, ccode]
  rw [@writeSessionReplies_sent env k { call.session with replies := call.session.replies ++ done.linked }
    sent some]
  simp only [fresh, linked, List.nil_append]
  rfl

theorem processRecordsRequest_marked {drawn : List UInt64} {out : Int × State × FlexArray p.Element}
    (marked : p.Marked drawn a) (member : nonce ∈ drawn)
    (ran : processRecordsRequest env p.message alloc turns nonce call a k = some out) :
    p.Marked drawn out.2.2 ∧ out.2.2.size = a.size := by
  unfold processRecordsRequest at ran
  split at ran
  · cases ran
    exact ⟨marked, rfl⟩
  · simp only [Option.bind_eq_bind, Option.bind_eq_some_iff] at ran
    obtain ⟨done, loop, rest⟩ := ran
    cases rest
    exact @RecordSource.Marked.recordsLoop p drawn alloc turns _ _ done marked member loop

end Requests

end VirtueSensing.Kernel
