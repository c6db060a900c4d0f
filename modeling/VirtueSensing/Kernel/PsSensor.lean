import VirtueSensing.Kernel.Records
import VirtueSensing.Shared.FlexArray

set_option autoImplicit false

/-!
# The ps sensor

`ps-sensor.c`. No length of a run is stored: the records of a run end at the first element that is
clear or has the nonce of another run.
-/

namespace VirtueSensing.Kernel

structure Task where
  comm : Bytes
  pid : Int
  uid : UInt32
  deriving DecidableEq, Repr

structure PsData where
  clear : UInt8
  nonce : UInt64
  userId : UInt32
  pidNr : Int
  comm : Bytes
  deriving DecidableEq, Repr

structure PsSensor where
  name : Bytes
  uuidString : Bytes
  deriving DecidableEq, Repr

def taskCommLen : Nat := 16
def flexArrayFree : UInt8 := 0x6c

-- An element that `flex_array_clear` has filled.
def PsData.free : PsData :=
  ⟨flexArrayFree, 0x6c6c6c6c6c6c6c6c, 0x6c6c6c6c, 0x6c6c6c6c, List.replicate (taskCommLen + 1) 0x6c⟩

def Task.psData (nonce : UInt64) (t : Task) : PsData :=
  ⟨0, nonce, t.uid, t.pid, t.comm.take taskCommLen ++ [0]⟩

def kernelPsUnlocked (nonce : UInt64) : List Task → Nat → FlexArray PsData → Int × FlexArray PsData
  | [], index, a => (index, a)
  | t :: rest, index, a =>
    if index < a.size then kernelPsUnlocked nonce rest (index + 1) (a.put index (t.psData nonce))
    else (enomem, a)

def printInt (n : Int) : Bytes := ascii (toString n)

def printHex (n : UInt64) : Bytes := ascii (String.ofList (Nat.toDigits 16 n.toNat))

def emptyRecord (parent : PsSensor) (rr : RecordsRequest) : Bytes :=
  scnprintf (connectionMaxReply - 1)
    (replyHeader ++ ascii " " ++ quoted rr.jsonNonce ++ ascii ", " ++ quoted parent.name ++
      ascii ", " ++ quoted parent.uuidString ++ ascii "]\x7d\n")

def psRecord (parent : PsSensor) (tag : Bytes) (rr : RecordsRequest) (data : PsData) : Bytes :=
  scnprintf (connectionMaxReply - 1)
    (replyHeader ++ ascii " " ++ quoted rr.jsonNonce ++ ascii ", " ++ quoted parent.name ++
      ascii ", " ++ quoted tag ++ ascii ", " ++ quoted parent.uuidString ++ ascii ", " ++
      quoted (printInt rr.index) ++ ascii ",\x7b \"comm\": " ++ quoted data.comm.cString ++
      ascii ", \"pid\": " ++ printInt data.pidNr ++ ascii ", \"uid\": " ++
      printInt data.userId.toBitVec.toInt ++ ascii " \x7d," ++ quoted (printHex rr.nonce) ++
      ascii "]\x7d\n")

-- The element is no record of the run that the request asks for.
def PsData.ends (data : PsData) (rr : RecordsRequest) : Bool :=
  data.clear = flexArrayFree ∨ (rr.nonce ≠ 0 ∧ data.nonce ≠ rr.nonce)

def readRecord (parent : PsSensor) (tag : Bytes) (rr : RecordsRequest) (a : FlexArray PsData) :
    RecordsReply :=
  match a.get rr.index with
  | none => ⟨enoent, rr.range, emptyRecord parent rr⟩
  | some data =>
    if data.ends rr then ⟨enoent, rr.range, emptyRecord parent rr⟩
    else ⟨rr.index, rr.range, psRecord parent tag rr data⟩

def kernelPsGetRecord (parent : PsSensor) (tag : Bytes) (tasks : List Task) :
    SensorMessage (FlexArray PsData) :=
  fun rr rp a =>
    let (ccode, a) := if rr.runProbe then kernelPsUnlocked rr.nonce tasks 0 a else (0, a)
    if ccode < 0 then (ccode, rp, a)
    else (0, readRecord parent tag rr a, if rr.clear then a.put rr.index .free else a)

def psMessage (parent : PsSensor) (tasks : List Task) : SensorMessage (FlexArray PsData) :=
  kernelPsGetRecord parent (ascii "kernel-ps") tasks

/-- The elements of the run are stored in the order of the tasks, all others are as before. -/
structure Stored (nonce : UInt64) (tasks : List Task) (index : Nat) (before after : FlexArray PsData) :
    Prop where
  size : after.size = before.size
  stored : ∀ i t, tasks[i]? = some t → after.slot (index + i) = t.psData nonce
  others : ∀ j, j < index ∨ index + tasks.length ≤ j → after.slot j = before.slot j

theorem kernelPsUnlocked_stores (nonce : UInt64) (tasks : List Task) (index : Nat)
    (a : FlexArray PsData) (room : index + tasks.length ≤ a.size) :
    ∃ b, kernelPsUnlocked nonce tasks index a = (((index + tasks.length : Nat) : Int), b) ∧
      Stored nonce tasks index a b := by
  induction tasks generalizing index a with
  | nil => exact ⟨a, rfl, rfl, by simp, fun _ _ => rfl⟩
  | cons t rest ih =>
    simp only [List.length_cons] at room
    obtain ⟨b, stores, stored⟩ := ih (index + 1) (a.put index (t.psData nonce)) (by simp; omega)
    refine ⟨b, ?_, by simpa using stored.size, ?_, ?_⟩
    · rw [kernelPsUnlocked, if_pos (by omega), stores]
      simp only [List.length_cons, Prod.mk.injEq, and_true]
      omega
    · intro i u found
      cases i with
      | zero =>
        obtain rfl : t = u := by simpa using found
        rw [stored.others _ (by omega)]
        exact a.slot_put_same (by omega) _
      | succ i =>
        rw [← stored.stored i u (by simpa using found)]
        congr 1
        omega
    · intro j outside
      simp only [List.length_cons] at outside
      rw [stored.others j (by omega)]
      exact a.slot_put_other (by omega) _

/-- From element `i` on, the array holds the records of the run and then one that ends it. -/
structure Holds (rr : RecordsRequest) (tasks : List Task) (a : FlexArray PsData) : Prop where
  room : rr.index + tasks.length < a.size
  stored : ∀ i t, tasks[i]? = some t → a.slot (rr.index + i) = t.psData rr.nonce
  ends : (a.slot (rr.index + tasks.length)).ends rr

theorem Task.not_ends (t : Task) (rr : RecordsRequest) : ¬ (t.psData rr.nonce).ends rr := by
  simp [PsData.ends, Task.psData, flexArrayFree]

def RecordsRequest.later (rr : RecordsRequest) (n : Nat) : RecordsRequest :=
  { rr with runProbe := false, index := rr.index + n }

section Loop

variable {parent : PsSensor} {live tasks : List Task} {alloc : Allocation}
  {rr : RecordsRequest} {s : RecordsState (FlexArray PsData)}

theorem Holds.next {t : Task} {rest : List Task} (holds : Holds rr (t :: rest) s.data) :
    Holds (rr.later 1) rest (s.data.put rr.index .free) := by
  have room := holds.room
  simp only [List.length_cons] at room
  refine ⟨by simp [RecordsRequest.later]; omega, fun i u found => ?_, ?_⟩
  · have here := holds.stored (i + 1) u (by simpa using found)
    rw [FlexArray.slot_put_other _ (by simp [RecordsRequest.later]; omega), RecordsRequest.later,
      Nat.add_assoc, Nat.add_comm 1 i]
    exact here
  · have last := holds.ends
    rw [FlexArray.slot_put_other _ (by simp [RecordsRequest.later]; omega)]
    simpa [RecordsRequest.later, PsData.ends, Nat.add_assoc, Nat.add_comm 1] using last

theorem psMessage_ends (rp : RecordsReply) {a : FlexArray PsData} (runs : rr.runProbe = false)
    (clears : rr.clear) (holds : Holds rr [] a) :
    psMessage parent live rr rp a =
      (0, ⟨enoent, rr.range, emptyRecord parent rr⟩, a.put rr.index .free) := by
  have read : readRecord parent (ascii "kernel-ps") rr a =
      ⟨enoent, rr.range, emptyRecord parent rr⟩ := by
    have room := holds.room
    simp only [List.length_nil, Nat.add_zero] at room
    rw [readRecord, a.get_eq_some room]
    exact if_pos holds.ends
  simp [psMessage, kernelPsGetRecord, runs, clears, read]

theorem psMessage_record {t : Task} {rest : List Task} (rp : RecordsReply) {a : FlexArray PsData}
    (runs : rr.runProbe = false) (clears : rr.clear) (holds : Holds rr (t :: rest) a) :
    psMessage parent live rr rp a =
      (0, ⟨rr.index, rr.range, psRecord parent (ascii "kernel-ps") rr (t.psData rr.nonce)⟩,
        a.put rr.index .free) := by
  have read : readRecord parent (ascii "kernel-ps") rr a =
      ⟨rr.index, rr.range, psRecord parent (ascii "kernel-ps") rr (t.psData rr.nonce)⟩ := by
    have room := holds.room
    simp only [List.length_cons] at room
    have here : a.slot rr.index = t.psData rr.nonce := holds.stored 0 t rfl
    rw [readRecord, a.get_eq_some (by omega), here]
    exact if_neg (t.not_ends rr)
  simp [psMessage, kernelPsGetRecord, runs, clears, read]

theorem recordsLoop_collects (allocated : ∀ i, alloc.records i ∧ alloc.reply i)
    (runs : rr.runProbe = false) (clears : rr.clear) (holds : Holds rr tasks s.data) {fuel : Nat}
    (enough : tasks.length < fuel) :
    ∃ done, recordsLoop (psMessage parent live) alloc fuel rr s = some done ∧ done.ccode = 0 ∧
      done.linked = s.linked ++
        (tasks.mapIdx fun i t =>
          psRecord parent (ascii "kernel-ps") (rr.later i) (t.psData rr.nonce)) ++
        [emptyRecord parent rr] := by
  induction tasks generalizing rr s fuel with
  | nil =>
    obtain ⟨fuel, rfl⟩ := Nat.exists_eq_succ_of_ne_zero (Nat.ne_of_gt enough)
    have answered : psMessage parent live rr s.reply s.data = (0, _, _) :=
      psMessage_ends s.reply runs clears holds
    exact ⟨_, recordsLoop_ends (allocated _) answered rfl, rfl, by simp⟩
  | cons t rest ih =>
    obtain ⟨fuel, rfl⟩ := Nat.exists_eq_succ_of_ne_zero (Nat.ne_of_gt (Nat.zero_lt_of_lt enough))
    have answered : psMessage parent live rr s.reply s.data = (0, _, _) :=
      psMessage_record s.reply runs clears holds
    rw [recordsLoop_continues (allocated _) answered (by simp [enoent])]
    obtain ⟨done, loop, ccode, linked⟩ := @ih (rr.later 1) ⟨0, _, s.data.put rr.index .free, _⟩ rfl
      clears holds.next fuel (Nat.lt_of_succ_lt_succ enough)
    refine ⟨done, loop, ccode, ?_⟩
    rw [linked, List.mapIdx_cons]
    simp only [List.append_assoc, List.cons_append, List.nil_append]
    have shifted : ∀ i, (rr.later 1).later i = rr.later (i + 1) := by
      intro i
      simp [RecordsRequest.later, Nat.add_assoc, Nat.add_comm 1]
    simp only [shifted]
    rfl

theorem holds_of_stored {a b : FlexArray PsData} (first : rr.index = 0) (nonzero : rr.nonce ≠ 0)
    (room : tasks.length < a.size)
    (fresh : ∀ i, (a.slot i).clear ≠ flexArrayFree → (a.slot i).nonce ≠ rr.nonce)
    (stored : Stored rr.nonce tasks 0 a b) : Holds rr tasks b := by
  refine ⟨by rw [first, stored.size]; omega, ?_, ?_⟩
  · rw [first]
    exact stored.stored
  · rw [first, stored.others _ (by omega)]
    simp only [PsData.ends, decide_eq_true_eq]
    by_cases clear : (a.slot (0 + tasks.length)).clear = flexArrayFree
    · exact .inl clear
    · exact .inr ⟨nonzero, fresh _ clear⟩

theorem recordsLoop_probes {b : FlexArray PsData} {fuel : Nat}
    (allocated : ∀ i, alloc.records i ∧ alloc.reply i) (runs : rr.runProbe)
    (probed : kernelPsUnlocked rr.nonce live 0 s.data = ((live.length : Int), b)) :
    recordsLoop (psMessage parent live) alloc fuel rr s =
      recordsLoop (psMessage parent live) alloc fuel (rr.later 0) { s with data := b } := by
  cases fuel with
  | zero => rfl
  | succ fuel =>
    have same : psMessage parent live rr s.reply s.data =
        psMessage parent live (rr.later 0) s.reply b := by
      simp only [psMessage, kernelPsGetRecord, runs, probed]
      rfl
    simp only [recordsLoop, same, allocated]
    rfl

end Loop

/-- A records request links one record for each task, in the order of the tasks, and one empty record
behind them, whatever the array held before: the loop ends and no record of another run is linked. -/
theorem ps_records_linked (parent : PsSensor) (tasks : List Task) (jsonNonce : Bytes)
    (nonce : UInt64) (array : FlexArray PsData) (alloc : Allocation)
    (allocated : ∀ i, alloc.records i ∧ alloc.reply i) (room : tasks.length < array.size)
    (nonzero : nonce ≠ 0)
    (fresh : ∀ i, (array.slot i).clear ≠ flexArrayFree → (array.slot i).nonce ≠ nonce)
    (fuel : Nat) (enough : tasks.length < fuel) :
    ∃ done, linkRecords (psMessage parent tasks) alloc fuel jsonNonce nonce array = some done ∧
      done.ccode = 0 ∧
      done.linked =
        (tasks.mapIdx fun i t =>
          psRecord parent (ascii "kernel-ps") ⟨jsonNonce, false, true, nonce, i, -1⟩
            (t.psData nonce)) ++
        [emptyRecord parent ⟨jsonNonce, false, true, nonce, tasks.length, -1⟩] := by
  obtain ⟨b, probed, stored⟩ := kernelPsUnlocked_stores nonce tasks 0 array (by omega)
  rw [Nat.zero_add] at probed
  unfold linkRecords
  rw [recordsLoop_probes allocated rfl probed]
  have holds : Holds ⟨jsonNonce, false, true, nonce, 0, -1⟩ tasks b :=
    holds_of_stored rfl nonzero room fresh stored
  obtain ⟨done, loop, ccode, linked⟩ :=
    recordsLoop_collects (s := ⟨0, ⟨0, 0, []⟩, b, []⟩) allocated rfl rfl holds enough
  refine ⟨done, loop, ccode, ?_⟩
  rw [linked]
  simp only [RecordsRequest.later, Nat.zero_add, List.nil_append]
  rfl

theorem ps_records_linked_over_old_run :
    ∃ done, linkRecords (psMessage ⟨ascii "Kernel PS Sensor", []⟩
        [⟨ascii "systemd", 1, 0⟩, ⟨ascii "bash", 9, 1000⟩]) ⟨fun _ => true, fun _ => true⟩ 3
        (ascii "n1") 5 ⟨4, fun i => if i = 1 then .free else (⟨ascii "old", 7, 0⟩ : Task).psData 6⟩ =
        some done ∧
      done.linked.length = 3 := by
  obtain ⟨done, loop, -, linked⟩ := ps_records_linked ⟨ascii "Kernel PS Sensor", []⟩
    [⟨ascii "systemd", 1, 0⟩, ⟨ascii "bash", 9, 1000⟩] (ascii "n1") 5
    ⟨4, fun i => if i = 1 then .free else (⟨ascii "old", 7, 0⟩ : Task).psData 6⟩
    ⟨fun _ => true, fun _ => true⟩ (by simp) (by decide) (by decide)
    (by intro i; by_cases cleared : i = 1 <;> simp [cleared, PsData.free, Task.psData])
    3 (by decide)
  exact ⟨done, loop, by simp [linked]⟩

end VirtueSensing.Kernel
