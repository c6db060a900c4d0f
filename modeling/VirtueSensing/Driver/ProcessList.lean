import Mathlib.Data.List.Nodup
import Mathlib.Tactic.Common
import VirtueSensing.Shared.Machine

set_option autoImplicit false

/-!
# The process list of the driver

`ProcessNotifyCallbackEx` of `ProcessCreateProbe`, with the functions that search and change
`ProcessList`, and `ProcessListValidationProbe::OnRun`. A step is a section under
`ProcessListSpinLock`: an insertion is one, a destroy callback has two, and `OnRun` is one.
-/

namespace VirtueSensing.Driver

def invalidHandleValue : UInt64 := 0xffffffffffffffff

/-- A process, whose id is never the invalid handle. -/
structure Process where
  eprocess : UInt64
  processId : UInt64
  valid : processId ≠ invalidHandleValue
  deriving DecidableEq, Repr

structure ProcessEntry where
  address : Nat
  pEProcess : UInt64
  processId : UInt64
  deriving DecidableEq, Repr

-- A destroy callback between its two sections, with the pointer that the first one found.
structure Destroying where
  process : Process
  pProcEntry : Nat
  deriving DecidableEq, Repr

structure ProcessLists where
  processList : List ProcessEntry
  -- Entries that `OnRun` unlinked and nobody freed.
  unlinked : List ProcessEntry
  reports : List ProcessEntry
  usedAfterFree : Bool
  -- The processes whose destroy callback was not handled yet, and those callbacks that are going on.
  owners : List Process
  destroying : List Destroying
  -- History: the processes that were inserted, and not removed by their destroy callback.
  present : List Process
  deriving DecidableEq, Repr

namespace ProcessLists

def findProcessByEProcess (s : ProcessLists) (pEProcess : UInt64) : Option ProcessEntry :=
  s.processList.find? fun entry => entry.pEProcess = pEProcess

def insertProcessEntry (s : ProcessLists) (address : Nat) (pEProcess processId : UInt64) :
    ProcessLists :=
  { s with processList := s.processList ++ [⟨address, pEProcess, processId⟩] }

def allocated (s : ProcessLists) : List ProcessEntry := s.processList ++ s.unlinked

-- What a pointer to an entry leads to, if the entry was not freed.
def read (s : ProcessLists) (pProcessEntry : Nat) : Option ProcessEntry :=
  s.allocated.find? fun entry => entry.address = pProcessEntry

/-- The entry is removed by its process id. The pointer is read for every entry of the list. -/
def removeProcessEntry (s : ProcessLists) (pProcessEntry : Nat) : ProcessLists :=
  if s.processList = [] then s
  else
    match s.read pProcessEntry with
    | none => { s with usedAfterFree := true }
    | some entry =>
      { s with processList := s.processList.eraseP fun other => other.processId = entry.processId }

def suspect (psGetProcessId : UInt64 → UInt64) (entry : ProcessEntry) : Bool :=
  psGetProcessId entry.pEProcess = invalidHandleValue ∨
    psGetProcessId entry.pEProcess ≠ entry.processId

/-- The first entry that fails is unlinked and reported. -/
def onRun (s : ProcessLists) (psGetProcessId : UInt64 → UInt64) : ProcessLists :=
  match s.processList.find? (suspect psGetProcessId) with
  | none => s
  | some entry =>
    { s with
      processList := s.processList.erase entry
      unlinked := s.unlinked ++ [entry]
      reports := s.reports ++ [entry] }

def handled (s : ProcessLists) (p : Process) : ProcessLists :=
  { s with
    owners := s.owners.erase p
    destroying := s.destroying.filter fun other => other.process ≠ p }

end ProcessLists

inductive ProcessEvent where
  -- A process from before the callback was registered.
  | existing (p : Process)
  | insert (p : Process) (address : Nat)
  | destroyFind (p : Process)
  | destroyRemove (p : Process)
  | run (psGetProcessId : UInt64 → UInt64)

/-- The system gives a new process an id and an `EPROCESS` that no other owns, an allocation is at a
free address, and `PsGetProcessId` answers with the process id of an owner. -/
def processMachine : Machine ProcessLists ProcessEvent where
  initial := ⟨[], [], [], false, [], [], []⟩
  step s
    | .existing p =>
      if ∃ q ∈ s.owners, q.eprocess = p.eprocess ∨ q.processId = p.processId then none
      else some { s with owners := p :: s.owners }
    | .insert p address =>
      if ∃ q ∈ s.owners, q.eprocess = p.eprocess ∨ q.processId = p.processId then none
      else if ∃ entry ∈ s.allocated, entry.address = address then none
      else
        some { s.insertProcessEntry address p.eprocess p.processId with
          owners := p :: s.owners
          present := s.present ++ [p] }
    | .destroyFind p =>
      if p ∉ s.owners ∨ p ∈ s.destroying.map Destroying.process then none
      else
        match s.findProcessByEProcess p.eprocess with
        | none => some (s.handled p)
        | some entry => some { s with destroying := ⟨p, entry.address⟩ :: s.destroying }
    | .destroyRemove p =>
      match s.destroying.find? fun callback => callback.process = p with
      | none => none
      | some callback =>
        some { (s.removeProcessEntry callback.pProcEntry).handled p with
          present := s.present.erase p }
    | .run psGetProcessId =>
      if ∀ p ∈ s.owners, psGetProcessId p.eprocess = p.processId then some (s.onRun psGetProcessId)
      else none

def Process.key (p : Process) : UInt64 × UInt64 := (p.eprocess, p.processId)

def ProcessEntry.key (entry : ProcessEntry) : UInt64 × UInt64 := (entry.pEProcess, entry.processId)

/-- The list holds one entry for each process that is present, and no run of the validation removed
or reported anything. -/
structure Exact (s : ProcessLists) : Prop where
  entries : s.processList.map ProcessEntry.key = s.present.map Process.key
  once : (s.processList.map ProcessEntry.key).Nodup
  kept : s.unlinked = []
  quiet : s.reports = []
  safe : s.usedAfterFree = false

/-- What carries `Exact` through a run: the two keys of the owners are in bijection, and every
pending removal points at the entry of its own process. -/
structure Tracked (s : ProcessLists) : Prop where
  entries : s.processList.map ProcessEntry.key = s.present.map Process.key
  addresses : (s.processList.map ProcessEntry.address).Nodup
  owned : ∀ p ∈ s.present, p ∈ s.owners
  present : s.present.Nodup
  eprocesses : (s.owners.map Process.eprocess).Nodup
  processIds : (s.owners.map Process.processId).Nodup
  pending : ∀ callback ∈ s.destroying, callback.process ∈ s.owners ∧
    ∃ entry ∈ s.processList, entry.address = callback.pProcEntry ∧ entry.key = callback.process.key
  kept : s.unlinked = []
  quiet : s.reports = []
  safe : s.usedAfterFree = false

section Steps

variable {s : ProcessLists}

theorem Tracked.exact (tracked : Tracked s) : Exact s where
  entries := tracked.entries
  once := by
    rw [tracked.entries]
    refine tracked.present.map_on fun p inside q also same => ?_
    exact List.inj_on_of_nodup_map tracked.processIds (tracked.owned p inside) (tracked.owned q also)
      (congrArg Prod.snd same)
  kept := tracked.kept
  quiet := tracked.quiet
  safe := tracked.safe

theorem Tracked.owner_of_entry (tracked : Tracked s) {entry : ProcessEntry}
    (member : entry ∈ s.processList) : ∃ p ∈ s.present, p ∈ s.owners ∧ p.key = entry.key := by
  have key : entry.key ∈ s.present.map Process.key :=
    tracked.entries ▸ List.mem_map_of_mem member
  obtain ⟨p, inside, same⟩ := List.mem_map.mp key
  exact ⟨p, inside, tracked.owned p inside, same⟩

theorem Tracked.entry_of_present (tracked : Tracked s) {p : Process} (inside : p ∈ s.present) :
    ∃ entry ∈ s.processList, entry.key = p.key := by
  have key : p.key ∈ s.processList.map ProcessEntry.key :=
    tracked.entries ▸ List.mem_map_of_mem inside
  obtain ⟨entry, member, same⟩ := List.mem_map.mp key
  exact ⟨entry, member, same⟩

theorem Tracked.read (tracked : Tracked s) {entry : ProcessEntry} (member : entry ∈ s.processList) :
    s.read entry.address = some entry := by
  have whole : s.allocated = s.processList := by
    rw [ProcessLists.allocated, tracked.kept, List.append_nil]
  rw [ProcessLists.read, whole]
  cases found : s.processList.find? fun other => other.address = entry.address with
  | none => simpa using List.find?_eq_none.mp found entry member
  | some other =>
    have same : other.address = entry.address := by simpa using List.find?_some found
    rw [List.inj_on_of_nodup_map tracked.addresses (List.mem_of_find?_eq_some found) member same]

theorem Tracked.processId_inj (tracked : Tracked s) {p q : Process} (first : p ∈ s.owners)
    (second : q ∈ s.owners) (same : p.processId = q.processId) : p = q :=
  List.inj_on_of_nodup_map tracked.processIds first second same

theorem Tracked.eprocess_inj (tracked : Tracked s) {p q : Process} (first : p ∈ s.owners)
    (second : q ∈ s.owners) (same : p.eprocess = q.eprocess) : p = q :=
  List.inj_on_of_nodup_map tracked.eprocesses first second same

theorem Tracked.existing (tracked : Tracked s) {p : Process}
    (fresh : ∀ q ∈ s.owners, q.eprocess ≠ p.eprocess ∧ q.processId ≠ p.processId) :
    Tracked { s with owners := p :: s.owners } := by
  refine ⟨tracked.entries, tracked.addresses, ?_, tracked.present, ?_, ?_, ?_, tracked.kept,
    tracked.quiet, tracked.safe⟩
  · intro q inside
    exact List.mem_cons_of_mem p (tracked.owned q inside)
  · refine List.nodup_cons.mpr ⟨fun member => ?_, tracked.eprocesses⟩
    obtain ⟨q, owned, same⟩ := List.mem_map.mp member
    exact (fresh q owned).1 same
  · refine List.nodup_cons.mpr ⟨fun member => ?_, tracked.processIds⟩
    obtain ⟨q, owned, same⟩ := List.mem_map.mp member
    exact (fresh q owned).2 same
  · intro callback pending
    obtain ⟨owned, entry⟩ := tracked.pending callback pending
    exact ⟨List.mem_cons_of_mem p owned, entry⟩

theorem Tracked.insert (tracked : Tracked s) {p : Process} {address : Nat}
    (fresh : ∀ q ∈ s.owners, q.eprocess ≠ p.eprocess ∧ q.processId ≠ p.processId)
    (free : ∀ entry ∈ s.allocated, entry.address ≠ address) :
    Tracked { s.insertProcessEntry address p.eprocess p.processId with
      owners := p :: s.owners
      present := s.present ++ [p] } := by
  have owners := tracked.existing fresh
  refine ⟨?_, ?_, ?_, ?_, owners.eprocesses, owners.processIds, ?_, tracked.kept, tracked.quiet,
    tracked.safe⟩
  · simp [ProcessLists.insertProcessEntry, tracked.entries, Process.key, ProcessEntry.key]
  · simp only [ProcessLists.insertProcessEntry, List.map_append, List.map_cons, List.map_nil]
    refine List.nodup_append.mpr ⟨tracked.addresses, List.nodup_singleton _, ?_⟩
    rintro taken inside new own rfl
    obtain ⟨entry, member, same⟩ := List.mem_map.mp inside
    refine free entry (List.mem_append_left _ member) (same.trans ?_)
    simpa using own
  · intro q inside
    rcases List.mem_append.mp inside with older | new
    · exact List.mem_cons_of_mem p (tracked.owned q older)
    · exact List.mem_singleton.mp new ▸ List.mem_cons_self
  · refine List.nodup_append.mpr ⟨tracked.present, List.nodup_singleton _, ?_⟩
    rintro q inside other own rfl
    obtain rfl := List.mem_singleton.mp own
    exact (fresh q (tracked.owned q inside)).1 rfl
  · intro callback pending
    obtain ⟨owned, entry, member, same⟩ := tracked.pending callback pending
    exact ⟨List.mem_cons_of_mem p owned, entry, List.mem_append_left _ member, same⟩

-- The callback found nothing, so its process was not inserted.
theorem Tracked.handled_absent (tracked : Tracked s) {p : Process}
    (absent : s.findProcessByEProcess p.eprocess = none) : Tracked (s.handled p) := by
  have notPresent : p ∉ s.present := by
    intro inside
    obtain ⟨entry, member, same⟩ := tracked.entry_of_present inside
    exact List.find?_eq_none.mp absent entry member (decide_eq_true (congrArg Prod.fst same))
  refine ⟨tracked.entries, tracked.addresses, ?_, tracked.present,
    tracked.eprocesses.sublist (List.erase_sublist.map _),
    tracked.processIds.sublist (List.erase_sublist.map _), ?_, tracked.kept, tracked.quiet,
    tracked.safe⟩
  · intro q inside
    have other : q ≠ p := fun same => notPresent (same ▸ inside)
    exact (List.mem_erase_of_ne other).mpr (tracked.owned q inside)
  · intro callback pending
    obtain ⟨pending, other⟩ := List.mem_filter.mp pending
    obtain ⟨owned, entry⟩ := tracked.pending callback pending
    exact ⟨(List.mem_erase_of_ne (by simpa using other)).mpr owned, entry⟩

theorem Tracked.destroyFind (tracked : Tracked s) {p : Process} (owned : p ∈ s.owners)
    {entry : ProcessEntry} (found : s.findProcessByEProcess p.eprocess = some entry) :
    Tracked { s with destroying := ⟨p, entry.address⟩ :: s.destroying } := by
  have member := List.mem_of_find?_eq_some found
  have eprocess : entry.pEProcess = p.eprocess := by simpa using List.find?_some found
  obtain ⟨q, -, ownedToo, key⟩ := tracked.owner_of_entry member
  obtain rfl : q = p := tracked.eprocess_inj ownedToo owned ((congrArg Prod.fst key).trans eprocess)
  refine ⟨tracked.entries, tracked.addresses, tracked.owned, tracked.present, tracked.eprocesses,
    tracked.processIds, ?_, tracked.kept, tracked.quiet, tracked.safe⟩
  intro callback pending
  rcases List.mem_cons.mp pending with rfl | older
  · exact ⟨owned, entry, member, rfl, key.symm⟩
  · exact tracked.pending callback older

-- The process id leads to the entry that the first section found by its address.
theorem Tracked.removeProcessEntry_eq (tracked : Tracked s) {callback : Destroying}
    (pending : callback ∈ s.destroying) :
    s.removeProcessEntry callback.pProcEntry =
      { s with
        processList := s.processList.eraseP fun entry =>
          entry.processId = callback.process.processId } := by
  obtain ⟨-, entry, member, address, key⟩ := tracked.pending callback pending
  have processId : entry.processId = callback.process.processId := congrArg Prod.snd key
  rw [ProcessLists.removeProcessEntry, if_neg (List.ne_nil_of_mem member), ← address,
    tracked.read member]
  simp only [processId]

theorem Tracked.erase_present (tracked : Tracked s) {p : Process} (owned : p ∈ s.owners) :
    (s.processList.eraseP fun entry => entry.processId = p.processId).map ProcessEntry.key =
      (s.present.erase p).map Process.key := by
  have same : s.present.erase p = s.present.eraseP fun q => q.processId = p.processId := by
    rw [List.erase_eq_eraseP']
    refine Lists.eraseP_congr fun q inside => ?_
    rw [Bool.eq_iff_iff]
    constructor
    · intro equal
      simpa using congrArg Process.processId (eq_of_beq equal)
    · intro equal
      exact beq_iff_eq.mpr (tracked.processId_inj (tracked.owned q inside) owned (by simpa using equal))
  have byKey := congrArg
    (List.eraseP fun key : UInt64 × UInt64 => decide (key.2 = p.processId)) tracked.entries
  rw [List.eraseP_map, List.eraseP_map] at byKey
  rw [same]
  exact byKey

theorem Tracked.destroyRemove (tracked : Tracked s) {callback : Destroying}
    (pending : callback ∈ s.destroying) :
    Tracked { (s.removeProcessEntry callback.pProcEntry).handled callback.process with
      present := s.present.erase callback.process } := by
  have owned := (tracked.pending callback pending).1
  rw [tracked.removeProcessEntry_eq pending]
  refine ⟨tracked.erase_present owned, tracked.addresses.sublist (List.eraseP_sublist.map _), ?_,
    tracked.present.erase _, tracked.eprocesses.sublist (List.erase_sublist.map _),
    tracked.processIds.sublist (List.erase_sublist.map _), ?_, tracked.kept, tracked.quiet,
    tracked.safe⟩
  · intro q inside
    obtain ⟨other, inside⟩ := tracked.present.mem_erase_iff.mp inside
    exact (List.mem_erase_of_ne other).mpr (tracked.owned q inside)
  · intro later pendingToo
    obtain ⟨pendingToo, other⟩ := List.mem_filter.mp pendingToo
    have different : later.process ≠ callback.process := by simpa using other
    obtain ⟨ownedToo, entry, member, address, key⟩ := tracked.pending later pendingToo
    refine ⟨(List.mem_erase_of_ne different).mpr ownedToo, entry, ?_, address, key⟩
    refine (List.mem_eraseP_of_neg fun equal => ?_).mpr member
    have processId : later.process.processId = callback.process.processId :=
      (congrArg Prod.snd key).symm.trans (of_decide_eq_true equal)
    exact different (tracked.processId_inj ownedToo owned processId)

theorem Tracked.onRun_eq (tracked : Tracked s) {psGetProcessId : UInt64 → UInt64}
    (answers : ∀ p ∈ s.owners, psGetProcessId p.eprocess = p.processId) :
    s.onRun psGetProcessId = s := by
  have none : s.processList.find? (ProcessLists.suspect psGetProcessId) = none := by
    rw [List.find?_eq_none]
    intro entry member
    obtain ⟨p, -, owned, key⟩ := tracked.owner_of_entry member
    obtain ⟨eprocess, processId⟩ : p.eprocess = entry.pEProcess ∧ p.processId = entry.processId :=
      Prod.mk.inj key
    have answer := answers p owned
    rw [eprocess] at answer
    have valid := p.valid
    rw [processId] at answer valid
    simp [ProcessLists.suspect, answer, valid]
  rw [ProcessLists.onRun, none]

theorem step_tracked {t : ProcessLists} {event : ProcessEvent} (tracked : Tracked s)
    (moved : processMachine.step s event = some t) : Tracked t := by
  cases event with
  | existing p =>
    obtain ⟨fresh, moved⟩ := Option.ite_none_left_eq_some.mp moved
    obtain rfl := Option.some.inj moved
    exact tracked.existing (by simpa using fresh)
  | insert p address =>
    obtain ⟨fresh, moved⟩ := Option.ite_none_left_eq_some.mp moved
    obtain ⟨free, moved⟩ := Option.ite_none_left_eq_some.mp moved
    obtain rfl := Option.some.inj moved
    exact tracked.insert (by simpa using fresh) (by simpa using free)
  | destroyFind p =>
    obtain ⟨admitted, moved⟩ := Option.ite_none_left_eq_some.mp moved
    have owned : p ∈ s.owners := by
      by_contra missing
      exact admitted (.inl missing)
    cases found : s.findProcessByEProcess p.eprocess with
    | none =>
      rw [found] at moved
      obtain rfl := Option.some.inj moved
      exact tracked.handled_absent found
    | some entry =>
      rw [found] at moved
      obtain rfl := Option.some.inj moved
      exact tracked.destroyFind owned found
  | destroyRemove p =>
    cases found : s.destroying.find? fun callback => callback.process = p with
    | none => simp [processMachine, found] at moved
    | some callback =>
      obtain rfl : callback.process = p := by simpa using List.find?_some found
      simp only [processMachine, found] at moved
      obtain rfl := Option.some.inj moved
      exact tracked.destroyRemove (List.mem_of_find?_eq_some found)
  | run psGetProcessId =>
    obtain ⟨answers, moved⟩ := Option.ite_none_right_eq_some.mp moved
    obtain rfl := Option.some.inj moved
    rw [tracked.onRun_eq answers]
    exact tracked

end Steps

/-- In every interleaving the list holds one entry for each process that was inserted and not
removed, and the validation removes and reports nothing. -/
theorem process_list_exact (events : List ProcessEvent) (s : ProcessLists)
    (reached : processMachine.run events = some s) : Exact s := by
  refine (processMachine.invariant (motive := Tracked) ?_ ?_ ⟨events, reached⟩).exact
  · constructor <;> simp [processMachine]
  · intro s event t _ tracked moved
    exact step_tracked tracked moved

def firstProcess : Process := ⟨0x10, 4, by decide⟩
def secondProcess : Process := ⟨0x20, 8, by decide⟩
-- The same id and `EPROCESS` again, after the first owner is gone.
def thirdProcess : Process := ⟨0x10, 4, by decide⟩

def interleavedEvents : List ProcessEvent :=
  [.insert firstProcess 0, .destroyFind firstProcess, .insert secondProcess 1,
    .run (fun e => if e = 0x10 then 4 else 8), .destroyRemove firstProcess, .insert thirdProcess 0,
    .run (fun e => if e = 0x10 then 4 else 8)]

theorem interleaved_process_list_exact :
    ∃ s, processMachine.run interleavedEvents = some s ∧
      s.processList = [⟨1, 0x20, 8⟩, ⟨0, 0x10, 4⟩] ∧ Exact s := by
  refine ⟨_, rfl, by decide, ?_⟩
  exact process_list_exact interleavedEvents _ rfl

end VirtueSensing.Driver
