import Mathlib.Data.List.Nodup
import Mathlib.Data.List.ReduceOption
import Mathlib.Data.List.TakeWhile
import VirtueSensing.Kernel.LockDiscipline
import VirtueSensing.Kernel.LsofSensor
import VirtueSensing.Shared.Lists

set_option autoImplicit false

/-!
# Descriptor tables

`kernel_lsof_unlocked` walks the table of each task up to its first null pointer, and the array of
pids up to its first element of another run.
-/

namespace VirtueSensing.Kernel

/-- A table of descriptors. The pointers that memory holds behind it are taken for files too, up to the
first one that is null. -/
structure FdTable where
  fd : List (Option File)
  beyond : List File

structure LsofTask extends Task where
  alive : Bool
  files : Option FdTable

/-- `file_index` and the array, the descriptors that were read, each with the size of its table, and
the pid and descriptor behind each record. -/
structure FileWalk where
  start : Nat
  data : FlexArray LsofData
  reads : List (Nat × Nat)
  stored : List (Int × Nat)

namespace FdTable

def slots (table : FdTable) : List (Option File) := table.fd ++ table.beyond.map some

-- What a walk takes for files, and the descriptors that are open.
def walked (table : FdTable) : List File := (table.slots.takeWhile Option.isSome).reduceOption

def opened (table : FdTable) : List Nat :=
  (List.range table.fd.length).filter fun i => (table.fd[i]?.join).isSome

end FdTable

namespace LsofTask

-- The tables that are walked are those of tasks that are alive.
def table (t : LsofTask) : Option FdTable := if t.alive then t.files else none

def filesTask (t : LsofTask) (table : FdTable) : FilesTask :=
  ⟨Int32.ofInt t.pid, t.uid, table.walked⟩

def openDescriptors (t : LsofTask) : List (Int × Nat) :=
  match t.table with
  | none => []
  | some table => table.opened.map fun i => (t.pid, i)

end LsofTask

namespace FileWalk

def read (w : FileWalk) (i size : Nat) : FileWalk := { w with reads := w.reads ++ [(i, size)] }

def store (w : FileWalk) (pid : Int) (i : Nat) (data : LsofData) : FileWalk :=
  { w with
    start := w.start + 1
    data := w.data.put w.start data
    stored := w.stored ++ [(pid, i)] }

end FileWalk

def walkFiles (nonce : UInt64) (t : LsofTask) (table : FdTable) :
    List (Option File) → Nat → FileWalk → Int × FileWalk
  | [], i, w | none :: _, i, w => (0, w.read i table.fd.length)
  | some f :: rest, i, w =>
    let w := w.read i table.fd.length
    if w.start < w.data.size then
      walkFiles nonce t table rest (i + 1) (w.store t.pid i (f.lsofData (t.filesTask table) nonce))
    else (enomem, w)

def lsofGetFilesStructTraced (nonce : UInt64) (t : LsofTask) (w : FileWalk) : Int × FileWalk :=
  match t.table with
  | none => (0, w)
  | some table => walkFiles nonce t table table.slots 0 w

-- `lsof_for_each_pid_unlocked`, with the turns that are left. The result of a walk is not looked at.
def lsofForEachPidTraced (nonce : UInt64) (tasks : List LsofTask) (pids : FlexArray PidEl) :
    Nat → Nat → FileWalk → Int × FileWalk
  | 0, _, w => (w.start, w)
  | turns + 1, index, w =>
    match pids.get index with
    | none => (enomem, w)
    | some el =>
      if el.nonce ≠ nonce then (w.start, w)
      else
        match tasks.find? fun t => t.pid = el.pid with
        | none => lsofForEachPidTraced nonce tasks pids turns (index + 1) w
        | some t => lsofForEachPidTraced nonce tasks pids turns (index + 1) (lsofGetFilesStructTraced nonce t w).2

def kernelLsofTraced (nonce : UInt64) (tasks : List LsofTask) (pids : FlexArray PidEl)
    (data : FlexArray LsofData) : Int × FileWalk :=
  let index := (buildPidIndexUnlocked pids.size nonce (tasks.map LsofTask.toTask) pids Locks.none).2.1
  lsofForEachPidTraced nonce tasks index index.size 0 ⟨0, data, [], []⟩

/-- From `w` on, these reads and stores happen, unless the array is full before. -/
structure Advances (w : FileWalk) (reads : List (Nat × Nat)) (stored : List (Int × Nat))
    (out : FileWalk) : Prop where
  size : out.data.size = w.data.size
  start : out.start = min (w.start + stored.length) w.data.size
  count : out.start + w.stored.length = w.start + out.stored.length
  whole : w.start + stored.length ≤ w.data.size →
    out.reads = w.reads ++ reads ∧ out.stored = w.stored ++ stored

theorem Advances.refl {w : FileWalk} (inside : w.start ≤ w.data.size) : Advances w [] [] w :=
  ⟨rfl, (Nat.min_eq_left inside).symm, rfl, fun _ => by simp⟩

theorem Advances.inside {w out : FileWalk} {reads : List (Nat × Nat)} {stored : List (Int × Nat)}
    (advances : Advances w reads stored out) : out.start ≤ out.data.size := by
  rw [advances.start, advances.size]
  exact Nat.min_le_right _ _

theorem Advances.trans {w v out : FileWalk} {reads moreReads : List (Nat × Nat)}
    {stored moreStored : List (Int × Nat)} (first : Advances w reads stored v)
    (second : Advances v moreReads moreStored out) :
    Advances w (reads ++ moreReads) (stored ++ moreStored) out := by
  have start := second.start
  rw [first.size, first.start] at start
  refine ⟨second.size.trans first.size, ?_, ?_, fun room => ?_⟩
  · rw [start, List.length_append]
    omega
  · have firstCount := first.count
    have secondCount := second.count
    omega
  · rw [List.length_append] at room
    obtain ⟨firstReads, firstStored⟩ := first.whole (by omega)
    obtain ⟨secondReads, secondStored⟩ := second.whole (by rw [first.size, first.start]; omega)
    rw [secondReads, firstReads, secondStored, firstStored]
    simp only [List.append_assoc, and_self]

section Walk

variable (nonce : UInt64) (t : LsofTask)

theorem read_advances {w : FileWalk} (inside : w.start ≤ w.data.size) (i size : Nat) :
    Advances w [(i, size)] [] (w.read i size) :=
  ⟨rfl, (Nat.min_eq_left inside).symm, rfl, fun _ => ⟨rfl, (List.append_nil _).symm⟩⟩

theorem store_advances {w : FileWalk} (room : w.start < w.data.size) (i : Nat) (data : LsofData) :
    Advances w [] [(t.pid, i)] (w.store t.pid i data) := by
  refine ⟨w.data.size_put w.start data, (Nat.min_eq_left room).symm, ?_,
    fun _ => ⟨(List.append_nil _).symm, rfl⟩⟩
  simp only [FileWalk.store, List.length_append, List.length_singleton]
  omega

theorem full_advances {w : FileWalk} (full : w.start = w.data.size) (i size : Nat)
    (reads : List (Nat × Nat)) {stored : List (Int × Nat)} (more : stored ≠ []) :
    Advances w reads stored (w.read i size) := by
  have positive := List.length_pos_iff.mpr more
  refine ⟨rfl, ?_, rfl, fun room => ?_⟩
  · show w.start = _
    omega
  · omega

theorem walkFiles_advances (table : FdTable) (slots : List (Option File)) (i : Nat) {w : FileWalk}
    (inside : w.start ≤ w.data.size) :
    Advances w ((List.range' i ((slots.takeWhile Option.isSome).length + 1)).map (·, table.fd.length))
      ((List.range' i (slots.takeWhile Option.isSome).length).map (t.pid, ·))
      (walkFiles nonce t table slots i w).2 := by
  induction slots generalizing i w with
  | nil => exact read_advances inside i table.fd.length
  | cons slot rest ih =>
    cases slot with
    | none => exact read_advances inside i table.fd.length
    | some f =>
      have first := read_advances inside i table.fd.length
      rw [List.takeWhile_cons_of_pos rfl, List.length_cons, List.range'_succ, List.range'_succ,
        List.map_cons, List.map_cons]
      by_cases room : w.start < w.data.size
      · have stored := store_advances t (w := w.read i table.fd.length) room i
          (f.lsofData (t.filesTask table) nonce)
        have later := ih (i + 1) stored.inside
        have turn : walkFiles nonce t table (some f :: rest) i w =
            walkFiles nonce t table rest (i + 1) ((w.read i table.fd.length).store t.pid i
              (f.lsofData (t.filesTask table) nonce)) := if_pos room
        rw [turn]
        exact (first.trans stored).trans later
      · have turn : walkFiles nonce t table (some f :: rest) i w =
            (enomem, w.read i table.fd.length) := if_neg room
        rw [turn]
        exact full_advances (Nat.le_antisymm inside (Nat.not_lt.mp room)) i _ _ (by simp)

end Walk

namespace LsofTask

def readDescriptors (t : LsofTask) : List (Nat × Nat) :=
  match t.table with
  | none => []
  | some table => (List.range (table.walked.length + 1)).map (·, table.fd.length)

def walkedDescriptors (t : LsofTask) : List (Int × Nat) :=
  match t.table with
  | none => []
  | some table => (List.range table.walked.length).map (t.pid, ·)

end LsofTask

theorem FdTable.length_walked (table : FdTable) :
    table.walked.length = (table.slots.takeWhile Option.isSome).length := by
  rw [FdTable.walked, List.reduceOption_length_eq_iff]
  exact fun slot member => List.mem_takeWhile_imp member

theorem lsofGetFilesStructTraced_advances (nonce : UInt64) (t : LsofTask) {w : FileWalk}
    (inside : w.start ≤ w.data.size) :
    Advances w t.readDescriptors t.walkedDescriptors (lsofGetFilesStructTraced nonce t w).2 := by
  unfold lsofGetFilesStructTraced LsofTask.readDescriptors LsofTask.walkedDescriptors
  cases t.table with
  | none => exact .refl inside
  | some table =>
    have walk := walkFiles_advances nonce t table table.slots 0 inside
    simpa only [table.length_walked, List.range_eq_range'] using walk

def visits (tasks : List LsofTask) (els : List PidEl) : List LsofTask :=
  els.filterMap fun el => tasks.find? fun t => t.pid = el.pid

def FileWalk.visit (nonce : UInt64) (w : FileWalk) (t : LsofTask) : FileWalk :=
  (lsofGetFilesStructTraced nonce t w).2

theorem visits_advance (nonce : UInt64) (ts : List LsofTask) {w : FileWalk}
    (inside : w.start ≤ w.data.size) :
    Advances w (ts.flatMap LsofTask.readDescriptors) (ts.flatMap LsofTask.walkedDescriptors)
      (ts.foldl (FileWalk.visit nonce) w) := by
  induction ts generalizing w with
  | nil => exact .refl inside
  | cons t rest ih =>
    have first := lsofGetFilesStructTraced_advances nonce t inside
    exact first.trans (ih first.inside)

-- The elements from an index on, up to the first that another run has left.
def elements (nonce : UInt64) (pids : FlexArray PidEl) (index turns : Nat) : List PidEl :=
  ((List.range' index turns).map pids.slot).takeWhile fun el => el.nonce = nonce

theorem lsofForEachPidTraced_eq (nonce : UInt64) (tasks : List LsofTask) (pids : FlexArray PidEl)
    (turns index : Nat) (w : FileWalk) (inside : index + turns ≤ pids.size) :
    lsofForEachPidTraced nonce tasks pids turns index w =
      ((((visits tasks (elements nonce pids index turns)).foldl (FileWalk.visit nonce) w).start : Int),
        (visits tasks (elements nonce pids index turns)).foldl (FileWalk.visit nonce) w) := by
  induction turns generalizing index w with
  | zero => rfl
  | succ turns ih =>
    rw [lsofForEachPidTraced, pids.get_eq_some (by omega), elements, List.range'_succ, List.map_cons]
    by_cases same : (pids.slot index).nonce = nonce
    · rw [List.takeWhile_cons_of_pos (by simpa using same), visits, List.filterMap_cons]
      dsimp only
      rw [if_neg (not_not_intro same)]
      cases tasks.find? fun t => t.pid = (pids.slot index).pid with
      | none => exact ih (index + 1) w (by omega)
      | some t => exact ih (index + 1) _ (by omega)
    · rw [List.takeWhile_cons_of_neg (by simpa using same)]
      exact if_pos same

def Task.pidEl (nonce : UInt64) (t : Task) : PidEl := ⟨t.pid, t.uid, nonce⟩

/-- The index holds the tasks of the run, and behind them what it held before. -/
structure Indexed (nonce : UInt64) (tasks : List Task) (index : Nat) (before after : FlexArray PidEl) :
    Prop where
  size : after.size = before.size
  stored : ∀ i t, tasks[i]? = some t → after.slot (index + i) = t.pidEl nonce
  others : ∀ j, j < index ∨ index + tasks.length ≤ j → after.slot j = before.slot j

theorem buildPidIndexUnlocked_go_indexed (nonce : UInt64) (tasks : List Task) (index : Nat)
    (a : FlexArray PidEl) (l : Locks SpinLock) {size : Nat} (same : a.size = size)
    (room : index + tasks.length ≤ size) :
    Indexed nonce tasks index a (buildPidIndexUnlocked.go size nonce tasks index a l).2.1 := by
  induction tasks generalizing index a with
  | nil => exact ⟨rfl, by simp, fun _ _ => rfl⟩
  | cons t rest ih =>
    rw [List.length_cons] at room
    rw [buildPidIndexUnlocked.go, if_pos (by omega)]
    obtain ⟨kept, stored, others⟩ := ih (index + 1) (a.put index (t.pidEl nonce))
      (by rw [FlexArray.size_put, same]) (by omega)
    refine ⟨by rw [← FlexArray.size_put a index (t.pidEl nonce)]; exact kept, ?_, ?_⟩
    · intro i u found
      cases i with
      | zero =>
        obtain rfl : t = u := by simpa using found
        have first := others index (.inl (by omega))
        rw [FlexArray.slot_put_same a (by omega)] at first
        exact first
      | succ i =>
        have later := stored i u (by simpa using found)
        rwa [Nat.add_assoc, Nat.add_comm 1 i] at later
    · intro j outside
      rw [List.length_cons] at outside
      have kept := others j (by omega)
      rw [FlexArray.slot_put_other a (by omega)] at kept
      exact kept

section Index

variable (nonce : UInt64) {tasks : List LsofTask} {pids : FlexArray PidEl}

theorem elements_indexed {after : FlexArray PidEl}
    (indexed : Indexed nonce (tasks.map LsofTask.toTask) 0 pids after)
    (room : tasks.length ≤ pids.size) :
    elements nonce after 0 pids.size = tasks.map (fun t => t.toTask.pidEl nonce) ++
      elements nonce pids tasks.length (pids.size - tasks.length) := by
  obtain ⟨-, stored, others⟩ := indexed
  have split : List.range' 0 pids.size =
      List.range' 0 tasks.length ++ List.range' tasks.length (pids.size - tasks.length) := by
    have parts := @List.range'_append_1 0 tasks.length (pids.size - tasks.length)
    rw [Nat.zero_add, Nat.add_sub_cancel' room] at parts
    exact parts.symm
  have first : (List.range' 0 tasks.length).map after.slot =
      tasks.map fun t => t.toTask.pidEl nonce := by
    apply List.ext_getElem (by simp)
    intro i inside _
    simp only [List.length_map, List.length_range'] at inside
    have here := stored i tasks[i].toTask (by simp [inside])
    simpa using here
  have rest : (List.range' tasks.length (pids.size - tasks.length)).map after.slot =
      (List.range' tasks.length (pids.size - tasks.length)).map pids.slot := by
    apply List.map_congr_left
    intro j member
    have behind := (List.mem_range'_1.mp member).1
    exact others j (.inr (by simpa using behind))
  rw [elements, split, List.map_append, first, rest, List.takeWhile_append_of_pos, elements]
  intro el member
  obtain ⟨t, -, rfl⟩ := List.mem_map.mp member
  exact decide_eq_true rfl

theorem visits_tasks (distinct : (tasks.map fun t => t.pid).Nodup) :
    visits tasks (tasks.map fun t => t.toTask.pidEl nonce) = tasks := by
  rw [visits, List.filterMap_map]
  refine (List.filterMap_congr fun t member => ?_).trans List.filterMap_some
  exact Lists.find?_of_nodup distinct member

end Index

namespace FdTable

theorem mem_opened {table : FdTable} {i : Nat} :
    i ∈ table.opened ↔ (table.fd[i]?.join).isSome := by
  rw [opened, List.mem_filter, List.mem_range, and_iff_right_iff_imp]
  intro isOpen
  by_contra outside
  simp [List.getElem?_eq_none (Nat.not_lt.mp outside)] at isOpen

theorem takeWhile_slots {fd beyond : List (Option File)}
    (inside : ((fd ++ beyond).takeWhile Option.isSome).length < fd.length) :
    (∀ i < ((fd ++ beyond).takeWhile Option.isSome).length, (fd[i]?.join).isSome) ∧
      ¬ (fd[((fd ++ beyond).takeWhile Option.isSome).length]?.join).isSome := by
  induction fd with
  | nil => cases inside
  | cons slot fd ih =>
    cases slot with
    | none => exact ⟨nofun, by simp⟩
    | some f =>
      rw [List.cons_append, List.takeWhile_cons_of_pos rfl, List.length_cons] at inside ⊢
      obtain ⟨before, stops⟩ := ih (Nat.lt_of_succ_lt_succ inside)
      refine ⟨fun i earlier => ?_, by simpa using stops⟩
      cases i with
      | zero => simp
      | succ i => simpa using before i (Nat.lt_of_succ_lt_succ earlier)

theorem length_takeWhile_slots {fd beyond : List (Option File)} {k : Nat}
    (before : ∀ i < k, (fd[i]?.join).isSome) (stops : ¬ (fd[k]?.join).isSome) (inside : k < fd.length) :
    ((fd ++ beyond).takeWhile Option.isSome).length = k := by
  induction fd generalizing k with
  | nil => cases inside
  | cons slot fd ih =>
    cases slot with
    | none =>
      cases k with
      | zero => rfl
      | succ k => exact absurd (before 0 k.succ_pos) (by simp)
    | some f =>
      cases k with
      | zero => exact absurd stops (by simp)
      | succ k =>
        rw [List.cons_append, List.takeWhile_cons_of_pos rfl, List.length_cons,
          ih (fun i earlier => by simpa using before (i + 1) (Nat.succ_lt_succ earlier))
            (by simpa using stops) (Nat.lt_of_succ_lt_succ inside)]

theorem walked_mem_opened {table : FdTable} (inside : table.walked.length < table.fd.length) {i : Nat}
    (earlier : i < table.walked.length) : i ∈ table.opened := by
  rw [length_walked] at inside earlier
  exact mem_opened.mpr ((takeWhile_slots inside).1 i earlier)

/-- The open descriptors come first, and one that is closed stands behind them. -/
def Dense (table : FdTable) : Prop := ∃ k < table.fd.length, ∀ i, i ∈ table.opened ↔ i < k

theorem dense_iff {table : FdTable} :
    table.Dense ↔ table.walked.length < table.fd.length ∧
      ∀ i, i ∈ table.opened ↔ i < table.walked.length := by
  constructor
  · rintro ⟨k, closed, first⟩
    have length : table.walked.length = k := by
      rw [length_walked]
      refine length_takeWhile_slots (fun i earlier => ?_) ?_ closed
      · exact mem_opened.mp ((first i).mpr earlier)
      · rw [← mem_opened, first]
        exact Nat.lt_irrefl k
    rw [length]
    exact ⟨closed, first⟩
  · rintro ⟨inside, first⟩
    exact ⟨_, inside, first⟩

theorem opened_nodup (table : FdTable) : table.opened.Nodup := List.nodup_range.filter _

end FdTable

namespace LsofTask

variable {t : LsofTask}

theorem mem_openDescriptors {pid : Int} {i : Nat} :
    (pid, i) ∈ t.openDescriptors ↔ t.pid = pid ∧ ∃ table, t.table = some table ∧ i ∈ table.opened := by
  unfold openDescriptors
  cases t.table with
  | none => simp
  | some table => simp [and_comm]

theorem mem_walkedDescriptors {pid : Int} {i : Nat} :
    (pid, i) ∈ t.walkedDescriptors ↔
      t.pid = pid ∧ ∃ table, t.table = some table ∧ i < table.walked.length := by
  unfold walkedDescriptors
  cases t.table with
  | none => simp
  | some table => simp [and_comm]

theorem openDescriptors_nodup (t : LsofTask) : t.openDescriptors.Nodup := by
  unfold openDescriptors
  cases t.table with
  | none => exact List.nodup_nil
  | some table => exact table.opened_nodup.map fun i j same => (Prod.mk.inj same).2

theorem walkedDescriptors_nodup (t : LsofTask) : t.walkedDescriptors.Nodup := by
  unfold walkedDescriptors
  cases t.table with
  | none => exact List.nodup_nil
  | some table => exact List.nodup_range.map fun i j same => (Prod.mk.inj same).2

theorem walked_perm_open (dense : ∀ table, t.table = some table → table.Dense) :
    t.walkedDescriptors.Perm t.openDescriptors := by
  rw [List.perm_ext_iff_of_nodup t.walkedDescriptors_nodup t.openDescriptors_nodup]
  rintro ⟨pid, i⟩
  rw [mem_walkedDescriptors, mem_openDescriptors]
  refine and_congr_right fun _ => exists_congr fun table => and_congr_right fun there => ?_
  exact ((FdTable.dense_iff.mp (dense table there)).2 i).symm

theorem reads_inside (dense : ∀ table, t.table = some table → table.Dense) :
    ∀ r ∈ t.readDescriptors, r.1 < r.2 := by
  unfold readDescriptors
  cases there : t.table with
  | none => nofun
  | some table =>
    have inside := (FdTable.dense_iff.mp (dense table there)).1
    simp only [List.forall_mem_map, List.mem_range]
    intro i earlier
    omega

theorem walked_inside (inside : ∀ r ∈ t.readDescriptors, r.1 < r.2) {table : FdTable}
    (there : t.table = some table) : table.walked.length < table.fd.length := by
  rw [readDescriptors, there] at inside
  exact inside (table.walked.length, table.fd.length) (List.mem_map_of_mem (by simp))

end LsofTask

/-- The processes of the system, which differ in their pids. -/
structure Processes where
  tasks : List LsofTask
  distinct : (tasks.map fun t => t.pid).Nodup

namespace Processes

variable (p : Processes)

def openDescriptors : List (Int × Nat) := p.tasks.flatMap LsofTask.openDescriptors

-- The tasks that an earlier run with the same nonce makes the sensor visit once more.
def visitedAgain (nonce : UInt64) (pids : FlexArray PidEl) : List LsofTask :=
  visits p.tasks (elements nonce pids p.tasks.length (pids.size - p.tasks.length))

theorem openDescriptors_nodup : p.openDescriptors.Nodup := by
  rw [openDescriptors, List.nodup_flatMap]
  refine ⟨fun t _ => t.openDescriptors_nodup, ?_⟩
  refine (List.pairwise_map.mp p.distinct).imp fun {t u} differ => ?_
  rintro ⟨pid, i⟩ first second
  exact differ ((LsofTask.mem_openDescriptors.mp first).1.trans
    (LsofTask.mem_openDescriptors.mp second).1.symm)

theorem eq_of_pid {t u : LsofTask} (first : t ∈ p.tasks) (second : u ∈ p.tasks)
    (same : t.pid = u.pid) : t = u :=
  List.inj_on_of_nodup_map p.distinct first second same

end Processes

def Processes.record (p : Processes) (nonce : UInt64) (d : Int × Nat) : Option LsofData := do
  let t ← p.tasks.find? fun t => t.pid = d.1
  let table ← t.table
  let f ← table.fd[d.2]?.join
  return f.lsofData (t.filesTask table) nonce

/-- The array holds the records of the descriptors that were stored, in this order, and behind them what
it held before. -/
structure InArray (p : Processes) (nonce : UInt64) (before : FlexArray LsofData) (w : FileWalk) : Prop where
  size : w.data.size = before.size
  start : w.start = w.stored.length
  records : ∀ k d, w.stored[k]? = some d → p.record nonce d = some (w.data.slot k)
  others : ∀ k, w.stored.length ≤ k → w.data.slot k = before.slot k

/-- What the sensor should do: have one record of every open descriptor in the array and read inside of
the tables, or refuse what finds no room. -/
structure LsofComplete (p : Processes) (nonce : UInt64) (pidSize : Nat) (before : FlexArray LsofData)
    (out : Int × FileWalk) : Prop where
  recorded : p.openDescriptors.length < before.size ∧ p.tasks.length < pidSize →
    InArray p nonce before out.2 ∧ out.1 = out.2.stored.length ∧
      out.2.stored.Perm p.openDescriptors ∧ ∀ r ∈ out.2.reads, r.1 < r.2
  refused : ¬ (p.openDescriptors.length < before.size ∧ p.tasks.length < pidSize) → out.1 < 0

section Records

variable {p : Processes} {nonce : UInt64} {before : FlexArray LsofData} {w : FileWalk}

theorem InArray.read (inArray : InArray p nonce before w) (i size : Nat) :
    InArray p nonce before (w.read i size) :=
  ⟨inArray.size, inArray.start, inArray.records, inArray.others⟩

theorem InArray.store (inArray : InArray p nonce before w) {t : LsofTask} {i : Nat} {data : LsofData}
    (room : w.start < w.data.size) (known : p.record nonce (t.pid, i) = some data) :
    InArray p nonce before (w.store t.pid i data) := by
  have start := inArray.start
  refine ⟨?_, ?_, fun k d found => ?_, fun k behind => ?_⟩
  · exact (FlexArray.size_put ..).trans inArray.size
  · simp [FileWalk.store, start]
  · simp only [FileWalk.store] at found ⊢
    by_cases older : k < w.stored.length
    · rw [List.getElem?_append_left older] at found
      rw [FlexArray.slot_put_other _ (by omega)]
      exact inArray.records k d found
    · rw [List.getElem?_append_right (Nat.not_lt.mp older)] at found
      have here : k = w.start := by
        have inside := (List.getElem?_eq_some_iff.mp found).1
        simp only [List.length_singleton] at inside
        omega
      subst here
      rw [start, Nat.sub_self] at found
      obtain rfl : (t.pid, i) = d := by simpa using found
      rw [FlexArray.slot_put_same _ room]
      exact known
  · simp only [FileWalk.store, List.length_append, List.length_singleton] at behind ⊢
    rw [FlexArray.slot_put_other _ (by omega)]
    exact inArray.others k (by omega)

theorem Processes.record_of_slot {t : LsofTask} (member : t ∈ p.tasks) {table : FdTable}
    (there : t.table = some table) {i : Nat} {f : File} (isOpen : table.fd[i]? = some (some f)) :
    p.record nonce (t.pid, i) = some (f.lsofData (t.filesTask table) nonce) := by
  have found : p.tasks.find? (fun u => u.pid = t.pid) = some t := Lists.find?_of_nodup p.distinct member
  simp [Processes.record, found, there, isOpen]

theorem walkFiles_inArray {t : LsofTask} (member : t ∈ p.tasks) {table : FdTable}
    (there : t.table = some table) (slots : List (Option File)) (i : Nat)
    (own : ∀ j < (slots.takeWhile Option.isSome).length, table.fd[i + j]? = slots[j]?)
    (inArray : InArray p nonce before w) : InArray p nonce before (walkFiles nonce t table slots i w).2 := by
  induction slots generalizing i w with
  | nil => exact inArray.read i _
  | cons slot rest ih =>
    cases slot with
    | none => exact inArray.read i _
    | some f =>
      rw [List.takeWhile_cons_of_pos rfl, List.length_cons] at own
      have here : table.fd[i]? = some (some f) := own 0 (Nat.succ_pos _)
      rw [walkFiles]
      by_cases room : (w.read i table.fd.length).start < (w.read i table.fd.length).data.size
      · rw [if_pos room]
        refine ih (i + 1) (fun j earlier => ?_)
          ((inArray.read i table.fd.length).store room (p.record_of_slot member there here))
        have later := own (j + 1) (Nat.succ_lt_succ earlier)
        rwa [Nat.add_comm j 1, ← Nat.add_assoc, Nat.add_comm 1 j] at later
      · rw [if_neg room]
        exact inArray.read i table.fd.length

theorem visits_inArray (dense : ∀ t ∈ p.tasks, ∀ table, t.table = some table → table.Dense)
    (ts : List LsofTask) (listed : ∀ t ∈ ts, t ∈ p.tasks) (inArray : InArray p nonce before w) :
    InArray p nonce before (ts.foldl (FileWalk.visit nonce) w) := by
  induction ts generalizing w with
  | nil => exact inArray
  | cons t rest ih =>
    obtain ⟨member, others⟩ := List.forall_mem_cons.mp listed
    refine ih others ?_
    rw [FileWalk.visit, lsofGetFilesStructTraced]
    cases there : t.table with
    | none => exact inArray
    | some table =>
      have inside := (FdTable.dense_iff.mp (dense t member table there)).1
      refine walkFiles_inArray member there table.slots 0 (fun j earlier => ?_) inArray
      rw [← FdTable.length_walked] at earlier
      rw [Nat.zero_add, FdTable.slots, List.getElem?_append_left (by omega)]

end Records

section Complete

variable (nonce : UInt64) (p : Processes) (pids : FlexArray PidEl) (data : FlexArray LsofData)

theorem mem_visits {tasks : List LsofTask} {els : List PidEl} {t : LsofTask}
    (visited : t ∈ visits tasks els) : t ∈ tasks := by
  obtain ⟨el, -, found⟩ := List.mem_filterMap.mp visited
  exact List.mem_of_find?_eq_some found

-- The result is a number of records, also where the index of pids or the array was too small.
theorem kernelLsofTraced_count :
    (kernelLsofTraced nonce p.tasks pids data).1 =
      ((kernelLsofTraced nonce p.tasks pids data).2.start : Int) := by
  rw [kernelLsofTraced, lsofForEachPidTraced_eq _ _ _ _ _ _ (by rw [Nat.zero_add])]

theorem kernelLsofTraced_nonneg : 0 ≤ (kernelLsofTraced nonce p.tasks pids data).1 := by
  rw [kernelLsofTraced_count]
  exact Int.natCast_nonneg _

theorem kernelLsofTraced_visits (room : p.tasks.length ≤ pids.size) :
    (kernelLsofTraced nonce p.tasks pids data).2 =
      (p.tasks ++ p.visitedAgain nonce pids).foldl (FileWalk.visit nonce) ⟨0, data, [], []⟩ := by
  have indexed := buildPidIndexUnlocked_go_indexed nonce (p.tasks.map LsofTask.toTask) 0 pids
    Locks.none.rcuReadLock rfl (by simpa using room)
  have visited := visits_tasks nonce p.distinct
  rw [kernelLsofTraced, lsofForEachPidTraced_eq _ _ _ _ _ _ (by rw [Nat.zero_add])]
  dsimp only
  rw [buildPidIndexUnlocked, indexed.size, elements_indexed nonce indexed room]
  unfold visits at visited ⊢
  rw [List.filterMap_append, visited]
  rfl

theorem walkFiles_eq (t : LsofTask) (table : FdTable) (slots : List (Option File)) (i : Nat)
    (w : FileWalk) :
    lsofGetFilesStruct nonce (t.filesTask table) (slots.takeWhile Option.isSome).reduceOption w.start
        w.data =
      ((walkFiles nonce t table slots i w).1, (walkFiles nonce t table slots i w).2.start,
        (walkFiles nonce t table slots i w).2.data) := by
  induction slots generalizing i w with
  | nil => rfl
  | cons slot rest ih =>
    cases slot with
    | none => rfl
    | some f =>
      rw [List.takeWhile_cons_of_pos rfl, List.reduceOption_cons_of_some, lsofGetFilesStruct, walkFiles]
      by_cases room : w.start < w.data.size
      · have read : (w.read i table.fd.length).start < (w.read i table.fd.length).data.size := room
        rw [if_pos room]
        rw [if_pos read]
        exact ih (i + 1) ((w.read i table.fd.length).store t.pid i (f.lsofData (t.filesTask table) nonce))
      · have read : ¬ (w.read i table.fd.length).start < (w.read i table.fd.length).data.size := room
        rw [if_neg room]
        rw [if_neg read]
        rfl

theorem visits_eq (ts : List LsofTask) (w : FileWalk) :
    lsofForEachPidUnlocked nonce (ts.filterMap fun t => t.table.map t.filesTask) w.start w.data =
      (((ts.foldl (FileWalk.visit nonce) w).start : Int),
        (ts.foldl (FileWalk.visit nonce) w).data) := by
  induction ts generalizing w with
  | nil => rfl
  | cons t rest ih =>
    rw [List.foldl_cons, ← ih, List.filterMap_cons, FileWalk.visit, lsofGetFilesStructTraced]
    cases there : t.table with
    | none => rfl
    | some table =>
      have walk := walkFiles_eq nonce t table table.slots 0 w
      show lsofForEachPidUnlocked nonce (t.filesTask table :: _) w.start w.data = _
      rw [lsofForEachPidUnlocked]
      simp only [LsofTask.filesTask, FdTable.walked] at walk ⊢
      rw [walk]

-- The records are those of the walk over the files before the first closed descriptor.
theorem kernelLsofTraced_records (room : p.tasks.length ≤ pids.size) :
    kernelLsofUnlocked nonce
        ((p.tasks ++ p.visitedAgain nonce pids).filterMap fun t => t.table.map t.filesTask) data =
      ((kernelLsofTraced nonce p.tasks pids data).1,
        (kernelLsofTraced nonce p.tasks pids data).2.data) := by
  rw [kernelLsofTraced_count, kernelLsofTraced_visits nonce p pids data room]
  exact visits_eq nonce _ ⟨0, data, [], []⟩

variable {nonce p pids data}

theorem LsofComplete.sound (complete : LsofComplete p nonce pids.size data
      (kernelLsofTraced nonce p.tasks pids data)) :
    p.openDescriptors.length < data.size ∧ p.tasks.length < pids.size ∧
      (∀ t ∈ p.tasks, ∀ table, t.table = some table → table.Dense) ∧
      ∀ t ∈ p.visitedAgain nonce pids, t.openDescriptors = [] := by
  have bounds : p.openDescriptors.length < data.size ∧ p.tasks.length < pids.size := by
    by_contra past
    exact absurd (complete.refused past) (Int.not_lt.mpr (kernelLsofTraced_nonneg nonce p pids data))
  obtain ⟨-, -, stored, reads⟩ := complete.recorded bounds
  rw [kernelLsofTraced_visits nonce p pids data (Nat.le_of_lt bounds.2)] at stored reads
  have advances := visits_advance nonce (p.tasks ++ p.visitedAgain nonce pids)
    (w := ⟨0, data, [], []⟩) (Nat.zero_le _)
  -- Fewer records than the array has room for: no walk was cut short.
  have whole := advances.whole (by
    have count := advances.count
    have start := advances.start
    have length := stored.length_eq
    simp only [List.length_nil, Nat.zero_add] at count start ⊢
    omega)
  rw [whole.1, List.nil_append, List.flatMap_append, List.forall_mem_append] at reads
  rw [whole.2, List.nil_append, List.flatMap_append] at stored
  have inside : ∀ t ∈ p.tasks, ∀ table, t.table = some table →
      table.walked.length < table.fd.length := by
    intro t member table there
    exact LsofTask.walked_inside
      (fun r read => reads.1 r (List.mem_flatMap.mpr ⟨t, member, read⟩)) there
  have dense : ∀ t ∈ p.tasks, ∀ table, t.table = some table → table.Dense := by
    intro t member table there
    refine FdTable.dense_iff.mpr ⟨inside t member table there, fun i => ⟨fun opened => ?_, ?_⟩⟩
    · have recorded : (t.pid, i) ∈ p.tasks.flatMap LsofTask.walkedDescriptors ++
          (p.visitedAgain nonce pids).flatMap LsofTask.walkedDescriptors :=
        stored.mem_iff.mpr (List.mem_flatMap.mpr
          ⟨t, member, LsofTask.mem_openDescriptors.mpr ⟨rfl, table, there, opened⟩⟩)
      obtain ⟨u, visited, walked⟩ := List.mem_flatMap.mp (List.flatMap_append ▸ recorded)
      obtain ⟨same, table', there', earlier⟩ := LsofTask.mem_walkedDescriptors.mp walked
      have listed : u ∈ p.tasks := (List.mem_append.mp visited).elim id mem_visits
      obtain rfl := p.eq_of_pid listed member same
      obtain rfl := Option.some.inj (there.symm.trans there')
      exact earlier
    · exact FdTable.walked_mem_opened (inside t member table there)
  refine ⟨bounds.1, bounds.2, dense, fun t again => ?_⟩
  have apart := (List.nodup_append.mp (stored.nodup_iff.mpr p.openDescriptors_nodup)).2.2
  have walked := LsofTask.walked_perm_open (dense t (mem_visits again))
  rw [List.eq_nil_iff_forall_not_mem]
  intro entry opened
  have twice := walked.mem_iff.mpr opened
  exact apart entry (List.mem_flatMap.mpr ⟨t, mem_visits again, twice⟩) entry
    (List.mem_flatMap.mpr ⟨t, again, twice⟩) rfl

theorem LsofComplete.of_dense (room : p.openDescriptors.length < data.size)
    (few : p.tasks.length < pids.size)
    (dense : ∀ t ∈ p.tasks, ∀ table, t.table = some table → table.Dense)
    (again : ∀ t ∈ p.visitedAgain nonce pids, t.openDescriptors = []) :
    LsofComplete p nonce pids.size data (kernelLsofTraced nonce p.tasks pids data) := by
  refine ⟨fun _ => ?_, fun past => absurd ⟨room, few⟩ past⟩
  rw [kernelLsofTraced_count, kernelLsofTraced_visits nonce p pids data (Nat.le_of_lt few)]
  have inArray : InArray p nonce data ((p.tasks ++ p.visitedAgain nonce pids).foldl
      (FileWalk.visit nonce) ⟨0, data, [], []⟩) := by
    refine visits_inArray dense _ (fun t visited => ?_) ⟨rfl, rfl, nofun, fun _ _ => rfl⟩
    exact (List.mem_append.mp visited).elim id mem_visits
  refine ⟨inArray, congrArg Nat.cast inArray.start, ?_⟩
  have advances := visits_advance nonce (p.tasks ++ p.visitedAgain nonce pids)
    (w := ⟨0, data, [], []⟩) (Nat.zero_le _)
  have first : (p.tasks.flatMap LsofTask.walkedDescriptors).Perm p.openDescriptors :=
    List.Perm.flatMap_left p.tasks fun t member => LsofTask.walked_perm_open (dense t member)
  have second : (p.visitedAgain nonce pids).flatMap LsofTask.walkedDescriptors = [] := by
    rw [List.flatMap_eq_nil_iff]
    intro t visited
    have none := LsofTask.walked_perm_open (dense t (mem_visits visited))
    rw [again t visited] at none
    exact none.eq_nil
  have stored : ((p.tasks ++ p.visitedAgain nonce pids).flatMap LsofTask.walkedDescriptors).Perm
      p.openDescriptors := by
    rwa [List.flatMap_append, second, List.append_nil]
  have whole := advances.whole (by
    rw [stored.length_eq, Nat.zero_add]
    exact Nat.le_of_lt room)
  rw [whole.1, whole.2, List.nil_append, List.nil_append]
  refine ⟨stored, fun r read => ?_⟩
  obtain ⟨t, visited, inside⟩ := List.mem_flatMap.mp read
  have listed : t ∈ p.tasks := (List.mem_append.mp visited).elim id mem_visits
  exact LsofTask.reads_inside (dense t listed) r inside

end Complete

/-- The sensor does what it should exactly if everything finds room, the open descriptors of each task
that is alive are the first of a table that is not full, and no element that an earlier run with the
same nonce has left behind the index stands for a task with open descriptors. -/
theorem lsof_complete_iff (nonce : UInt64) (p : Processes) (pids : FlexArray PidEl)
    (data : FlexArray LsofData) :
    LsofComplete p nonce pids.size data (kernelLsofTraced nonce p.tasks pids data) ↔
      p.openDescriptors.length < data.size ∧ p.tasks.length < pids.size ∧
        (∀ t ∈ p.tasks, ∀ table, t.table = some table → table.Dense) ∧
        ∀ t ∈ p.visitedAgain nonce pids, t.openDescriptors = [] :=
  ⟨LsofComplete.sound, fun ⟨room, few, dense, again⟩ => .of_dense room few dense again⟩

def regularFile : File := ⟨ascii "/", 0, 0, 2⟩

def oneProcess (fd : List (Option File)) (beyond : List File) : Processes :=
  ⟨[⟨⟨ascii "sh", 1, 0⟩, true, some ⟨fd, beyond⟩⟩], List.nodup_singleton 1⟩

-- Descriptor 1 is closed; no descriptor is closed; three descriptors for an array of two.
theorem lsof_incomplete :
    ¬ LsofComplete (oneProcess [some regularFile, none, some regularFile] []) 7 4 ⟨8, fun _ => .free⟩
        (kernelLsofTraced 7 (oneProcess [some regularFile, none, some regularFile] []).tasks
          ⟨4, fun _ => ⟨0, 0, 0⟩⟩ ⟨8, fun _ => .free⟩) ∧
      ¬ LsofComplete (oneProcess [some regularFile] []) 7 4 ⟨8, fun _ => .free⟩
          (kernelLsofTraced 7 (oneProcess [some regularFile] []).tasks
            ⟨4, fun _ => ⟨0, 0, 0⟩⟩ ⟨8, fun _ => .free⟩) ∧
      ¬ LsofComplete (oneProcess [some regularFile, some regularFile, some regularFile, none] []) 7 4
          ⟨2, fun _ => .free⟩
          (kernelLsofTraced 7
            (oneProcess [some regularFile, some regularFile, some regularFile, none] []).tasks
            ⟨4, fun _ => ⟨0, 0, 0⟩⟩ ⟨2, fun _ => .free⟩) := by
  refine ⟨fun complete => ?_, fun complete => ?_, fun complete => ?_⟩
  · exact absurd (complete.recorded ⟨by decide, by decide⟩).2.2.1.length_eq (by decide)
  · exact absurd (complete.recorded ⟨by decide, by decide⟩).2.2.2 (by decide)
  · exact absurd (complete.refused (by decide)) (by decide)

end VirtueSensing.Kernel
