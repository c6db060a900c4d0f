import VirtueSensing.Shared.Lists
import VirtueSensing.WinVirtue.NtQuerySys

set_option autoImplicit false

/-!
# Walks over the processes and the handles

What the generators yield for a chain of processes, whose last element has no offset, and for a table
of handles.
-/

namespace VirtueSensing.WinVirtue.NtQuerySys

open CLayout Integers

/-- One element of a chain: its structure, then its threads and what else stands in front of the next
one. -/
structure Entry where
  spi : Bytes
  behind : Bytes
  sized : spi.length = szSpi
  threads : szSti * numberOfThreads spi ≤ behind.length

def Entry.bytes (e : Entry) : Bytes := e.spi ++ e.behind

def Linked : List Entry → Prop
  | [] => False
  | [last] => nextEntryOffset last.spi = 0
  | e :: next :: rest => nextEntryOffset e.spi = e.bytes.length ∧ Linked (next :: rest)

structure Chain where
  entries : List Entry
  linked : Linked entries

structure Table where
  entries : List Bytes
  sized : ∀ shi ∈ entries, shi.length = szShtei
  padding : Bytes
  padded : padding.length = 4
  few : entries.length < 0x100000000

-- What the buffer holds behind the last element is any bytes.
def Chain.answer (chain : Chain) (rest : Bytes) : Answer :=
  ⟨statusSuccess, chain.entries.flatMap Entry.bytes ++ rest⟩

def Table.answer (table : Table) (rest : Bytes) : Answer :=
  ⟨statusSuccess,
    littleEndian 4 table.entries.length ++ table.padding ++ table.entries.flatten ++ rest⟩

def Entry.process (texts : Texts) (e : Entry) : Process :=
  ⟨toDict texts e.spi, e.behind.take (szSti * numberOfThreads e.spi)⟩

def Entry.id (e : Entry) : Nat := (uniqueProcessId e.spi).getD 0

/-- The run ends by itself with these items, and took no slice past the bound. -/
structure Exactly {α : Type} (r : Run α) (items : List α) (bound : Nat) : Prop where
  items : r.items = items
  finished : r.ending = .finished
  inside : ∀ slice ∈ r.slices, slice.2 ≤ bound

theorem exactly_finished {α : Type} (bound : Nat) : Exactly (⟨[], [], .finished⟩ : Run α) [] bound :=
  ⟨rfl, rfl, nofun⟩

theorem Exactly.after {α : Type} {r : Run α} {items more : List α} {slices : List (Nat × Nat)}
    {bound : Nat} (exactly : Exactly r items bound) (inside : ∀ slice ∈ slices, slice.2 ≤ bound) :
    Exactly (r.after more slices) (more ++ items) bound := by
  refine ⟨congrArg (more ++ ·) exactly.items, exactly.finished, fun slice member => ?_⟩
  rcases List.mem_append.mp member with here | later
  · exact inside slice here
  · exact exactly.inside slice later

theorem load_behind (front bytes rest : Bytes) :
    load (front ++ (bytes ++ rest)) front.length bytes.length = bytes := by
  rw [load, List.drop_left, List.take_left]

theorem fromBuffer_load {front bytes rest : Bytes} {size : Nat} (sized : bytes.length = size) :
    fromBuffer size (load (front ++ (bytes ++ rest)) front.length size) = some bytes := by
  subst sized
  rw [load_behind, fromBuffer, if_neg (Nat.lt_irrefl _), List.take_length]

theorem Entry.length_bytes (e : Entry) : e.bytes.length = szSpi + e.behind.length := by
  rw [Entry.bytes, List.length_append, e.sized]

theorem szSpi_eq : szSpi = 256 := by decide +kernel

theorem Entry.bytes_positive (e : Entry) : 0 < e.bytes.length := by
  rw [e.length_bytes, szSpi_eq]
  omega

section Turn

variable (e : Entry) (front more : Bytes)

theorem Entry.read :
    fromBuffer szSpi (load (front ++ (e.bytes ++ more)) front.length szSpi) = some e.spi := by
  rw [Entry.bytes, List.append_assoc]
  exact fromBuffer_load e.sized

theorem Entry.read_threads :
    load (front ++ (e.bytes ++ more)) (front.length + szSpi) (szSti * numberOfThreads e.spi) =
      e.behind.take (szSti * numberOfThreads e.spi) := by
  have split : front ++ (e.bytes ++ more) = (front ++ e.spi) ++ (e.behind ++ more) := by
    simp only [Entry.bytes, List.append_assoc]
  have position : front.length + szSpi = (front ++ e.spi).length := by
    rw [List.length_append, e.sized]
  rw [split, position, load, List.drop_left, List.take_append_of_le_length e.threads]

theorem Entry.bound :
    (front ++ e.bytes).length + more.length = front.length + (e.bytes ++ more).length := by
  rw [List.length_append, List.length_append, Nat.add_assoc]

variable {e}

theorem Entry.position (offset : nextEntryOffset e.spi = e.bytes.length) :
    (front ++ e.bytes).length = front.length + nextEntryOffset e.spi := by
  rw [List.length_append, offset]

end Turn

theorem objects_exactly (texts : Texts) (pid : Option Int) (entries : List Entry)
    (linked : Linked entries) (front rest : Bytes) {fuel : Nat} (enough : entries.length ≤ fuel) :
    Exactly
      (objectsFrom texts pid (front ++ (entries.flatMap Entry.bytes ++ rest)) fuel front.length)
      ((Lists.takeThrough (fun e => selected pid (uniqueProcessId e.spi)) entries.dropLast).map
        (Entry.process texts))
      (front.length + (entries.flatMap Entry.bytes).length) := by
  induction entries generalizing front fuel with
  | nil => cases linked
  | cons e later ih =>
    cases fuel with
    | zero => cases enough
    | succ fuel =>
      rw [List.length_cons] at enough
      rw [List.flatMap_cons, List.append_assoc, objectsFrom, e.read front]
      have size := e.length_bytes
      dsimp only
      cases later with
      | nil =>
        have last : nextEntryOffset e.spi = 0 := linked
        rw [if_pos last]
        refine ⟨rfl, rfl, fun slice member => ?_⟩
        obtain rfl := List.mem_singleton.mp member
        simp only [List.flatMap_nil, List.append_nil]
        omega
      | cons next later =>
        obtain ⟨offset, linked⟩ : nextEntryOffset e.spi = e.bytes.length ∧ Linked (next :: later) :=
          linked
        have positive := e.bytes_positive
        rw [if_neg (by omega)]
        have threads := e.threads
        have inside : ∀ slice ∈ [(front.length, front.length + szSpi),
            (front.length + szSpi, front.length + szSpi + szSti * numberOfThreads e.spi)],
            slice.2 ≤ front.length + (e.bytes ++ (next :: later).flatMap Entry.bytes).length := by
          intro slice member
          rw [List.length_append]
          rcases List.mem_cons.mp member with rfl | member
          · dsimp only
            omega
          · obtain rfl := List.mem_singleton.mp member
            dsimp only
            omega
        rw [e.read_threads front, List.dropLast_cons_cons, Lists.takeThrough]
        cases found : selected pid (uniqueProcessId e.spi) with
        | true => exact (exactly_finished _).after inside
        | false =>
          have further := ih linked (front ++ e.bytes) (Nat.le_of_succ_le_succ enough)
          rw [e.bound, e.position front offset, List.append_assoc] at further
          exact further.after inside

theorem ids_exactly (entries : List Entry) (linked : Linked entries) (front rest : Bytes) {fuel : Nat}
    (enough : entries.length ≤ fuel) :
    Exactly (idsFrom (front ++ (entries.flatMap Entry.bytes ++ rest)) fuel front.length)
      (entries.map Entry.id) (front.length + (entries.flatMap Entry.bytes).length) := by
  induction entries generalizing front fuel with
  | nil => cases linked
  | cons e later ih =>
    cases fuel with
    | zero => cases enough
    | succ fuel =>
      rw [List.length_cons] at enough
      rw [List.flatMap_cons, List.append_assoc, idsFrom, e.read front]
      have size := e.length_bytes
      have inside : ∀ slice ∈ [(front.length, front.length + szSpi)],
          slice.2 ≤ front.length + (e.bytes ++ later.flatMap Entry.bytes).length := by
        intro slice member
        obtain rfl := List.mem_singleton.mp member
        rw [List.length_append]
        dsimp only
        omega
      dsimp only
      cases later with
      | nil =>
        have last : nextEntryOffset e.spi = 0 := linked
        rw [if_pos last]
        exact (exactly_finished _).after inside
      | cons next later =>
        obtain ⟨offset, linked⟩ : nextEntryOffset e.spi = e.bytes.length ∧ Linked (next :: later) :=
          linked
        have positive := e.bytes_positive
        rw [if_neg (by omega)]
        have further := ih linked (front ++ e.bytes) (Nat.le_of_succ_le_succ enough)
        rw [e.bound, e.position front offset, List.append_assoc] at further
        exact further.after inside

theorem handles_exactly (pid : Option Int) (entries : List Bytes)
    (sized : ∀ shi ∈ entries, shi.length = szShtei) (front rest : Bytes) {ndx : Nat}
    (position : front.length = szShtei * ndx) :
    Exactly (handlesFrom pid (front ++ (entries.flatten ++ rest)) entries.length ndx)
      (Lists.takeThrough (fun shi => selected pid (some (owner shi))) entries)
      (front.length + entries.flatten.length) := by
  induction entries generalizing front ndx with
  | nil => exact exactly_finished _
  | cons shi later ih =>
    obtain ⟨size, others⟩ := List.forall_mem_cons.mp sized
    rw [List.flatten_cons, List.append_assoc, List.length_cons, handlesFrom, ← position,
      fromBuffer_load size]
    have inside : ∀ slice ∈ [(front.length, front.length + szShtei)],
        slice.2 ≤ front.length + (shi ++ later.flatten).length := by
      intro slice member
      obtain rfl := List.mem_singleton.mp member
      rw [List.length_append]
      dsimp only
      omega
    dsimp only
    rw [Lists.takeThrough]
    cases found : selected pid (some (owner shi)) with
    | true => exact (exactly_finished _).after inside
    | false =>
      have next : (front ++ shi).length = szShtei * (ndx + 1) := by
        rw [List.length_append, position, size, Nat.mul_succ]
      have further := ih others (front ++ shi) next
      rw [List.append_assoc, List.length_append, Nat.add_assoc, ← List.length_append] at further
      exact further.after inside

theorem length_le_flatMap (entries : List Entry) :
    entries.length ≤ (entries.flatMap Entry.bytes).length := by
  induction entries with
  | nil => exact Nat.le_refl _
  | cons e rest ih =>
    have positive := e.bytes_positive
    rw [List.length_cons, List.flatMap_cons, List.length_append]
    omega

section Results

variable (texts : Texts) (chain : Chain) (rest : Bytes)

def Chain.bytes : Bytes := chain.entries.flatMap Entry.bytes

theorem Chain.status : (chain.answer rest).status = statusSuccess := rfl

theorem Chain.array_eq :
    (chain.answer rest).array = chain.entries.flatMap Entry.bytes ++ (rest ++ [0]) :=
  List.append_assoc _ _ _

theorem Chain.length_le_array : chain.entries.length ≤ (chain.answer rest).array.length := by
  have entries := length_le_flatMap chain.entries
  rw [chain.array_eq, List.length_append]
  omega

theorem getProcessObjects_exactly (pid : Option Int) :
    Exactly (getProcessObjects texts pid (chain.answer rest))
      ((Lists.takeThrough (fun e => selected pid (uniqueProcessId e.spi)) chain.entries.dropLast).map
        (Entry.process texts)) chain.bytes.length := by
  have walked := objects_exactly texts pid chain.entries chain.linked [] (rest ++ [0])
    (chain.length_le_array rest)
  rw [List.nil_append, ← chain.array_eq rest, List.length_nil, Nat.zero_add] at walked
  unfold getProcessObjects
  rw [chain.status rest, if_pos rfl]
  exact walked

theorem getProcessObjects_all :
    Exactly (getProcessObjects texts none (chain.answer rest))
      (chain.entries.dropLast.map (Entry.process texts)) chain.bytes.length := by
  have walked := getProcessObjects_exactly texts chain rest none
  have nowhere : ∀ e ∈ chain.entries.dropLast,
      (fun e : Entry => selected none (uniqueProcessId e.spi)) e = false := fun _ _ => rfl
  rwa [Lists.takeThrough_eq_self nowhere] at walked

theorem getProcessIds_exactly :
    Exactly (getProcessIds (chain.answer rest)) (chain.entries.map Entry.id) chain.bytes.length := by
  have walked := ids_exactly chain.entries chain.linked [] (rest ++ [0])
    (chain.length_le_array rest)
  rw [List.nil_append, ← chain.array_eq rest, List.length_nil, Nat.zero_add] at walked
  unfold getProcessIds
  rw [chain.status rest, if_pos rfl]
  exact walked

-- The loop leaves before it has yielded the last element.
theorem objects_short :
    (getProcessObjects texts none (chain.answer rest)).items ≠
      chain.entries.map (Entry.process texts) := by
  intro all
  have walked := (getProcessObjects_all texts chain rest).items
  have lengths := congrArg List.length (walked.symm.trans all)
  rw [List.length_map, List.length_map, List.length_dropLast] at lengths
  have some : chain.entries ≠ [] := by
    intro none
    have linked := chain.linked
    rw [none] at linked
    exact linked
  have positive := List.length_pos_of_ne_nil some
  omega

end Results

def ownedBy (pid : Int) (shi : Bytes) : Bool := (owner shi : Int) = pid

theorem selected_owner {pid : Int} (nonzero : pid ≠ 0) :
    (fun shi => selected (some pid) (some (owner shi))) = ownedBy pid := by
  funext shi
  simp [selected, ownedBy, nonzero]

/-- What the table must be for its handles to be restricted as asked: the pid of a process that owns
the first handle and no other, or any other number that owns none. -/
def Restrictable (pid : Int) (entries : List Bytes) : Prop :=
  if pid ≠ 0 ∧ pid % 4 = 0 then
    entries = [] ∨ ∃ shi rest, entries = shi :: rest ∧ ownedBy pid shi = true ∧
      ∀ other ∈ rest, ownedBy pid other = false
  else ∀ shi ∈ entries, ownedBy pid shi = false

theorem getSystemHandleInformation_exactly (table : Table) (rest : Bytes) {pid : Int}
    (nonzero : pid ≠ 0) (fours : pid % 4 = 0) :
    Exactly (getSystemHandleInformation (some pid) (table.answer rest))
      (Lists.takeThrough (ownedBy pid) table.entries) table.entries.flatten.length := by
  have walked := handles_exactly (some pid) table.entries table.sized [] (rest ++ [0])
    (show ([] : Bytes).length = szShtei * 0 from rfl)
  have handles : offsetIn systemHandleInformation .handles = 8 := by decide +kernel
  have count : little (littleEndian 4 table.entries.length) = table.entries.length :=
    little_littleEndian (Nat.lt_of_lt_of_le table.few (by decide))
  have head : load (table.answer rest).raw 0 4 = littleEndian 4 table.entries.length := by
    simp only [Table.answer, load, List.drop_zero, List.append_assoc]
    exact List.take_left' (length_littleEndian _ _)
  have body : (table.answer rest).array.drop 8 = table.entries.flatten ++ (rest ++ [0]) := by
    have front : (littleEndian 4 table.entries.length ++ table.padding).length = 8 := by
      rw [List.length_append, length_littleEndian, table.padded]
    simp only [Answer.array, Table.answer, List.append_assoc]
    rw [← List.append_assoc (littleEndian 4 _)]
    exact List.drop_left' front
  have asked : ((some pid).all fun pid => pid = 0 || pid % 4 ≠ 0) = false := by
    show (decide (pid = 0) || decide (pid % 4 ≠ 0)) = false
    rw [decide_eq_false nonzero, decide_eq_false (not_not.mpr fours), Bool.or_false]
  have granted : (table.answer rest).status = statusSuccess := rfl
  rw [getSystemHandleInformation, asked, if_neg Bool.false_ne_true, granted, if_pos rfl, handles, head,
    count, body, ← selected_owner nonzero]
  rwa [List.nil_append, List.length_nil, Nat.zero_add] at walked

theorem handles_restricted_iff (table : Table) (rest : Bytes) (pid : Int) :
    (getSystemHandleInformation (some pid) (table.answer rest)).items =
      table.entries.filter (ownedBy pid) ↔ Restrictable pid table.entries := by
  unfold Restrictable
  split_ifs with asked
  · rw [(getSystemHandleInformation_exactly table rest asked.1 asked.2).items]
    exact Lists.takeThrough_eq_filter_iff
  · have refused : ((some pid).all fun pid => pid = 0 || pid % 4 ≠ 0) = true := by
      simp only [Option.all_some, Bool.or_eq_true, decide_eq_true_eq]
      omega
    rw [getSystemHandleInformation, if_pos refused, eq_comm, List.filter_eq_nil_iff]
    simp only [Bool.not_eq_true]

/-- Both walks end in the buffer without an error. The ids are those of all elements, but the objects
are without the last one, whatever the chain; and the handles are those of the process exactly when
the table is one that stopping at the first does not spoil. -/
theorem processes_enumerated_iff (texts : Texts) (chain : Chain) (table : Table) (rest : Bytes)
    (pid : Int) :
    Exactly (getProcessObjects texts none (chain.answer rest))
        (chain.entries.dropLast.map (Entry.process texts)) chain.bytes.length ∧
      (getProcessObjects texts none (chain.answer rest)).items ≠
        chain.entries.map (Entry.process texts) ∧
      Exactly (getProcessIds (chain.answer rest)) (chain.entries.map Entry.id) chain.bytes.length ∧
      ((getSystemHandleInformation (some pid) (table.answer rest)).items =
        table.entries.filter (ownedBy pid) ↔ Restrictable pid table.entries) :=
  ⟨getProcessObjects_all texts chain rest, objects_short texts chain rest,
    getProcessIds_exactly chain rest, handles_restricted_iff table rest pid⟩

-- The idle process and `System`, and one handle of each of the processes 4 and 8.
def idleProcess : Bytes := littleEndian 4 256 ++ List.replicate 252 0

def systemProcess : Bytes := List.replicate 80 0 ++ littleEndian 8 4 ++ List.replicate 168 0

def twoProcesses : Answer := ⟨statusSuccess, idleProcess ++ systemProcess⟩

def handleOf (pid : Nat) : Bytes := littleEndian 2 pid ++ List.replicate 22 0

def twoHandles : Answer :=
  ⟨statusSuccess, littleEndian 4 2 ++ littleEndian 4 0 ++ (handleOf 4 ++ handleOf 8)⟩

theorem lastProcess_missing :
    (getProcessObjects (fun _ => none) none twoProcesses).items.length = 1 ∧
      (getProcessIds twoProcesses).items = [0, 4] ∧
      (getSystemHandleInformation (some 8) twoHandles).items = [handleOf 4, handleOf 8] ∧
      [handleOf 4, handleOf 8].filter (ownedBy 8) = [handleOf 8] := by
  decide +kernel

end VirtueSensing.WinVirtue.NtQuerySys
