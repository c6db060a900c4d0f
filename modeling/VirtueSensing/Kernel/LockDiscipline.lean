import VirtueSensing.Kernel.Discovery
import VirtueSensing.Kernel.PsSensor

set_option autoImplicit false

/-!
# Locks of the Linux kernel controller

The functions that return from inside a loop under a lock, each with the locks that its thread
holds on the way.
-/

namespace VirtueSensing.Kernel

def eagain : Int := -11

structure PidEl where
  pid : Int
  uid : UInt32
  nonce : UInt64
  deriving DecidableEq, Repr

def buildPidIndexUnlocked (size : Nat) (nonce : UInt64) (tasks : List Task) (a : FlexArray PidEl)
    (l : Locks SpinLock) : Int × FlexArray PidEl × Locks SpinLock :=
  go tasks 0 a l.rcuReadLock
where
  go : List Task → Nat → FlexArray PidEl → Locks SpinLock → Int × FlexArray PidEl × Locks SpinLock
    | [], index, a, l => (index, a, l)
    | t :: rest, index, a, l =>
      if index < size then go rest (index + 1) (a.put index ⟨t.pid, t.uid, nonce⟩) l
      else (enomem, a, l)

theorem buildPidIndexUnlocked_locks (size : Nat) (nonce : UInt64) (tasks : List Task)
    (a : FlexArray PidEl) (l : Locks SpinLock) :
    (buildPidIndexUnlocked size nonce tasks a l).2.2 = l.rcuReadLock := by
  unfold buildPidIndexUnlocked
  generalize l.rcuReadLock = held
  generalize 0 = index
  induction tasks generalizing index a with
  | nil => rfl
  | cons t rest ih =>
    unfold buildPidIndexUnlocked.go
    by_cases inside : index < size
    · rw [if_pos inside]
      apply ih
    · rw [if_neg inside]

-- `free_session` and `garbage_collect_session`, whose effect on the state is that of the request.
def freeSession (s : Session) (k : State) (l : Locks SpinLock) : State × Locks SpinLock :=
  (k.freeSession s, (l.spinLock .sessionsLock).spinUnlock .sessionsLock)

def garbageCollectSession (socket : Nat) (k : State) (l : Locks SpinLock) :
    State × Locks SpinLock :=
  let l := l.rcuReadLock
  match k.sessions.find? fun s => s.socket = socket with
  | some s => freeSession s k l.rcuReadUnlock
  | none => (k, l.rcuReadUnlock)

-- The unlock stands in the body of the loop.
def linkReplies (m : Message) : List Session → Locks SpinLock → List Session × Locks SpinLock
  | [], l => ([], l)
  | s :: rest, l =>
    let (s, l) :=
      if s.nonceMatches (m.text nonceIndex) then
        (s.link m.line, (l.spinLock (.session s.id)).spinUnlock (.session s.id))
      else (s, l)
    let (rest, l) := linkReplies m rest l.rcuReadUnlock
    (s :: rest, l)

def getSessionLocked (m : Message) (p : Progress) (l : Locks SpinLock) :
    Option Progress × Locks SpinLock :=
  let nonce := m.text nonceIndex
  if nonce.length = 0 ∨ maxNonceSize < nonce.length then (none, l)
  else if p.type = .request then
    let (k, l) := garbageCollectSession m.socket p.state l
    let s : Session := ⟨k.nextSession, m.socket, nonce, [], [], []⟩
    let l := (l.spinLock .sessionsLock).spinUnlock .sessionsLock
    (some { p with
      state := { k with sessions := s :: k.sessions, nextSession := k.nextSession + 1 }
      opened := some s }, l)
  else
    let (linked, l) := linkReplies m p.state.sessions l.rcuReadLock
    (some { p with state := { p.state with sessions := linked } }, l)

theorem garbageCollectSession_eq (socket : Nat) (k : State) (l : Locks SpinLock) :
    garbageCollectSession socket k l = (k.garbageCollectSession socket, l) := by
  unfold garbageCollectSession State.garbageCollectSession
  cases k.sessions.find? fun s => s.socket = socket with
  | none => simp
  | some s => simp [freeSession]

theorem linkReplies_eq (m : Message) (sessions : List Session) (l : Locks SpinLock) :
    linkReplies m sessions l =
      (sessions.map fun s => if s.nonceMatches (m.text nonceIndex) then s.link m.line else s,
        { l with rcuDepth := l.rcuDepth - sessions.length }) := by
  induction sessions generalizing l with
  | nil => simp [linkReplies]
  | cons s rest ih =>
    have depth : l.rcuDepth - 1 - (rest.length : Int) = l.rcuDepth - ((rest.length : Int) + 1) := by
      omega
    by_cases same : s.nonceMatches (m.text nonceIndex)
    · simp [linkReplies, same, ih, Locks.rcuReadUnlock, depth]
    · simp [linkReplies, same, ih, Locks.rcuReadUnlock, depth]

/-- The locks aside, this is the function that requests go through. -/
theorem getSessionLocked_fst (m : Message) (p : Progress) (l : Locks SpinLock) :
    (getSessionLocked m p l).1 = getSession m p := by
  unfold getSessionLocked getSession State.newSession
  simp only [garbageCollectSession_eq, linkReplies_eq, correlateReply_eq]
  split_ifs <;> rfl

theorem getSessionLocked_locks (m : Message) (p : Progress) (l : Locks SpinLock) :
    (getSessionLocked m p l).2 =
      if m.hasNonce ∧ p.type ≠ .request then
        { l with rcuDepth := l.rcuDepth + 1 - p.state.sessions.length }
      else l := by
  have nonce : m.hasNonce ↔
      ¬ ((m.text nonceIndex).length = 0 ∨ maxNonceSize < (m.text nonceIndex).length) := by
    simp only [Message.hasNonce, decide_eq_true_eq]
    omega
  unfold getSessionLocked
  simp only [garbageCollectSession_eq, linkReplies_eq]
  by_cases size : (m.text nonceIndex).length = 0 ∨ maxNonceSize < (m.text nonceIndex).length
  · rw [if_pos size, if_neg fun reply => nonce.mp reply.1 size]
  rw [if_neg size]
  by_cases request : p.type = .request
  · rw [if_pos request, if_neg (by simp [request])]
    simp
  · rw [if_neg request, if_pos ⟨nonce.mpr size, request⟩]
    rfl

def psLogLine (tag : Bytes) (nonce : UInt64) (count : Int) (index : Nat) (data : PsData) : Bytes :=
  tag ++ ascii " " ++ printInt count ++ ascii ":" ++ printInt index ++ ascii " " ++
    data.comm.cString ++ ascii " [" ++ printInt data.pidNr ++ ascii "] [" ++
    printInt data.userId.toBitVec.toInt ++ ascii "] [" ++ printHex nonce ++ ascii "]\n"

-- An element of another run, which ends the loop.
def PsData.breaks (data : PsData) (nonce : UInt64) : Bool :=
  data.clear ≠ flexArrayFree ∧ nonce ≠ 0 ∧ data.nonce ≠ nonce

/-- The result of the loop of `print_kernel_ps` and what it prints, with `left` elements to go.
The array is what `flex_array_get` finds in it. -/
def printPsLoop (get : Nat → Option PsData) (tag : Bytes) (nonce : UInt64) (count : Int) :
    Nat → Nat → Except Int Nat × List Bytes
  | 0, index => (.ok index, [])
  | left + 1, index =>
    match get index with
    | none => (.error enfile, [])
    | some data =>
      if data.clear = flexArrayFree then printPsLoop get tag nonce count left (index + 1)
      else if data.breaks nonce then (.ok index, [])
      else
        let (result, lines) := printPsLoop get tag nonce count left (index + 1)
        (result, psLogLine tag nonce count index data :: lines)

-- `free` says whether `spin_trylock` gets the lock of the sensor.
def printKernelPs (printToLog free : Bool) (size : Nat) (get : Nat → Option PsData) (tag : Bytes)
    (nonce : UInt64) (count : Int) (l : Locks SpinLock) : Int × List Bytes × Locks SpinLock :=
  if ¬ printToLog then (0, [], l)
  else if ¬ free then (eagain, [], l)
  else
    let l := l.spinLock .sensor
    match printPsLoop get tag nonce count size 0 with
    | (.error ccode, lines) => (ccode, lines, l)
    | (.ok index, lines) =>
      (if index = size then enomem else index, lines, l.spinUnlock .sensor)

/-- Every element that is missing lies behind one that ends the loop. -/
def Covered (get : Nat → Option PsData) (nonce : UInt64) (start left : Nat) : Prop :=
  ∀ i, start ≤ i → i < start + left → get i = none →
    ∃ j data, start ≤ j ∧ j < i ∧ get j = some data ∧ data.breaks nonce

theorem covered_succ {get : Nat → Option PsData} {nonce : UInt64} {start left : Nat} {data : PsData}
    (found : get start = some data) (goesOn : ¬ data.breaks nonce) :
    Covered get nonce start (left + 1) ↔ Covered get nonce (start + 1) left := by
  constructor
  · intro covered i after inside missing
    obtain ⟨j, other, behind, before, there, breaks⟩ := covered i (by omega) (by omega) missing
    refine ⟨j, other, ?_, before, there, breaks⟩
    by_contra first
    obtain rfl : j = start := by omega
    rw [found] at there
    exact goesOn (Option.some.inj there ▸ breaks)
  · intro covered i after inside missing
    have later : start + 1 ≤ i := by
      by_contra first
      obtain rfl : i = start := by omega
      simp [found] at missing
    obtain ⟨j, other, behind, rest⟩ := covered i later (by omega) missing
    exact ⟨j, other, by omega, rest⟩

theorem printPsLoop_ok_iff (get : Nat → Option PsData) (tag : Bytes) (nonce : UInt64) (count : Int)
    (left index : Nat) :
    (∃ stop, (printPsLoop get tag nonce count left index).1 = .ok stop) ↔
      Covered get nonce index left := by
  induction left generalizing index with
  | zero =>
    refine iff_of_true ⟨index, rfl⟩ fun i after inside => ?_
    omega
  | succ left ih =>
    unfold printPsLoop
    cases found : get index with
    | none =>
      refine iff_of_false (by simp) fun covered => ?_
      obtain ⟨j, _, behind, before, -⟩ := covered index (by omega) (by omega) found
      omega
    | some data =>
      by_cases breaks : data.breaks nonce
      · have used : data.clear ≠ flexArrayFree := by
          simp only [PsData.breaks, decide_eq_true_eq] at breaks
          exact breaks.1
        simp only [if_neg used, if_pos breaks]
        refine iff_of_true ⟨index, rfl⟩ fun i after inside missing => ?_
        refine ⟨index, data, by omega, ?_, found, breaks⟩
        by_contra first
        obtain rfl : i = index := by omega
        simp [found] at missing
      · rw [covered_succ found breaks, ← ih (index + 1)]
        by_cases clear : data.clear = flexArrayFree
        · simp only [if_pos clear]
        · simp only [if_neg clear, if_neg breaks]

theorem printKernelPs_locks (free : Bool) (size : Nat) (get : Nat → Option PsData) (tag : Bytes)
    (nonce : UInt64) (count : Int) (l : Locks SpinLock) :
    (printKernelPs true free size get tag nonce count l).2.2 = l ↔
      free = false ∨ Covered get nonce 0 size := by
  cases free with
  | false => simp [printKernelPs]
  | true =>
    rw [← printPsLoop_ok_iff get tag nonce count size 0]
    unfold printKernelPs
    cases printed : printPsLoop get tag nonce count size 0 with
    | mk result lines =>
      cases result with
      | error ccode => simpa using l.spinLock_ne .sensor
      | ok index => simp

inductive LockingCall where
  | buildPidIndexUnlocked (size : Nat) (nonce : UInt64) (tasks : List Task) (a : FlexArray PidEl)
  | buildDiscoveryBuffer (allocates : Bool) (sensors : List Sensor)
  | getSession (m : Message) (p : Progress)
  | printKernelPs (printToLog free : Bool) (size : Nat) (get : Nat → Option PsData) (tag : Bytes)
      (nonce : UInt64) (count : Int)

namespace LockingCall

def run (l : Locks SpinLock) : LockingCall → Locks SpinLock
  | .buildPidIndexUnlocked size nonce tasks a =>
    (Kernel.buildPidIndexUnlocked size nonce tasks a l).2.2
  | .buildDiscoveryBuffer allocates sensors => (Kernel.buildDiscoveryBuffer allocates sensors l).2
  | .getSession m p => (getSessionLocked m p l).2
  | .printKernelPs printToLog free size get tag nonce count =>
    (Kernel.printKernelPs printToLog free size get tag nonce count l).2.2

/-- When a call takes a path on which all it locks is unlocked once. -/
def Paired : LockingCall → Prop
  | .buildPidIndexUnlocked .. => False
  | .buildDiscoveryBuffer allocates sensors => allocates = false ∨ HasRoom sensors
  | .getSession m p => m.hasNonce = false ∨ p.type = .request ∨ p.state.sessions.length = 1
  | .printKernelPs printToLog free size get _ nonce _ =>
    printToLog = false ∨ free = false ∨ Covered get nonce 0 size

end LockingCall

theorem locks_kept_iff_paired (call : LockingCall) (l : Locks SpinLock) :
    call.run l = l ↔ call.Paired := by
  cases call with
  | buildPidIndexUnlocked size nonce tasks a =>
    simpa only [LockingCall.run, LockingCall.Paired, buildPidIndexUnlocked_locks, iff_false]
      using l.rcuReadLock_ne
  | buildDiscoveryBuffer allocates sensors =>
    simp only [LockingCall.run, LockingCall.Paired]
    cases allocates with
    | false => simp [buildDiscoveryBuffer]
    | true =>
      by_cases room : HasRoom sensors
      · simp [buildDiscoveryBuffer_of_hasRoom room, room]
      · simpa [buildDiscoveryBuffer_of_not_hasRoom room, room] using l.rcuReadLock_ne
  | getSession m p =>
    simp only [LockingCall.run, LockingCall.Paired, getSessionLocked_locks]
    by_cases reply : m.hasNonce ∧ p.type ≠ .request
    · rw [if_pos reply, Locks.ext_iff]
      simp only [reply.1, reply.2, and_true, Bool.true_eq_false, false_or]
      omega
    · rw [if_neg reply]
      refine iff_of_true rfl ?_
      simp only [not_and_or, Bool.not_eq_true, ne_eq, not_not] at reply
      tauto
  | printKernelPs printToLog free size get tag nonce count =>
    simp only [LockingCall.run, LockingCall.Paired]
    cases printToLog with
    | false => simp [printKernelPs]
    | true => simp [printKernelPs_locks]

-- With one process running, the index is built and the read section stays open.
theorem pid_index_leaves_rcu :
    ¬ ∀ (call : LockingCall) (l : Locks SpinLock), call.run l = l := by
  intro kept
  have depth := congrArg Locks.rcuDepth
    (kept (.buildPidIndexUnlocked 511 7 [⟨ascii "init", 1, 0⟩] ⟨511, fun _ => ⟨0, 0, 0⟩⟩) Locks.none)
  exact absurd depth (by decide +kernel)

end VirtueSensing.Kernel
