import Mathlib.Algebra.BigOperators.Group.List.Basic
import Mathlib.Algebra.Order.Ring.Int
import VirtueSensing.Driver.QueueManager

set_option autoImplicit false

namespace VirtueSensing.Driver

def dataSize (queue : List Event) : Int :=
  (queue.map fun event => (event.dataSz.toNat : Int)).sum

@[simp] theorem dataSize_nil : dataSize [] = 0 := rfl

@[simp] theorem dataSize_cons (event : Event) (queue : List Event) :
    dataSize (event :: queue) = event.dataSz.toNat + dataSize queue := rfl

@[simp] theorem dataSize_append (first rest : List Event) :
    dataSize (first ++ rest) = dataSize first + dataSize rest := by
  simp [dataSize]

-- A unit taken by the wait of the comms thread whose entry is still in the list.
def Consumer.waitTaken : Consumer → Nat
  | .satisfied => 1
  | _ => 0

def SpinLock.waitTaken : SpinLock → Nat
  | .dequeuing .test | .dequeuing .remove => 1
  | _ => 0

-- Entries the trim took off the list before their unit of the semaphore.
def SpinLock.removed : SpinLock → Nat
  | .inserting _ _ (.trimAccount _) | .inserting _ _ .trimAcquire => 1
  | _ => 0

-- Entries put into the list before their unit of the semaphore.
def SpinLock.inserted : SpinLock → Nat
  | .inserting _ _ .account | .inserting _ _ .release => 1
  | _ => 0

-- Bytes that `SizeOfDataInQueue` still counts, or does not count yet.
def SpinLock.pendingSize : SpinLock → Int
  | .inserting _ _ (.trimAccount removed) => removed.dataSz.toNat
  | .inserting _ item .account => -item.dataSz.toNat
  | .dequeuing (.account removed) => removed.dataSz.toNat
  | _ => 0

-- The loop test of the trim found the queue full and its iteration has not ended.
def SpinLock.Trimming : SpinLock → Prop
  | .inserting _ _ .trimRemove | .inserting _ _ (.trimAccount _) | .inserting _ _ .trimAcquire => True
  | _ => False

-- The trim has left room for the unit that `SemaphoreRelease` adds.
def SpinLock.Trimmed : SpinLock → Prop
  | .inserting _ _ .insert | .inserting _ _ .account | .inserting _ _ .release => True
  | _ => False

def SpinLock.heldByPutBack : SpinLock → Bool
  | .inserting caller _ _ => decide (caller = .comms)
  | _ => false

def SpinLock.heldByDequeue : SpinLock → Bool
  | .dequeuing _ => true
  | _ => false

structure Balanced (s : State) : Prop where
  enabled : s.enabled = true
  putBack : s.consumer = .puttingBack ↔ s.lock.heldByPutBack = true
  dequeue : s.consumer = .dequeuing ↔ s.lock.heldByDequeue = true
  units : s.pdQueue.length + s.lock.removed =
    s.semaphore + s.consumer.waitTaken + s.lock.waitTaken + s.lock.inserted
  size : s.sizeOfDataInQueue = dataSize s.pdQueue + s.lock.pendingSize
  limit : s.semaphore ≤ probeDataQueueSz
  full : s.lock.Trimming → probeDataQueueSz ≤ s.semaphore + s.consumer.waitTaken
  room : s.lock.Trimmed → s.semaphore < probeDataQueueSz

theorem Consumer.waitTaken_le (consumer : Consumer) : consumer.waitTaken ≤ 1 := by
  cases consumer <;> simp [Consumer.waitTaken]

theorem balanced_initial : Balanced State.initial := by
  constructor <;> simp [State.initial, Consumer.waitTaken, SpinLock.waitTaken, SpinLock.removed,
    SpinLock.inserted, SpinLock.pendingSize, SpinLock.Trimming, SpinLock.Trimmed,
    SpinLock.heldByPutBack, SpinLock.heldByDequeue]

theorem Move.balanced {s t : State} {a : Label} (move : Move s a t) (before : Balanced s) :
    Balanced t := by
  obtain ⟨enabled, putBack, dequeue, units, size, limit, full, room⟩ := before
  have positive : 1 < probeDataQueueSz := by decide
  have taken := s.consumer.waitTaken_le
  cases move
  -- The holder of the lock moves and the comms thread stays where it is.
  case trimFull | trimDone | trimRemove | trimAccount | trimAcquire | insertTail | insertHead |
      account | release | exceeded | recount | enqueued | dequeueEmpty | dequeueTest |
      dequeueRemove | dequeueAccount | enqueue =>
    constructor <;> simp_all [SpinLock.waitTaken, SpinLock.removed, SpinLock.inserted,
      SpinLock.pendingSize, SpinLock.Trimming, SpinLock.Trimmed, SpinLock.heldByPutBack,
      SpinLock.heldByDequeue] <;> omega
  -- The comms thread moves outside the sections.
  case sent | sendFailed | dispose | dropped | connect | disconnect | refused =>
    constructor <;> simp_all [Consumer.waitTaken]
  case wait waits up unit =>
    have none : s.consumer.waitTaken = 0 := by simp [waits, Consumer.waitTaken]
    constructor
    · exact enabled
    · simpa [waits] using putBack
    · simpa [waits] using dequeue
    · simp only [Consumer.waitTaken]
      omega
    · exact size
    · simp only
      omega
    · intro trimming
      have := full trimming
      simp only [Consumer.waitTaken]
      omega
    · intro trimmed
      have := room trimmed
      simp only
      omega
  case putBackDone | dequeuedNone | dequeued | dequeue | putBack =>
    constructor <;> simp_all [Consumer.waitTaken, SpinLock.waitTaken, SpinLock.removed,
      SpinLock.inserted, SpinLock.pendingSize, SpinLock.Trimming, SpinLock.Trimmed,
      SpinLock.heldByPutBack, SpinLock.heldByDequeue]

theorem Balanced.of_reachable {s : State} (reached : queueMachine.Reachable s) : Balanced s :=
  queueMachine.invariant balanced_initial
    (fun _ _ _ _ before moved => (step_move moved).balanced before) reached

theorem Balanced.waitTaken_le {s : State} (balanced : Balanced s) :
    s.consumer.waitTaken + s.lock.waitTaken ≤ 1 := by
  cases held : s.lock with
  | free => simpa [SpinLock.waitTaken] using s.consumer.waitTaken_le
  | inserting caller item place => simpa [SpinLock.waitTaken] using s.consumer.waitTaken_le
  | dequeuing place =>
    have inside := balanced.dequeue.mpr (by simp [held, SpinLock.heldByDequeue])
    cases place <;> simp [inside, Consumer.waitTaken, SpinLock.waitTaken]

theorem Balanced.length_le {s : State} (balanced : Balanced s) :
    s.pdQueue.length ≤ probeDataQueueSz + 1 := by
  have units := balanced.units
  have taken := balanced.waitTaken_le
  have limit := balanced.limit
  have room := balanced.room
  rcases held : s.lock with _ | ⟨caller, item, place⟩ | place
  · simp only [held, SpinLock.removed, SpinLock.inserted] at units taken ⊢
    omega
  · cases place <;> simp_all [SpinLock.removed, SpinLock.inserted, SpinLock.Trimmed] <;> omega
  · simp only [held, SpinLock.removed, SpinLock.inserted] at units taken ⊢
    omega

/-- In every run: with the lock free the semaphore, the list and the byte count agree, the
semaphore stays within its limit and has room when it is released, and the wait of the trim finds
a unit. -/
theorem queue_counts_agree (labels : List Label) (s : State)
    (reached : queueMachine.run labels = some s) :
    (s.lock = .free →
      s.semaphore + (if s.consumer = .satisfied then 1 else 0) = s.pdQueue.length ∧
        s.sizeOfDataInQueue = dataSize s.pdQueue) ∧
    s.semaphore ≤ probeDataQueueSz ∧
    s.pdQueue.length ≤ probeDataQueueSz + 1 ∧
    (∀ caller item, s.lock = .inserting caller item .release → s.semaphore + 1 ≤ probeDataQueueSz) ∧
    (∀ caller item, s.lock = .inserting caller item .trimAcquire → 0 < s.semaphore) := by
  have balanced := Balanced.of_reachable ⟨labels, reached⟩
  have positive : 1 < probeDataQueueSz := by decide
  refine ⟨fun free => ⟨?_, ?_⟩, balanced.limit, balanced.length_le, ?_, ?_⟩
  · have units := balanced.units
    simp only [free, SpinLock.removed, SpinLock.waitTaken, SpinLock.inserted] at units
    rw [show (if s.consumer = .satisfied then 1 else 0) = s.consumer.waitTaken by
      cases s.consumer <;> simp [Consumer.waitTaken]]
    omega
  · simpa [free, SpinLock.pendingSize] using balanced.size
  · intro caller item held
    exact balanced.room (by simp [held, SpinLock.Trimmed])
  · intro caller item held
    have full := balanced.full (by simp [held, SpinLock.Trimming])
    have taken := s.consumer.waitTaken_le
    omega

def oneEntryRun : List Label :=
  [.enqueue 7 24, .advance, .advance, .advance, .advance, .advance, .advance, .connect, .wait]

def oneEntryWoken : State :=
  { State.initial with
    pdQueue := [⟨0, 24⟩]
    connected := true
    sizeOfDataInQueue := 24
    numberOfQueueEntries := 1
    consumer := .satisfied
    accepted := [⟨0, 24⟩] }

theorem queue_counts_agree_when_woken :
    queueMachine.run oneEntryRun = some oneEntryWoken ∧
      oneEntryWoken.semaphore + 1 = oneEntryWoken.pdQueue.length :=
  ⟨rfl, ((queue_counts_agree oneEntryRun oneEntryWoken rfl).1 rfl).1⟩

end VirtueSensing.Driver
