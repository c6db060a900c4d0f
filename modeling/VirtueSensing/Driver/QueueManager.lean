import VirtueSensing.Shared.Machine

set_option autoImplicit false

/-!
# The probe data queue of the Windows driver

Model of `WVUQueueManager` (`Enqueue`, `PutBack`, `Dequeue`, `TrimProbeDataQueue`,
`SemaphoreRelease`, `Dispose`) and of the send loop of `WVUProbeCommsThread`. Every access to the
list, to the byte count and to the semaphore is a step of its own, so that the wait of the comms
thread can be satisfied between any two of them.
-/

namespace VirtueSensing.Driver

/-- A `PROBE_DATA_HEADER`. The queue reads no field but `data_sz`; `seq` is the place of the event
in the order in which the queue accepted it. -/
structure Event where
  seq : Nat
  dataSz : UInt16
  deriving DecidableEq, Repr

def probeDataQueueSz : Nat := 0x40000

-- `Enqueue` is called by the producers, `PutBack` by the comms thread only.
inductive Caller where
  | producer (id : Nat)
  | comms
  deriving DecidableEq, Repr

/-- The next statement of `Enqueue` or `PutBack` while `PDQueueSpinLock` is held. -/
inductive InsertPlace where
  | trimTest
  | trimRemove
  | trimAccount (removed : Event)
  | trimAcquire
  | insert
  | account
  | release
  | recount
  | unlock
  deriving DecidableEq, Repr

inductive DequeuePlace where
  | test
  | remove
  | account (removed : Event)
  | unlock (result : Option Event)
  deriving DecidableEq, Repr

inductive SpinLock where
  | free
  | inserting (caller : Caller) (item : Event) (place : InsertPlace)
  | dequeuing (place : DequeuePlace)
  deriving DecidableEq, Repr

-- Where `WVUProbeCommsThread` stands; inside a section of the queue the lock tells the rest.
inductive Consumer where
  | waiting
  | satisfied
  | dequeuing
  | sending (item : Event)
  | failed (item : Event)
  | puttingBack
  | succeeded (item : Event)
  deriving DecidableEq, Repr

structure Discard where
  caller : Caller
  item : Event
  queue : List Event
  removed : Event
  deriving DecidableEq, Repr

structure State where
  pdQueue : List Event
  semaphore : Nat
  connected : Bool
  enabled : Bool
  sizeOfDataInQueue : Int
  numberOfQueueEntries : Nat
  numberOfDiscards : Nat
  messageId : Nat
  lock : SpinLock
  consumer : Consumer
  -- The last three fields are history: no step of the driver reads them.
  accepted : List Event
  sent : List Event
  discards : List Discard
  deriving DecidableEq, Repr

-- After a constructor that could allocate the semaphore and the event.
def State.initial : State where
  pdQueue := []
  semaphore := 0
  connected := false
  enabled := true
  sizeOfDataInQueue := 0
  numberOfQueueEntries := 0
  numberOfDiscards := 0
  messageId := 1
  lock := .free
  consumer := .waiting
  accepted := []
  sent := []
  discards := []

-- `Count`: the length of the queue is read from the semaphore.
def State.count (s : State) : Nat := s.semaphore

-- A wait with timeout zero: it takes a unit if there is one and gives up otherwise.
def State.acquireQueueSempahore (s : State) : State :=
  { s with semaphore := s.semaphore - 1 }

inductive Label where
  | enqueue (id : Nat) (dataSz : UInt16)
  | advance
  | wait
  | dequeue
  | send (success : Bool)
  | putBack
  | dispose
  | connect
  | disconnect
  deriving DecidableEq, Repr

def advanceInsert (s : State) (caller : Caller) (item : Event) : InsertPlace → Option State
  | .trimTest =>
      some { s with lock := .inserting caller item
                      (if probeDataQueueSz ≤ s.count then .trimRemove else .insert) }
  | .trimRemove =>
      match s.pdQueue with
      | [] => none
      | removed :: rest =>
          some { s with
            pdQueue := rest
            lock := .inserting caller item (.trimAccount removed)
            discards := s.discards ++ [⟨caller, item, removed :: rest, removed⟩] }
  | .trimAccount removed =>
      some { s with
        numberOfQueueEntries := s.count
        sizeOfDataInQueue := s.sizeOfDataInQueue - removed.dataSz.toNat
        lock := .inserting caller item .trimAcquire }
  | .trimAcquire =>
      some { s.acquireQueueSempahore with lock := .inserting caller item .trimTest }
  | .insert =>
      match caller with
      | .producer _ =>
          some { s with
            pdQueue := s.pdQueue ++ [item]
            accepted := s.accepted ++ [item]
            lock := .inserting caller item .account }
      | .comms =>
          some { s with pdQueue := item :: s.pdQueue, lock := .inserting caller item .account }
  | .account =>
      some { s with
        sizeOfDataInQueue := s.sizeOfDataInQueue + item.dataSz.toNat
        lock := .inserting caller item .release }
  | .release =>
      -- Past the limit KeReleaseSemaphore raises, and SemaphoreRelease ignores the exception.
      if s.semaphore < probeDataQueueSz then
        some { s with semaphore := s.semaphore + 1, lock := .inserting caller item .recount }
      else
        some { s with lock := .inserting caller item .unlock }
  | .recount =>
      some { s with numberOfQueueEntries := s.count, lock := .inserting caller item .unlock }
  | .unlock =>
      match caller with
      | .producer _ => some { s with lock := .free }
      | .comms => some { s with lock := .free, consumer := .waiting }

def advanceDequeue (s : State) : DequeuePlace → Option State
  | .test =>
      if s.enabled = false ∨ s.pdQueue = [] then
        some { s with lock := .dequeuing (.unlock none) }
      else
        some { s with lock := .dequeuing .remove }
  | .remove =>
      match s.pdQueue with
      | [] => none
      | removed :: rest =>
          some { s with pdQueue := rest, lock := .dequeuing (.account removed) }
  | .account removed =>
      some { s with
        sizeOfDataInQueue := s.sizeOfDataInQueue - removed.dataSz.toNat
        numberOfQueueEntries := s.count
        lock := .dequeuing (.unlock (some removed)) }
  | .unlock none => some { s with lock := .free, consumer := .waiting }
  | .unlock (some item) => some { s with lock := .free, consumer := .sending item }

def step (s : State) : Label → Option State
  | .enqueue id dataSz =>
      if s.enabled = false then
        some s
      else if s.lock = .free then
        some { s with lock := .inserting (.producer id) ⟨s.accepted.length, dataSz⟩ .trimTest }
      else none
  | .advance =>
      match s.lock with
      | .free => none
      | .inserting caller item place => advanceInsert s caller item place
      | .dequeuing place => advanceDequeue s place
  | .wait =>
      -- WaitAll: the port is connected and one unit of the semaphore is taken, at once.
      if s.consumer = .waiting ∧ s.connected = true ∧ 0 < s.semaphore then
        some { s with semaphore := s.semaphore - 1, consumer := .satisfied }
      else none
  | .dequeue =>
      if s.consumer = .satisfied ∧ s.lock = .free then
        some { s with consumer := .dequeuing, lock := .dequeuing .test }
      else none
  | .send success =>
      match s.consumer with
      | .sending item =>
          if success then
            some { s with consumer := .succeeded item, sent := s.sent ++ [item] }
          else
            some { s with consumer := .failed item }
      | _ => none
  | .putBack =>
      match s.consumer with
      | .failed item =>
          if s.enabled = false then
            some { s with
              messageId := s.messageId + 1
              numberOfDiscards := s.numberOfDiscards + 1
              consumer := .waiting }
          else if s.lock = .free then
            some { s with consumer := .puttingBack, lock := .inserting .comms item .trimTest }
          else none
      | _ => none
  | .dispose =>
      match s.consumer with
      | .succeeded _ => some { s with messageId := s.messageId + 1, consumer := .waiting }
      | _ => none
  | .connect => some { s with connected := true }
  | .disconnect => some { s with connected := false }

def queueMachine : Machine State Label where
  initial := .initial
  step := step

/-- What a step can do, with its guards: every invariant below is proved by cases on this. -/
inductive Move : State → Label → State → Prop where
  | refused {s : State} {id : Nat} {dataSz : UInt16} (off : s.enabled = false) :
      Move s (.enqueue id dataSz) s
  | enqueue {s : State} {id : Nat} {dataSz : UInt16} (on : s.enabled = true) (free : s.lock = .free) :
      Move s (.enqueue id dataSz)
        { s with lock := .inserting (.producer id) ⟨s.accepted.length, dataSz⟩ .trimTest }
  | trimFull {s : State} {caller : Caller} {item : Event}
      (held : s.lock = .inserting caller item .trimTest) (full : probeDataQueueSz ≤ s.semaphore) :
      Move s .advance { s with lock := .inserting caller item .trimRemove }
  | trimDone {s : State} {caller : Caller} {item : Event}
      (held : s.lock = .inserting caller item .trimTest) (room : s.semaphore < probeDataQueueSz) :
      Move s .advance { s with lock := .inserting caller item .insert }
  | trimRemove {s : State} {caller : Caller} {item removed : Event} {rest : List Event}
      (held : s.lock = .inserting caller item .trimRemove) (queue : s.pdQueue = removed :: rest) :
      Move s .advance
        { s with
          pdQueue := rest
          lock := .inserting caller item (.trimAccount removed)
          discards := s.discards ++ [⟨caller, item, removed :: rest, removed⟩] }
  | trimAccount {s : State} {caller : Caller} {item removed : Event}
      (held : s.lock = .inserting caller item (.trimAccount removed)) :
      Move s .advance
        { s with
          numberOfQueueEntries := s.semaphore
          sizeOfDataInQueue := s.sizeOfDataInQueue - removed.dataSz.toNat
          lock := .inserting caller item .trimAcquire }
  | trimAcquire {s : State} {caller : Caller} {item : Event}
      (held : s.lock = .inserting caller item .trimAcquire) :
      Move s .advance
        { s with semaphore := s.semaphore - 1, lock := .inserting caller item .trimTest }
  | insertTail {s : State} {id : Nat} {item : Event}
      (held : s.lock = .inserting (.producer id) item .insert) :
      Move s .advance
        { s with
          pdQueue := s.pdQueue ++ [item]
          accepted := s.accepted ++ [item]
          lock := .inserting (.producer id) item .account }
  | insertHead {s : State} {item : Event} (held : s.lock = .inserting .comms item .insert) :
      Move s .advance
        { s with pdQueue := item :: s.pdQueue, lock := .inserting .comms item .account }
  | account {s : State} {caller : Caller} {item : Event}
      (held : s.lock = .inserting caller item .account) :
      Move s .advance
        { s with
          sizeOfDataInQueue := s.sizeOfDataInQueue + item.dataSz.toNat
          lock := .inserting caller item .release }
  | release {s : State} {caller : Caller} {item : Event}
      (held : s.lock = .inserting caller item .release) (room : s.semaphore < probeDataQueueSz) :
      Move s .advance
        { s with semaphore := s.semaphore + 1, lock := .inserting caller item .recount }
  | exceeded {s : State} {caller : Caller} {item : Event}
      (held : s.lock = .inserting caller item .release) (full : probeDataQueueSz ≤ s.semaphore) :
      Move s .advance { s with lock := .inserting caller item .unlock }
  | recount {s : State} {caller : Caller} {item : Event}
      (held : s.lock = .inserting caller item .recount) :
      Move s .advance
        { s with numberOfQueueEntries := s.semaphore, lock := .inserting caller item .unlock }
  | enqueued {s : State} {id : Nat} {item : Event}
      (held : s.lock = .inserting (.producer id) item .unlock) :
      Move s .advance { s with lock := .free }
  | putBackDone {s : State} {item : Event} (held : s.lock = .inserting .comms item .unlock) :
      Move s .advance { s with lock := .free, consumer := .waiting }
  | dequeueEmpty {s : State} (held : s.lock = .dequeuing .test)
      (empty : s.enabled = false ∨ s.pdQueue = []) :
      Move s .advance { s with lock := .dequeuing (.unlock none) }
  | dequeueTest {s : State} (held : s.lock = .dequeuing .test) (on : s.enabled = true)
      (filled : s.pdQueue ≠ []) :
      Move s .advance { s with lock := .dequeuing .remove }
  | dequeueRemove {s : State} {removed : Event} {rest : List Event}
      (held : s.lock = .dequeuing .remove) (queue : s.pdQueue = removed :: rest) :
      Move s .advance { s with pdQueue := rest, lock := .dequeuing (.account removed) }
  | dequeueAccount {s : State} {removed : Event} (held : s.lock = .dequeuing (.account removed)) :
      Move s .advance
        { s with
          sizeOfDataInQueue := s.sizeOfDataInQueue - removed.dataSz.toNat
          numberOfQueueEntries := s.semaphore
          lock := .dequeuing (.unlock (some removed)) }
  | dequeuedNone {s : State} (held : s.lock = .dequeuing (.unlock none)) :
      Move s .advance { s with lock := .free, consumer := .waiting }
  | dequeued {s : State} {item : Event} (held : s.lock = .dequeuing (.unlock (some item))) :
      Move s .advance { s with lock := .free, consumer := .sending item }
  | wait {s : State} (waits : s.consumer = .waiting) (up : s.connected = true)
      (unit : 0 < s.semaphore) :
      Move s .wait { s with semaphore := s.semaphore - 1, consumer := .satisfied }
  | dequeue {s : State} (woken : s.consumer = .satisfied) (free : s.lock = .free) :
      Move s .dequeue { s with consumer := .dequeuing, lock := .dequeuing .test }
  | sent {s : State} {item : Event} (sending : s.consumer = .sending item) :
      Move s (.send true) { s with consumer := .succeeded item, sent := s.sent ++ [item] }
  | sendFailed {s : State} {item : Event} (sending : s.consumer = .sending item) :
      Move s (.send false) { s with consumer := .failed item }
  | dropped {s : State} {item : Event} (failed : s.consumer = .failed item)
      (off : s.enabled = false) :
      Move s .putBack
        { s with
          messageId := s.messageId + 1
          numberOfDiscards := s.numberOfDiscards + 1
          consumer := .waiting }
  | putBack {s : State} {item : Event} (failed : s.consumer = .failed item)
      (on : s.enabled = true) (free : s.lock = .free) :
      Move s .putBack
        { s with consumer := .puttingBack, lock := .inserting .comms item .trimTest }
  | dispose {s : State} {item : Event} (done : s.consumer = .succeeded item) :
      Move s .dispose { s with messageId := s.messageId + 1, consumer := .waiting }
  | connect {s : State} : Move s .connect { s with connected := true }
  | disconnect {s : State} : Move s .disconnect { s with connected := false }

theorem advanceInsert_move {s t : State} {caller : Caller} {item : Event} {place : InsertPlace}
    (held : s.lock = .inserting caller item place)
    (moved : advanceInsert s caller item place = some t) : Move s .advance t := by
  cases place with
  | trimTest =>
    by_cases full : probeDataQueueSz ≤ s.semaphore
    · simp only [advanceInsert, State.count, full, if_true, Option.some.injEq] at moved
      exact moved ▸ .trimFull held full
    · simp only [advanceInsert, State.count, full, if_false, Option.some.injEq] at moved
      exact moved ▸ .trimDone held (by omega)
  | trimRemove =>
    cases queue : s.pdQueue with
    | nil => simp [advanceInsert, queue] at moved
    | cons removed rest =>
      simp only [advanceInsert, queue, Option.some.injEq] at moved
      exact moved ▸ .trimRemove held queue
  | trimAccount removed => exact Option.some.inj moved ▸ .trimAccount held
  | trimAcquire => exact Option.some.inj moved ▸ .trimAcquire held
  | insert =>
    cases caller with
    | producer id => exact Option.some.inj moved ▸ .insertTail held
    | comms => exact Option.some.inj moved ▸ .insertHead held
  | account => exact Option.some.inj moved ▸ .account held
  | release =>
    by_cases room : s.semaphore < probeDataQueueSz
    · simp only [advanceInsert, room, if_true, Option.some.injEq] at moved
      exact moved ▸ .release held room
    · simp only [advanceInsert, room, if_false, Option.some.injEq] at moved
      exact moved ▸ .exceeded held (by omega)
  | recount => exact Option.some.inj moved ▸ .recount held
  | unlock =>
    cases caller with
    | producer id => exact Option.some.inj moved ▸ .enqueued held
    | comms => exact Option.some.inj moved ▸ .putBackDone held

theorem advanceDequeue_move {s t : State} {place : DequeuePlace}
    (held : s.lock = .dequeuing place) (moved : advanceDequeue s place = some t) :
    Move s .advance t := by
  cases place with
  | test =>
    by_cases empty : s.enabled = false ∨ s.pdQueue = []
    · simp only [advanceDequeue, empty, if_true, Option.some.injEq] at moved
      exact moved ▸ .dequeueEmpty held empty
    · simp only [advanceDequeue, empty, if_false, Option.some.injEq] at moved
      simp only [not_or, Bool.not_eq_false] at empty
      exact moved ▸ .dequeueTest held empty.1 empty.2
  | remove =>
    cases queue : s.pdQueue with
    | nil => simp [advanceDequeue, queue] at moved
    | cons removed rest =>
      simp only [advanceDequeue, queue, Option.some.injEq] at moved
      exact moved ▸ .dequeueRemove held queue
  | account removed => exact Option.some.inj moved ▸ .dequeueAccount held
  | unlock result =>
    cases result with
    | none => exact Option.some.inj moved ▸ .dequeuedNone held
    | some item => exact Option.some.inj moved ▸ .dequeued held

theorem step_move {s t : State} {a : Label} (moved : step s a = some t) : Move s a t := by
  cases a with
  | enqueue id dataSz =>
    simp only [step] at moved
    split_ifs at moved with off free
    · exact Option.some.inj moved ▸ .refused off
    · exact Option.some.inj moved ▸ .enqueue (by simpa using off) free
  | advance =>
    cases held : s.lock with
    | free => simp [step, held] at moved
    | inserting caller item place => exact advanceInsert_move held (by simpa [step, held] using moved)
    | dequeuing place => exact advanceDequeue_move held (by simpa [step, held] using moved)
  | wait =>
    simp only [step] at moved
    split_ifs at moved with ready
    exact Option.some.inj moved ▸ .wait ready.1 ready.2.1 ready.2.2
  | dequeue =>
    simp only [step] at moved
    split_ifs at moved with ready
    exact Option.some.inj moved ▸ .dequeue ready.1 ready.2
  | send success =>
    cases sending : s.consumer <;> simp [step, sending] at moved
    cases success with
    | true => exact (by simpa using moved) ▸ Move.sent sending
    | false => exact (by simpa using moved) ▸ Move.sendFailed sending
  | putBack =>
    cases failed : s.consumer <;> simp [step, failed] at moved
    split_ifs at moved with off free
    · exact Option.some.inj moved ▸ .dropped failed off
    · exact Option.some.inj moved ▸ .putBack failed (by simpa using off) free
  | dispose =>
    cases done : s.consumer <;> simp [step, done] at moved
    exact moved ▸ .dispose done
  | connect => exact Option.some.inj moved ▸ .connect
  | disconnect => exact Option.some.inj moved ▸ .disconnect

end VirtueSensing.Driver
