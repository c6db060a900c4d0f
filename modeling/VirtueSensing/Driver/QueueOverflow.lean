import VirtueSensing.Driver.QueueDelivery

set_option autoImplicit false

namespace VirtueSensing.Driver

def Discard.Oldest (discard : Discard) : Prop :=
  ∀ event ∈ discard.item :: discard.queue, discard.removed.seq ≤ event.seq

instance (discard : Discard) : Decidable discard.Oldest :=
  inferInstanceAs (Decidable (∀ event ∈ discard.item :: discard.queue, _))

/-- The comment on `PutBack`: at a full queue the item put back is the one that is dropped. -/
def Discard.AsDocumented (discard : Discard) : Prop :=
  discard.Oldest ∧ (discard.caller = .comms → discard.removed = discard.item)

theorem Delivered.sorted {s : State} (delivered : Delivered s) :
    s.line.Pairwise fun earlier later => earlier.seq < later.seq := by
  have accepted : (s.accepted.map Event.seq).Pairwise (· < ·) := by
    rw [delivered.numbered]
    exact List.pairwise_lt_range
  exact (List.pairwise_map.mp accepted).sublist delivered.order

theorem Delivered.seq_lt {s : State} (delivered : Delivered s) {event : Event}
    (queued : event ∈ s.pdQueue) : event.seq < s.accepted.length := by
  have accepted : event ∈ s.accepted :=
    delivered.order.subset (List.mem_append_right _ queued)
  have member := List.mem_map_of_mem (f := Event.seq) accepted
  rw [delivered.numbered] at member
  exact List.mem_range.mp member

-- What the trim really drops: the head of the list, which is the oldest event only if the
-- caller inserts at the tail.
def Discard.FromHead (discard : Discard) : Prop :=
  if discard.caller = .comms then discard.item.seq < discard.removed.seq else discard.Oldest

theorem trim_from_head {s : State} (balanced : Balanced s) (delivered : Delivered s)
    {caller : Caller} {item removed : Event} {rest : List Event}
    (held : s.lock = .inserting caller item .trimRemove) (queue : s.pdQueue = removed :: rest) :
    Discard.FromHead ⟨caller, item, removed :: rest, removed⟩ := by
  have sorted := delivered.sorted
  cases caller with
  | comms =>
    have idle := balanced.putBack.mpr (by simp [held, SpinLock.heldByPutBack])
    have line : s.line = s.sent ++ item :: removed :: rest := by
      simp [State.line, State.inFlight, idle, held, queue, Consumer.inFlight, SpinLock.inFlight,
        InsertPlace.beforeInsert]
    rw [line, List.pairwise_append] at sorted
    have older := (List.pairwise_cons.mp sorted.2.1).1 removed (by simp)
    simpa [Discard.FromHead] using older
  | producer id =>
    have newest := delivered.next id item .trimRemove held rfl
    rw [State.line, List.pairwise_append, queue] at sorted
    have oldest := (List.pairwise_cons.mp sorted.2.1).1
    simp only [Discard.FromHead, reduceCtorEq, if_false]
    intro event member
    rcases List.mem_cons.mp member with rfl | member
    · have bound := delivered.seq_lt (show removed ∈ s.pdQueue by simp [queue])
      simp only
      omega
    · rcases List.mem_cons.mp member with rfl | member
      · exact le_refl _
      · exact (oldest event member).le

theorem discards_from_head {s : State} (reached : queueMachine.Reachable s) :
    ∀ discard ∈ s.discards, discard.FromHead := by
  refine queueMachine.invariant (motive := fun s => ∀ discard ∈ s.discards, discard.FromHead)
    (by simp [queueMachine, State.initial]) ?_ reached
  intro s a t reached before moved
  have balanced := Balanced.of_reachable reached
  have delivered := Delivered.of_reachable reached
  cases step_move moved
  case trimRemove caller item removed rest held queue =>
    intro discard member
    rcases List.mem_append.mp member with old | new
    · exact before discard old
    · rw [List.mem_singleton.mp new]
      exact trim_from_head balanced delivered held queue
  all_goals exact before

theorem Discard.FromHead.documented_iff {discard : Discard} (fromHead : discard.FromHead) :
    discard.AsDocumented ↔ discard.caller ≠ .comms := by
  unfold Discard.FromHead at fromHead
  constructor
  · rintro ⟨oldest, -⟩ byPutBack
    rw [if_pos byPutBack] at fromHead
    have := oldest discard.item (by simp)
    omega
  · intro byEnqueue
    rw [if_neg byEnqueue] at fromHead
    exact ⟨fromHead, fun byPutBack => absurd byPutBack byEnqueue⟩

/-- The condition on the steps of a run: `PutBack` is not called while the queue is full. -/
def PutBackHasRoom (s : State) (a : Label) : Prop :=
  a = .putBack → s.semaphore < probeDataQueueSz

-- `PutBack` has dropped an event, or is about to.
def State.Overflowing (s : State) : Prop :=
  (∃ discard ∈ s.discards, discard.caller = .comms) ∨
    ∃ item, (s.lock = .inserting .comms item .trimTest ∧ probeDataQueueSz ≤ s.semaphore) ∨
      s.lock = .inserting .comms item .trimRemove

theorem Move.overflowing_iff {s t : State} {a : Label} (move : Move s a t) (balanced : Balanced s) :
    t.Overflowing ↔ s.Overflowing ∨ ¬ PutBackHasRoom s a := by
  have putBack := balanced.putBack
  have enabled := balanced.enabled
  have limit := balanced.limit
  have positive : 1 < probeDataQueueSz := by decide
  cases move
  case trimRemove caller item removed rest held queue =>
    by_cases byPutBack : caller = .comms
    · simp [State.Overflowing, PutBackHasRoom, held, byPutBack]
    · simp [State.Overflowing, PutBackHasRoom, held, byPutBack]
  case trimAcquire caller item held =>
    have less : ¬ probeDataQueueSz ≤ s.semaphore - 1 := by omega
    simp [State.Overflowing, PutBackHasRoom, held, less]
  case wait waits up unit =>
    -- The comms thread is not inside PutBack while it waits.
    have outside (item : Event) (place : InsertPlace) : s.lock ≠ .inserting .comms item place := by
      intro held
      simp [waits, held, SpinLock.heldByPutBack] at putBack
    simp [State.Overflowing, PutBackHasRoom, outside]
  all_goals simp_all [State.Overflowing, PutBackHasRoom]

theorem overflowing_iff (labels : List Label) (s : State)
    (reached : queueMachine.run labels = some s) :
    s.Overflowing ↔ ¬ queueMachine.Throughout PutBackHasRoom labels := by
  refine queueMachine.run_induction
    (motive := fun labels s => s.Overflowing ↔ ¬ queueMachine.Throughout PutBackHasRoom labels)
    ?_ ?_ labels s reached
  · simp [State.Overflowing, queueMachine, State.initial, Machine.throughout_nil]
  · intro labels a s t reached before moved
    rw [(step_move moved).overflowing_iff (Balanced.of_reachable ⟨labels, reached⟩), before,
      queueMachine.throughout_snoc PutBackHasRoom reached]
    tauto

/-- In every run whose calls of `PutBack` all find room, each discarded event is the oldest one;
and with the lock free a run has discarded as documented only if that was so. -/
theorem overflow_discards_oldest (labels : List Label) (s : State)
    (reached : queueMachine.run labels = some s) :
    (queueMachine.Throughout PutBackHasRoom labels → ∀ discard ∈ s.discards, discard.AsDocumented) ∧
    (s.lock = .free → (∀ discard ∈ s.discards, discard.AsDocumented) →
      queueMachine.Throughout PutBackHasRoom labels) := by
  have fromHead := discards_from_head ⟨labels, reached⟩
  have overflowing := overflowing_iff labels s reached
  constructor
  · intro room discard member
    refine (fromHead discard member).documented_iff.mpr fun byPutBack => ?_
    exact overflowing.mp (.inl ⟨discard, member, byPutBack⟩) room
  · intro free documented
    by_contra full
    rcases overflowing.mpr full with ⟨discard, member, byPutBack⟩ | ⟨item, ⟨held, -⟩ | held⟩
    · exact (fromHead discard member).documented_iff.mp (documented discard member) byPutBack
    · simp [free] at held
    · simp [free] at held

def enqueueCall : List Label :=
  [.enqueue 0 1, .advance, .advance, .advance, .advance, .advance, .advance]

def fill (n : Nat) : List Label :=
  .connect :: (List.replicate n enqueueCall).flatten

theorem enqueueCall_runs {s : State} (free : s.lock = .free) (on : s.enabled = true)
    (room : s.semaphore < probeDataQueueSz) :
    queueMachine.runFrom s enqueueCall =
      some { s with
        pdQueue := s.pdQueue ++ [⟨s.accepted.length, 1⟩]
        semaphore := s.semaphore + 1
        sizeOfDataInQueue := s.sizeOfDataInQueue + 1
        numberOfQueueEntries := s.semaphore + 1
        accepted := s.accepted ++ [⟨s.accepted.length, 1⟩] } := by
  cases s
  simp only at free on room
  simp [enqueueCall, queueMachine, step, advanceInsert, State.count, free, on, room, room.not_ge]

structure Resting (n : Nat) (consumer : Consumer) (s : State) : Prop where
  free : s.lock = .free
  units : s.semaphore = n
  consumer : s.consumer = consumer
  connected : s.connected = true

theorem fill_runs (n : Nat) (room : n ≤ probeDataQueueSz) :
    ∃ s, queueMachine.run (fill n) = some s ∧ Resting n .waiting s := by
  induction n with
  | zero => exact ⟨{ State.initial with connected := true }, rfl, rfl, rfl, rfl, rfl⟩
  | succ n ih =>
    obtain ⟨s, reached, resting⟩ := ih (by omega)
    have on := (Balanced.of_reachable ⟨_, reached⟩).enabled
    have longer : fill (n + 1) = fill n ++ enqueueCall := by
      simp [fill, List.replicate_succ', List.flatten_append]
    have called := enqueueCall_runs resting.free on (by rw [resting.units]; omega)
    rw [longer, queueMachine.run_append reached]
    exact ⟨_, called, resting.free, by simp [resting.units], resting.consumer, resting.connected⟩

theorem fill_no_putBack (n : Nat) : Label.putBack ∉ fill n := by
  induction n with
  | zero => simp [fill]
  | succ n ih =>
    simp only [fill, List.replicate_succ, List.flatten_cons, List.mem_cons, List.mem_append,
      reduceCtorEq, false_or, not_or] at ih ⊢
    exact ⟨by decide, ih⟩

theorem throughout_of_no_putBack {labels : List Label} (absent : Label.putBack ∉ labels) :
    queueMachine.Throughout PutBackHasRoom labels := by
  intro first a rest s split reached isPutBack
  subst split isPutBack
  simp at absent

theorem Balanced.full_nonempty {s : State} (balanced : Balanced s) (free : s.lock = .free)
    (full : s.semaphore = probeDataQueueSz) : ∃ removed rest, s.pdQueue = removed :: rest := by
  have positive : 1 < probeDataQueueSz := by decide
  have units := balanced.units
  simp only [free, SpinLock.removed, SpinLock.waitTaken, SpinLock.inserted] at units
  exact List.exists_cons_of_length_pos (by omega)

theorem overflow_discards_oldest_at_enqueue :
    ∃ s, queueMachine.run (fill probeDataQueueSz ++ [.enqueue 0 1, .advance, .advance]) = some s ∧
      ∃ discard ∈ s.discards, discard.caller = .producer 0 ∧ discard.AsDocumented := by
  obtain ⟨s, reached, resting⟩ := fill_runs probeDataQueueSz (le_refl _)
  have balanced := Balanced.of_reachable ⟨_, reached⟩
  obtain ⟨removed, rest, queue⟩ := balanced.full_nonempty resting.free resting.units
  have room : queueMachine.Throughout PutBackHasRoom
      (fill probeDataQueueSz ++ [.enqueue 0 1, .advance, .advance]) :=
    throughout_of_no_putBack (by simp [fill_no_putBack])
  have run : queueMachine.run (fill probeDataQueueSz ++ [.enqueue 0 1, .advance, .advance]) =
      some { s with
        pdQueue := rest
        lock := .inserting (.producer 0) ⟨s.accepted.length, 1⟩ (.trimAccount removed)
        discards := s.discards ++
          [⟨.producer 0, ⟨s.accepted.length, 1⟩, removed :: rest, removed⟩] } := by
    rw [queueMachine.run_append reached]
    simp [queueMachine, step, advanceInsert, State.count, resting.free, balanced.enabled,
      resting.units, queue]
  refine ⟨_, run, _, List.mem_append_right _ (List.mem_singleton_self _), rfl, ?_⟩
  exact (overflow_discards_oldest _ _ run).1 room _
    (List.mem_append_right _ (List.mem_singleton_self _))

def dequeueCall : List Label :=
  [.wait, .dequeue, .advance, .advance, .advance, .advance]

theorem dequeueCall_runs {s : State} {n : Nat} (resting : Resting (n + 1) .waiting s)
    (on : s.enabled = true) {item : Event} {rest : List Event} (queue : s.pdQueue = item :: rest) :
    queueMachine.runFrom s dequeueCall =
      some { s with
        pdQueue := rest
        semaphore := n
        sizeOfDataInQueue := s.sizeOfDataInQueue - item.dataSz.toNat
        numberOfQueueEntries := n
        consumer := .sending item } := by
  obtain ⟨free, units, waits, up⟩ := resting
  cases s
  simp only at free units waits up on queue
  simp [dequeueCall, queueMachine, step, advanceDequeue, State.count, free, units, waits, up, on,
    queue]

def putBackAtFullQueue : List Label :=
  fill probeDataQueueSz ++
    (dequeueCall ++ (enqueueCall ++ [.send false, .putBack, .advance, .advance]))

theorem putBackAtFullQueue_runs :
    ∃ s, queueMachine.run putBackAtFullQueue = some s ∧
      ∃ discard ∈ s.discards, discard.caller = .comms := by
  obtain ⟨s, reached, resting⟩ := fill_runs probeDataQueueSz (le_refl _)
  have balanced := Balanced.of_reachable ⟨_, reached⟩
  obtain ⟨item, rest, queue⟩ := balanced.full_nonempty resting.free resting.units
  have dequeued := dequeueCall_runs (n := 0x3ffff) resting balanced.enabled queue
  let flying : State :=
    { s with
      pdQueue := rest
      semaphore := 0x3ffff
      sizeOfDataInQueue := s.sizeOfDataInQueue - item.dataSz.toNat
      numberOfQueueEntries := 0x3ffff
      consumer := .sending item }
  have enqueued := enqueueCall_runs (s := flying) resting.free balanced.enabled
    (show 0x3ffff < probeDataQueueSz by decide)
  obtain ⟨removed, later, more⟩ :
      ∃ removed later, rest ++ [⟨s.accepted.length, 1⟩] = removed :: later :=
    List.exists_cons_of_ne_nil (by simp)
  refine ⟨{ flying with
      pdQueue := later
      semaphore := probeDataQueueSz
      sizeOfDataInQueue := flying.sizeOfDataInQueue + 1
      numberOfQueueEntries := probeDataQueueSz
      accepted := s.accepted ++ [⟨s.accepted.length, 1⟩]
      consumer := .puttingBack
      lock := .inserting .comms item (.trimAccount removed)
      discards := s.discards ++ [⟨.comms, item, removed :: later, removed⟩] }, ?_, _,
    List.mem_append_right _ (List.mem_singleton_self _), rfl⟩
  rw [putBackAtFullQueue, queueMachine.run_append reached, queueMachine.runFrom_append, dequeued]
  simp only [Option.bind_some]
  rw [queueMachine.runFrom_append, enqueued]
  simp [queueMachine, step, advanceInsert, State.count, flying, resting.free, balanced.enabled, more,
    probeDataQueueSz]

theorem putBack_discards_newer :
    ¬ ∀ (labels : List Label) (s : State), queueMachine.run labels = some s →
      ∀ discard ∈ s.discards, discard.AsDocumented := by
  intro documented
  obtain ⟨s, reached, discard, member, byPutBack⟩ := putBackAtFullQueue_runs
  have fromHead := discards_from_head ⟨_, reached⟩ discard member
  exact fromHead.documented_iff.mp (documented _ s reached discard member) byPutBack

end VirtueSensing.Driver
