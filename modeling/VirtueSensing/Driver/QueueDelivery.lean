import Mathlib.Data.List.Perm.Basic
import Mathlib.Data.List.Sublists
import VirtueSensing.Driver.QueueBalance
import VirtueSensing.Shared.Lists

set_option autoImplicit false

namespace VirtueSensing.Driver

def InsertPlace.beforeInsert : InsertPlace → Bool
  | .trimTest | .trimRemove | .trimAccount _ | .trimAcquire | .insert => true
  | .account | .release | .recount | .unlock => false

-- The event that the comms thread holds inside `Dequeue` or `PutBack`.
def SpinLock.inFlight : SpinLock → List Event
  | .inserting caller item place => if caller = .comms ∧ place.beforeInsert = true then [item] else []
  | .dequeuing (.account removed) => [removed]
  | .dequeuing (.unlock (some removed)) => [removed]
  | _ => []

def Consumer.inFlight : Consumer → List Event
  | .sending item | .failed item => [item]
  | _ => []

def State.inFlight (s : State) : List Event :=
  s.consumer.inFlight ++ s.lock.inFlight

def State.discarded (s : State) : List Event :=
  s.discards.map Discard.removed

def State.line (s : State) : List Event :=
  s.sent ++ s.inFlight ++ s.pdQueue

structure Delivered (s : State) : Prop where
  numbered : s.accepted.map Event.seq = List.range s.accepted.length
  next : ∀ id item place, s.lock = .inserting (.producer id) item place →
    place.beforeInsert = true → item.seq = s.accepted.length
  order : s.line.Sublist s.accepted
  partition : s.accepted.Perm (s.line ++ s.discarded)

theorem delivered_initial : Delivered State.initial := by
  constructor <;>
    simp [State.initial, State.line, State.inFlight, State.discarded, Consumer.inFlight,
      SpinLock.inFlight]

structure Carried (s t : State) : Prop where
  line : t.line = s.line
  accepted : t.accepted = s.accepted
  discards : t.discards = s.discards
  next : ∀ id item place, t.lock = .inserting (.producer id) item place →
    place.beforeInsert = true →
      (∃ before, s.lock = .inserting (.producer id) item before ∧ before.beforeInsert = true) ∨
        item.seq = s.accepted.length

theorem Carried.delivered {s t : State} (carried : Carried s t) (before : Delivered s) :
    Delivered t where
  numbered := by rw [carried.accepted]; exact before.numbered
  next := by
    intro id item place held early
    rw [carried.accepted]
    rcases carried.next id item place held early with ⟨place, held, early⟩ | seq
    · exact before.next id item place held early
    · exact seq
  order := by rw [carried.line, carried.accepted]; exact before.order
  partition := by
    rw [State.discarded, carried.line, carried.accepted, carried.discards]
    exact before.partition

theorem Move.carried {s t : State} {a : Label} (move : Move s a t) (balanced : Balanced s)
    (kept : t.discards = s.discards) (same : t.accepted = s.accepted) : Carried s t := by
  have enabled := balanced.enabled
  have putBack := balanced.putBack
  have dequeue := balanced.dequeue
  cases move
  case trimFull | trimDone | trimAccount | trimAcquire | account | release | exceeded | recount |
      enqueued | insertHead | putBackDone =>
    constructor <;>
      simp_all [State.line, State.inFlight, SpinLock.inFlight, Consumer.inFlight,
        SpinLock.heldByPutBack, InsertPlace.beforeInsert]
  case dequeueEmpty | dequeueTest | dequeueRemove | dequeueAccount | dequeuedNone | dequeued =>
    constructor <;>
      simp_all [State.line, State.inFlight, SpinLock.inFlight, Consumer.inFlight,
        SpinLock.heldByDequeue]
  case wait | dequeue | sent | sendFailed | putBack | dispose | connect | disconnect | refused |
      enqueue | dropped =>
    constructor <;>
      simp_all [State.line, State.inFlight, SpinLock.inFlight, Consumer.inFlight,
        InsertPlace.beforeInsert]
  case trimRemove => simp at kept
  case insertTail => simp at same

theorem Move.delivered {s t : State} {a : Label} (move : Move s a t) (balanced : Balanced s)
    (before : Delivered s) : Delivered t := by
  by_cases kept : t.discards = s.discards ∧ t.accepted = s.accepted
  · exact (move.carried balanced kept.1 kept.2).delivered before
  · have same := balanced.putBack
    obtain ⟨numbered, next, order, partition⟩ := before
    cases move <;> simp at kept
    case trimRemove caller item removed rest held queue =>
      have flying : SpinLock.inFlight (.inserting caller item (.trimAccount removed)) =
          s.lock.inFlight := by
        simp [held, SpinLock.inFlight, InsertPlace.beforeInsert]
      simp only [State.line, State.inFlight, queue] at order partition
      constructor
      · exact numbered
      · intro id' item' place' held' early
        simp only [SpinLock.inserting.injEq] at held'
        obtain ⟨rfl, rfl, rfl⟩ := held'
        exact next id' _ _ held rfl
      · simp only [State.line, State.inFlight, flying]
        exact ((List.Sublist.refl _).append (List.sublist_cons_self removed rest)).trans order
      · simp only [State.line, State.inFlight, State.discarded, flying, List.map_append,
          List.map_cons, List.map_nil]
        refine partition.trans ?_
        simp only [State.discarded, List.append_assoc, List.cons_append]
        refine List.Perm.append_left _ (List.Perm.append_left _ (List.Perm.append_left _ ?_))
        rw [← List.append_assoc]
        exact (List.perm_append_singleton removed _).symm
    case insertTail id item held =>
      have flying : SpinLock.inFlight (.inserting (.producer id) item .account) =
          s.lock.inFlight := by
        simp [held, SpinLock.inFlight]
      simp only [State.line, State.inFlight] at order partition
      constructor
      · simp [numbered, next id item .insert held rfl, List.range_succ]
      · intro id' item' place' held' early
        simp only [SpinLock.inserting.injEq] at held'
        obtain ⟨-, -, rfl⟩ := held'
        simp [InsertPlace.beforeInsert] at early
      · simp only [State.line, State.inFlight, flying, ← List.append_assoc] at order ⊢
        exact order.append (List.Sublist.refl [item])
      · simp only [State.line, State.inFlight, State.discarded, flying] at partition ⊢
        refine (partition.append_right [item]).trans ?_
        simp only [List.append_assoc]
        refine List.Perm.append_left _ (List.Perm.append_left _ (List.Perm.append_left _
          (List.Perm.append_left _ List.perm_append_comm)))

theorem Delivered.of_reachable {s : State} (reached : queueMachine.Reachable s) : Delivered s :=
  queueMachine.invariant delivered_initial
    (fun _ _ _ earlier before moved =>
      (step_move moved).delivered (Balanced.of_reachable earlier) before) reached

theorem Delivered.nodup {s : State} (delivered : Delivered s) : s.accepted.Nodup := by
  have distinct : (s.accepted.map Event.seq).Nodup := by
    rw [delivered.numbered]
    exact List.nodup_range
  exact distinct.of_map _

def State.places (s : State) : List (List Event) :=
  [s.sent, s.inFlight, s.pdQueue, s.discarded]

theorem State.places_flatten (s : State) : s.places.flatten = s.line ++ s.discarded := by
  simp [State.places, State.line]

theorem Delivered.place_unique {s : State} (delivered : Delivered s) (event : Event)
    (accepted : event ∈ s.accepted) : s.places.countP (fun place => event ∈ place) = 1 := by
  have same : s.accepted.Perm s.places.flatten := by
    rw [s.places_flatten]
    exact delivered.partition
  exact Lists.countP_mem_eq_one (same.nodup_iff.mp delivered.nodup) (same.mem_iff.mp accepted)

/-- In every run the events sent successfully are a subsequence of those accepted, none is sent
twice, and each accepted event is in exactly one place. -/
theorem events_sent_in_order (labels : List Label) (s : State)
    (reached : queueMachine.run labels = some s) :
    s.sent.Sublist s.accepted ∧ s.sent.Nodup ∧ s.accepted.Nodup ∧
      ∀ event ∈ s.accepted, s.places.countP (fun place => event ∈ place) = 1 := by
  have delivered := Delivered.of_reachable ⟨labels, reached⟩
  have sent : s.sent.Sublist s.accepted := by
    refine List.Sublist.trans ?_ delivered.order
    rw [State.line, List.append_assoc]
    exact List.sublist_append_left _ _
  exact ⟨sent, delivered.nodup.sublist sent, delivered.nodup, delivered.place_unique⟩

theorem events_sent_in_order_when_woken :
    queueMachine.run oneEntryRun = some oneEntryWoken ∧
      oneEntryWoken.places.countP (fun place => (⟨0, 24⟩ : Event) ∈ place) = 1 :=
  ⟨rfl, (events_sent_in_order oneEntryRun oneEntryWoken rfl).2.2.2 _ (by decide)⟩

end VirtueSensing.Driver
