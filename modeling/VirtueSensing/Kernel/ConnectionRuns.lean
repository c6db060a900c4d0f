import VirtueSensing.Kernel.Connections

set_option autoImplicit false

/-!
# Runs of the connections

When the memory of a connection is given back, what the exit of the module waits for, and what it leaves.
-/

namespace VirtueSensing.Kernel

inductive Stage where
  | free
  | taking
  | stopping
  | givingBack
  deriving DecidableEq, Repr

def Cleanup.stage (cleanup : Cleanup) (id : Nat) : Stage :=
  match cleanup with
  | .checking other | .taking other => if other = id then .taking else .free
  | .stopping other => if other = id then .stopping else .free
  | .givingBack other => if other = id then .givingBack else .free
  | _ => .free

def Cleanup.Quiet : Cleanup → Prop
  | .checking _ | .taking _ | .stopping _ | .givingBack _ => False
  | _ => True

theorem Cleanup.Quiet.stage {cleanup : Cleanup} (quiet : cleanup.Quiet) (id : Nat) :
    cleanup.stage id = .free := by
  cases cleanup with
  | checking | taking | stopping | givingBack => exact quiet.elim
  | _ => rfl

@[simp] theorem stage_checking (id : Nat) : (Cleanup.checking id).stage id = .taking := if_pos rfl

@[simp] theorem stage_taking (id : Nat) : (Cleanup.taking id).stage id = .taking := if_pos rfl

@[simp] theorem stage_stopping (id : Nat) : (Cleanup.stopping id).stage id = .stopping := if_pos rfl

@[simp] theorem stage_givingBack (id : Nat) : (Cleanup.givingBack id).stage id = .givingBack := if_pos rfl

theorem stage_checking_other {id other : Nat} (different : other ≠ id) : (Cleanup.checking id).stage other = .free :=
  if_neg (Ne.symm different)

theorem stage_taking_other {id other : Nat} (different : other ≠ id) : (Cleanup.taking id).stage other = .free :=
  if_neg (Ne.symm different)

theorem stage_stopping_other {id other : Nat} (different : other ≠ id) : (Cleanup.stopping id).stage other = .free :=
  if_neg (Ne.symm different)

theorem stage_givingBack_other {id other : Nat} (different : other ≠ id) :
    (Cleanup.givingBack id).stage other = .free :=
  if_neg (Ne.symm different)

def ServerThread.Live : ServerThread → Prop
  | .absent | .created | .queued | .serving | .failing | .requeuing _ | .idle => True
  | _ => False

-- The thread never comes back from where it is.
def ServerThread.Lost : ServerThread → Prop
  | .failing | .closing _ | .flushing | .faulted _ => True
  | _ => False

-- The next turn is queued, or will be before the thread runs.
def ServerThread.hasTurn : ServerThread → Bool
  | .absent | .created | .queued => true
  | _ => false

theorem ServerThread.live_of_hasTurn {thread : ServerThread} (turn : thread.hasTurn = true) : thread.Live := by
  cases thread with
  | absent | created | queued => trivial
  | serving | failing | requeuing | closing | flushing | idle | stopped | faulted => cases turn

-- The events at which a server takes its connection off the list.
def ServerEvent.closes : ServerEvent → Bool
  | .turn .served => false
  | .turn _ | .closed => true
  | _ => false

namespace ConnectionBlock

-- The thread closes its connection itself, or has come to harm over it.
def Left (c : ConnectionBlock) : Prop :=
  match c.thread with
  | .closing _ | .flushing => True
  | .failing | .faulted _ => c.connected = true
  | _ => False

-- `SENSOR_CONNECT` is cleared on the way to the close only.
def Flagged (c : ConnectionBlock) : Prop := c.sensorConnect = false → c.thread.Lost

structure Listed (c : ConnectionBlock) : Prop where
  linked : c.linked = true
  connected : c.connected = true
  kept : c.freed = false
  live : c.thread.Live
  flagged : c.Flagged

structure Closed (c : ConnectionBlock) : Prop where
  linked : c.linked = false
  kept : c.freed = false
  left : c.Left

structure Gone (c : ConnectionBlock) : Prop where
  linked : c.linked = false
  freed : c.freed = true
  stopped : c.thread = .stopped

structure Taking (c : ConnectionBlock) : Prop where
  linked : c.linked = false
  connected : c.connected = true
  kept : c.freed = false
  thread : c.thread.Live ∨ ∃ holding, c.thread = .faulted holding
  flagged : c.Flagged

structure Stopping (c : ConnectionBlock) : Prop where
  linked : c.linked = false
  connected : c.connected = false
  kept : c.freed = false
  thread : c.thread.hasTurn = true ∨ c.thread = .idle ∨ ∃ holding, c.thread = .faulted holding

structure GivingBack (c : ConnectionBlock) : Prop where
  linked : c.linked = false
  connected : c.connected = false
  kept : c.freed = false
  thread : c.thread.hasTurn = true ∨ ∃ holding, c.thread = .faulted holding

-- The exit has given the memory back without having stopped the thread.
structure Abandoned (c : ConnectionBlock) : Prop where
  linked : c.linked = false
  freed : c.freed = true
  thread : c.thread.Live ∨ ∃ holding, c.thread = .faulted holding

def Fits (c : ConnectionBlock) : Stage → Prop
  | .free => c.Listed ∨ c.Closed ∨ c.Gone ∨ c.Abandoned
  | .taking => c.Taking
  | .stopping => c.Stopping
  | .givingBack => c.GivingBack

variable {c after : ConnectionBlock} {shouldShutdown : Bool} {event : ServerEvent} {stage : Stage}

/-- What a thread does while its block is there. -/
inductive Served (shouldShutdown : Bool) (c : ConnectionBlock) : ServerEvent → ConnectionBlock → Prop where
  | started (created : c.thread = .created) : Served shouldShutdown c .started { c with thread := .queued }
  | begun (queued : c.thread = .queued) :
    Served shouldShutdown c .begun { c with thread := if c.connected then .serving else .faulted true }
  | served (serving : c.thread = .serving) :
    Served shouldShutdown c (.turn .served) { c with thread := .requeuing !shouldShutdown }
  | failed (serving : c.thread = .serving) :
    Served shouldShutdown c .failed { c with thread := .failing, sensorConnect := false }
  | closes {event : ServerEvent} (ends : event.closes = true) (holding : Bool)
      (working : c.thread = .serving ∨ c.thread = .failing) : Served shouldShutdown c event (c.closeOut holding)
  | requeued (again : Bool) (requeuing : c.thread = .requeuing again) :
    Served shouldShutdown c .requeued { c with thread := if again then .queued else .idle }
  | destroyed (closing : c.thread = .closing false) :
    Served shouldShutdown c .destroyed { c with thread := .flushing, connected := false }

theorem served_of_serve (ran : c.serve shouldShutdown event = some after) : Served shouldShutdown c event after := by
  cases event with
  | started =>
    obtain ⟨created, ran⟩ := Option.ite_none_right_eq_some.mp ran
    exact Option.some.inj ran ▸ .started created
  | begun =>
    obtain ⟨queued, ran⟩ := Option.ite_none_right_eq_some.mp ran
    exact Option.some.inj ran ▸ .begun queued
  | turn ending =>
    obtain ⟨serving, ran⟩ := Option.ite_none_right_eq_some.mp ran
    cases ending with
    | served => exact Option.some.inj ran ▸ .served serving
    | rejected => exact Option.some.inj ran ▸ .closes rfl false (.inl serving)
    | ended => exact Option.some.inj ran ▸ .closes rfl true (.inl serving)
  | failed =>
    obtain ⟨serving, ran⟩ := Option.ite_none_right_eq_some.mp ran
    exact Option.some.inj ran ▸ .failed serving
  | closed =>
    obtain ⟨failing, ran⟩ := Option.ite_none_right_eq_some.mp ran
    exact Option.some.inj ran ▸ .closes rfl true (.inr failing)
  | requeued =>
    simp only [serve] at ran
    split at ran
    · next again thread => exact Option.some.inj ran ▸ .requeued again thread
    · cases ran
  | destroyed =>
    obtain ⟨closing, ran⟩ := Option.ite_none_right_eq_some.mp ran
    exact Option.some.inj ran ▸ .destroyed closing

theorem step_cases (ran : c.step shouldShutdown event = some after) :
    (c.freed = true ∧ after = { c with thread := .faulted c.thread.holds }) ∨
      (c.freed = false ∧ Served shouldShutdown c event after) := by
  obtain ⟨next, served, rfl⟩ := Option.map_eq_some_iff.mp ran
  cases freed : c.freed with
  | true => exact .inl ⟨rfl, rfl⟩
  | false => exact .inr ⟨rfl, served_of_serve served⟩

theorem step_kept (kept : c.freed = false) (ran : c.step shouldShutdown event = some after) :
    Served shouldShutdown c event after := by
  rcases step_cases ran with ⟨freed, -⟩ | ⟨-, served⟩
  · rw [kept] at freed
    cases freed
  · exact served

theorem live_requeued (again : Bool) : (if again then ServerThread.queued else .idle).Live := by
  cases again <;> trivial

theorem step_freed (ran : c.step shouldShutdown event = some after) : after.freed = c.freed := by
  rcases step_cases ran with ⟨-, rfl⟩ | ⟨-, served⟩
  · rfl
  · cases served with
    | started | begun | served | failed | requeued | destroyed => rfl
    | closes ends holding =>
      rw [closeOut]
      split <;> rfl

theorem closeOut_lost (holding : Bool) : (c.closeOut holding).thread.Lost := by
  unfold closeOut
  split <;> trivial

theorem lost_step (lost : c.thread.Lost) (ran : c.step shouldShutdown event = some after) : after.thread.Lost := by
  rcases step_cases ran with ⟨-, rfl⟩ | ⟨-, served⟩
  · exact trivial
  · cases served with
    | started thread | begun thread | served thread | requeued _ thread =>
      rw [thread] at lost
      exact lost.elim
    | closes _ holding => exact closeOut_lost holding
    | failed | destroyed => exact trivial

theorem Flagged.step (flagged : c.Flagged) (ran : c.step shouldShutdown event = some after) : after.Flagged := by
  intro cleared
  rcases step_cases ran with ⟨-, rfl⟩ | ⟨-, served⟩
  · exact trivial
  · cases served with
    | failed => exact trivial
    | closes _ holding => exact closeOut_lost holding
    | started | begun | served | requeued | destroyed => exact lost_step (flagged cleared) ran

theorem Listed.step (listed : c.Listed) (ran : c.step shouldShutdown event = some after) :
    after.Listed ∨ after.Closed := by
  have flagged := listed.flagged.step ran
  obtain ⟨linked, connected, kept, live, -⟩ := listed
  cases step_kept kept ran with
  | started => exact .inl ⟨linked, connected, kept, trivial, flagged⟩
  | begun =>
    rw [if_pos connected] at flagged ⊢
    exact .inl ⟨linked, connected, kept, trivial, flagged⟩
  | served | failed => exact .inl ⟨linked, connected, kept, trivial, flagged⟩
  | closes ends holding =>
    rw [closeOut, if_pos linked]
    exact .inr ⟨rfl, kept, trivial⟩
  | requeued again => exact .inl ⟨linked, connected, kept, live_requeued again, flagged⟩
  | destroyed closing =>
    rw [closing] at live
    exact live.elim

theorem Closed.step (closed : c.Closed) (ran : c.step shouldShutdown event = some after) : after.Closed := by
  obtain ⟨linked, kept, left⟩ := closed
  unfold Left at left
  cases step_kept kept ran with
  | started thread | begun thread | served thread | failed thread | requeued _ thread =>
    rw [thread] at left
    exact left.elim
  | closes ends holding working =>
    have connected : c.connected = true := by
      rcases working with serving | failing
      · rw [serving] at left
        exact left.elim
      · rw [failing] at left
        exact left
    rw [closeOut, linked]
    exact ⟨rfl, kept, connected⟩
  | destroyed => exact ⟨linked, kept, trivial⟩

theorem step_stopped (stopped : c.thread = .stopped) : c.step shouldShutdown event = none := by
  cases event <;> simp [ConnectionBlock.step, serve, stopped]

theorem Taking.step (taking : c.Taking) (ran : c.step shouldShutdown event = some after) : after.Taking := by
  have flagged := taking.flagged.step ran
  obtain ⟨linked, connected, kept, thread, -⟩ := taking
  cases step_kept kept ran with
  | started => exact ⟨linked, connected, kept, .inl trivial, flagged⟩
  | begun =>
    rw [if_pos connected] at flagged ⊢
    exact ⟨linked, connected, kept, .inl trivial, flagged⟩
  | served | failed => exact ⟨linked, connected, kept, .inl trivial, flagged⟩
  | closes ends holding =>
    rw [closeOut, linked] at flagged ⊢
    exact ⟨rfl, connected, kept, .inr ⟨holding, rfl⟩, flagged⟩
  | requeued again => exact ⟨linked, connected, kept, .inl (live_requeued again), flagged⟩
  | destroyed closing =>
    rw [closing] at thread
    rcases thread with live | ⟨holding, faulted⟩
    · exact live.elim
    · cases faulted

theorem step_unconnected (connected : c.connected = false) (kept : c.freed = false)
    (thread : c.thread.hasTurn = true ∨ c.thread = .idle ∨ ∃ holding, c.thread = .faulted holding)
    (ran : c.step shouldShutdown event = some after) :
    ∃ next : ServerThread, after = { c with thread := next } ∧
      (next.hasTurn = true ∨ ∃ holding, next = .faulted holding) := by
  cases step_kept kept ran with
  | started => exact ⟨.queued, rfl, .inl rfl⟩
  | begun =>
    rw [connected]
    exact ⟨.faulted true, by simp, .inr ⟨true, rfl⟩⟩
  | served found | failed found | requeued _ found | destroyed found => simp [found, ServerThread.hasTurn] at thread
  | closes _ _ working => rcases working with found | found <;> simp [found, ServerThread.hasTurn] at thread

theorem Stopping.step (stopping : c.Stopping) (ran : c.step shouldShutdown event = some after) : after.Stopping := by
  obtain ⟨linked, connected, kept, thread⟩ := stopping
  obtain ⟨next, rfl, moved⟩ := step_unconnected connected kept thread ran
  exact ⟨linked, connected, kept, moved.imp_right .inr⟩

theorem GivingBack.step (back : c.GivingBack) (ran : c.step shouldShutdown event = some after) :
    after.GivingBack := by
  obtain ⟨linked, connected, kept, thread⟩ := back
  obtain ⟨next, rfl, moved⟩ := step_unconnected connected kept (thread.imp_right .inr) ran
  exact ⟨linked, connected, kept, moved⟩

theorem Abandoned.step (abandoned : c.Abandoned) (ran : c.step shouldShutdown event = some after) :
    after.Abandoned := by
  rcases step_cases ran with ⟨-, rfl⟩ | ⟨kept, -⟩
  · exact ⟨abandoned.linked, abandoned.freed, .inr ⟨_, rfl⟩⟩
  · rw [abandoned.freed] at kept
    cases kept

theorem Fits.step (fits : c.Fits stage) (ran : c.step shouldShutdown event = some after) : after.Fits stage := by
  cases stage with
  | free =>
    rcases fits with listed | closed | gone | abandoned
    · rcases listed.step ran with still | closed
      · exact .inl still
      · exact .inr (.inl closed)
    · exact .inr (.inl (closed.step ran))
    · rw [step_stopped gone.stopped] at ran
      cases ran
    · exact .inr (.inr (.inr (abandoned.step ran)))
  | taking => exact Taking.step fits ran
  | stopping => exact Stopping.step fits ran
  | givingBack => exact GivingBack.step fits ran

theorem Flagged.launch (flagged : c.Flagged) (absent : c.thread = .absent) :
    ConnectionBlock.Flagged { c with thread := .created } := by
  intro cleared
  have lost := flagged cleared
  rw [absent] at lost
  exact lost.elim

theorem Fits.launch (fits : c.Fits stage) (absent : c.thread = .absent) :
    ConnectionBlock.Fits { c with thread := .created } stage := by
  cases stage with
  | free =>
    rcases fits with ⟨linked, connected, kept, -, flagged⟩ | ⟨-, -, left⟩ | ⟨-, -, stopped⟩ | ⟨linked, freed, -⟩
    · exact .inl ⟨linked, connected, kept, trivial, flagged.launch absent⟩
    · simp [Left, absent] at left
    · rw [absent] at stopped
      cases stopped
    · exact .inr (.inr (.inr ⟨linked, freed, .inl trivial⟩))
  | taking =>
    obtain ⟨linked, connected, kept, -, flagged⟩ : c.Taking := fits
    exact ⟨linked, connected, kept, .inl trivial, flagged.launch absent⟩
  | stopping =>
    obtain ⟨linked, connected, kept, -⟩ : c.Stopping := fits
    exact ⟨linked, connected, kept, .inl rfl⟩
  | givingBack =>
    obtain ⟨linked, connected, kept, -⟩ : c.GivingBack := fits
    exact ⟨linked, connected, kept, .inl rfl⟩

theorem listed_of_linked (fits : c.Fits .free) (linked : c.linked = true) : c.Listed := by
  rcases fits with listed | ⟨unlinked, -, -⟩ | ⟨unlinked, -, -⟩ | ⟨unlinked, -, -⟩
  · exact listed
  all_goals
    rw [unlinked] at linked
    cases linked

-- A connection that the exit passes over is closed by its server.
theorem Taking.passed (taking : c.Taking) (cleared : c.sensorConnect = false) : c.Closed where
  linked := taking.linked
  kept := taking.kept
  left := by
    unfold Left
    have lost := taking.flagged cleared
    rcases taking.thread with live | ⟨holding, faulted⟩
    · cases found : c.thread with
      | failing => exact taking.connected
      | absent | created | queued | serving | requeuing | idle | stopped =>
        rw [found] at lost
        exact lost.elim
      | closing | flushing => trivial
      | faulted =>
        rw [found] at live
        exact live.elim
    · rw [faulted]
      exact taking.connected

-- Only a thread between two turns is without the semaphore.
theorem Taking.taken (taking : c.Taking) (free : c.thread.holds = false) :
    ConnectionBlock.Stopping { c with connected := false } where
  linked := taking.linked
  connected := rfl
  kept := taking.kept
  thread := by
    show c.thread.hasTurn = true ∨ c.thread = .idle ∨ _
    rcases taking.thread with live | ⟨holding, faulted⟩
    · cases found : c.thread with
      | absent | created | queued => exact .inl rfl
      | idle => exact .inr (.inl rfl)
      | serving | failing | requeuing =>
        rw [found] at free
        cases free
      | closing | flushing | stopped | faulted =>
        rw [found] at live
        exact live.elim
    · exact .inr (.inr ⟨holding, faulted⟩)

end ConnectionBlock

namespace KernelModule

variable {s t : KernelModule} {id : Nat} {c : ConnectionBlock}

/-- Every connection is as far as the exit has come with it, and the one that the listener is about to
give its thread has none. -/
structure Fitting (s : KernelModule) : Prop where
  fits : ∀ (id : Nat) (c : ConnectionBlock), s.connections[id]? = some c → c.Fits (s.cleanup.stage id)
  known : ∀ id, s.connections[id]? = none → s.cleanup.stage id = .free
  launching : ∀ id, s.accept = .launching id → ∃ c, s.connections[id]? = some c ∧ c.thread = .absent

section Phases

variable (fitting : s.Fitting) (there : s.connections[id]? = some c)
include fitting there

theorem Fitting.picking (phase : s.cleanup = .picking id) (linked : c.linked = true) : c.Listed := by
  have fits := fitting.fits id c there
  rw [phase] at fits
  exact ConnectionBlock.listed_of_linked fits linked

theorem Fitting.checking (phase : s.cleanup = .checking id) : c.Taking := by
  have fits := fitting.fits id c there
  rwa [phase, stage_checking] at fits

theorem Fitting.taking (phase : s.cleanup = .taking id) : c.Taking := by
  have fits := fitting.fits id c there
  rwa [phase, stage_taking] at fits

theorem Fitting.stopping (phase : s.cleanup = .stopping id) : c.Stopping := by
  have fits := fitting.fits id c there
  rwa [phase, stage_stopping] at fits

theorem Fitting.givingBack (phase : s.cleanup = .givingBack id) : c.GivingBack := by
  have fits := fitting.fits id c there
  rwa [phase, stage_givingBack] at fits

end Phases

theorem serverStep_eq_some {event : ServerEvent} (ran : s.serverStep id event = some t) :
    ∃ c after, s.connections[id]? = some c ∧ c.step s.shouldShutdown event = some after ∧ t = s.set id after := by
  obtain ⟨c, there, ran⟩ := Option.bind_eq_some_iff.mp ran
  obtain ⟨after, moved, ran⟩ := Option.bind_eq_some_iff.mp ran
  exact ⟨c, after, there, moved, (Option.some.inj ran).symm⟩

inductive Accepts (s : KernelModule) : AcceptEvent → KernelModule → Prop where
  | elsewhere {event : AcceptEvent} {t : KernelModule} (same : t.connections = s.connections)
      (other : ∀ id, t.accept ≠ .launching id)
      (fault : t.accept = .faulted ↔ s.listenerWiped = true ∨
        event = .launched ∧ ∃ id c, s.accept = .launching id ∧ s.connections[id]? = some c ∧ c.freed = true) :
    Accepts s event t
  | linked (linking : s.accept = .linking) (there : s.listenerWiped = false) :
    Accepts s .linked { s with connections := s.connections ++ [.new], accept := .launching s.connections.length }
  | launched {id : Nat} {c : ConnectionBlock} (launching : s.accept = .launching id) (there : s.listenerWiped = false)
      (found : s.connections[id]? = some c) (kept : c.freed = false) :
    Accepts s .launched { s.set id { c with thread := .created } with accept := .deciding }

theorem kAccept_accepts {event : AcceptEvent} (there : s.listenerWiped = false) (ran : s.kAccept event = some t) :
    Accepts s event t := by
  cases event with
  | started | begun | accepted | acceptFailed | linkChecked | decided =>
    obtain ⟨-, ran⟩ := Option.ite_none_right_eq_some.mp ran
    obtain rfl := Option.some.inj ran
    refine .elsewhere rfl ?_ ?_
    all_goals
      dsimp only
      try split
    all_goals simp [there]
  | checked allocates =>
    obtain ⟨-, ran⟩ := Option.ite_none_right_eq_some.mp ran
    split_ifs at ran <;>
    · obtain rfl := Option.some.inj ran
      exact .elsewhere rfl (by simp) (by simp [there])
  | linked =>
    obtain ⟨linking, ran⟩ := Option.ite_none_right_eq_some.mp ran
    exact Option.some.inj ran ▸ .linked linking there
  | launched =>
    simp only [kAccept] at ran
    split at ran
    · next id launching =>
      obtain ⟨c, found, ran⟩ := Option.bind_eq_some_iff.mp ran
      split_ifs at ran with freed
      · obtain rfl := Option.some.inj ran
        exact .elsewhere rfl (by simp) (iff_of_true rfl (.inr ⟨rfl, id, c, launching, found, freed⟩))
      · exact Option.some.inj ran ▸ .launched launching there found (by simpa using freed)
    · cases ran
  | requeued =>
    simp only [kAccept] at ran
    split at ran
    · next again phase =>
      obtain rfl := Option.some.inj ran
      refine .elsewhere rfl ?_ ?_ <;> cases again <;> simp [there]
    · cases ran

theorem acceptStep_accepts {event : AcceptEvent} (ran : s.acceptStep event = some t) : Accepts s event t := by
  obtain ⟨after, accepted, rfl⟩ := Option.map_eq_some_iff.mp ran
  split
  · next wiped => exact .elsewhere rfl (by simp) (by simp [wiped])
  · next there => exact kAccept_accepts (by simpa using there) accepted

theorem kAccept_frame {event : AcceptEvent} (ran : s.kAccept event = some t) :
    t.cleanup = s.cleanup ∧ t.listenerWiped = s.listenerWiped ∧
      (t.shouldShutdown = s.shouldShutdown ∨ t.shouldShutdown = true) := by
  cases event with
  | started | begun | accepted | acceptFailed | linkChecked | linked | decided =>
    obtain ⟨-, ran⟩ := Option.ite_none_right_eq_some.mp ran
    obtain rfl := Option.some.inj ran
    exact ⟨rfl, rfl, .inl rfl⟩
  | checked allocates =>
    obtain ⟨-, ran⟩ := Option.ite_none_right_eq_some.mp ran
    split_ifs at ran <;>
    · obtain rfl := Option.some.inj ran
      simp
  | launched =>
    simp only [kAccept] at ran
    split at ran
    · obtain ⟨c, -, ran⟩ := Option.bind_eq_some_iff.mp ran
      split_ifs at ran <;>
      · obtain rfl := Option.some.inj ran
        exact ⟨rfl, rfl, .inl rfl⟩
    · cases ran
  | requeued =>
    simp only [kAccept] at ran
    split at ran
    · obtain rfl := Option.some.inj ran
      exact ⟨rfl, rfl, .inl rfl⟩
    · cases ran

theorem acceptStep_frame {event : AcceptEvent} (ran : s.acceptStep event = some t) :
    t.cleanup = s.cleanup ∧ t.listenerWiped = s.listenerWiped ∧
      (t.shouldShutdown = s.shouldShutdown ∨ t.shouldShutdown = true) := by
  obtain ⟨after, accepted, rfl⟩ := Option.map_eq_some_iff.mp ran
  split
  · exact ⟨rfl, rfl, .inl rfl⟩
  · exact kAccept_frame accepted

theorem first_eq_none (nothing : s.first = none) : ∀ c ∈ s.connections, c.linked = false := by
  intro c member
  obtain ⟨id, below, rfl⟩ := List.mem_iff_getElem.mp member
  have missed := List.find?_eq_none.mp nothing id (List.mem_reverse.mpr (List.mem_range.mpr below))
  simpa [List.getElem?_eq_getElem below] using missed

-- The events of the exit that leave all connections as they are.
def Elsewhere : CleanupEvent → Prop
  | .unlisted | .checked | .taken | .interrupted | .stopped | .unstarted | .givenBack => False
  | _ => True

inductive Exits (s : KernelModule) : CleanupEvent → KernelModule → Prop where
  | elsewhere {event : CleanupEvent} {t : KernelModule} (other : Elsewhere event) (same : t.connections = s.connections)
      (before : s.cleanup.Quiet) (after : t.cleanup.Quiet) (kept : t.cleanup ≠ .faulted) : Exits s event t
  | crashed (id : Nat) (c : ConnectionBlock) (phase : s.cleanup = .picking id) (there : s.connections[id]? = some c)
      (unlinked : c.linked = false) : Exits s .unlisted { s with cleanup := .faulted }
  | unlisted (id : Nat) (c : ConnectionBlock) (phase : s.cleanup = .picking id) (there : s.connections[id]? = some c)
      (linked : c.linked = true) : Exits s .unlisted { s.set id { c with linked := false } with cleanup := .checking id }
  | passed (id : Nat) (c : ConnectionBlock) (phase : s.cleanup = .checking id) (there : s.connections[id]? = some c)
      (cleared : c.sensorConnect = false) : Exits s .checked { s with cleanup := .connections }
  | checked (id : Nat) (c : ConnectionBlock) (phase : s.cleanup = .checking id) (there : s.connections[id]? = some c) :
    Exits s .checked { s with cleanup := .taking id }
  | taken (id : Nat) (c : ConnectionBlock) (phase : s.cleanup = .taking id) (there : s.connections[id]? = some c)
      (free : c.thread.holds = false) :
    Exits s .taken { s.set id { c with connected := false } with cleanup := .stopping id }
  | interrupted (id : Nat) (c : ConnectionBlock) (phase : s.cleanup = .taking id) (there : s.connections[id]? = some c) :
    Exits s .interrupted { s.set id { c with freed := true } with cleanup := .connections }
  | stopped (id : Nat) (c : ConnectionBlock) (phase : s.cleanup = .stopping id) (there : s.connections[id]? = some c)
      (idle : c.thread = .idle) :
    Exits s .stopped { s.set id { c with thread := .stopped, freed := true } with cleanup := .connections }
  | unstarted (id : Nat) (c : ConnectionBlock) (phase : s.cleanup = .stopping id) (there : s.connections[id]? = some c)
      (turn : c.thread.hasTurn = true) : Exits s .unstarted { s with cleanup := .givingBack id }
  | givenBack (id : Nat) (c : ConnectionBlock) (phase : s.cleanup = .givingBack id)
      (there : s.connections[id]? = some c) :
    Exits s .givenBack { s.set id { c with freed := true } with cleanup := .connections }

theorem cleanupStep_exits {event : CleanupEvent} (ran : s.cleanupStep event = some t) : Exits s event t := by
  cases event with
  | unload | unawaited | listenerInterrupted | listenerWiped =>
    obtain ⟨phase, ran⟩ := Option.ite_none_right_eq_some.mp ran
    obtain rfl := Option.some.inj ran
    exact .elsewhere trivial rfl (phase ▸ trivial) trivial nofun
  | awaited | listenerTaken | listenerStopped | listenerUnstarted =>
    obtain ⟨phase, ran⟩ := Option.ite_none_right_eq_some.mp ran
    obtain rfl := Option.some.inj ran
    exact .elsewhere trivial rfl (phase.1 ▸ trivial) trivial nofun
  | picked =>
    obtain ⟨phase, ran⟩ := Option.ite_none_right_eq_some.mp ran
    split at ran <;>
    · obtain rfl := Option.some.inj ran
      exact .elsewhere trivial rfl (phase ▸ trivial) trivial nofun
  | unlisted =>
    simp only [cleanupStep] at ran
    split at ran
    · next id phase =>
      obtain ⟨c, there, ran⟩ := Option.bind_eq_some_iff.mp ran
      split_ifs at ran with linked
      · exact Option.some.inj ran ▸ .unlisted id c phase there linked
      · exact Option.some.inj ran ▸ .crashed id c phase there (by simpa using linked)
    · cases ran
  | checked =>
    simp only [cleanupStep] at ran
    split at ran
    · next id phase =>
      obtain ⟨c, there, ran⟩ := Option.bind_eq_some_iff.mp ran
      split_ifs at ran with flag
      · exact Option.some.inj ran ▸ .checked id c phase there
      · exact Option.some.inj ran ▸ .passed id c phase there (by simpa using flag)
    · cases ran
  | taken =>
    simp only [cleanupStep] at ran
    split at ran
    · next id phase =>
      obtain ⟨c, there, ran⟩ := Option.bind_eq_some_iff.mp ran
      split_ifs at ran with holding
      exact Option.some.inj ran ▸ .taken id c phase there (by simpa using holding)
    · cases ran
  | interrupted =>
    simp only [cleanupStep] at ran
    split at ran
    · next id phase =>
      obtain ⟨c, there, ran⟩ := Option.bind_eq_some_iff.mp ran
      exact Option.some.inj ran ▸ .interrupted id c phase there
    · cases ran
  | stopped =>
    simp only [cleanupStep] at ran
    split at ran
    · next id phase =>
      obtain ⟨c, there, ran⟩ := Option.bind_eq_some_iff.mp ran
      split_ifs at ran with idle
      exact Option.some.inj ran ▸ .stopped id c phase there idle
    · cases ran
  | unstarted =>
    simp only [cleanupStep] at ran
    split at ran
    · next id phase =>
      obtain ⟨c, there, ran⟩ := Option.bind_eq_some_iff.mp ran
      split_ifs at ran with without
      have turn : c.thread.hasTurn = true := by
        rcases without with absent | created
        · rw [absent]
          rfl
        · rw [created]
          rfl
      exact Option.some.inj ran ▸ .unstarted id c phase there turn
    · cases ran
  | givenBack =>
    simp only [cleanupStep] at ran
    split at ran
    · next id phase =>
      obtain ⟨c, there, ran⟩ := Option.bind_eq_some_iff.mp ran
      exact Option.some.inj ran ▸ .givenBack id c phase there
    · cases ran

theorem getElem?_set_here {changed : ConnectionBlock} (there : s.connections[id]? = some c) :
    (s.connections.set id changed)[id]? = some changed :=
  List.getElem?_set_self (List.getElem?_eq_some_iff.mp there).1

theorem getElem?_set_cases {other : Nat} {before changed : ConnectionBlock}
    (found : s.connections[other]? = some before) (there : s.connections[id]? = some c) :
    (other = id ∧ before = c ∧ (s.connections.set other changed)[id]? = some changed) ∨
      (other ≠ id ∧ (s.connections.set other changed)[id]? = some c) := by
  by_cases same : other = id
  · subst same
    exact .inl ⟨rfl, Option.some.inj (found.symm.trans there), getElem?_set_here there⟩
  · refine .inr ⟨same, ?_⟩
    rw [List.getElem?_set_ne same, there]

/-- What a step does to one connection: a step of its server, the begin of its thread, or a step of the exit
that leaves the thread alone or ends an idle one. -/
inductive Moves (s : KernelModule) (id : Nat) (c : ConnectionBlock) : ModuleEvent → ConnectionBlock → Prop where
  | served (e : ServerEvent) {after : ConnectionBlock} (stepped : c.step s.shouldShutdown e = some after) :
    Moves s id c (.server id e) after
  | still {event : ModuleEvent} (other : ∀ e, event ≠ .server id e) : Moves s id c event c
  | launched (launching : s.accept = .launching id) (kept : c.freed = false) :
    Moves s id c (.accept .launched) { c with thread := .created }
  | exits (e : CleanupEvent) {after : ConnectionBlock} (thread : after.thread = c.thread)
      (connected : after.connected = true → c.connected = true)
      (freed : c.freed = true → after.freed = true)
      (kept : after.freed = true → c.freed = true ∨ e = .interrupted ∨ e = .givenBack) :
    Moves s id c (.cleanup e) after
  | stopped (e : CleanupEvent) {after : ConnectionBlock} (phase : s.cleanup = .stopping id) (idle : c.thread = .idle)
      (ended : after.thread = .stopped) : Moves s id c (.cleanup e) after

theorem connection_moves {event : ModuleEvent} (ran : s.step event = some t) (there : s.connections[id]? = some c) :
    ∃ after, t.connections[id]? = some after ∧ Moves s id c event after := by
  have unserved {e : AcceptEvent} : ∀ own, ModuleEvent.accept e ≠ .server id own := nofun
  have unmoved {e : CleanupEvent} : ∀ own, ModuleEvent.cleanup e ≠ .server id own := nofun
  cases event with
  | accept event =>
    cases acceptStep_accepts ran with
    | elsewhere same => exact ⟨c, same ▸ there, .still unserved⟩
    | linked =>
      refine ⟨c, ?_, .still unserved⟩
      show (s.connections ++ [.new])[id]? = some c
      rw [List.getElem?_append_left (List.getElem?_eq_some_iff.mp there).1, there]
    | launched launching _ found kept =>
      rcases getElem?_set_cases found there with ⟨rfl, rfl, here⟩ | ⟨-, here⟩
      · exact ⟨_, here, .launched launching kept⟩
      · exact ⟨c, here, .still unserved⟩
  | server other event =>
    obtain ⟨before, after, found, moved, rfl⟩ := serverStep_eq_some ran
    rcases getElem?_set_cases found there with ⟨rfl, rfl, here⟩ | ⟨different, here⟩
    · exact ⟨after, here, .served event moved⟩
    · refine ⟨c, here, .still ?_⟩
      rintro _ equal
      injection equal with named
      exact different named
  | cleanup event =>
    cases cleanupStep_exits ran with
    | elsewhere _ same => exact ⟨c, same ▸ there, .still unmoved⟩
    | crashed | passed | checked | unstarted => exact ⟨c, there, .still unmoved⟩
    | unlisted other before _ found =>
      rcases getElem?_set_cases found there with ⟨rfl, rfl, here⟩ | ⟨-, here⟩
      · exact ⟨_, here, .exits _ rfl id id .inl⟩
      · exact ⟨c, here, .still unmoved⟩
    | taken other before _ found =>
      rcases getElem?_set_cases found there with ⟨rfl, rfl, here⟩ | ⟨-, here⟩
      · exact ⟨_, here, .exits _ rfl nofun id .inl⟩
      · exact ⟨c, here, .still unmoved⟩
    | interrupted other before _ found =>
      rcases getElem?_set_cases found there with ⟨rfl, rfl, here⟩ | ⟨-, here⟩
      · exact ⟨_, here, .exits _ rfl id (fun _ => rfl) fun _ => .inr (.inl rfl)⟩
      · exact ⟨c, here, .still unmoved⟩
    | givenBack other before _ found =>
      rcases getElem?_set_cases found there with ⟨rfl, rfl, here⟩ | ⟨-, here⟩
      · exact ⟨_, here, .exits _ rfl id (fun _ => rfl) fun _ => .inr (.inr rfl)⟩
      · exact ⟨c, here, .still unmoved⟩
    | stopped other before phase found idle =>
      rcases getElem?_set_cases found there with ⟨rfl, rfl, here⟩ | ⟨-, here⟩
      · exact ⟨_, here, .stopped _ phase idle rfl⟩
      · exact ⟨c, here, .still unmoved⟩

theorem set_missing {other : Nat} {changed c : ConnectionBlock} (missing : s.connections[id]? = none)
    (there : (s.connections.set other changed)[id]? = some c) : False := by
  have below := (List.getElem?_eq_some_iff.mp there).1
  rw [List.length_set] at below
  exact absurd (List.getElem?_eq_none_iff.mp missing) (Nat.not_le.mpr below)

theorem new_of_missing {event : ModuleEvent} (ran : s.step event = some t) (missing : s.connections[id]? = none)
    {c : ConnectionBlock} (there : t.connections[id]? = some c) : c = .new := by
  cases event with
  | accept event =>
    cases acceptStep_accepts ran with
    | elsewhere same =>
      rw [same, missing] at there
      cases there
    | linked =>
      have there : (s.connections ++ [.new])[id]? = some c := there
      rw [List.getElem?_append_right (List.getElem?_eq_none_iff.mp missing)] at there
      exact List.mem_singleton.mp (List.mem_of_getElem? there)
    | launched => exact (set_missing missing there).elim
  | server other event =>
    obtain ⟨before, after, found, moved, rfl⟩ := serverStep_eq_some ran
    exact (set_missing missing there).elim
  | cleanup event =>
    cases cleanupStep_exits ran with
    | elsewhere _ same =>
      rw [same, missing] at there
      cases there
    | crashed | passed | checked | unstarted =>
      rw [show s.connections[id]? = some c from there] at missing
      cases missing
    | unlisted | taken | interrupted | stopped | givenBack => exact (set_missing missing there).elim

theorem step_absent {shouldShutdown : Bool} {event : ServerEvent} (absent : c.thread = .absent) :
    c.step shouldShutdown event = none := by
  cases event <;> simp [ConnectionBlock.step, ConnectionBlock.serve, absent]

theorem Fitting.still_launching (fitting : s.Fitting) {event : ModuleEvent} (ran : s.step event = some t)
    (other : ∀ e, event ≠ .accept e) (same : t.accept = s.accept ∨ t.accept = .stopped) (id : Nat)
    (launching : t.accept = .launching id) : ∃ c, t.connections[id]? = some c ∧ c.thread = .absent := by
  have before : s.accept = .launching id := by
    rcases same with same | stopped
    · exact same ▸ launching
    · rw [stopped] at launching
      cases launching
  obtain ⟨c, there, absent⟩ := fitting.launching id before
  obtain ⟨after, here, moves⟩ := connection_moves ran there
  refine ⟨after, here, ?_⟩
  cases moves with
  | served e stepped =>
    rw [step_absent absent] at stepped
    cases stepped
  | still => exact absent
  | launched => exact absurd rfl (other _)
  | exits e thread => exact thread.trans absent
  | stopped e phase idle =>
    rw [absent] at idle
    cases idle

theorem set_same (there : s.connections[id]? = some c) : s.connections = s.connections.set id c := by
  obtain ⟨below, rfl⟩ := List.getElem?_eq_some_iff.mp there
  exact (List.set_getElem_self below).symm

theorem Fitting.move (fitting : s.Fitting) {c after : ConnectionBlock} (there : s.connections[id]? = some c)
    (changed : t.connections = s.connections.set id after) (own : after.Fits (t.cleanup.stage id))
    (others : ∀ other ≠ id, t.cleanup.stage other = s.cleanup.stage other)
    (launching : ∀ id, t.accept = .launching id → ∃ c, t.connections[id]? = some c ∧ c.thread = .absent) :
    t.Fitting := by
  refine ⟨fun other c found => ?_, fun other missing => ?_, launching⟩
  · rw [changed, List.getElem?_set] at found
    split_ifs at found with same
    · obtain rfl := Option.some.inj found
      exact same ▸ own
    · rw [others other (Ne.symm same)]
      exact fitting.fits other c found
  · have absent : s.connections[other]? = none := by
      rw [changed, List.getElem?_eq_none_iff, List.length_set] at missing
      exact List.getElem?_eq_none missing
    have different : other ≠ id := by
      rintro rfl
      rw [there] at absent
      cases absent
    rw [others other different]
    exact fitting.known other absent

theorem Fitting.accepts (fitting : s.Fitting) {event : AcceptEvent} (ran : s.acceptStep event = some t) :
    t.Fitting := by
  obtain ⟨same, -, -⟩ := acceptStep_frame ran
  cases acceptStep_accepts ran with
  | elsewhere unchanged other =>
    refine ⟨fun id c there => ?_, fun id missing => ?_, fun id launching => absurd launching (other id)⟩
    · rw [same]
      exact fitting.fits id c (unchanged ▸ there)
    · rw [same]
      exact fitting.known id (unchanged ▸ missing)
  | linked =>
    have moved : s.step (.accept .linked) = some _ := ran
    refine ⟨fun id c there => ?_, fun id missing => ?_, fun id launching => ?_⟩
    · have there : (s.connections ++ [.new])[id]? = some c := there
      show c.Fits (s.cleanup.stage id)
      cases before : s.connections[id]? with
      | some old =>
        rw [List.getElem?_append_left (List.getElem?_eq_some_iff.mp before).1, before] at there
        obtain rfl := Option.some.inj there
        exact fitting.fits id _ before
      | none =>
        rw [new_of_missing moved before there, fitting.known id before]
        exact .inl ⟨rfl, rfl, rfl, trivial, nofun⟩
    · have missing : (s.connections ++ [.new])[id]? = none := missing
      rw [List.getElem?_eq_none_iff, List.length_append] at missing
      exact fitting.known id (List.getElem?_eq_none (Nat.le_of_add_right_le missing))
    · obtain rfl := AcceptThread.launching.inj launching
      exact ⟨.new, List.getElem?_concat_length, rfl⟩
  | @launched id c launching _ found =>
    obtain ⟨other, there, absent⟩ := fitting.launching id launching
    obtain rfl := Option.some.inj (found.symm.trans there)
    exact fitting.move found rfl ((fitting.fits id c found).launch absent) (fun _ _ => rfl) nofun

theorem cleanupStep_accept {event : CleanupEvent} (ran : s.cleanupStep event = some t) :
    t.accept = s.accept ∨ t.accept = .stopped := by
  cases event with
  | listenerStopped =>
    obtain ⟨-, ran⟩ := Option.ite_none_right_eq_some.mp ran
    exact Option.some.inj ran ▸ .inr rfl
  | unload | awaited | unawaited | listenerTaken | listenerInterrupted | listenerUnstarted | listenerWiped =>
    obtain ⟨-, ran⟩ := Option.ite_none_right_eq_some.mp ran
    exact Option.some.inj ran ▸ .inl rfl
  | picked =>
    obtain ⟨-, ran⟩ := Option.ite_none_right_eq_some.mp ran
    split at ran <;> exact Option.some.inj ran ▸ .inl rfl
  | unlisted | checked | taken | interrupted | stopped | unstarted | givenBack =>
    cases cleanupStep_exits ran with
    | elsewhere other => exact other.elim
    | _ => exact .inl rfl

theorem Fitting.exits (fitting : s.Fitting) {event : CleanupEvent} (ran : s.cleanupStep event = some t) :
    t.Fitting := by
  have moved : s.step (.cleanup event) = some t := ran
  have launching := fitting.still_launching moved nofun (cleanupStep_accept ran)
  cases cleanupStep_exits ran with
  | elsewhere _ same before after =>
    refine ⟨fun id c there => ?_, fun id _ => after.stage id, launching⟩
    have fits := fitting.fits id c (same ▸ there)
    rw [before.stage] at fits
    rw [after.stage]
    exact fits
  | crashed id c phase =>
    refine ⟨fun other d found => ?_, fun _ _ => rfl, launching⟩
    have fits := fitting.fits other d found
    rw [phase] at fits
    exact fits
  | unlisted id c phase there linked =>
    obtain ⟨-, connected, kept, live, flagged⟩ := fitting.picking there phase linked
    have own : ConnectionBlock.Taking { c with linked := false } := ⟨rfl, connected, kept, .inl live, flagged⟩
    refine fitting.move there rfl ((stage_checking id).symm ▸ own) (fun other different => ?_) launching
    rw [stage_checking_other different, phase]
    rfl
  | passed id c phase there cleared =>
    have own := (fitting.checking there phase).passed cleared
    refine fitting.move there (set_same there) (.inr (.inl own)) (fun other different => ?_) launching
    rw [phase, stage_checking_other different]
    rfl
  | checked id c phase there =>
    have own := fitting.checking there phase
    refine fitting.move there (set_same there) ((stage_taking id).symm ▸ own) (fun other different => ?_) launching
    rw [phase, stage_checking_other different, stage_taking_other different]
  | taken id c phase there free =>
    have own := ConnectionBlock.Taking.taken (fitting.taking there phase) free
    refine fitting.move there rfl ((stage_stopping id).symm ▸ own) (fun other different => ?_) launching
    rw [stage_stopping_other different, phase, stage_taking_other different]
  | interrupted id c phase there =>
    obtain ⟨linked, -, -, thread, -⟩ := fitting.taking there phase
    refine fitting.move there rfl (.inr (.inr (.inr ⟨linked, rfl, thread⟩))) (fun other different => ?_) launching
    rw [phase, stage_taking_other different]
    rfl
  | stopped id c phase there =>
    obtain ⟨linked, -, -, -⟩ := fitting.stopping there phase
    refine fitting.move there rfl (.inr (.inr (.inl ⟨linked, rfl, rfl⟩))) (fun other different => ?_) launching
    rw [phase, stage_stopping_other different]
    rfl
  | unstarted id c phase there turn =>
    obtain ⟨linked, connected, kept, -⟩ := fitting.stopping there phase
    have own : c.GivingBack := ⟨linked, connected, kept, .inl turn⟩
    refine fitting.move there (set_same there) ((stage_givingBack id).symm ▸ own) (fun other different => ?_) launching
    rw [stage_givingBack_other different, phase, stage_stopping_other different]
  | givenBack id c phase there =>
    obtain ⟨linked, -, -, thread⟩ := fitting.givingBack there phase
    have running := thread.imp_left ServerThread.live_of_hasTurn
    refine fitting.move there rfl (.inr (.inr (.inr ⟨linked, rfl, running⟩))) (fun other different => ?_) launching
    rw [phase, stage_givingBack_other different]
    rfl

theorem Fitting.step (fitting : s.Fitting) {event : ModuleEvent} (ran : s.step event = some t) : t.Fitting := by
  cases event with
  | accept event => exact fitting.accepts ran
  | server id event =>
    have served : s.step (.server id event) = some t := ran
    have launching := fitting.still_launching served nofun
    obtain ⟨c, after, there, moved, rfl⟩ := serverStep_eq_some ran
    exact fitting.move there rfl ((fitting.fits id c there).step moved) (fun _ _ => rfl) (launching (.inl rfl))
  | cleanup event => exact fitting.exits ran

theorem fitting_initial : moduleMachine.initial.Fitting where
  fits _ _ there := by cases there
  known _ _ := rfl
  launching _ launching := by cases launching

end KernelModule

section Runs

open KernelModule

variable {events : List ModuleEvent} {s t : KernelModule} {event : ModuleEvent}

theorem reachable_fitting (reached : moduleMachine.Reachable s) : s.Fitting :=
  moduleMachine.invariant fitting_initial (fun _ _ _ _ fitting ran => fitting.step ran) reached

def FreedStopped (s : KernelModule) : Prop := ∀ c ∈ s.connections, c.freed = true → c.thread = .stopped

/-- The exit gives no connection back at this event, or one whose thread it has stopped. -/
def Awaits (event : ModuleEvent) : Prop := event ≠ .cleanup .interrupted ∧ event ≠ .cleanup .givenBack

theorem freedStopped_step (freed : FreedStopped s) (moved : s.step event = some t) (awaits : Awaits event) :
    FreedStopped t := by
  intro c member held
  obtain ⟨id, there⟩ := List.mem_iff_getElem?.mp member
  cases found : s.connections[id]? with
  | none =>
    rw [new_of_missing moved found there] at held
    cases held
  | some before =>
    have earlier := freed before (List.mem_of_getElem? found)
    obtain ⟨after, same, moves⟩ := connection_moves moved found
    obtain rfl := Option.some.inj (there.symm.trans same)
    cases moves with
    | served e stepped =>
      rw [ConnectionBlock.step_freed stepped] at held
      rw [ConnectionBlock.step_stopped (earlier held)] at stepped
      exact absurd stepped nofun
    | still => exact earlier held
    | launched _ kept =>
      rw [show before.freed = true from held] at kept
      cases kept
    | exits e thread _ _ kept =>
      rcases kept held with held | rfl | rfl
      · exact thread.trans (earlier held)
      · exact absurd rfl awaits.1
      · exact absurd rfl awaits.2
    | stopped e _ _ ended => exact ended

theorem awaits_iff (ran : moduleMachine.run events = some s) :
    moduleMachine.Throughout (fun _ event => Awaits event) events ↔
      .cleanup .interrupted ∉ events ∧ .cleanup .givenBack ∉ events := by
  rw [moduleMachine.throughout_label_iff _ ran]
  constructor
  · exact fun all => ⟨fun member => (all _ member).1 rfl, fun member => (all _ member).2 rfl⟩
  · exact fun absent event member =>
      ⟨fun same => absent.1 (same ▸ member), fun same => absent.2 (same ▸ member)⟩

theorem freed_unstopped {e : CleanupEvent} (fitting : s.Fitting) (moved : s.step (.cleanup e) = some t)
    (goes : e = .interrupted ∨ e = .givenBack) :
    ∃ (id : Nat) (c : ConnectionBlock), t.connections[id]? = some c ∧ c.freed = true ∧ c.thread ≠ .stopped := by
  have running {c : ConnectionBlock} (thread : c.thread.Live ∨ ∃ holding, c.thread = .faulted holding) :
      c.thread ≠ .stopped := by
    intro stopped
    rw [stopped] at thread
    rcases thread with live | ⟨holding, faulted⟩
    · exact live
    · cases faulted
  cases cleanupStep_exits moved with
  | elsewhere other => rcases goes with rfl | rfl <;> exact other.elim
  | crashed | passed | checked | unlisted | taken | stopped | unstarted => simp at goes
  | interrupted id c phase there =>
    obtain ⟨-, -, -, thread, -⟩ := fitting.taking there phase
    exact ⟨id, _, getElem?_set_here there, rfl, running thread⟩
  | givenBack id c phase there =>
    obtain ⟨-, -, -, thread⟩ := fitting.givingBack there phase
    exact ⟨id, _, getElem?_set_here there, rfl, running (thread.imp_left ServerThread.live_of_hasTurn)⟩

/-- Along a run, no connection is given back under a thread that still serves it, exactly when the exit is
never interrupted in its wait for a connection, and gives none back whose thread has not started. -/
theorem freed_stopped_iff (ran : moduleMachine.run events = some s) :
    (∀ first t, first <+: events → moduleMachine.run first = some t → FreedStopped t) ↔
      .cleanup .interrupted ∉ events ∧ .cleanup .givenBack ∉ events := by
  have start : moduleMachine.initial.Fitting ∧ FreedStopped moduleMachine.initial := ⟨fitting_initial, nofun⟩
  rw [← awaits_iff ran]
  apply moduleMachine.along_iff_of_invariant (fun s => s.Fitting ∧ FreedStopped s) start
    (fun _ here => here.2) _ _ ran
  · rintro s event t ⟨fitting, freed⟩ moved awaits
    exact ⟨fitting.step moved, freedStopped_step freed moved awaits⟩
  · rintro s event t ⟨fitting, -⟩ moved freed
    have stays {e : CleanupEvent} (goes : e = .interrupted ∨ e = .givenBack) : event ≠ .cleanup e := by
      rintro rfl
      obtain ⟨id, c, there, gone, running⟩ := freed_unstopped fitting moved goes
      exact running (freed c (List.mem_of_getElem? there) gone)
    exact ⟨stays (.inl rfl), stays (.inr rfl)⟩

theorem sample_freed_stopped : moduleMachine.run (sampleClients ++ .cleanup .unload :: sampleExit) = some sampleReturned ∧
    ((∀ first t, first <+: sampleClients ++ .cleanup .unload :: sampleExit → moduleMachine.run first = some t →
        FreedStopped t) ↔ .cleanup .interrupted ∉ sampleClients ++ .cleanup .unload :: sampleExit ∧
      .cleanup .givenBack ∉ sampleClients ++ .cleanup .unload :: sampleExit) :=
  ⟨rfl, freed_stopped_iff rfl⟩

/-- The thread has not faulted, and its next turn has a socket to read. -/
def ConnectionBlock.Sound (c : ConnectionBlock) : Prop :=
  (∀ holding, c.thread ≠ .faulted holding) ∧ (c.thread.hasTurn = true → c.connected = true)

/-- No thread goes on without its block, the exit takes no connection whose next turn is queued already, and
of the exit and a connection's own server only one takes it off the list. -/
def Orderly (s : KernelModule) : ModuleEvent → Prop
  | .accept event => s.listenerWiped = false ∧ (event = .launched →
    ∀ id c, s.accept = .launching id → s.connections[id]? = some c → c.freed = false)
  | .server id event => ∀ c, s.connections[id]? = some c → c.freed = false ∧ (event.closes = true → c.linked = true)
  | .cleanup .unlisted => ∀ id c, s.cleanup = .picking id → s.connections[id]? = some c → c.linked = true
  | .cleanup .taken => ∀ id c, s.cleanup = .taking id → s.connections[id]? = some c → c.thread.hasTurn = false
  | _ => True

theorem requeuing_connected {c : ConnectionBlock} {stage : Stage} {again : Bool} (fits : c.Fits stage)
    (kept : c.freed = false) (requeuing : c.thread = .requeuing again) : c.connected = true := by
  cases stage with
  | free =>
    rcases fits with ⟨-, connected, -, -, -⟩ | ⟨-, -, left⟩ | ⟨-, -, stopped⟩ | ⟨-, freed, -⟩
    · exact connected
    · simp [ConnectionBlock.Left, requeuing] at left
    · rw [requeuing] at stopped
      cases stopped
    · rw [kept] at freed
      cases freed
  | taking => exact ConnectionBlock.Taking.connected fits
  | stopping =>
    have thread := ConnectionBlock.Stopping.thread fits
    simp [requeuing, ServerThread.hasTurn] at thread
  | givingBack =>
    have thread := ConnectionBlock.GivingBack.thread fits
    simp [requeuing, ServerThread.hasTurn] at thread

theorem sound_step_iff {c after : ConnectionBlock} {stage : Stage} {shouldShutdown : Bool} {event : ServerEvent}
    (fits : c.Fits stage) (sound : c.Sound) (ran : c.step shouldShutdown event = some after) :
    after.Sound ↔ c.freed = false ∧ (event.closes = true → c.linked = true) := by
  rcases ConnectionBlock.step_cases ran with ⟨freed, rfl⟩ | ⟨kept, served⟩
  · refine iff_of_false (fun after => after.1 _ rfl) fun orderly => ?_
    rw [freed] at orderly
    exact absurd orderly.1 nofun
  · rw [and_iff_right kept]
    cases served with
    | started created =>
      have connected : c.connected = true := sound.2 (by rw [created]; rfl)
      exact iff_of_true ⟨nofun, fun _ => connected⟩ nofun
    | begun queued =>
      have connected : c.connected = true := sound.2 (by rw [queued]; rfl)
      refine iff_of_true ?_ nofun
      rw [if_pos connected]
      exact ⟨nofun, nofun⟩
    | served | failed => exact iff_of_true ⟨nofun, nofun⟩ nofun
    | closes ends holding =>
      rw [ConnectionBlock.closeOut]
      constructor
      · intro after _
        by_contra unlinked
        rw [if_neg unlinked] at after
        exact after.1 holding rfl
      · intro linked
        rw [if_pos (linked ends)]
        exact ⟨nofun, nofun⟩
    | requeued again requeuing =>
      refine iff_of_true ⟨?_, fun _ => requeuing_connected (c := c) fits kept requeuing⟩ nofun
      cases again <;> exact nofun
    | destroyed => exact iff_of_true ⟨nofun, nofun⟩ nofun

/-- Neither the thread of the listener nor that of a connection has come to harm, nor has the exit. -/
structure AllSound (s : KernelModule) : Prop where
  listener : s.accept ≠ .faulted
  exits : s.cleanup ≠ .faulted
  servers : ∀ (id : Nat) (c : ConnectionBlock), s.connections[id]? = some c → c.Sound

theorem allSound_set {id : Nat} {c after : ConnectionBlock} (sound : AllSound s) (there : s.connections[id]? = some c)
    (changed : t.connections = s.connections.set id after) (listener : t.accept ≠ .faulted)
    (exits : t.cleanup ≠ .faulted) : AllSound t ↔ after.Sound := by
  constructor
  · intro all
    apply all.servers id after
    rw [changed, getElem?_set_here there]
  · intro own
    refine ⟨listener, exits, fun other c found => ?_⟩
    rw [changed, List.getElem?_set] at found
    split_ifs at found
    · obtain rfl := Option.some.inj found
      exact own
    · exact sound.servers other c found

theorem allSound_accept_iff {event : AcceptEvent} (fitting : s.Fitting) (sound : AllSound s) (ran : s.acceptStep event = some t) :
    AllSound t ↔ Orderly s (.accept event) := by
  have exits : t.cleanup ≠ .faulted := (acceptStep_frame ran).1 ▸ sound.exits
  cases acceptStep_accepts ran with
  | elsewhere same _ fault =>
    have servers : ∀ (id : Nat) (c : ConnectionBlock), t.connections[id]? = some c → c.Sound := by
      rw [same]
      exact sound.servers
    have only : AllSound t ↔ t.accept ≠ .faulted :=
      ⟨AllSound.listener, fun listener => ⟨listener, exits, servers⟩⟩
    rw [only, ne_eq, fault, not_or, Bool.not_eq_true, not_and, not_exists]
    refine and_congr_right fun _ => imp_congr_right fun _ => ?_
    simp only [not_exists, not_and, Bool.not_eq_true]
  | linked linking there =>
    have moved : s.step (.accept .linked) = some _ := ran
    refine iff_of_true ⟨nofun, exits, fun id c found => ?_⟩ ⟨there, nofun⟩
    cases before : s.connections[id]? with
    | none =>
      rw [new_of_missing moved before found]
      exact ⟨nofun, fun _ => rfl⟩
    | some old =>
      have found : (s.connections ++ [.new])[id]? = some c := found
      rw [List.getElem?_append_left (List.getElem?_eq_some_iff.mp before).1] at found
      exact sound.servers id c found
  | @launched id c launching there found kept =>
    have orderly : Orderly s (.accept .launched) := by
      refine ⟨there, fun _ other d same known => ?_⟩
      obtain rfl := AcceptThread.launching.inj (launching.symm.trans same)
      exact Option.some.inj (found.symm.trans known) ▸ kept
    obtain ⟨known, there', absent⟩ := fitting.launching id launching
    obtain rfl := Option.some.inj (found.symm.trans there')
    have connected : c.connected = true := (sound.servers id c found).2 (by rw [absent]; rfl)
    have own : ConnectionBlock.Sound { c with thread := .created } := ⟨nofun, fun _ => connected⟩
    have running : AcceptThread.deciding ≠ .faulted := nofun
    exact iff_of_true ((allSound_set sound found rfl running exits).mpr own) orderly

theorem allSound_exit_iff {event : CleanupEvent} (sound : AllSound s) (ran : s.cleanupStep event = some t) :
    AllSound t ↔ Orderly s (.cleanup event) := by
  have listener : t.accept ≠ .faulted := by
    rcases cleanupStep_accept ran with same | stopped
    · exact same ▸ sound.listener
    · rw [stopped]
      exact nofun
  cases cleanupStep_exits ran with
  | elsewhere other same _ _ kept =>
    have servers : ∀ (id : Nat) (c : ConnectionBlock), t.connections[id]? = some c → c.Sound := same ▸ sound.servers
    refine iff_of_true ⟨listener, kept, servers⟩ ?_
    cases event with
    | taken | unlisted => exact other.elim
    | _ => trivial
  | crashed id c phase there unlinked =>
    refine iff_of_false (fun all => all.exits rfl) fun orderly => ?_
    have linked : c.linked = true := orderly id c phase there
    rw [unlinked] at linked
    cases linked
  | passed | checked | unstarted => exact iff_of_true ⟨listener, nofun, sound.servers⟩ trivial
  | unlisted id c phase there linked =>
    rw [allSound_set sound there rfl listener nofun]
    refine iff_of_true (sound.servers id c there) fun other d same known => ?_
    obtain rfl := Cleanup.picking.inj (phase.symm.trans same)
    exact Option.some.inj (there.symm.trans known) ▸ linked
  | interrupted id c phase there | givenBack id c phase there =>
    rw [allSound_set sound there rfl listener nofun]
    exact iff_of_true (sound.servers id c there) trivial
  | taken id c phase there =>
    rw [allSound_set sound there rfl listener nofun]
    constructor
    · rintro ⟨-, connected⟩ other found same known
      obtain rfl := Cleanup.taking.inj (phase.symm.trans same)
      obtain rfl := Option.some.inj (there.symm.trans known)
      by_contra turn
      cases connected (by simpa using turn)
    · intro orderly
      have none : c.thread.hasTurn = false := orderly id c phase there
      exact ⟨(sound.servers id c there).1, fun turn => absurd (none.symm.trans turn) nofun⟩
  | stopped id c phase there =>
    rw [allSound_set sound there rfl listener nofun]
    exact iff_of_true ⟨nofun, nofun⟩ trivial

theorem allSound_step_iff (fitting : s.Fitting) (sound : AllSound s) (ran : s.step event = some t) :
    AllSound t ↔ Orderly s event := by
  cases event with
  | accept event => exact allSound_accept_iff fitting sound ran
  | server id event =>
    obtain ⟨c, after, there, moved, rfl⟩ := serverStep_eq_some ran
    rw [allSound_set (t := s.set id after) sound there rfl sound.listener sound.exits,
      sound_step_iff (fitting.fits id c there) (sound.servers id c there) moved]
    constructor
    · intro orderly other found
      exact Option.some.inj (there.symm.trans found) ▸ orderly
    · exact fun orderly => orderly c there
  | cleanup event => exact allSound_exit_iff sound ran

/-- Along a run, no thread faults, or has a turn queued for a socket that is gone, exactly when each step is
orderly. -/
theorem servers_sound_iff (ran : moduleMachine.run events = some s) :
    (∀ first t, first <+: events → moduleMachine.run first = some t → AllSound t) ↔
      moduleMachine.Throughout Orderly events := by
  have start : moduleMachine.initial.Fitting ∧ AllSound moduleMachine.initial := by
    refine ⟨fitting_initial, nofun, nofun, fun id c there => ?_⟩
    cases there
  apply moduleMachine.along_iff_of_invariant (fun s => s.Fitting ∧ AllSound s) start (fun _ here => here.2) _ _ ran
  · rintro s event t ⟨fitting, sound⟩ moved orderly
    exact ⟨fitting.step moved, (allSound_step_iff fitting sound moved).mpr orderly⟩
  · rintro s event t ⟨fitting, sound⟩ moved after
    exact (allSound_step_iff fitting sound moved).mp after

-- The client hangs up when the exit has the connection off the list already.
def lateHangup : List ModuleEvent :=
  sampleClients ++ .cleanup .unload :: sampleExit.take 10 ++ [.server 1 (.turn .ended)]

theorem lateHangup_sound : moduleMachine.run lateHangup = some
      ⟨true, .stopped, true, [sampleClosing, ⟨.faulted true, false, true, true, false⟩], .taking 1⟩ ∧
    ((∀ first t, first <+: lateHangup → moduleMachine.run first = some t → AllSound t) ↔
      moduleMachine.Throughout Orderly lateHangup) :=
  ⟨rfl, servers_sound_iff rfl⟩

end Runs

end VirtueSensing.Kernel
