import VirtueSensing.Kernel.ConnectionRuns

set_option autoImplicit false

/-!
# The exit of the kernel controller

What the exit waits for, and what is left of the module's threads when it returns.
-/

namespace VirtueSensing.Kernel

open KernelModule

/-- How many turns a server has before it that will be served. -/
def ServerThread.due : ServerThread → Nat
  | .absent | .created | .queued | .serving | .requeuing true => 1
  | _ => 0

def Cleanup.Late : Cleanup → Prop
  | .connections | .picking _ | .checking _ | .taking _ | .stopping _ | .givingBack _ | .returned | .faulted => True
  | _ => False

-- The exit goes on with the connections while the thread of the listener is there, or still to come.
def CleanupEvent.leavesListener : CleanupEvent → Bool
  | .listenerInterrupted | .listenerWiped => true
  | _ => false

/-- What a step of the exit does beside the connections. -/
structure ExitStep (s t : KernelModule) (event : CleanupEvent) : Prop where
  shutdown : t.shouldShutdown = true ∨ event ≠ .unload ∧ t.shouldShutdown = s.shouldShutdown
  loaded : s.cleanup = .loaded ↔ event = .unload
  begun : t.cleanup ≠ .loaded
  accept : t.accept = s.accept ∧ event ≠ .listenerStopped ∨
    s.cleanup = .stoppingListener ∧ t.accept = .stopped ∧ t.cleanup = .connections
  late : s.cleanup.Late → t.cleanup.Late ∧ event.leavesListener = false
  leaves : event.leavesListener = true → t.cleanup.Late ∧ s.cleanup ≠ .stoppingListener
  past : t.cleanup.Late → s.cleanup.Late ∨ t.accept = .stopped ∨ event.leavesListener = true
  returned : t.cleanup = .returned → s.first = none ∧ t.connections = s.connections

theorem exit_step {s t : KernelModule} {event : CleanupEvent} (ran : s.cleanupStep event = some t) :
    ExitStep s t event := by
  cases event with
  | unload | unawaited | listenerInterrupted | listenerWiped =>
    obtain ⟨phase, ran⟩ := Option.ite_none_right_eq_some.mp ran
    obtain rfl := Option.some.inj ran
    constructor <;> simp [phase, Cleanup.Late, CleanupEvent.leavesListener]
  | awaited | listenerTaken | listenerStopped | listenerUnstarted =>
    obtain ⟨⟨phase, -⟩, ran⟩ := Option.ite_none_right_eq_some.mp ran
    obtain rfl := Option.some.inj ran
    constructor <;> simp [phase, Cleanup.Late, CleanupEvent.leavesListener]
  | picked =>
    obtain ⟨phase, ran⟩ := Option.ite_none_right_eq_some.mp ran
    split at ran
    · obtain rfl := Option.some.inj ran
      constructor <;> simp [phase, Cleanup.Late, CleanupEvent.leavesListener]
    · next nothing =>
      obtain rfl := Option.some.inj ran
      constructor <;> simp [phase, Cleanup.Late, CleanupEvent.leavesListener, nothing]
  | unlisted | checked =>
    simp only [cleanupStep] at ran
    split at ran
    · next id phase =>
      obtain ⟨c, -, ran⟩ := Option.bind_eq_some_iff.mp ran
      split_ifs at ran <;>
      · obtain rfl := Option.some.inj ran
        constructor <;> simp [phase, Cleanup.Late, CleanupEvent.leavesListener, KernelModule.set]
    · cases ran
  | taken | stopped | unstarted =>
    simp only [cleanupStep] at ran
    split at ran
    · next id phase =>
      obtain ⟨c, -, ran⟩ := Option.bind_eq_some_iff.mp ran
      split_ifs at ran
      obtain rfl := Option.some.inj ran
      constructor <;> simp [phase, Cleanup.Late, CleanupEvent.leavesListener, KernelModule.set]
    · cases ran
  | interrupted | givenBack =>
    simp only [cleanupStep] at ran
    split at ran
    · next id phase =>
      obtain ⟨c, -, ran⟩ := Option.bind_eq_some_iff.mp ran
      obtain rfl := Option.some.inj ran
      constructor <;> simp [phase, Cleanup.Late, CleanupEvent.leavesListener, KernelModule.set]
    · cases ran

section Turns

variable {s t : KernelModule} {c after : ConnectionBlock} {id : Nat}

theorem due_step {event : ServerEvent} (ran : c.step true event = some after) (kept : ¬ after.thread.Lost) :
    c.thread.due = after.thread.due + if event = .turn .served then 1 else 0 := by
  rcases ConnectionBlock.step_cases ran with ⟨-, rfl⟩ | ⟨-, served⟩
  · exact absurd trivial kept
  · cases served with
    | started thread =>
      rw [thread]
      rfl
    | begun thread =>
      rw [thread]
      dsimp only at kept ⊢
      split at kept
      · next connected =>
        rw [if_pos connected]
        rfl
      · exact absurd trivial kept
    | served thread =>
      rw [thread]
      rfl
    | closes _ holding => exact absurd (ConnectionBlock.closeOut_lost holding) kept
    | requeued again thread =>
      rw [thread]
      cases again <;> rfl
    | failed | destroyed => exact absurd trivial kept

theorem shutdown_kept {event : ModuleEvent} (ran : s.step event = some t) (shut : s.shouldShutdown = true) :
    t.shouldShutdown = true := by
  cases event with
  | accept event =>
    obtain ⟨-, -, same | set⟩ := acceptStep_frame ran
    · exact same.trans shut
    · exact set
  | server id event =>
    obtain ⟨c, after, -, -, rfl⟩ := serverStep_eq_some ran
    exact shut
  | cleanup event =>
    rcases (exit_step ran).shutdown with set | ⟨-, same⟩
    · exact set
    · exact same.trans shut

theorem lost_kept {event : ModuleEvent} (fitting : s.Fitting) (ran : s.step event = some t)
    (there : s.connections[id]? = some c) (lost : c.thread.Lost) :
    ∃ after, t.connections[id]? = some after ∧ after.thread.Lost := by
  obtain ⟨after, here, moves⟩ := connection_moves ran there
  refine ⟨after, here, ?_⟩
  cases moves with
  | served e stepped => exact ConnectionBlock.lost_step lost stepped
  | still => exact lost
  | launched launching =>
    obtain ⟨other, found, absent⟩ := fitting.launching id launching
    obtain rfl := Option.some.inj (there.symm.trans found)
    rw [absent] at lost
    exact lost.elim
  | exits e thread => exact thread ▸ lost
  | stopped e phase idle =>
    rw [idle] at lost
    exact lost.elim

theorem due_moves {event : ModuleEvent} (fitting : s.Fitting) (ran : s.step event = some t)
    (shut : s.shouldShutdown = true) (there : s.connections[id]? = some c) :
    ∃ after, t.connections[id]? = some after ∧ (¬ after.thread.Lost →
      c.thread.due = after.thread.due + if event = .server id (.turn .served) then 1 else 0) := by
  obtain ⟨after, here, moves⟩ := connection_moves ran there
  refine ⟨after, here, fun kept => ?_⟩
  cases moves with
  | served e stepped =>
    rw [shut] at stepped
    rw [due_step stepped kept]
    simp
  | still other =>
    rw [if_neg (other _)]
    rfl
  | launched launching =>
    obtain ⟨other, found, absent⟩ := fitting.launching id launching
    obtain rfl := Option.some.inj (there.symm.trans found)
    rw [absent]
    rfl
  | exits e thread =>
    rw [if_neg (by exact nofun), thread]
    rfl
  | stopped e phase idle ended =>
    rw [if_neg (by exact nofun), idle, ended]
    rfl

-- From the time on at which the controller shuts down, by induction on the rest of the run.
theorem served_count {rest : List ModuleEvent} (fitting : s.Fitting) (shut : s.shouldShutdown = true)
    (there : s.connections[id]? = some c) (ran : moduleMachine.runFrom s rest = some t)
    (last : t.connections[id]? = some after) (stopped : after.thread = .stopped) :
    ¬ c.thread.Lost ∧ rest.count (.server id (.turn .served)) = c.thread.due := by
  induction rest generalizing s c with
  | nil =>
    obtain rfl := Option.some.inj ran
    obtain rfl := Option.some.inj (there.symm.trans last)
    rw [stopped]
    exact ⟨not_false, rfl⟩
  | cons event rest ih =>
    obtain ⟨between, moved, ran⟩ := Option.bind_eq_some_iff.mp ran
    obtain ⟨next, here, due⟩ := due_moves fitting moved shut there
    obtain ⟨kept, count⟩ := ih (fitting.step moved) (shutdown_kept moved shut) here ran
    constructor
    · intro lost
      obtain ⟨other, same, still⟩ := lost_kept fitting moved there lost
      obtain rfl := Option.some.inj (here.symm.trans same)
      exact kept still
    · rw [List.count_cons, count, due kept]
      congr 1
      by_cases served : event = .server id (.turn .served) <;> simp [served]

theorem step_linked {shouldShutdown : Bool} {event : ServerEvent} (ran : c.step shouldShutdown event = some after)
    (linked : after.linked = true) : c.linked = true := by
  rcases ConnectionBlock.step_cases ran with ⟨-, rfl⟩ | ⟨-, served⟩
  · exact linked
  · cases served with
    | started | begun | served | failed | requeued | destroyed => exact linked
    | closes =>
      rw [ConnectionBlock.closeOut] at linked
      split at linked
      · cases linked
      · exact linked

theorem due_open {event : ServerEvent} (listed : c.Listed) (due : c.thread.due = 1)
    (ran : c.step false event = some after) (kept : ¬ after.thread.Lost) : after.thread.due = 1 := by
  cases ConnectionBlock.step_kept listed.kept ran with
  | started => rfl
  | begun =>
    rw [if_pos listed.connected]
    rfl
  | served => rfl
  | closes _ holding => exact absurd (ConnectionBlock.closeOut_lost holding) kept
  | failed | destroyed => exact absurd trivial kept
  | requeued again thread =>
    rw [thread] at due
    cases again with
    | true => rfl
    | false => cases due

/-- While the controller runs, each connection on the list has a turn to serve, unless it is being closed. -/
structure Serving (s : KernelModule) : Prop where
  fitting : s.Fitting
  running : s.shouldShutdown = false → s.cleanup = .loaded
  due : s.shouldShutdown = false → ∀ (id : Nat) (c : ConnectionBlock), s.connections[id]? = some c →
    c.linked = true → ¬ c.thread.Lost → c.thread.due = 1

theorem open_before {event : ModuleEvent} (ran : s.step event = some t) (running : t.shouldShutdown = false) :
    s.shouldShutdown = false := by
  cases shut : s.shouldShutdown with
  | false => rfl
  | true =>
    rw [shutdown_kept ran shut] at running
    cases running

theorem no_exit {event : CleanupEvent} (loaded : s.cleanup = .loaded) (ran : s.cleanupStep event = some t) :
    t.shouldShutdown = true := by
  have step := exit_step ran
  rcases step.shutdown with set | ⟨other, -⟩
  · exact set
  · exact absurd (step.loaded.mp loaded) other

theorem Serving.step (serving : Serving s) {event : ModuleEvent} (moved : s.step event = some t) : Serving t := by
  obtain ⟨fitting, running, due⟩ := serving
  have stays (loaded : s.cleanup = .loaded) (opened : t.shouldShutdown = false) : ∀ e, event ≠ .cleanup e := by
    rintro e rfl
    rw [no_exit loaded moved] at opened
    cases opened
  refine ⟨fitting.step moved, fun opened => ?_, fun opened id c there linked kept => ?_⟩
  · have loaded := running (open_before moved opened)
    cases event with
    | accept event => exact (acceptStep_frame moved).1.trans loaded
    | server id event =>
      obtain ⟨c, after, -, -, rfl⟩ := serverStep_eq_some moved
      exact loaded
    | cleanup event => exact absurd rfl (stays loaded opened event)
  · have before := open_before moved opened
    have loaded := running before
    cases found : s.connections[id]? with
    | none =>
      rw [new_of_missing moved found there]
      rfl
    | some earlier =>
      obtain ⟨after, same, moves⟩ := connection_moves moved found
      obtain rfl := Option.some.inj (there.symm.trans same)
      cases moves with
      | served e stepped =>
        rw [before] at stepped
        have was := step_linked stepped linked
        have fits := fitting.fits id earlier found
        rw [loaded] at fits
        have turn := due before id earlier found was fun lost => kept (ConnectionBlock.lost_step lost stepped)
        exact due_open (ConnectionBlock.listed_of_linked fits was) turn stepped kept
      | still => exact due before id c found linked kept
      | launched => rfl
      | exits e | stopped e => exact absurd rfl (stays loaded opened e)

theorem reachable_serving (reached : moduleMachine.Reachable s) : Serving s := by
  refine moduleMachine.invariant ⟨fitting_initial, fun _ => rfl, fun _ id c there => ?_⟩
    (fun s event t _ serving moved => serving.step moved) reached
  cases there

/-- The exit waits for the client of each connection that it gives back: between its begin and its return,
the client has had exactly one more request served. -/
theorem one_more_turn {first rest : List ModuleEvent} (before : moduleMachine.run first = some s)
    (running : s.shouldShutdown = false) (there : s.connections[id]? = some c) (linked : c.linked = true)
    (ran : moduleMachine.runFrom s (.cleanup .unload :: rest) = some t) (last : t.connections[id]? = some after)
    (stopped : after.thread = .stopped) : rest.count (.server id (.turn .served)) = 1 := by
  obtain ⟨between, moved, ran⟩ := Option.bind_eq_some_iff.mp ran
  have serving := reachable_serving ⟨first, before⟩
  have fitting := serving.fitting.step (show s.step (.cleanup .unload) = some between from moved)
  obtain ⟨-, unloads⟩ := Option.ite_none_right_eq_some.mp moved
  obtain ⟨shut, here⟩ : between.shouldShutdown = true ∧ between.connections[id]? = some c := by
    obtain rfl := Option.some.inj unloads
    exact ⟨rfl, there⟩
  obtain ⟨kept, count⟩ := served_count fitting shut here ran last stopped
  exact count.trans (serving.due running id c there linked kept)

theorem sample_one_more : moduleMachine.runFrom sampleServing (.cleanup .unload :: sampleExit) = some sampleReturned ∧
    sampleExit.count (.server 1 (.turn .served)) = 1 := by
  have before : moduleMachine.run sampleClients = some sampleServing := rfl
  have ran : moduleMachine.runFrom sampleServing (.cleanup .unload :: sampleExit) = some sampleReturned := rfl
  have there : sampleServing.connections[1]? = some ⟨.serving, true, true, true, false⟩ := rfl
  have last : sampleReturned.connections[1]? = some ⟨.stopped, false, true, false, true⟩ := rfl
  exact ⟨ran, one_more_turn before rfl there rfl ran last rfl⟩

end Turns

section Exit

variable {events : List ModuleEvent} {s t : KernelModule} {c : ConnectionBlock} {id : Nat}

-- A server that cannot read its connection is about to close it.
def Closes (id : Nat) : ModuleEvent → Prop
  | .server other e => other = id ∧ (e = .failed ∨ e.closes = true)
  | _ => False

theorem left_step {after : ConnectionBlock} {shouldShutdown : Bool} {event : ServerEvent}
    (ran : c.step shouldShutdown event = some after) (kept : after.freed = false) (left : after.Left) :
    c.Left ∨ event = .failed ∨ event.closes = true := by
  unfold ConnectionBlock.Left at left ⊢
  rcases ConnectionBlock.step_cases ran with ⟨freed, rfl⟩ | ⟨-, served⟩
  · exact absurd (freed.symm.trans kept) nofun
  · cases served with
    | started | served => exact left.elim
    | begun =>
      dsimp only at left
      by_cases connected : c.connected = true
      · rw [if_pos connected] at left
        exact left.elim
      · rw [if_neg connected] at left
        exact absurd left connected
    | failed => exact .inr (.inl rfl)
    | closes ends => exact .inr (.inr ends)
    | requeued again => cases again <;> exact left.elim
    | destroyed closing =>
      rw [closing]
      exact .inl trivial

theorem closed_in_run (ran : moduleMachine.run events = some s) (id : Nat) (c : ConnectionBlock)
    (there : s.connections[id]? = some c) (kept : c.freed = false) (left : c.Left) :
    ∃ event ∈ events, Closes id event := by
  revert id c there kept left
  refine moduleMachine.run_induction (motive := fun events s => ∀ (id : Nat) (c : ConnectionBlock),
    s.connections[id]? = some c → c.freed = false → c.Left → ∃ event ∈ events, Closes id event) ?_ ?_ events s ran
  · intro id c there
    cases there
  · intro events event s t _ ih moved id c there kept left
    have earlier {before : ConnectionBlock} (found : s.connections[id]? = some before) (kept : before.freed = false)
        (was : before.Left) : ∃ e ∈ events ++ [event], Closes id e := by
      obtain ⟨e, member, closes⟩ := ih id before found kept was
      exact ⟨e, List.mem_append_left _ member, closes⟩
    cases found : s.connections[id]? with
    | none =>
      rw [new_of_missing moved found there] at left
      exact left.elim
    | some before =>
      obtain ⟨after, same, moves⟩ := connection_moves moved found
      obtain rfl := Option.some.inj (there.symm.trans same)
      cases moves with
      | served e stepped =>
        rcases left_step stepped kept left with was | closes
        · exact earlier found ((ConnectionBlock.step_freed stepped).symm.trans kept) was
        · exact ⟨_, List.mem_append_right _ List.mem_cons_self, rfl, closes⟩
      | still => exact earlier found kept left
      | launched => exact left.elim
      | exits e thread connected freed =>
        have held : before.freed = false := by
          cases was : before.freed with
          | false => rfl
          | true => exact absurd ((freed was).symm.trans kept) nofun
        unfold ConnectionBlock.Left at left
        rw [thread] at left
        refine earlier found held ?_
        unfold ConnectionBlock.Left
        split at left
        · trivial
        · trivial
        · exact connected left
        · exact connected left
        · exact left.elim
      | stopped e _ _ stopped =>
        simp [ConnectionBlock.Left, stopped] at left

theorem closes_lost {after : ConnectionBlock} {shouldShutdown : Bool} {event : ServerEvent}
    (closes : event = .failed ∨ event.closes = true) (ran : c.step shouldShutdown event = some after) :
    after.thread.Lost := by
  rcases ConnectionBlock.step_cases ran with ⟨-, rfl⟩ | ⟨-, served⟩
  · exact trivial
  · cases served with
    | started | begun | served | requeued => simp [ServerEvent.closes] at closes
    | closes _ holding => exact ConnectionBlock.closeOut_lost holding
    | failed | destroyed => exact trivial

theorem lost_of_closes (ran : moduleMachine.run events = some s) {event : ModuleEvent} (member : event ∈ events)
    (closes : Closes id event) : ∃ c, s.connections[id]? = some c ∧ c.thread.Lost := by
  revert member
  refine moduleMachine.run_induction (motive := fun events s => event ∈ events →
    ∃ c, s.connections[id]? = some c ∧ c.thread.Lost) nofun ?_ events s ran
  intro events last s t reached ih moved member
  rcases List.mem_append.mp member with before | now
  · obtain ⟨c, there, lost⟩ := ih before
    exact lost_kept (reachable_fitting ⟨events, reached⟩) moved there lost
  · obtain rfl := List.mem_singleton.mp now
    cases event with
    | accept e => exact closes.elim
    | cleanup e => exact closes.elim
    | server other e =>
      obtain ⟨rfl, closes⟩ := closes
      obtain ⟨c, after, there, stepped, rfl⟩ := serverStep_eq_some moved
      exact ⟨after, getElem?_set_here there, closes_lost closes stepped⟩

theorem step_running {after : ConnectionBlock} {shouldShutdown : Bool} {event : ServerEvent}
    (ran : c.step shouldShutdown event = some after) : after.thread ≠ .stopped := by
  rcases ConnectionBlock.step_cases ran with ⟨-, rfl⟩ | ⟨-, served⟩
  · simp
  · cases served with
    | started | served | failed | destroyed => simp
    | begun =>
      dsimp only
      split <;> simp
    | closes =>
      rw [ConnectionBlock.closeOut]
      split <;> simp
    | requeued again => cases again <;> simp

theorem freed_kept {event : ModuleEvent} (fitting : s.Fitting) (moved : s.step event = some t)
    (there : s.connections[id]? = some c) (freed : c.freed = true) (running : c.thread ≠ .stopped) :
    ∃ after, t.connections[id]? = some after ∧ after.freed = true ∧ after.thread ≠ .stopped := by
  obtain ⟨after, here, moves⟩ := connection_moves moved there
  refine ⟨after, here, ?_⟩
  cases moves with
  | served e stepped => exact ⟨(ConnectionBlock.step_freed stepped).trans freed, step_running stepped⟩
  | still => exact ⟨freed, running⟩
  | launched => exact ⟨freed, nofun⟩
  | exits e thread _ keeps => exact ⟨keeps freed, thread ▸ running⟩
  | stopped e phase =>
    have kept := (fitting.stopping there phase).kept
    rw [freed] at kept
    cases kept

theorem freed_of_goes {e : CleanupEvent} (goes : e = .interrupted ∨ e = .givenBack)
    (ran : moduleMachine.run events = some s) (member : .cleanup e ∈ events) :
    ∃ (id : Nat) (c : ConnectionBlock), s.connections[id]? = some c ∧ c.freed = true ∧ c.thread ≠ .stopped := by
  revert member
  refine moduleMachine.run_induction (motive := fun events s => .cleanup e ∈ events →
    ∃ (id : Nat) (c : ConnectionBlock), s.connections[id]? = some c ∧ c.freed = true ∧ c.thread ≠ .stopped) nofun ?_ events s ran
  intro events last s t before ih moved member
  have fitting := reachable_fitting ⟨events, before⟩
  rcases List.mem_append.mp member with earlier | now
  · obtain ⟨id, c, there, freed, running⟩ := ih earlier
    exact ⟨id, freed_kept fitting moved there freed running⟩
  · obtain rfl := List.mem_singleton.mp now
    exact freed_unstopped fitting moved goes

theorem kAccept_running {event : AcceptEvent} (ran : s.kAccept event = some t) :
    s.accept ≠ .stopped ∧ t.accept ≠ .stopped := by
  cases event with
  | begun | linkChecked =>
    obtain ⟨phase, ran⟩ := Option.ite_none_right_eq_some.mp ran
    obtain rfl := Option.some.inj ran
    refine ⟨by simp [phase], ?_⟩
    dsimp only
    split <;> simp
  | started | accepted | acceptFailed | linked | decided =>
    obtain ⟨phase, ran⟩ := Option.ite_none_right_eq_some.mp ran
    obtain rfl := Option.some.inj ran
    simp [phase]
  | checked allocates =>
    obtain ⟨phase, ran⟩ := Option.ite_none_right_eq_some.mp ran
    refine ⟨by simp [phase], ?_⟩
    split_ifs at ran <;>
    · obtain rfl := Option.some.inj ran
      simp
  | launched =>
    simp only [kAccept] at ran
    split at ran
    · next id phase =>
      obtain ⟨c, -, ran⟩ := Option.bind_eq_some_iff.mp ran
      refine ⟨by simp [phase], ?_⟩
      split_ifs at ran <;>
      · obtain rfl := Option.some.inj ran
        simp
    · cases ran
  | requeued =>
    simp only [kAccept] at ran
    split at ran
    · next again phase =>
      obtain rfl := Option.some.inj ran
      refine ⟨by simp [phase], ?_⟩
      cases again <;> simp
    · cases ran

theorem acceptStep_running {event : AcceptEvent} (ran : s.acceptStep event = some t) :
    s.accept ≠ .stopped ∧ t.accept ≠ .stopped := by
  obtain ⟨after, accepted, rfl⟩ := Option.map_eq_some_iff.mp ran
  obtain ⟨running, still⟩ := kAccept_running accepted
  refine ⟨running, ?_⟩
  split
  · exact nofun
  · exact still

def LeavesListener (events : List ModuleEvent) : Prop :=
  ∃ e : CleanupEvent, .cleanup e ∈ events ∧ e.leavesListener = true

theorem leavesListener_iff : LeavesListener events ↔
    .cleanup .listenerInterrupted ∈ events ∨ .cleanup .listenerWiped ∈ events := by
  constructor
  · rintro ⟨e, member, leaves⟩
    cases e with
    | listenerInterrupted => exact .inl member
    | listenerWiped => exact .inr member
    | _ => cases leaves
  · rintro (member | member)
    · exact ⟨_, member, rfl⟩
    · exact ⟨_, member, rfl⟩

theorem leavesListener_snoc {event : ModuleEvent} : LeavesListener (events ++ [event]) ↔
    LeavesListener events ∨ ∃ e : CleanupEvent, event = .cleanup e ∧ e.leavesListener = true := by
  unfold LeavesListener
  simp only [List.mem_append, List.mem_singleton]
  constructor
  · rintro ⟨e, member | rfl, leaves⟩
    · exact .inl ⟨e, member, leaves⟩
    · exact .inr ⟨e, rfl, leaves⟩
  · rintro (⟨e, member, leaves⟩ | ⟨e, rfl, leaves⟩)
    · exact ⟨e, .inl member, leaves⟩
    · exact ⟨e, .inr rfl, leaves⟩

structure Listening (events : List ModuleEvent) (s : KernelModule) : Prop where
  stopped : s.accept = .stopped → s.cleanup.Late
  past : s.cleanup.Late → s.accept = .stopped ∨ LeavesListener events
  left : LeavesListener events → s.cleanup.Late ∧ s.accept ≠ .stopped
  none : s.cleanup = .returned → s.accept = .stopped → ∀ c ∈ s.connections, c.linked = false

theorem Listening.exits (listening : Listening events s) {event : CleanupEvent}
    (moved : s.cleanupStep event = some t) : Listening (events ++ [.cleanup event]) t := by
  obtain ⟨stopped, past, left, -⟩ := listening
  have step := exit_step moved
  refine ⟨fun ended => ?_, fun late => ?_, fun leaves => ?_, fun returned ended => ?_⟩
  · rcases step.accept with ⟨same, -⟩ | ⟨-, -, phase⟩
    · exact (step.late (stopped (same ▸ ended))).1
    · rw [phase]
      trivial
  · rw [leavesListener_snoc]
    rcases step.past late with before | ended | leaves
    · rcases past before with ended | leaves
      · rcases step.accept with ⟨same, -⟩ | ⟨-, now, -⟩
        · exact .inl (same.trans ended)
        · exact .inl now
      · exact .inr (.inl leaves)
    · exact .inl ended
    · exact .inr (.inr ⟨event, rfl, leaves⟩)
  · have unstopped (running : s.accept ≠ .stopped) (before : s.cleanup ≠ .stoppingListener) : t.accept ≠ .stopped := by
      rcases step.accept with ⟨same, -⟩ | ⟨phase, -, -⟩
      · exact same ▸ running
      · exact absurd phase before
    rcases leavesListener_snoc.mp leaves with before | ⟨e, now, leaves⟩
    · obtain ⟨late, running⟩ := left before
      refine ⟨(step.late late).1, unstopped running ?_⟩
      rintro phase
      rw [phase] at late
      exact late
    · obtain rfl := ModuleEvent.cleanup.inj now
      obtain ⟨late, phase⟩ := step.leaves leaves
      refine ⟨late, unstopped (fun ended => ?_) phase⟩
      rw [(step.late (stopped ended)).2] at leaves
      cases leaves
  · obtain ⟨nothing, same⟩ := step.returned returned
    rw [same]
    exact first_eq_none nothing

theorem listening (ran : moduleMachine.run events = some s) : Listening events s := by
  have start : Listening [] moduleMachine.initial := by
    refine ⟨nofun, nofun, ?_, nofun⟩
    rintro ⟨e, member, -⟩
    cases member
  refine moduleMachine.run_induction (motive := Listening) start ?_ events s ran
  rintro events event s t - before moved
  have ⟨stopped, past, left, unlisted⟩ := before
  cases event with
  | accept event =>
    obtain ⟨phase, -, -⟩ := acceptStep_frame moved
    obtain ⟨running, still⟩ := acceptStep_running moved
    refine ⟨fun ended => absurd ended still, fun late => ?_, fun leaves => ?_, fun _ ended => absurd ended still⟩
    · rw [leavesListener_snoc]
      exact .inr (.inl ((past (phase ▸ late)).resolve_left running))
    · rcases leavesListener_snoc.mp leaves with before | ⟨e, other, -⟩
      · exact ⟨phase ▸ (left before).1, still⟩
      · cases other
  | server id event =>
    obtain ⟨c, after, there, stepped, rfl⟩ := serverStep_eq_some moved
    refine ⟨stopped, fun late => ?_, fun leaves => ?_, fun returned ended other member => ?_⟩
    · rw [leavesListener_snoc]
      exact (past late).imp_right .inl
    · rcases leavesListener_snoc.mp leaves with before | ⟨e, other, -⟩
      · exact left before
      · cases other
    · have unlinked := unlisted returned ended
      rcases List.mem_or_eq_of_mem_set member with before | rfl
      · exact unlinked other before
      · cases linked : other.linked with
        | false => rfl
        | true =>
          have was := step_linked stepped linked
          rw [unlinked c (List.mem_of_getElem? there)] at was
          cases was
  | cleanup event => exact before.exits moved

/-- When the exit has returned, no thread of the module is left exactly when, in the run, no server has closed
its own connection or begun to, and the exit has neither been interrupted nor gone on because a thread had
not started. -/
theorem exit_clean_iff (ran : moduleMachine.run events = some s) (returned : s.cleanup = .returned) :
    (s.accept = .stopped ∧ ∀ c ∈ s.connections, c.thread = .stopped) ↔
      (∀ id, ∀ event ∈ events, ¬ Closes id event) ∧
        (.cleanup .interrupted ∉ events ∧ .cleanup .givenBack ∉ events) ∧
        .cleanup .listenerInterrupted ∉ events ∧ .cleanup .listenerWiped ∉ events := by
  have listener := listening ran
  rw [← not_or (p := .cleanup .listenerInterrupted ∈ events), ← leavesListener_iff]
  constructor
  · rintro ⟨accept, stopped⟩
    have unfreed {e : CleanupEvent} (goes : e = .interrupted ∨ e = .givenBack) : .cleanup e ∉ events := by
      intro member
      obtain ⟨id, c, there, -, running⟩ := freed_of_goes goes ran member
      exact running (stopped c (List.mem_of_getElem? there))
    refine ⟨fun id event member closes => ?_, ⟨unfreed (.inl rfl), unfreed (.inr rfl)⟩, fun leaves => ?_⟩
    · obtain ⟨c, there, lost⟩ := lost_of_closes ran member closes
      rw [stopped c (List.mem_of_getElem? there)] at lost
      exact lost
    · exact (listener.left leaves).2 accept
  · rintro ⟨open', awaits, awaited⟩
    have accept : s.accept = .stopped := (listener.past (returned ▸ trivial)).resolve_right awaited
    refine ⟨accept, fun c member => ?_⟩
    obtain ⟨id, there⟩ := List.mem_iff_getElem?.mp member
    have fits := (reachable_fitting ⟨events, ran⟩).fits id c there
    rw [returned] at fits
    rcases fits with listed | closed | gone | abandoned
    · have unlinked := listener.none returned accept c member
      rw [listed.linked] at unlinked
      cases unlinked
    · obtain ⟨event, among, closes⟩ := closed_in_run ran id c there closed.kept closed.left
      exact absurd closes (open' id event among)
    · exact gone.stopped
    · have freed : FreedStopped s :=
        moduleMachine.invariant_of_throughout nofun
          (fun s event t freed moved kept => freedStopped_step freed moved kept) ran ((awaits_iff ran).mpr awaits)
      exact freed c member abandoned.freed

-- The thread of the client that has hung up is left behind.
theorem sample_exit_clean : (sampleReturned.accept = .stopped ∧ ∀ c ∈ sampleReturned.connections, c.thread = .stopped) ↔
    (∀ id, ∀ event ∈ sampleClients ++ .cleanup .unload :: sampleExit, ¬ Closes id event) ∧
      (.cleanup .interrupted ∉ sampleClients ++ .cleanup .unload :: sampleExit ∧
        .cleanup .givenBack ∉ sampleClients ++ .cleanup .unload :: sampleExit) ∧
      .cleanup .listenerInterrupted ∉ sampleClients ++ .cleanup .unload :: sampleExit ∧
      .cleanup .listenerWiped ∉ sampleClients ++ .cleanup .unload :: sampleExit := by
  have ran : moduleMachine.run (sampleClients ++ .cleanup .unload :: sampleExit) = some sampleReturned := rfl
  exact exit_clean_iff ran rfl

end Exit

end VirtueSensing.Kernel
