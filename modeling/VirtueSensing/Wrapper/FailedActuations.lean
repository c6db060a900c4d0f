import VirtueSensing.Wrapper.SerialActuations

set_option autoImplicit false

/-!
# Actuations that fail

The methods are replaced before the log drain is touched, and the drain is cancelled before its
successor's hosts and topic are looked up, so that a request that fails in between leaves its marks.
-/

namespace VirtueSensing.Wrapper

open Api (Json)

def Starter.waitsFor (owner method : Nat) : Starter → Bool
  | .cancelling group waits => group = owner && method ∈ waits
  | _ => false

def Handler.waitsFor (owner : Nat) : Handler → Bool
  | .cancelling drain _ _ => drain = owner
  | _ => false

/-- The steps of one request, and the ends of the methods and of the drain that it waits for. -/
def Own (request : Nat) (sent : Bool) (s : State) : Label → Prop
  | .handler owner given => owner = request ∧ given = sent
  | .callSensingMethod owner => owner = request
  | .methodEnds owner method => (s.starters request).waitsFor owner method
  | .drainEnds owner => (s.handlers request).waitsFor owner
  | .start .. | .request _ => False

instance (request : Nat) (sent : Bool) (s : State) : DecidablePred (Own request sent s)
  | .handler owner given => inferInstanceAs (Decidable (owner = request ∧ given = sent))
  | .callSensingMethod owner => inferInstanceAs (Decidable (owner = request))
  | .methodEnds owner method => inferInstanceAs (Decidable ((s.starters request).waitsFor owner method))
  | .drainEnds owner => inferInstanceAs (Decidable ((s.handlers request).waitsFor owner))
  | .start .. | .request _ => inferInstanceAs (Decidable False)

inductive Serves (w : SensorWrapper) (request : Nat) (sent : Bool) : State → State → Prop
  | done (s : State) : Serves w request sent s s
  | step {s t u : State} {a : Label} (own : Own request sent s a) (moved : wrapperStep w s a = some t)
      (served : Serves w request sent t u) : Serves w request sent s u

theorem Serves.keeps {w : SensorWrapper} {request : Nat} {sent : Bool} {s t : State}
    {inv : State → Prop} (served : Serves w request sent s t) (start : inv s)
    (next : ∀ t a u, inv t → Own request sent t a → wrapperStep w t a = some u → inv u) : inv t := by
  induction served with
  | done => exact start
  | step own moved served ih => exact ih (next _ _ _ start own moved)

theorem serves_of_follows {w : SensorWrapper} {request : Nat} {sent : Bool} {labels : List Label}
    {s t : State} (checked : (wrapperMachine w).follows (Own request sent) s labels)
    (ran : (wrapperMachine w).runFrom s labels = some t) : Serves w request sent s t := by
  induction labels generalizing s with
  | nil =>
    obtain rfl := Option.some.inj ran
    exact .done s
  | cons a rest ih =>
    obtain ⟨u, moved, ran⟩ := Option.bind_eq_some_iff.mp ran
    simp only [Machine.follows, moved, Option.all_some, Bool.and_eq_true, decide_eq_true_eq] at checked
    exact .step checked.1 moved (ih checked.2 ran)

structure Finished (request : Nat) (s : State) : Prop where
  handler : (s.handlers request).busy = false
  starter : (s.starters request).pending = false

/-- The running methods with their configurations, and the log drains with their hosts and topics. -/
structure Unchanged (s t : State) : Prop where
  running : t.running = s.running
  configurations : ∀ owner, s.running owner ≠ [] → t.configurations owner = s.configurations owner
  drains : t.drains = s.drains

/-- A body that is refused before anything is spawned, or one that is answered, or a sensor without
methods that has no drain to lose or to win. -/
def Spared (w : SensorWrapper) (s : State) (sent : Bool) : Actuation → Prop
  | .raised | .unknown => True
  | .observe _ hosts topic =>
    (s.logDrainTask.isSome ∧ (hosts.isSome ∧ topic.isSome) ∧ sent) ∨
      (w.methods = 0 ∧ ∀ drain, s.logDrainTask = some drain →
        s.drains drain = none ∧ ¬ (hosts.isSome ∧ topic.isSome))

section Refused

structure Untouched (s : State) (request : Nat) (t : State) : Prop where
  handler : t.handlers request = .answering true ∨ t.handlers request = .returned
  starter : t.starters request = .idle
  running : t.running = s.running
  configurations : t.configurations = s.configurations
  drains : t.drains = s.drains
  accepted : t.accepted = s.accepted

variable {w : SensorWrapper} {s t u : State} {request : Nat} {sent : Bool}

theorem Untouched.step (inv : Untouched s request t) {a : Label} (own : Own request sent t a)
    (moved : wrapperStep w t a = some u) : Untouched s request u := by
  cases a with
  | handler owner given =>
    obtain ⟨rfl, rfl⟩ := own
    rcases inv.handler with stage | stage
    · simp only [wrapperStep, handlerStep, stage, Bool.not_true, Bool.and_false, Bool.false_eq_true,
        if_false, Option.some.injEq] at moved
      subst moved
      exact ⟨.inr (Function.update_self ..), inv.starter, inv.running, inv.configurations, inv.drains,
        inv.accepted⟩
    · simp [wrapperStep, handlerStep, stage] at moved
  | callSensingMethod owner =>
    obtain rfl : owner = request := own
    simp [wrapperStep, callSensingMethod, inv.starter] at moved
  | methodEnds owner method =>
    simp only [Own, inv.starter] at own
    cases own
  | drainEnds owner =>
    rcases inv.handler with stage | stage <;> simp only [Own, stage] at own <;> cases own
  | start configuration hosts topic => exact own.elim
  | request body => exact own.elim

theorem Untouched.unchanged (inv : Untouched s request t) : Unchanged s t :=
  ⟨inv.running, fun owner _ => congrFun inv.configurations owner, inv.drains⟩

end Refused

section Observing

-- What the task of `call_sensing_method` has done to the methods.
def Replaces (w : SensorWrapper) (request : Nat) (t : State) : Starter → Prop
  | .spawned => t.running request = [] ∧ t.sensingMethodTaskGroup ≠ some request
  | .cancelling group _ => t.running request = [] ∧ group ≠ request
  | .spawning next => (t.running request).length = next ∧ next ≤ w.methods
  | .joining => (t.running request).length = w.methods
  | _ => False

def Bounced (s : State) (request : Nat) (hosts topic : Option Json) (t : State) : Prop :=
  s.logDrainTask.isSome ∧ (hosts.isSome ∧ topic.isSome) ∧ (t.drains request).isSome

def Bounces (s : State) (request : Nat) (hosts topic : Option Json) (sent : Bool) (t : State) :
    Handler → Prop
  | .spawned hosts' topic' => (hosts' = hosts ∧ topic' = topic) ∧ t.logDrainTask = s.logDrainTask ∧
      t.drains = s.drains ∧ t.accepted = s.accepted
  | .cancelling drain hosts' topic' => (hosts' = hosts ∧ topic' = topic) ∧
      s.logDrainTask = some drain ∧ t.accepted = s.accepted ∧
      (t.drains = s.drains ∨ t.drains = Function.update s.drains drain none)
  | .drainSpawned | .answering false =>
    Bounced s request hosts topic t ∧ t.accepted = s.accepted
  | .returned =>
    (s.logDrainTask = none ∧ t.drains = s.drains ∧ t.accepted = s.accepted) ∨
    (∃ drain, s.logDrainTask = some drain ∧ ¬ (hosts.isSome ∧ topic.isSome) ∧
      t.drains = Function.update s.drains drain none ∧ t.accepted = s.accepted) ∨
    (Bounced s request hosts topic t ∧
      t.accepted = if sent then some request else s.accepted)
  | _ => False

structure Tracks (w : SensorWrapper) (s : State) (request : Nat) (hosts topic : Option Json)
    (sent : Bool) (t : State) : Prop where
  closed : t.closed request = false
  older : ∀ other ≠ request, ∀ method ∈ t.running other, method ∈ s.running other
  starter : Replaces w request t (t.starters request)
  handler : Bounces s request hosts topic sent t (t.handlers request)

variable {w : SensorWrapper} {s t u : State} {request : Nat} {hosts topic : Option Json} {sent : Bool}

theorem Tracks.handlerStep (inv : Tracks w s request hosts topic sent t)
    (moved : Wrapper.handlerStep t request sent = some u) : Tracks w s request hosts topic sent u := by
  have here := inv.handler
  unfold Wrapper.handlerStep at moved
  split at moved
  · next stage =>
    rw [stage] at here
    exact here.elim
  · next stage =>
    rw [stage] at here
    obtain ⟨⟨rfl, rfl⟩, task, drains, accepted⟩ := here
    split at moved
    · next missing =>
      obtain rfl := Option.some.inj moved
      refine ⟨inv.closed, inv.older, inv.starter, ?_⟩
      rw [handlers_self]
      exact .inl ⟨task.symm.trans missing, drains, accepted⟩
    · next drain named =>
      obtain rfl := Option.some.inj moved
      refine ⟨inv.closed, inv.older, inv.starter, ?_⟩
      rw [handlers_self]
      exact ⟨⟨rfl, rfl⟩, task.symm.trans named, accepted, .inl drains⟩
  · next drain hosts' topic' stage =>
    rw [stage] at here
    obtain ⟨⟨rfl, rfl⟩, task, accepted, drains⟩ := here
    split_ifs at moved with runs
    have past : t.drains drain = none := by simpa using runs
    have ended : t.drains = Function.update s.drains drain none := by
      rcases drains with same | same
      · rw [same] at past ⊢
        rw [← past, Function.update_eq_self]
      · exact same
    split at moved
    · obtain rfl := Option.some.inj moved
      refine ⟨inv.closed, inv.older, inv.starter, ?_⟩
      rw [handlers_self]
      refine ⟨⟨by rw [task]; rfl, ⟨rfl, rfl⟩, ?_⟩, accepted⟩
      show (Function.update t.drains request _ request).isSome
      rw [Function.update_self]
      rfl
    · next missing =>
      obtain rfl := Option.some.inj moved
      refine ⟨inv.closed, inv.older, inv.starter, ?_⟩
      rw [handlers_self]
      refine .inr (.inl ⟨drain, task, ?_, ended, accepted⟩)
      rintro ⟨hostsGiven, topicGiven⟩
      obtain ⟨h, same⟩ := Option.isSome_iff_exists.mp hostsGiven
      obtain ⟨p, same'⟩ := Option.isSome_iff_exists.mp topicGiven
      exact missing h p same same'
  · next stage =>
    rw [stage] at here
    obtain rfl := Option.some.inj moved
    refine ⟨inv.closed, inv.older, inv.starter, ?_⟩
    rw [handlers_self]
    exact here
  · next error stage =>
    rw [stage] at here
    obtain rfl := Option.some.inj moved
    cases error with
    | true => exact here.elim
    | false =>
      refine ⟨inv.closed, inv.older, inv.starter, ?_⟩
      rw [handlers_self]
      refine .inr (.inr ⟨here.1, ?_⟩)
      cases sent with
      | true => rfl
      | false => exact here.2
  · exact absurd moved nofun
  · exact absurd moved nofun

theorem Bounces.congr {stage : Handler} (here : Bounces s request hosts topic sent t stage)
    (task : u.logDrainTask = t.logDrainTask) (drains : u.drains = t.drains)
    (accepted : u.accepted = t.accepted) : Bounces s request hosts topic sent u stage := by
  have same : Bounces s request hosts topic sent u stage ↔
      Bounces s request hosts topic sent t stage := by
    cases stage with
    | answering error => cases error <;> simp only [Bounces, Bounced, drains, accepted]
    | _ => simp only [Bounces, Bounced, task, drains, accepted]
  exact same.mpr here

theorem Tracks.callSensingMethod (inv : Tracks w s request hosts topic sent t)
    (moved : Wrapper.callSensingMethod w t request = some u) :
    Tracks w s request hosts topic sent u := by
  have here := inv.starter
  unfold Wrapper.callSensingMethod at moved
  split at moved
  · next stage =>
    rw [stage] at here
    split at moved
    · obtain rfl := Option.some.inj moved
      refine ⟨inv.closed, inv.older, ?_, inv.handler.congr rfl rfl rfl⟩
      rw [starters_self]
      exact ⟨List.length_eq_zero_iff.mpr here.1, Nat.zero_le _⟩
    · next group named =>
      obtain rfl := Option.some.inj moved
      have other : group ≠ request := fun same => here.2 (named.trans (congrArg some same))
      refine ⟨?_, inv.older, ?_, inv.handler.congr rfl rfl rfl⟩
      · exact (Function.update_of_ne other.symm ..).trans inv.closed
      · rw [starters_self]
        exact ⟨here.1, other⟩
  · next group waits stage =>
    rw [stage] at here
    split_ifs at moved
    obtain rfl := Option.some.inj moved
    refine ⟨inv.closed, inv.older, ?_, inv.handler.congr rfl rfl rfl⟩
    rw [starters_self]
    exact ⟨List.length_eq_zero_iff.mpr here.1, Nat.zero_le _⟩
  · next next stage =>
    rw [stage] at here
    simp only [inv.closed, Bool.false_eq_true, if_false] at moved
    split_ifs at moved with more
    · obtain rfl := Option.some.inj moved
      refine ⟨inv.closed, ?_, ?_, inv.handler.congr rfl rfl rfl⟩
      · intro other different method member
        change method ∈ Function.update t.running request _ other at member
        rw [Function.update_of_ne different] at member
        exact inv.older other different method member
      · rw [starters_self]
        refine ⟨?_, more⟩
        show (Function.update t.running request _ request).length = next + 1
        rw [Function.update_self, List.length_cons, here.1]
    · obtain rfl := Option.some.inj moved
      refine ⟨inv.closed, inv.older, ?_, inv.handler.congr rfl rfl rfl⟩
      rw [starters_self]
      exact here.1.trans (Nat.le_antisymm here.2 (Nat.le_of_not_lt more))
  · next stage =>
    rw [stage] at here
    exact here.elim
  · exact absurd moved nofun
  · exact absurd moved nofun
  · exact absurd moved nofun

theorem Tracks.step (inv : Tracks w s request hosts topic sent t) {a : Label}
    (own : Own request sent t a) (moved : wrapperStep w t a = some u) :
    Tracks w s request hosts topic sent u := by
  cases a with
  | handler owner given =>
    obtain ⟨rfl, rfl⟩ := own
    exact inv.handlerStep moved
  | callSensingMethod owner =>
    obtain rfl : owner = request := own
    exact inv.callSensingMethod moved
  | methodEnds owner method =>
    obtain ⟨waits, stage⟩ : ∃ waits, t.starters request = .cancelling owner waits := by
      simp only [Own] at own
      cases stage : t.starters request with
      | cancelling group waits =>
        rw [stage, Starter.waitsFor, Bool.and_eq_true, decide_eq_true_eq] at own
        exact ⟨waits, by rw [own.1]⟩
      | _ =>
        rw [stage] at own
        cases own
    have here := inv.starter
    rw [stage] at here
    obtain ⟨none_, different⟩ := here
    simp only [wrapperStep] at moved
    split_ifs at moved
    obtain rfl := Option.some.inj moved
    refine ⟨inv.closed, ?_, ?_, inv.handler.congr rfl rfl rfl⟩
    · intro other apart i member
      change i ∈ Function.update t.running owner _ other at member
      by_cases same : other = owner
      · subst same
        rw [Function.update_self] at member
        exact inv.older other apart i (List.mem_of_mem_erase member)
      · rw [Function.update_of_ne same] at member
        exact inv.older other apart i member
    · show Replaces w request _ (t.starters request)
      rw [stage]
      exact ⟨(Function.update_of_ne different.symm ..).trans none_, different⟩
  | drainEnds owner =>
    obtain ⟨hosts', topic', stage⟩ : ∃ hosts topic,
        t.handlers request = .cancelling owner hosts topic := by
      simp only [Own] at own
      cases stage : t.handlers request with
      | cancelling drain hosts topic =>
        rw [stage, Handler.waitsFor, decide_eq_true_eq] at own
        exact ⟨hosts, topic, by rw [own]⟩
      | _ =>
        rw [stage] at own
        cases own
    have here := inv.handler
    rw [stage] at here
    obtain ⟨given, task, accepted, drains⟩ := here
    simp only [wrapperStep] at moved
    split_ifs at moved
    obtain rfl := Option.some.inj moved
    refine ⟨inv.closed, inv.older, inv.starter, ?_⟩
    show Bounces s request hosts topic sent _ (t.handlers request)
    rw [stage]
    refine ⟨given, task, accepted, .inr ?_⟩
    show Function.update t.drains owner none = Function.update s.drains owner none
    rcases drains with same | same
    · rw [same]
    · rw [same, Function.update_idem]
  | start configuration hosts topic => exact own.elim
  | request body => exact own.elim

theorem tracks_request (named : Named w s) {configuration : Json} :
    Tracks w s s.nextRequest hosts topic sent
      (({ s with nextRequest := s.nextRequest + 1 }.spawnStarter s.nextRequest
        configuration).handle s.nextRequest (.spawned hosts topic)) where
  closed := named.closed s.nextRequest (Nat.le_refl _)
  older _ _ _ member := member
  starter := by
    show Replaces w s.nextRequest _ (Function.update s.starters s.nextRequest .spawned s.nextRequest)
    rw [Function.update_self]
    refine ⟨named.running s.nextRequest (Nat.le_refl _), fun group => ?_⟩
    exact Nat.lt_irrefl _ (named.group s.nextRequest group)
  handler := by
    rw [handlers_self]
    exact ⟨⟨rfl, rfl⟩, rfl, rfl, rfl⟩

theorem Tracks.returned (inv : Tracks w s request hosts topic sent t)
    (finished : Finished request t) : t.handlers request = .returned := by
  have here := inv.handler
  have past := finished.handler
  cases stage : t.handlers request with
  | returned => rfl
  | idle =>
    rw [stage] at here
    exact here.elim
  | _ =>
    rw [stage] at past
    exact absurd past nofun

theorem Tracks.unchanged_iff_drains (inv : Tracks w s request hosts topic sent t) (named : Named w s)
    (new : s.nextRequest ≤ request) (finished : Finished request t) :
    Unchanged s t ↔ w.methods = 0 ∧ t.drains = s.drains := by
  have length : (t.running request).length = w.methods := by
    have here := inv.starter
    have past := finished.starter
    cases stage : t.starters request with
    | joining =>
      rw [stage] at here
      exact here
    | idle =>
      rw [stage] at here
      exact here.elim
    | ended =>
      rw [stage] at here
      exact here.elim
    | _ =>
      rw [stage] at past
      exact absurd past nofun
  constructor
  · intro unchanged
    rw [unchanged.running, named.running request new] at length
    exact ⟨length.symm, unchanged.drains⟩
  · rintro ⟨nothing, drains⟩
    have before : ∀ owner, s.running owner = [] := by
      intro owner
      rw [List.eq_nil_iff_forall_not_mem]
      intro method member
      have bound := named.bounded owner method member
      rw [nothing] at bound
      exact Nat.not_lt_zero _ bound
    constructor
    · funext owner
      rw [before owner]
      by_cases same : owner = request
      · rw [same]
        exact List.length_eq_zero_iff.mp (length.trans nothing)
      · rw [List.eq_nil_iff_forall_not_mem]
        intro method member
        have old := inv.older owner same method member
        rw [before owner] at old
        exact List.not_mem_nil old
    · exact fun owner runs => absurd (before owner) runs
    · exact drains

end Observing

/-- A request that is not answered with error false leaves methods and drains alone exactly when it is
spared. -/
theorem unchanged_iff (w : SensorWrapper) {s t : State} (reached : (wrapperMachine w).Reachable s)
    {body : Json} {sent : Bool}
    (served : Serves w s.nextRequest sent (routeSensorActuate w s body) t)
    (finished : Finished s.nextRequest t) :
    (t.accepted ≠ some s.nextRequest → Unchanged s t) ↔ Spared w s sent (readActuation w body) := by
  have named := named_reachable w reached
  have fresh : s.accepted ≠ some s.nextRequest := fun same =>
    Nat.lt_irrefl _ (named.accepted s.nextRequest same)
  unfold routeSensorActuate at served
  dsimp only at served
  cases read : readActuation w body with
  | raised =>
    rw [read] at served
    have untouched := served.keeps
      ⟨.inr handlers_self, named.starters s.nextRequest (Nat.le_refl _), rfl, rfl, rfl, rfl⟩
      fun t a u (inv : Untouched s s.nextRequest t) own moved => inv.step own moved
    exact iff_of_true (fun _ => untouched.unchanged) trivial
  | unknown =>
    rw [read] at served
    have untouched := served.keeps
      ⟨.inl handlers_self, named.starters s.nextRequest (Nat.le_refl _), rfl, rfl, rfl, rfl⟩
      fun t a u (inv : Untouched s s.nextRequest t) own moved => inv.step own moved
    exact iff_of_true (fun _ => untouched.unchanged) trivial
  | observe configuration hosts topic =>
    rw [read] at served
    have tracks := served.keeps (tracks_request named)
      fun t a u (inv : Tracks w s s.nextRequest hosts topic sent t) own moved => inv.step own moved
    have unchanged := tracks.unchanged_iff_drains named (Nat.le_refl _) finished
    have bounced := tracks.handler
    rw [tracks.returned finished] at bounced
    rcases bounced with ⟨missing, drains, accepted⟩ | ⟨drain, task, incomplete, drains, accepted⟩ |
      ⟨⟨task, given, runs⟩, accepted⟩
    · have refused : t.accepted ≠ some s.nextRequest := by rwa [accepted]
      rw [forall_prop_of_true refused, unchanged, Spared, missing]
      simp [drains]
    · have refused : t.accepted ≠ some s.nextRequest := by rwa [accepted]
      have kept : t.drains = s.drains ↔ s.drains drain = none := by
        rw [drains, Function.update_eq_self_iff, eq_comm]
      rw [forall_prop_of_true refused, unchanged, Spared, kept, task]
      simp [incomplete]
    · cases sent with
      | true => exact iff_of_true (fun refused => absurd accepted refused) (.inl ⟨task, given, rfl⟩)
      | false =>
        have refused : t.accepted ≠ some s.nextRequest := by
          rw [accepted]
          exact fresh
        have changed : ¬ t.drains = s.drains := by
          intro same
          rw [same, named.drains s.nextRequest (Nat.le_refl _)] at runs
          exact absurd runs nofun
        obtain ⟨drain, task⟩ := Option.isSome_iff_exists.mp task
        rw [forall_prop_of_true refused, unchanged, Spared]
        simp [changed, task, given]

section Sample

def topiclessPayload : Json :=
  .object fun key => [("configuration", Json.string "\x7b\x7d"),
    ("kafka_bootstrap_hosts", .array [.string "kafka"])].lookup key

def started : Option State := (wrapperMachine sampleWrapper).run startRun

-- The labels after the request: its methods first, then its drain.
def replacing : List Label :=
  [.callSensingMethod 1, .methodEnds 0 0, .callSensingMethod 1, .callSensingMethod 1,
    .callSensingMethod 1, .handler 1 true, .drainEnds 0, .handler 1 true, .handler 1 true,
    .handler 1 true]

def refusing : List Label :=
  replacing.take 8

theorem served_sample (body : Json) (labels : List Label)
    (checked : started.any fun s =>
      s.nextRequest = 1 &&
        (wrapperMachine sampleWrapper).follows (Own 1 true)
          (routeSensorActuate sampleWrapper s body) labels &&
        ((wrapperMachine sampleWrapper).runFrom (routeSensorActuate sampleWrapper s body)
          labels).any fun t => !(t.handlers 1).busy && !(t.starters 1).pending) :
    ∃ s t, started = some s ∧ s.nextRequest = 1 ∧
      (wrapperMachine sampleWrapper).runFrom (routeSensorActuate sampleWrapper s body) labels = some t ∧
      Serves sampleWrapper 1 true (routeSensorActuate sampleWrapper s body) t ∧ Finished 1 t := by
  obtain ⟨s, begun, checked⟩ := (Option.any_eq_true ..).mp checked
  simp only [Bool.and_eq_true, decide_eq_true_eq] at checked
  obtain ⟨⟨next, own⟩, past⟩ := checked
  obtain ⟨t, ran, past⟩ := (Option.any_eq_true ..).mp past
  simp only [Bool.and_eq_true, Bool.not_eq_true'] at past
  exact ⟨s, t, begun, next, ran, serves_of_follows own ran, past.1, past.2⟩

theorem unchanged_iff_sample : ∃ s t, (wrapperMachine sampleWrapper).run startRun = some s ∧
    Serves sampleWrapper s.nextRequest true
      (routeSensorActuate sampleWrapper s (observeBody samplePayload)) t ∧
    ((t.accepted ≠ some s.nextRequest → Unchanged s t) ↔
      Spared sampleWrapper s true (readActuation sampleWrapper (observeBody samplePayload))) := by
  obtain ⟨s, t, begun, next, -, served, finished⟩ := served_sample (observeBody samplePayload)
    replacing (by decide +kernel)
  rw [← next] at served finished
  exact ⟨s, t, begun, served, unchanged_iff sampleWrapper ⟨startRun, begun⟩ served finished⟩

theorem silenced_drain : ¬ ∀ (w : SensorWrapper) (s t : State) (body : Json) (sent : Bool),
    (wrapperMachine w).Reachable s →
    Serves w s.nextRequest sent (routeSensorActuate w s body) t → Finished s.nextRequest t →
    t.accepted ≠ some s.nextRequest → Unchanged s t := by
  intro unchanged
  obtain ⟨s, t, begun, next, ran, served, finished⟩ := served_sample (observeBody topiclessPayload)
    refusing (by decide +kernel)
  have before : started.map (fun s => (s.drains 0).isSome) = some true := by decide +kernel
  have after : (started.bind fun s => (wrapperMachine sampleWrapper).runFrom
      (routeSensorActuate sampleWrapper s (observeBody topiclessPayload)) refusing).map
      (fun t => (t.accepted, (t.drains 0).isSome)) = some (some 0, false) := by decide +kernel
  simp only [begun, Option.map_some, Option.bind_some, ran, Option.some.injEq, Prod.mk.injEq] at before after
  rw [← next] at served finished
  have same := unchanged sampleWrapper s t (observeBody topiclessPayload) true ⟨startRun, begun⟩
    served finished (by rw [after.1, next]; decide)
  rw [same.drains, before] at after
  exact absurd after.2 nofun

end Sample

end VirtueSensing.Wrapper
