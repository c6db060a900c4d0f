import VirtueSensing.Wrapper.ActuationTasks

set_option autoImplicit false

/-!
# One actuation after another

The shared attributes name the running tasks as long as no request comes between another one and its
answer.
-/

namespace VirtueSensing.Wrapper

open Api (Json)

def Handler.busy : Handler → Bool
  | .idle | .returned => false
  | _ => true

/-- One generation of sensing methods and one log drain, of the actuation accepted last. -/
structure Coherent (s : State) : Prop where
  generation : ∀ a b, s.running a ≠ [] → s.running b ≠ [] → a = b
  drain : ∀ a b, (s.drains a).isSome → (s.drains b).isSome → a = b
  last : ∀ owner, s.running owner ≠ [] ∨ (s.drains owner).isSome → s.accepted = some owner

def CoherentOnceReturned (s : State) : Prop :=
  (∀ owner, (s.handlers owner).busy = false) → Coherent s

-- A handler whose actuation has begun and is not answered.
def Handler.active : Handler → Bool
  | .idle | .returned | .answering true => false
  | _ => true

def Works (s : State) (owner : Nat) : Prop :=
  (s.handlers owner).active ∨ (s.starters owner).pending

instance (s : State) (owner : Nat) : Decidable (Works s owner) :=
  inferInstanceAs (Decidable (_ ∨ _))

def Actuation.Complete : Actuation → Prop
  | .observe _ hosts topic => hosts.isSome ∧ topic.isSome
  | _ => True

def Actuation.observes : Actuation → Bool
  | .observe _ _ _ => true
  | _ => false

def Handler.answers : Handler → Bool
  | .answering false => true
  | _ => false

/-- An observe actuation comes when the sensor has been started and no other actuation is under way,
names its hosts and its topic, and is answered after its sensing methods are spawned. -/
def Serial (w : SensorWrapper) (s : State) : Label → Prop
  | .request body => (readActuation w body).observes →
    (∀ owner < s.nextRequest, ¬ Works s owner) ∧ s.logDrainTask.isSome ∧
      (readActuation w body).Complete
  | .handler owner sent => (s.handlers owner).answers → sent ∧ ¬ (s.starters owner).pending
  | _ => True

instance (a : Actuation) : Decidable a.Complete :=
  match a with
  | .observe _ hosts topic => inferInstanceAs (Decidable (hosts.isSome ∧ topic.isSome))
  | .raised | .unknown => inferInstanceAs (Decidable True)

instance (w : SensorWrapper) (s : State) : DecidablePred (Serial w s)
  | .request body => inferInstanceAs (Decidable ((readActuation w body).observes →
      (∀ owner < s.nextRequest, ¬ Works s owner) ∧ s.logDrainTask.isSome ∧
        (readActuation w body).Complete))
  | .handler owner sent => inferInstanceAs (Decidable ((s.handlers owner).answers →
      sent ∧ ¬ (s.starters owner).pending))
  | .start .. | .callSensingMethod _ | .methodEnds .. | .drainEnds _ => inferInstanceAs (Decidable True)

def HandlerOk (s : State) (owner : Nat) : Handler → Prop
  | .starting _ => owner = 0 ∧ s.starters owner = .idle ∧ s.logDrainTask = none ∧
      s.sensingMethodTaskGroup = none
  | .spawned hosts topic => s.starters owner ≠ .idle ∧ s.logDrainTask.isSome ∧ hosts.isSome ∧
      topic.isSome
  | .cancelling drain hosts topic => s.starters owner ≠ .idle ∧ s.logDrainTask = some drain ∧
      hosts.isSome ∧ topic.isSome
  | .drainSpawned => s.starters owner ≠ .idle ∧ ∀ drain, (s.drains drain).isSome → drain = owner
  | .answering false => s.starters owner ≠ .idle ∧ s.logDrainTask = some owner
  | .idle | .returned | .answering true => True

def Owns (s : State) (owner : Nat) : Prop :=
  s.accepted = some owner ∨ (s.handlers owner).active

def StarterOk (s : State) (owner : Nat) : Starter → Prop
  | .idle => True
  | .spawned => Owns s owner
  | .cancelling group waits => Owns s owner ∧ s.sensingMethodTaskGroup = some group ∧
      ∀ method ∈ s.running group, method ∈ waits
  | .spawning _ | .leaving => Owns s owner ∧ s.sensingMethodTaskGroup = some owner
  | .joining | .ended => (s.handlers owner).active → s.sensingMethodTaskGroup = some owner

structure Orderly (s : State) : Prop where
  fresh : ∀ owner, s.nextRequest ≤ owner → s.handlers owner = .idle ∧ s.starters owner = .idle
  counted : 0 < s.nextRequest
  single : ∀ a b, Works s a → Works s b → a = b
  unstarted : s.handlers 0 = .idle → s.starters 0 = .idle ∧ s.logDrainTask = none ∧
    s.sensingMethodTaskGroup = none ∧ ∀ owner, ¬ Works s owner
  handlers : ∀ owner, HandlerOk s owner (s.handlers owner)
  starters : ∀ owner, StarterOk s owner (s.starters owner)
  grouped : ∀ owner, s.running owner ≠ [] → s.sensingMethodTaskGroup = some owner
  owned : ∀ owner, s.sensingMethodTaskGroup = some owner → Owns s owner
  drained : ∀ owner, (s.drains owner).isSome → s.logDrainTask = some owner ∨
    ((s.handlers owner).active ∧ (s.handlers owner).answers = false)
  drainOwned : ∀ owner, s.logDrainTask = some owner → s.accepted = some owner ∨
    (s.handlers owner).answers

namespace Orderly

variable {s : State}

theorem coherent (inv : Orderly s) : CoherentOnceReturned s := by
  intro returned
  have inactive : ∀ owner, (s.handlers owner).active = false ∧ (s.handlers owner).answers = false := by
    intro owner
    have here := returned owner
    cases stage : s.handlers owner with
    | idle => exact ⟨rfl, rfl⟩
    | returned => exact ⟨rfl, rfl⟩
    | _ => simp [stage, Handler.busy] at here
  have last : ∀ owner, s.running owner ≠ [] ∨ (s.drains owner).isSome → s.accepted = some owner := by
    rintro owner (runs | drains)
    · apply (inv.owned owner (inv.grouped owner runs)).resolve_right
      simp [(inactive owner).1]
    · have named := (inv.drained owner drains).resolve_right (by simp [(inactive owner).1])
      apply (inv.drainOwned owner named).resolve_right
      simp [(inactive owner).2]
  constructor
  · intro a b first second
    exact Option.some.inj ((last a (.inl first)).symm.trans (last b (.inl second)))
  · intro a b first second
    exact Option.some.inj ((last a (.inr first)).symm.trans (last b (.inr second)))
  · exact last

theorem initial : Orderly State.initial where
  fresh _ _ := ⟨rfl, rfl⟩
  counted := Nat.one_pos
  single a _ works := by simp [Works, State.initial, Handler.active, Starter.pending] at works
  unstarted _ := ⟨rfl, rfl, rfl, fun owner works => by
    simp [Works, State.initial, Handler.active, Starter.pending] at works⟩
  handlers _ := trivial
  starters _ := trivial
  grouped owner runs := absurd rfl runs
  owned _ named := absurd named nofun
  drained _ runs := absurd runs nofun
  drainOwned _ named := absurd named nofun

theorem handlerOk_of_inactive {owner : Nat} {stage : Handler} (rests : stage.active = false) :
    HandlerOk s owner stage := by
  cases stage with
  | idle => trivial
  | returned => trivial
  | answering error =>
    cases error with
    | true => trivial
    | false => exact absurd rests nofun
  | _ => exact absurd rests nofun

theorem starterOk_of_quiet {owner : Nat} {stage : Starter} (quiet : stage.pending = false)
    (rests : (s.handlers owner).active = false) : StarterOk s owner stage := by
  cases stage with
  | idle => trivial
  | joining => exact fun busy => absurd busy (by simp [rests])
  | ended => exact fun busy => absurd busy (by simp [rests])
  | _ => exact absurd quiet nofun

theorem handlerOk_congr {t : State} {owner : Nat} {stage : Handler} (ok : HandlerOk s owner stage)
    (starter : t.starters owner = .idle ↔ s.starters owner = .idle)
    (task : t.logDrainTask = s.logDrainTask)
    (group : t.sensingMethodTaskGroup = s.sensingMethodTaskGroup ∨ s.starters owner ≠ .idle)
    (drains : stage = .drainSpawned →
      ∀ drain, (t.drains drain).isSome → (s.drains drain).isSome ∨ drain = owner) :
    HandlerOk t owner stage := by
  have spawned : s.starters owner ≠ .idle → t.starters owner ≠ .idle := fun busy idle =>
    busy (starter.mp idle)
  cases stage with
  | starting configuration =>
    obtain ⟨first, idle, none, nobody⟩ := ok
    exact ⟨first, starter.mpr idle, task.trans none,
      (group.resolve_right fun busy => busy idle).trans nobody⟩
  | spawned hosts topic => exact ⟨spawned ok.1, task ▸ ok.2⟩
  | cancelling drain hosts topic => exact ⟨spawned ok.1, task.trans ok.2.1, ok.2.2⟩
  | drainSpawned =>
    refine ⟨spawned ok.1, fun drain runs => ?_⟩
    exact (drains rfl drain runs).elim (ok.2 drain) id
  | answering error =>
    cases error with
    | true => trivial
    | false => exact ⟨spawned ok.1, task.trans ok.2⟩
  | idle => trivial
  | returned => trivial

theorem starterOk_mono {t : State} {owner : Nat} {stage : Starter} (ok : StarterOk s owner stage)
    (owns : Owns s owner → Owns t owner)
    (active : (t.handlers owner).active → (s.handlers owner).active)
    (group : t.sensingMethodTaskGroup = s.sensingMethodTaskGroup)
    (fewer : ∀ other method, method ∈ t.running other → method ∈ s.running other) :
    StarterOk t owner stage := by
  cases stage with
  | idle => trivial
  | spawned => exact owns ok
  | cancelling other waits =>
    exact ⟨owns ok.1, group.trans ok.2.1, fun method runs => ok.2.2 method (fewer _ method runs)⟩
  | spawning next => exact ⟨owns ok.1, group.trans ok.2⟩
  | leaving => exact ⟨owns ok.1, group.trans ok.2⟩
  | joining => exact fun busy => group.trans (ok (active busy))
  | ended => exact fun busy => group.trans (ok (active busy))

theorem not_works {owner : Nat} : ¬ Works s owner ↔
    (s.handlers owner).active = false ∧ (s.starters owner).pending = false := by
  simp [Works]

theorem alone (inv : Orderly s) {owner : Nat} (works : Works s owner) :
    ∀ other ≠ owner, ¬ Works s other :=
  fun other different too => different (inv.single other owner too works)

theorem begun (inv : Orderly s) {owner : Nat} (works : Works s owner) : s.handlers 0 ≠ .idle :=
  fun idle => (inv.unstarted idle).2.2.2 owner works

theorem known (inv : Orderly s) {owner : Nat} (works : Works s owner) : owner < s.nextRequest := by
  by_contra new
  obtain ⟨idle, none⟩ := inv.fresh owner (Nat.le_of_not_lt new)
  simp [Works, idle, none, Handler.active, Starter.pending] at works

theorem of_alone (inv : Orderly s) {owner : Nat} (alone : ∀ other ≠ owner, ¬ Works s other) {t : State}
    (others : ∀ other ≠ owner, t.handlers other = s.handlers other ∧ t.starters other = s.starters other)
    (begun : t.handlers 0 ≠ .idle) (known : owner < t.nextRequest)
    (count : s.nextRequest ≤ t.nextRequest)
    (handler : HandlerOk t owner (t.handlers owner)) (starter : StarterOk t owner (t.starters owner))
    (grouped : ∀ owner, t.running owner ≠ [] → t.sensingMethodTaskGroup = some owner)
    (owned : ∀ owner, t.sensingMethodTaskGroup = some owner → Owns t owner)
    (drained : ∀ owner, (t.drains owner).isSome → t.logDrainTask = some owner ∨
      ((t.handlers owner).active ∧ (t.handlers owner).answers = false))
    (drainOwned : ∀ owner, t.logDrainTask = some owner → t.accepted = some owner ∨
      (t.handlers owner).answers) : Orderly t := by
  have rests : ∀ other ≠ owner, (t.handlers other).active = false ∧
      (t.starters other).pending = false := by
    intro other different
    obtain ⟨sameHandler, sameStarter⟩ := others other different
    rw [sameHandler, sameStarter, ← not_works]
    exact alone other different
  constructor
  · intro other new
    obtain ⟨sameHandler, sameStarter⟩ := others other (Nat.ne_of_gt (Nat.lt_of_lt_of_le known new))
    rw [sameHandler, sameStarter]
    exact inv.fresh other (Nat.le_trans count new)
  · exact Nat.lt_of_lt_of_le inv.counted count
  · have only : ∀ other, Works t other → other = owner := by
      intro other busy
      by_contra different
      exact not_works.mpr (rests other different) busy
    exact fun a b first second => (only a first).trans (only b second).symm
  · exact fun idle => absurd idle begun
  · intro other
    by_cases same : other = owner
    · rw [same]
      exact handler
    · exact handlerOk_of_inactive (rests other same).1
  · intro other
    by_cases same : other = owner
    · rw [same]
      exact starter
    · exact starterOk_of_quiet (rests other same).2 (rests other same).1
  · exact grouped
  · exact owned
  · exact drained
  · exact drainOwned

section Handlers

variable {owner : Nat} {stage : Handler}

theorem handlers_begun (begun : s.handlers 0 ≠ .idle) (stays : stage ≠ .idle) :
    (s.handle owner stage).handlers 0 ≠ .idle := by
  by_cases same : 0 = owner
  · rw [same, handlers_self]
    exact stays
  · rw [handlers_of_ne same]
    exact begun

theorem handle (inv : Orderly s) (was : (s.handlers owner).active)
    (unanswered : (s.handlers owner).answers = false) (busy : stage.active)
    (waits : stage.answers = false) (ok : HandlerOk s owner stage) : Orderly (s.handle owner stage) := by
  have works : Works s owner := .inl was
  have kept : ∀ other, (s.handlers other).active → ((s.handle owner stage).handlers other).active := by
    intro other here
    by_cases same : other = owner
    · subst same
      rw [handlers_self]
      exact busy
    · rw [handlers_of_ne same]
      exact here
  have answers : ∀ other, ((s.handle owner stage).handlers other).answers =
      (s.handlers other).answers := by
    intro other
    by_cases same : other = owner
    · subst same
      rw [handlers_self, waits, unanswered]
    · rw [handlers_of_ne same]
  apply inv.of_alone (inv.alone works) (t := s.handle owner stage)
  · exact fun other different => ⟨handlers_of_ne different, rfl⟩
  · exact handlers_begun (inv.begun works) (by rintro rfl; exact absurd busy nofun)
  · exact inv.known works
  · exact Nat.le_refl _
  · rw [handlers_self]
    cases stage <;> exact ok
  · have owns : Owns (s.handle owner stage) owner := .inr (kept owner was)
    exact starterOk_mono (inv.starters owner) (fun _ => owns) (fun _ => was) rfl fun _ _ runs => runs
  · exact inv.grouped
  · exact fun other named => (inv.owned other named).imp_right (kept other)
  · exact fun other drains => (inv.drained other drains).imp_right fun here =>
      ⟨kept other here.1, by rw [answers]; exact here.2⟩
  · intro other named
    rw [answers]
    exact inv.drainOwned other named

theorem rest (inv : Orderly s) (was : (s.handlers owner).active = false) (rests : stage.active = false)
    (stays : stage = .idle → s.handlers owner = .idle) (known : owner < s.nextRequest) :
    Orderly (s.handle owner stage) := by
  have active : ∀ other, ((s.handle owner stage).handlers other).active =
      (s.handlers other).active := by
    intro other
    by_cases same : other = owner
    · rw [same, handlers_self, rests, was]
    · rw [handlers_of_ne same]
  have unanswered : ∀ stage : Handler, stage.active = false → stage.answers = false := by
    intro stage rests
    cases stage with
    | answering error =>
      cases error with
      | true => rfl
      | false => exact absurd rests nofun
    | _ => rfl
  have answers : ∀ other, ((s.handle owner stage).handlers other).answers =
      (s.handlers other).answers := by
    intro other
    by_cases same : other = owner
    · rw [same, handlers_self, unanswered stage rests, unanswered _ was]
    · rw [handlers_of_ne same]
  have works : ∀ other, Works (s.handle owner stage) other ↔ Works s other := by
    intro other
    unfold Works
    rw [active]
    rfl
  have owns : ∀ other, Owns (s.handle owner stage) other ↔ Owns s other := by
    intro other
    unfold Owns
    rw [active]
    rfl
  constructor
  · intro other new
    have different : other ≠ owner := Nat.ne_of_gt (Nat.lt_of_lt_of_le known new)
    rw [handlers_of_ne different]
    exact inv.fresh other new
  · exact inv.counted
  · intro a b first second
    exact inv.single a b ((works a).mp first) ((works b).mp second)
  · intro idle
    have before : s.handlers 0 = .idle := by
      by_cases same : 0 = owner
      · rw [← same, handlers_self] at idle
        rw [same]
        exact stays idle
      · rwa [handlers_of_ne same] at idle
    obtain ⟨starter, task, group, free⟩ := inv.unstarted before
    exact ⟨starter, task, group, fun other busy => free other ((works other).mp busy)⟩
  · intro other
    by_cases same : other = owner
    · rw [same, handlers_self]
      exact handlerOk_of_inactive rests
    · rw [handlers_of_ne same]
      exact handlerOk_congr (inv.handlers other) Iff.rfl rfl (.inl rfl) fun _ _ runs => .inl runs
  · intro other
    exact starterOk_mono (inv.starters other) (owns other).mpr (fun busy => by rwa [active] at busy) rfl
      fun _ _ runs => runs
  · exact inv.grouped
  · exact fun other named => (owns other).mpr (inv.owned other named)
  · intro other drains
    rw [active, answers]
    exact inv.drained other drains
  · intro other named
    rw [answers]
    exact inv.drainOwned other named

end Handlers

theorem withDrains (inv : Orderly s) {drains : Nat → Option (Json × Json)}
    (drained : ∀ owner, (drains owner).isSome → s.logDrainTask = some owner ∨
      ((s.handlers owner).active ∧ (s.handlers owner).answers = false))
    (only : ∀ owner, s.handlers owner = .drainSpawned →
      ∀ drain, (drains drain).isSome → drain = owner) : Orderly { s with drains := drains } where
  fresh := inv.fresh
  counted := inv.counted
  single := inv.single
  unstarted := inv.unstarted
  handlers owner := by
    refine handlerOk_congr (inv.handlers owner) Iff.rfl rfl (.inl rfl) fun stage drain runs => ?_
    exact .inr (only owner stage drain runs)
  starters owner := starterOk_mono (inv.starters owner) id id rfl fun _ _ runs => runs
  grouped := inv.grouped
  owned := inv.owned
  drained := drained
  drainOwned := inv.drainOwned

theorem drainEnds (inv : Orderly s) (owner : Nat) : Orderly (s.setDrain owner none) := by
  have fewer : ∀ drain, (Function.update s.drains owner none drain).isSome → (s.drains drain).isSome := by
    intro drain runs
    by_cases same : drain = owner
    · subst same
      rw [Function.update_self] at runs
      exact absurd runs nofun
    · rwa [Function.update_of_ne same] at runs
  apply inv.withDrains
  · exact fun drain runs => inv.drained drain (fewer drain runs)
  · intro other stage drain runs
    have here := inv.handlers other
    rw [stage] at here
    exact here.2 drain (fewer drain runs)

/-- The new drain is the only one, for the one that the attribute names has ended. -/
theorem spawnDrain (inv : Orderly s) {owner drain : Nat} {hosts topic : Option Json}
    (stage : s.handlers owner = .cancelling drain hosts topic) (past : s.drains drain = none)
    (given : Json × Json) : Orderly ((s.setDrain owner (some given)).handle owner .drainSpawned) := by
  have works : Works s owner := .inl (by rw [stage]; rfl)
  have here := inv.handlers owner
  rw [stage] at here
  obtain ⟨spawned, named, -, -⟩ := here
  have only : ∀ other, (Function.update s.drains owner (some given) other).isSome → other = owner := by
    intro other runs
    by_contra different
    rw [Function.update_of_ne different] at runs
    rcases inv.drained other runs with same | ⟨busy, -⟩
    · obtain rfl : drain = other := Option.some.inj (named.symm.trans same)
      rw [past] at runs
      exact absurd runs nofun
    · exact inv.alone works other different (.inl busy)
  have more : Orderly (s.setDrain owner (some given)) := by
    apply inv.withDrains
    · intro other runs
      rw [only other runs, stage]
      exact .inr ⟨rfl, rfl⟩
    · intro other drainSpawned
      have same : other = owner := inv.single other owner (.inl (by rw [drainSpawned]; rfl)) works
      rw [same, stage] at drainSpawned
      exact absurd drainSpawned nofun
  have was : (s.setDrain owner (some given)).handlers owner = .cancelling drain hosts topic := stage
  exact more.handle (by rw [was]; rfl) (by rw [was]; rfl) rfl rfl ⟨spawned, only⟩

theorem setLogDrainTask (inv : Orderly s) {owner : Nat} (stage : s.handlers owner = .drainSpawned) :
    Orderly ({ s with logDrainTask := some owner }.handle owner (.answering false)) := by
  have works : Works s owner := .inl (by rw [stage]; rfl)
  have here := inv.handlers owner
  rw [stage] at here
  obtain ⟨spawned, only⟩ := here
  have owns : ∀ other, Owns s other →
      Owns ({ s with logDrainTask := some owner }.handle owner (.answering false)) other := by
    rintro other (done | busy)
    · exact .inl done
    · by_cases same : other = owner
      · subst same
        exact .inr (by rw [handlers_self]; rfl)
      · exact .inr (by rw [handlers_of_ne same]; exact busy)
  apply inv.of_alone (inv.alone works)
  · exact fun other different => ⟨handlers_of_ne different, rfl⟩
  · exact handlers_begun (inv.begun works) nofun
  · exact inv.known works
  · exact Nat.le_refl _
  · rw [handlers_self]
    exact ⟨spawned, rfl⟩
  · exact starterOk_mono (inv.starters owner) (owns owner) (fun _ => by rw [stage]; rfl) rfl
      fun _ _ runs => runs
  · exact inv.grouped
  · exact fun other named => owns other (inv.owned other named)
  · intro other runs
    exact .inl (congrArg some (only other runs).symm)
  · intro other named
    obtain rfl := Option.some.inj named
    exact .inr (by rw [handlers_self]; rfl)

/-- The answer: both attributes are of this actuation by now. -/
theorem accept (inv : Orderly s) {owner : Nat} (stage : s.handlers owner = .answering false)
    (quiet : (s.starters owner).pending = false) :
    Orderly ({ s with accepted := some owner }.handle owner .returned) := by
  have works : Works s owner := .inl (by rw [stage]; rfl)
  have here := inv.handlers owner
  rw [stage] at here
  obtain ⟨spawned, task⟩ := here
  have group : s.sensingMethodTaskGroup = some owner := by
    have starts := inv.starters owner
    cases starter : s.starters owner with
    | idle => exact absurd starter spawned
    | joining =>
      rw [starter] at starts
      exact starts (by rw [stage]; rfl)
    | ended =>
      rw [starter] at starts
      exact starts (by rw [stage]; rfl)
    | _ =>
      rw [starter] at quiet
      exact absurd quiet nofun
  apply inv.of_alone (inv.alone works)
  · exact fun other different => ⟨handlers_of_ne different, rfl⟩
  · exact handlers_begun (inv.begun works) nofun
  · exact inv.known works
  · exact Nat.le_refl _
  · rw [handlers_self]
    trivial
  · exact starterOk_of_quiet quiet (by rw [handlers_self]; rfl)
  · exact inv.grouped
  · intro other named
    exact .inl (group.symm.trans named)
  · intro other runs
    rcases inv.drained other runs with named | ⟨busy, waits⟩
    · exact .inl named
    · have same : other = owner := inv.single other owner (.inl busy) works
      rw [same, stage] at waits
      exact absurd waits nofun
  · intro other named
    exact .inl (task.symm.trans named)

theorem start (inv : Orderly s) (idle : s.handlers 0 = .idle) (configuration hosts topic : Json) :
    Orderly (Wrapper.start s configuration hosts topic) := by
  obtain ⟨starter, task, group, free⟩ := inv.unstarted idle
  have nothing : ∀ drain, s.drains drain = none := by
    intro drain
    by_contra runs
    rcases inv.drained drain (Option.isSome_iff_ne_none.mpr runs) with named | ⟨busy, -⟩
    · rw [task] at named
      exact absurd named nofun
    · exact free drain (.inl busy)
  unfold Wrapper.start
  apply inv.of_alone fun other _ => free other
  · exact fun other different => ⟨handlers_of_ne different, rfl⟩
  · rw [handlers_self]
    exact nofun
  · exact inv.counted
  · exact Nat.le_refl _
  · rw [handlers_self]
    exact ⟨rfl, starter, task, group⟩
  · show StarterOk _ 0 (s.starters 0)
    rw [starter]
    trivial
  · exact inv.grouped
  · intro other named
    exact absurd (group.symm.trans named) nofun
  · intro other runs
    by_cases same : other = 0
    · rw [same, handlers_self]
      exact .inr ⟨rfl, rfl⟩
    · change (Function.update s.drains 0 _ other).isSome at runs
      rw [Function.update_of_ne same, nothing other] at runs
      exact absurd runs nofun
  · intro other named
    exact absurd (task.symm.trans named) nofun

theorem finishStart (inv : Orderly s) {owner : Nat} {configuration : Json}
    (stage : s.handlers owner = .starting configuration) :
    Orderly (({ s with logDrainTask := some owner, accepted := some owner }.spawnStarter owner
      configuration).handle owner .returned) := by
  have works : Works s owner := .inl (by rw [stage]; rfl)
  have here := inv.handlers owner
  rw [stage] at here
  obtain ⟨-, -, task, group⟩ := here
  apply inv.of_alone (inv.alone works)
  · exact fun other different => ⟨handlers_of_ne different, Function.update_of_ne different ..⟩
  · exact handlers_begun (inv.begun works) nofun
  · exact inv.known works
  · exact Nat.le_refl _
  · rw [handlers_self]
    trivial
  · show StarterOk _ owner (Function.update s.starters owner .spawned owner)
    rw [Function.update_self]
    exact .inl rfl
  · exact inv.grouped
  · intro other named
    exact absurd (group.symm.trans named) nofun
  · intro other runs
    rcases inv.drained other runs with named | ⟨busy, -⟩
    · exact absurd (task.symm.trans named) nofun
    · exact .inl (congrArg some (inv.single owner other works (.inl busy)))
  · exact fun other named => .inl named

theorem observe (inv : Orderly s) (free : ∀ owner < s.nextRequest, ¬ Works s owner)
    (started : s.logDrainTask.isSome) (configuration : Json) {hosts topic : Option Json}
    (given : hosts.isSome ∧ topic.isSome) :
    Orderly (({ s with nextRequest := s.nextRequest + 1 }.spawnStarter s.nextRequest
      configuration).handle s.nextRequest (.spawned hosts topic)) := by
  have begun : s.handlers 0 ≠ .idle := by
    intro idle
    rw [(inv.unstarted idle).2.1] at started
    exact absurd started nofun
  have rests : ∀ owner, ¬ Works s owner := fun owner works => free owner (inv.known works) works
  apply inv.of_alone fun other _ => rests other
  · exact fun other different => ⟨handlers_of_ne different, Function.update_of_ne different ..⟩
  · exact handlers_begun begun nofun
  · exact Nat.lt_succ_self _
  · exact Nat.le_succ _
  · rw [handlers_self]
    refine ⟨?_, started, given⟩
    show Function.update s.starters s.nextRequest .spawned s.nextRequest ≠ .idle
    rw [Function.update_self]
    exact nofun
  · show StarterOk _ _ (Function.update s.starters s.nextRequest .spawned s.nextRequest)
    rw [Function.update_self]
    exact .inr (by rw [handlers_self]; rfl)
  · exact inv.grouped
  · intro other named
    rcases inv.owned other named with done | busy
    · exact .inl done
    · exact absurd (.inl busy) (rests other)
  · intro other runs
    rcases inv.drained other runs with named | ⟨busy, -⟩
    · exact .inl named
    · exact absurd (.inl busy) (rests other)
  · intro other named
    rcases inv.drainOwned other named with done | answers
    · exact .inl done
    · have busy : (s.handlers other).active := by
        cases stage : s.handlers other with
        | answering error =>
          cases error with
          | false => rfl
          | true =>
            rw [stage] at answers
            exact absurd answers nofun
        | _ =>
          rw [stage] at answers
          exact absurd answers nofun
      exact absurd (.inl busy) (rests other)

theorem nextRequest (inv : Orderly s) : Orderly { s with nextRequest := s.nextRequest + 1 } where
  fresh owner new := inv.fresh owner (Nat.le_of_succ_le new)
  counted := Nat.succ_pos _
  single := inv.single
  unstarted := inv.unstarted
  handlers owner :=
    handlerOk_congr (inv.handlers owner) Iff.rfl rfl (.inl rfl) fun _ _ runs => .inl runs
  starters owner := starterOk_mono (inv.starters owner) id id rfl fun _ _ runs => runs
  grouped := inv.grouped
  owned := inv.owned
  drained := inv.drained
  drainOwned := inv.drainOwned

section Starters

variable {owner : Nat} {stage : Starter}

theorem starter (inv : Orderly s) (was : (s.starters owner).pending) {closed : Nat → Bool}
    {group : Option Nat} {running : Nat → List Nat}
    (ok : StarterOk { s with sensingMethodTaskGroup := group, running := running } owner stage)
    (grouped : ∀ owner, running owner ≠ [] → group = some owner)
    (owned : ∀ owner, group = some owner → Owns s owner) (kept : stage ≠ .idle) :
    Orderly ({ s with sensingMethodTaskGroup := group, closed := closed, running := running }.starter
      owner stage) := by
  have works : Works s owner := .inr was
  have begun : s.starters owner ≠ .idle := by
    intro idle
    rw [idle] at was
    exact absurd was nofun
  apply inv.of_alone (inv.alone works)
  · exact fun other different => ⟨rfl, starters_of_ne different⟩
  · exact inv.begun works
  · exact inv.known works
  · exact Nat.le_refl _
  · have later : Function.update s.starters owner stage owner ≠ .idle := by
      rw [Function.update_self]
      exact kept
    have both : Function.update s.starters owner stage owner = .idle ↔ s.starters owner = .idle :=
      ⟨fun idle => absurd idle later, fun idle => absurd idle begun⟩
    exact handlerOk_congr (inv.handlers owner) both rfl (.inr begun) fun _ _ runs => .inl runs
  · rw [starters_self]
    cases stage <;> exact ok
  · exact grouped
  · exact owned
  · exact inv.drained
  · exact inv.drainOwned

theorem takeOver (inv : Orderly s) (was : (s.starters owner).pending) (owns : Owns s owner)
    (past : ∀ group, s.sensingMethodTaskGroup = some group → s.running group = []) :
    Orderly ({ s with sensingMethodTaskGroup := some owner }.starter owner (.spawning 0)) := by
  apply inv.starter was
  · exact ⟨owns, rfl⟩
  · exact fun other runs => absurd (past other (inv.grouped other runs)) runs
  · intro other named
    rw [← Option.some.inj named]
    exact owns
  · exact nofun

theorem callSensingMethod (inv : Orderly s) {w : SensorWrapper} {t : State}
    (moved : Wrapper.callSensingMethod w s owner = some t) : Orderly t := by
  have here := inv.starters owner
  unfold Wrapper.callSensingMethod at moved
  split at moved
  · next stage =>
    rw [stage] at here
    have was : (s.starters owner).pending := by rw [stage]; rfl
    split at moved
    · next none_ =>
      obtain rfl := Option.some.inj moved
      exact inv.takeOver was here fun group named => absurd (none_.symm.trans named) nofun
    · next group named =>
      obtain rfl := Option.some.inj moved
      apply inv.starter was
      · exact ⟨here, named, fun method member => member⟩
      · exact inv.grouped
      · exact inv.owned
      · exact nofun
  · next group waits stage =>
    rw [stage] at here
    have was : (s.starters owner).pending := by rw [stage]; rfl
    obtain ⟨owns, named, waited⟩ := here
    split_ifs at moved with some_
    obtain rfl := Option.some.inj moved
    apply inv.takeOver was owns
    intro other same
    obtain rfl : group = other := Option.some.inj (named.symm.trans same)
    rw [List.eq_nil_iff_forall_not_mem]
    intro method runs
    exact some_ (List.any_eq_true.mpr ⟨method, waited method runs, decide_eq_true runs⟩)
  · next next stage =>
    rw [stage] at here
    have was : (s.starters owner).pending := by rw [stage]; rfl
    obtain ⟨owns, named⟩ := here
    split_ifs at moved
    · obtain rfl := Option.some.inj moved
      apply inv.starter was
      · exact ⟨owns, named⟩
      · exact inv.grouped
      · exact inv.owned
      · exact nofun
    · obtain rfl := Option.some.inj moved
      apply inv.starter was
      · exact ⟨owns, named⟩
      · intro other runs
        by_cases same : other = owner
        · rw [same]
          exact named
        · rw [Function.update_of_ne same] at runs
          exact inv.grouped other runs
      · exact inv.owned
      · exact nofun
    · obtain rfl := Option.some.inj moved
      apply inv.starter was
      · exact fun _ => named
      · exact inv.grouped
      · exact inv.owned
      · exact nofun
  · next stage =>
    rw [stage] at here
    split_ifs at moved
    obtain rfl := Option.some.inj moved
    apply inv.starter (by rw [stage]; rfl)
    · exact fun _ => here.2
    · exact inv.grouped
    · exact inv.owned
    · exact nofun
  · exact absurd moved nofun
  · exact absurd moved nofun
  · exact absurd moved nofun

end Starters

theorem methodEnds (inv : Orderly s) (owner method : Nat) :
    Orderly (s.setRunning owner ((s.running owner).erase method)) := by
  have fewer : ∀ other i, i ∈ Function.update s.running owner ((s.running owner).erase method) other →
      i ∈ s.running other := by
    intro other i member
    by_cases same : other = owner
    · subst same
      rw [Function.update_self] at member
      exact List.mem_of_mem_erase member
    · rwa [Function.update_of_ne same] at member
  constructor
  · exact inv.fresh
  · exact inv.counted
  · exact inv.single
  · exact inv.unstarted
  · intro other
    exact handlerOk_congr (inv.handlers other) Iff.rfl rfl (.inl rfl) fun _ _ runs => .inl runs
  · exact fun other => starterOk_mono (inv.starters other) id id rfl fewer
  · intro other runs
    obtain ⟨i, member⟩ := List.exists_mem_of_ne_nil _ runs
    exact inv.grouped other (List.ne_nil_of_mem (fewer other i member))
  · exact inv.owned
  · exact inv.drained
  · exact inv.drainOwned

theorem request (inv : Orderly s) {w : SensorWrapper} {body : Json}
    (serial : Serial w s (.request body)) : Orderly (routeSensorActuate w s body) := by
  unfold routeSensorActuate
  dsimp only
  have idle := (inv.fresh s.nextRequest (Nat.le_refl _)).1
  have was : ({ s with nextRequest := s.nextRequest + 1 } : State).handlers s.nextRequest = .idle := idle
  split
  · apply inv.nextRequest.rest
    · rw [was]
      rfl
    · rfl
    · exact nofun
    · exact Nat.lt_succ_self _
  · apply inv.nextRequest.rest
    · rw [was]
      rfl
    · rfl
    · exact nofun
    · exact Nat.lt_succ_self _
  · next configuration hosts topic read =>
    simp only [Serial, read, Actuation.observes, Actuation.Complete, forall_const] at serial
    obtain ⟨free, started, given⟩ := serial
    exact inv.observe free started configuration given

theorem handlerStep (inv : Orderly s) {owner : Nat} {sent : Bool} {t : State} {w : SensorWrapper}
    (moved : Wrapper.handlerStep s owner sent = some t) (serial : Serial w s (.handler owner sent)) :
    Orderly t := by
  have here := inv.handlers owner
  unfold Wrapper.handlerStep at moved
  split at moved
  · next configuration stage =>
    obtain rfl := Option.some.inj moved
    exact inv.finishStart stage
  · next hosts topic stage =>
    rw [stage] at here
    obtain ⟨spawned, started, given⟩ := here
    split at moved
    · next none_ =>
      rw [none_] at started
      exact absurd started nofun
    · next drain named =>
      obtain rfl := Option.some.inj moved
      exact inv.handle (by rw [stage]; rfl) (by rw [stage]; rfl) rfl rfl ⟨spawned, named, given⟩
  · next drain hosts topic stage =>
    rw [stage] at here
    obtain ⟨-, -, hostsGiven, topicGiven⟩ := here
    split_ifs at moved with runs
    split at moved
    · obtain rfl := Option.some.inj moved
      exact inv.spawnDrain stage (by simpa using runs) _
    · next missing =>
      obtain ⟨h, rfl⟩ := Option.isSome_iff_exists.mp hostsGiven
      obtain ⟨p, rfl⟩ := Option.isSome_iff_exists.mp topicGiven
      exact absurd rfl (missing h p rfl)
  · next stage =>
    obtain rfl := Option.some.inj moved
    exact inv.setLogDrainTask stage
  · next error stage =>
    obtain rfl := Option.some.inj moved
    cases error with
    | false =>
      obtain ⟨sent, quiet⟩ := serial (by rw [stage]; rfl)
      subst sent
      exact inv.accept stage (by simpa using quiet)
    | true =>
      have known : owner < s.nextRequest := by
        by_contra new
        rw [(inv.fresh owner (Nat.le_of_not_lt new)).1] at stage
        exact absurd stage nofun
      simp only [Bool.not_true, Bool.and_false, Bool.false_eq_true, if_false]
      exact inv.rest (by rw [stage]; rfl) rfl nofun known
  · exact absurd moved nofun
  · exact absurd moved nofun

theorem step (inv : Orderly s) {w : SensorWrapper} {a : Label} {t : State}
    (moved : wrapperStep w s a = some t) (serial : Serial w s a) : Orderly t := by
  cases a with
  | start configuration hosts topic =>
    simp only [wrapperStep] at moved
    split at moved
    · next idle =>
      obtain rfl := Option.some.inj moved
      exact inv.start idle configuration hosts topic
    · cases moved
  | request body =>
    obtain rfl := Option.some.inj moved
    exact inv.request serial
  | handler owner sent => exact inv.handlerStep moved serial
  | callSensingMethod owner => exact inv.callSensingMethod moved
  | methodEnds owner method =>
    simp only [wrapperStep] at moved
    split_ifs at moved
    obtain rfl := Option.some.inj moved
    exact inv.methodEnds owner method
  | drainEnds owner =>
    simp only [wrapperStep] at moved
    split_ifs at moved
    obtain rfl := Option.some.inj moved
    exact inv.drainEnds owner

end Orderly

/-- Whenever all handlers have returned, one generation of sensing methods and one log drain run at
most, both of the actuation accepted last, if the actuations come one after another. -/
theorem coherent_of_serial (w : SensorWrapper) {labels : List Label} {s : State}
    (reached : (wrapperMachine w).run labels = some s)
    (serial : (wrapperMachine w).Throughout (Serial w) labels) : CoherentOnceReturned s :=
  Orderly.coherent ((wrapperMachine w).invariant_of_throughout Orderly.initial
    (fun _ _ _ inv moved holds => Orderly.step inv moved holds) reached serial)

section Sample

def sampleWrapper : SensorWrapper where
  methods := 1
  loads text := if text = "\x7b\x7d" then some (.object fun _ => none) else none
  closes := true

def samplePayload : Json :=
  .object fun key => [("configuration", Json.string "\x7b\x7d"),
    ("kafka_bootstrap_hosts", .array [.string "kafka"]), ("sensor_topic", .string "topic")].lookup key

def observeBody (payload : Json) : Json :=
  .object fun key => [("actuation", Json.string "observe"), ("payload", payload)].lookup key

-- The start up to the point where its sensing method runs.
def startRun : List Label :=
  [.start .null .null .null, .handler 0 true, .callSensingMethod 0, .callSensingMethod 0,
    .callSensingMethod 0]

def serialRun : List Label :=
  startRun ++ [.request (observeBody samplePayload), .callSensingMethod 1, .handler 1 true,
    .methodEnds 0 0, .callSensingMethod 1, .callSensingMethod 1, .callSensingMethod 1, .drainEnds 0,
    .handler 1 true, .handler 1 true, .handler 1 true]

-- Both requests cancel the methods and the drain of the start, and neither those of the other one.
def racingRun : List Label :=
  startRun ++ [.request (observeBody samplePayload), .request (observeBody samplePayload),
    .callSensingMethod 1, .callSensingMethod 2, .methodEnds 0 0, .callSensingMethod 1,
    .callSensingMethod 1, .callSensingMethod 1, .callSensingMethod 2, .callSensingMethod 2,
    .callSensingMethod 2, .handler 1 true, .handler 2 true, .drainEnds 0, .handler 1 true,
    .handler 2 true, .handler 1 true, .handler 2 true, .handler 1 true, .handler 2 true]

theorem coherent_of_serial_run : ∃ s, (wrapperMachine sampleWrapper).run serialRun = some s ∧
    (s.accepted = some 1 ∧ s.running 1 = [0] ∧ (s.drains 1).isSome) ∧ CoherentOnceReturned s := by
  have ran : ((wrapperMachine sampleWrapper).run serialRun).map
      (fun s => (s.accepted, s.running 1, (s.drains 1).isSome)) = some (some 1, [0], true) := by
    decide +kernel
  have serial : (wrapperMachine sampleWrapper).Throughout (Serial sampleWrapper) serialRun :=
    (wrapperMachine sampleWrapper).throughout_of_follows _ (by decide +kernel)
  obtain ⟨s, reached, same⟩ := Option.map_eq_some_iff.mp ran
  simp only [Prod.mk.injEq] at same
  exact ⟨s, reached, same, coherent_of_serial sampleWrapper reached serial⟩

theorem two_generations : ¬ ∀ (w : SensorWrapper) (labels : List Label) (s : State),
    (wrapperMachine w).run labels = some s → CoherentOnceReturned s := by
  intro coherent
  have ran : ((wrapperMachine sampleWrapper).run racingRun).map (fun s =>
      (s.nextRequest, (List.range 3).map fun owner => (s.handlers owner).busy, s.running 1,
        s.running 2)) = some (3, [false, false, false], [0], [0]) := by decide +kernel
  obtain ⟨s, reached, same⟩ := Option.map_eq_some_iff.mp ran
  simp only [Prod.mk.injEq, List.range_succ_eq_map, List.range_zero, List.map_cons, List.map_nil,
    List.cons.injEq, and_true] at same
  obtain ⟨next, ⟨zero, one, two⟩, first, second⟩ := same
  have returned : ∀ owner, (s.handlers owner).busy = false := by
    intro owner
    rcases owner with - | - | - | owner
    · exact zero
    · exact one
    · exact two
    · have idle := (named_reachable sampleWrapper ⟨racingRun, reached⟩).handlers (owner + 3)
        (by omega)
      rw [idle]
      rfl
  have same := (coherent sampleWrapper racingRun s reached returned).generation 1 2
    (by simp [first]) (by simp [second])
  exact absurd same (by decide)

end Sample

end VirtueSensing.Wrapper
