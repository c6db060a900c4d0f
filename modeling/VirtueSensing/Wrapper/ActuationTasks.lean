import VirtueSensing.Api.Params
import VirtueSensing.Shared.Machine

set_option autoImplicit false

/-!
# Tasks of the sensor wrapper

`SensorWrapper` from the start of its sensing methods on: the handlers of `route_sensor_actuate`, the
tasks that they spawn, and the two attributes that all of them share. A task moves from one await to
the next. Tasks are named by the request that spawned them, those of the start by zero.
-/

namespace VirtueSensing.Wrapper

open Api (Json)

/-- The number of sensing methods, `json.loads`, and whether `cancel_remaining` keeps a task group from
further tasks. -/
structure SensorWrapper where
  methods : Nat
  loads : String → Option Json
  closes : Bool

-- `value[key]`; `none` where Python raises.
def item (key : String) : Json → Option Json
  | .object member => member key
  | _ => none

/-- What `route_sensor_actuate` reads of a body before it waits for the first time. The hosts and the
topic are looked up later. -/
inductive Actuation where
  | raised
  | unknown
  | observe (configuration : Json) (hosts topic : Option Json)

def readActuation (w : SensorWrapper) (body : Json) : Actuation :=
  match item "actuation" body, item "payload" body with
  | some actuation, some payload =>
    match item "configuration" payload with
    | none => .raised
    | some configuration =>
      match actuation with
      | .string "observe" =>
        match configuration with
        | .string text =>
          match w.loads text with
          | some loaded =>
            .observe loaded (item "kafka_bootstrap_hosts" payload) (item "sensor_topic" payload)
          | none => .raised
        | _ => .raised
      | _ => .unknown
  | _, _ => .raised

inductive Handler where
  | idle
  | starting (configuration : Json)
  | spawned (hosts topic : Option Json)
  | cancelling (drain : Nat) (hosts topic : Option Json)
  | drainSpawned
  | answering (error : Bool)
  | returned

/-- A task of `call_sensing_method`. It waits for the methods that it has cancelled, then it spawns its
own, one after another. -/
inductive Starter where
  | idle
  | spawned
  | cancelling (group : Nat) (waits : List Nat)
  | spawning (next : Nat)
  | leaving
  | joining
  | ended
  deriving DecidableEq

-- A task of `call_sensing_method` that has not spawned all of its methods.
def Starter.pending : Starter → Bool
  | .idle | .joining | .ended => false
  | _ => true

structure State where
  nextRequest : Nat
  handlers : Nat → Handler
  starters : Nat → Starter
  sensingMethodTaskGroup : Option Nat
  closed : Nat → Bool
  running : Nat → List Nat
  configurations : Nat → Option Json
  logDrainTask : Option Nat
  drains : Nat → Option (Json × Json)
  accepted : Option Nat

def State.initial : State where
  nextRequest := 1
  handlers _ := .idle
  starters _ := .idle
  sensingMethodTaskGroup := none
  closed _ := false
  running _ := []
  configurations _ := none
  logDrainTask := none
  drains _ := none
  accepted := none

namespace State

variable (s : State) (owner : Nat)

def handle (handler : Handler) : State :=
  { s with handlers := Function.update s.handlers owner handler }

def starter (starter : Starter) : State :=
  { s with starters := Function.update s.starters owner starter }

def spawnStarter (configuration : Json) : State :=
  { s.starter owner .spawned with
    configurations := Function.update s.configurations owner (some configuration) }

def setDrain (drain : Option (Json × Json)) : State :=
  { s with drains := Function.update s.drains owner drain }

def setRunning (methods : List Nat) : State :=
  { s with running := Function.update s.running owner methods }

end State

theorem handlers_self {s : State} {owner : Nat} {stage : Handler} :
    (s.handle owner stage).handlers owner = stage :=
  Function.update_self ..

theorem handlers_of_ne {s : State} {owner other : Nat} {stage : Handler} (different : other ≠ owner) :
    (s.handle owner stage).handlers other = s.handlers other :=
  Function.update_of_ne different ..

theorem starters_self {s : State} {owner : Nat} {stage : Starter} :
    (s.starter owner stage).starters owner = stage :=
  Function.update_self ..

theorem starters_of_ne {s : State} {owner other : Nat} {stage : Starter} (different : other ≠ owner) :
    (s.starter owner stage).starters other = s.starters other :=
  Function.update_of_ne different ..

-- After the registration, with the answer of the API.
def start (s : State) (configuration hosts topic : Json) : State :=
  (s.setDrain 0 (some (hosts, topic))).handle 0 (.starting configuration)

def routeSensorActuate (w : SensorWrapper) (s : State) (body : Json) : State :=
  let request := s.nextRequest
  let s := { s with nextRequest := request + 1 }
  match readActuation w body with
  | .raised => s.handle request .returned
  | .unknown => s.handle request (.answering true)
  | .observe configuration hosts topic =>
    (s.spawnStarter request configuration).handle request (.spawned hosts topic)

/-- A handler goes on, if it need not wait. An attribute that is still `None` has no `cancel`, and a
missing key raises after the old drain is gone. -/
def handlerStep (s : State) (owner : Nat) (sent : Bool) : Option State :=
  match s.handlers owner with
  | .starting configuration =>
    some (({ s with logDrainTask := some owner, accepted := some owner }.spawnStarter owner
      configuration).handle owner .returned)
  | .spawned hosts topic =>
    match s.logDrainTask with
    | none => some (s.handle owner .returned)
    | some drain => some (s.handle owner (.cancelling drain hosts topic))
  | .cancelling drain hosts topic =>
    if (s.drains drain).isSome then none
    else
      match hosts, topic with
      | some hosts, some topic =>
        some ((s.setDrain owner (some (hosts, topic))).handle owner .drainSpawned)
      | _, _ => some (s.handle owner .returned)
  | .drainSpawned => some ({ s with logDrainTask := some owner }.handle owner (.answering false))
  | .answering error =>
    some ({ s with accepted := if sent && !error then some owner else s.accepted }.handle owner
      .returned)
  | .idle | .returned => none

-- The old group is cancelled before the attribute names the new one. A task that waits for all of its
-- methods does nothing after them.
def callSensingMethod (w : SensorWrapper) (s : State) (owner : Nat) : Option State :=
  match s.starters owner with
  | .spawned =>
    match s.sensingMethodTaskGroup with
    | none => some ({ s with sensingMethodTaskGroup := some owner }.starter owner (.spawning 0))
    | some group =>
      some ({ s with closed := Function.update s.closed group (s.closed group || w.closes) }.starter
        owner (.cancelling group (s.running group)))
  | .cancelling group waits =>
    if waits.any fun method => method ∈ s.running group then none
    else some ({ s with sensingMethodTaskGroup := some owner }.starter owner (.spawning 0))
  | .spawning next =>
    if next < w.methods then
      if s.closed owner then some (s.starter owner .leaving)
      else some ((s.setRunning owner (next :: s.running owner)).starter owner (.spawning (next + 1)))
    else some (s.starter owner .joining)
  | .leaving => if s.running owner = [] then some (s.starter owner .ended) else none
  | .idle | .joining | .ended => none

inductive Label where
  | start (configuration hosts topic : Json)
  | request (body : Json)
  | handler (owner : Nat) (sent : Bool)
  | callSensingMethod (owner : Nat)
  | methodEnds (owner method : Nat)
  | drainEnds (owner : Nat)

def wrapperStep (w : SensorWrapper) (s : State) : Label → Option State
  | .start configuration hosts topic =>
    match s.handlers 0 with
    | .idle => some (start s configuration hosts topic)
    | _ => none
  | .request body => some (routeSensorActuate w s body)
  | .handler owner sent => handlerStep s owner sent
  | .callSensingMethod owner => Wrapper.callSensingMethod w s owner
  | .methodEnds owner method =>
    if method ∈ s.running owner then some (s.setRunning owner ((s.running owner).erase method))
    else none
  | .drainEnds owner => if (s.drains owner).isSome then some (s.setDrain owner none) else none

def wrapperMachine (w : SensorWrapper) : Machine State Label where
  initial := .initial
  step := wrapperStep w

/-- Everything belongs to the start or to a request that has come, and methods are those of the
sensor. -/
structure Named (w : SensorWrapper) (s : State) : Prop where
  counted : 0 < s.nextRequest
  handlers : ∀ owner, s.nextRequest ≤ owner → s.handlers owner = .idle
  starters : ∀ owner, s.nextRequest ≤ owner → s.starters owner = .idle
  group : ∀ owner, s.sensingMethodTaskGroup = some owner → owner < s.nextRequest
  closed : ∀ owner, s.nextRequest ≤ owner → s.closed owner = false
  running : ∀ owner, s.nextRequest ≤ owner → s.running owner = []
  bounded : ∀ owner, ∀ method ∈ s.running owner, method < w.methods
  drains : ∀ owner, s.nextRequest ≤ owner → s.drains owner = none
  accepted : ∀ owner, s.accepted = some owner → owner < s.nextRequest

namespace Named

variable {w : SensorWrapper} {s : State}

theorem update_new {β : Type} {f : Nat → β} {b given : β} {limit owner : Nat}
    (new : ∀ other, limit ≤ other → f other = b) (known : owner < limit) (other : Nat)
    (past : limit ≤ other) : Function.update f owner given other = b := by
  rw [Function.update_of_ne (Nat.ne_of_gt (Nat.lt_of_lt_of_le known past))]
  exact new other past

theorem initial : Named w State.initial where
  counted := Nat.one_pos
  handlers _ _ := rfl
  starters _ _ := rfl
  group _ named := absurd named nofun
  closed _ _ := rfl
  running _ _ := rfl
  bounded _ _ member := absurd member List.not_mem_nil
  drains _ _ := rfl
  accepted _ named := absurd named nofun

theorem known_of_handler (inv : Named w s) {owner : Nat} (busy : s.handlers owner ≠ .idle) :
    owner < s.nextRequest := by
  by_contra new
  exact busy (inv.handlers owner (Nat.le_of_not_lt new))

theorem known_of_starter (inv : Named w s) {owner : Nat} (busy : s.starters owner ≠ .idle) :
    owner < s.nextRequest := by
  by_contra new
  exact busy (inv.starters owner (Nat.le_of_not_lt new))

theorem handle (inv : Named w s) {owner : Nat} (known : owner < s.nextRequest) (handler : Handler) :
    Named w (s.handle owner handler) :=
  { inv with handlers := update_new inv.handlers known }

theorem starter (inv : Named w s) {owner : Nat} (known : owner < s.nextRequest) (starter : Starter) :
    Named w (s.starter owner starter) :=
  { inv with starters := update_new inv.starters known }

theorem spawnStarter (inv : Named w s) {owner : Nat} (known : owner < s.nextRequest)
    (configuration : Json) : Named w (s.spawnStarter owner configuration) :=
  { inv with starters := update_new inv.starters known }

theorem setDrain (inv : Named w s) {owner : Nat} (known : owner < s.nextRequest)
    (drain : Option (Json × Json)) : Named w (s.setDrain owner drain) :=
  { inv with drains := update_new inv.drains known }

theorem setRunning (inv : Named w s) {owner : Nat} (known : owner < s.nextRequest)
    {methods : List Nat} (bounded : ∀ method ∈ methods, method < w.methods) :
    Named w (s.setRunning owner methods) where
  counted := inv.counted
  handlers := inv.handlers
  starters := inv.starters
  group := inv.group
  closed := inv.closed
  running := update_new inv.running known
  bounded other method member := by
    change method ∈ Function.update s.running owner methods other at member
    by_cases same : other = owner
    · subst same
      rw [Function.update_self] at member
      exact bounded method member
    · rw [Function.update_of_ne same] at member
      exact inv.bounded other method member
  drains := inv.drains
  accepted := inv.accepted

theorem setGroup (inv : Named w s) {owner : Nat} (known : owner < s.nextRequest) :
    Named w { s with sensingMethodTaskGroup := some owner } :=
  { inv with group := fun _ named => Option.some.inj named ▸ known }

theorem accept (inv : Named w s) {owner : Nat} (known : owner < s.nextRequest) :
    Named w { s with accepted := some owner } :=
  { inv with accepted := fun _ named => Option.some.inj named ▸ known }

theorem close (inv : Named w s) {owner : Nat} (known : owner < s.nextRequest) (closed : Bool) :
    Named w { s with closed := Function.update s.closed owner closed } :=
  { inv with closed := update_new inv.closed known }

theorem setLogDrainTask (inv : Named w s) (drain : Option Nat) :
    Named w { s with logDrainTask := drain } :=
  { inv with }

theorem nextRequest (inv : Named w s) : Named w { s with nextRequest := s.nextRequest + 1 } where
  counted := Nat.succ_pos _
  handlers owner new := inv.handlers owner (Nat.le_of_succ_le new)
  starters owner new := inv.starters owner (Nat.le_of_succ_le new)
  group owner named := Nat.lt_succ_of_lt (inv.group owner named)
  closed owner new := inv.closed owner (Nat.le_of_succ_le new)
  running owner new := inv.running owner (Nat.le_of_succ_le new)
  bounded := inv.bounded
  drains owner new := inv.drains owner (Nat.le_of_succ_le new)
  accepted owner named := Nat.lt_succ_of_lt (inv.accepted owner named)

theorem routeSensorActuate (inv : Named w s) (body : Json) :
    Named w (Wrapper.routeSensorActuate w s body) := by
  have known := Nat.lt_succ_self s.nextRequest
  unfold Wrapper.routeSensorActuate
  dsimp only
  split
  · exact inv.nextRequest.handle known _
  · exact inv.nextRequest.handle known _
  · exact (inv.nextRequest.spawnStarter known _).handle known _

theorem handlerStep (inv : Named w s) {owner : Nat} {sent : Bool} {t : State}
    (moved : Wrapper.handlerStep s owner sent = some t) : Named w t := by
  have known : owner < s.nextRequest := by
    apply inv.known_of_handler
    intro idle
    rw [Wrapper.handlerStep, idle] at moved
    exact absurd moved nofun
  unfold Wrapper.handlerStep at moved
  split at moved
  · obtain rfl := Option.some.inj moved
    exact (((inv.setLogDrainTask (some owner)).accept known).spawnStarter known _).handle known _
  · split at moved <;> obtain rfl := Option.some.inj moved <;> exact inv.handle known _
  · split_ifs at moved
    split at moved <;> obtain rfl := Option.some.inj moved
    · exact (inv.setDrain known _).handle known _
    · exact inv.handle known _
  · obtain rfl := Option.some.inj moved
    exact (inv.setLogDrainTask (some owner)).handle known _
  · obtain rfl := Option.some.inj moved
    split_ifs
    · exact (inv.accept known).handle known _
    · exact inv.handle known _
  · exact absurd moved nofun
  · exact absurd moved nofun

theorem callSensingMethod (inv : Named w s) {owner : Nat} {t : State}
    (moved : Wrapper.callSensingMethod w s owner = some t) : Named w t := by
  have known : owner < s.nextRequest := by
    apply inv.known_of_starter
    intro idle
    rw [Wrapper.callSensingMethod, idle] at moved
    exact absurd moved nofun
  unfold Wrapper.callSensingMethod at moved
  split at moved
  · split at moved <;> obtain rfl := Option.some.inj moved
    · exact (inv.setGroup known).starter known _
    · next group named => exact (inv.close (inv.group group named) _).starter known _
  · split_ifs at moved
    obtain rfl := Option.some.inj moved
    exact (inv.setGroup known).starter known _
  · next next _ =>
    split_ifs at moved with more
    · obtain rfl := Option.some.inj moved
      exact inv.starter known _
    · obtain rfl := Option.some.inj moved
      refine (inv.setRunning known ?_).starter known _
      exact List.forall_mem_cons.mpr ⟨more, inv.bounded owner⟩
    · obtain rfl := Option.some.inj moved
      exact inv.starter known _
  · split_ifs at moved
    obtain rfl := Option.some.inj moved
    exact inv.starter known _
  · exact absurd moved nofun
  · exact absurd moved nofun
  · exact absurd moved nofun

theorem step (inv : Named w s) {a : Label} {t : State} (moved : wrapperStep w s a = some t) :
    Named w t := by
  cases a with
  | start configuration hosts topic =>
    simp only [wrapperStep] at moved
    split at moved
    · obtain rfl := Option.some.inj moved
      exact (inv.setDrain inv.counted _).handle inv.counted _
    · exact absurd moved nofun
  | request body =>
    obtain rfl := Option.some.inj moved
    exact inv.routeSensorActuate body
  | handler owner sent => exact inv.handlerStep moved
  | callSensingMethod owner => exact inv.callSensingMethod moved
  | methodEnds owner method =>
    simp only [wrapperStep] at moved
    split_ifs at moved with runs
    obtain rfl := Option.some.inj moved
    have known : owner < s.nextRequest := by
      by_contra new
      rw [inv.running owner (Nat.le_of_not_lt new)] at runs
      exact absurd runs List.not_mem_nil
    exact inv.setRunning known fun i member => inv.bounded owner i (List.mem_of_mem_erase member)
  | drainEnds owner =>
    simp only [wrapperStep] at moved
    split_ifs at moved with runs
    obtain rfl := Option.some.inj moved
    have known : owner < s.nextRequest := by
      by_contra new
      rw [inv.drains owner (Nat.le_of_not_lt new)] at runs
      exact absurd runs nofun
    exact inv.setDrain known _

end Named

theorem named_reachable (w : SensorWrapper) {s : State} (reached : (wrapperMachine w).Reachable s) :
    Named w s :=
  (wrapperMachine w).invariant Named.initial (fun _ _ _ _ inv moved => inv.step moved) reached

end VirtueSensing.Wrapper
