import VirtueSensing.Wrapper.ActuationTasks

set_option autoImplicit false

/-!
# The retry loop of the sensor wrapper

`SensorWrapper.start` runs `main` until `_stop_retrying` is set, which is looked at between two runs
only. `main` goes from one await to the next, and the environment answers each of them.
-/

namespace VirtueSensing.Wrapper.RetryLoop

open Api (Json)

structure RetryingWrapper extends SensorWrapper where
  stopperGiven : Bool

inductive Raised where
  | taskError
  | taskCancelled
  | taskExit
  | other
  deriving DecidableEq

/-- What `main` waits for, with what later awaits need. -/
inductive Stage where
  | waitForSensorApi
  | getRootCaPubkey
  | getPrivateKeyAndCsr
  | getSignedPublicKey (privKey csr : String)
  | writeKeys (privKey pubKey : String)
  | registerSensor (pubKey : String)
  | spawnTasks (pubKey : String) (regData : Json)
  | waitForStop (pubKey : String)
  | cancelRemaining (pubKey : String)
  | deregisterSensor (pubKey : String)

/-- `check` remembers whether the last run of `main` came to its end with the sensor deregistered, and
`leaving` what the body of the task group raised, or else whether it deregistered. -/
inductive Phase where
  | check (shutDown : Bool)
  | main (stage : Stage)
  | leaving (outcome : Except Raised Bool)
  | backoff
  | ended (raised : Option Raised)

inductive Act where
  | registered
  | sensing (configuration : Json)
  | stopped
  | returned (deregistered : Bool)

/-- `serving` is set while the actuation listener runs. -/
structure State where
  phase : Phase
  stopRetrying : Bool
  serving : Bool
  history : List Act

/-- The answers to the awaits of `main`. A task that failed makes `join` raise `TaskError`. -/
inductive Answer where
  | sensorApiReady
  | rootCa (success : Bool)
  | privateKey (success : Bool) (key csr : String) (challenge : Json)
  | publicKey (success : Bool) (key : String)
  | keysWritten
  | registration (status : Nat) (pinned : Bool) (data : Json)
  | spawned
  | signal
  | notification
  | remainingCancelled
  | deregistration (status : Nat)
  | raised (e : Raised)

/-- `stopRetrying` is the setter, which any thread may call. `left` is the end of the task group, with
what its tasks raise. -/
inductive Label where
  | stopRetrying (value : Bool)
  | observe (configuration : Json)
  | check
  | main (answer : Answer)
  | left (raised : Option Raised)
  | slept

namespace State

def initial : State := ⟨.check false, false, false, []⟩

variable (s : State)

def goto (stage : Stage) : State := { s with phase := .main stage }

def leave (outcome : Except Raised Bool) : State := { s with phase := .leaving outcome }

def record (act : Act) : State := { s with history := s.history ++ [act] }

end State

-- The handlers of `start` around a run of `main`.
def finish (s : State) : Except Raised Bool → State
  | .ok deregistered => { s.record (.returned deregistered) with phase := .check deregistered }
  | .error .taskError => { s with phase := .backoff }
  | .error e => { s with phase := .ended (some e) }

def mainStep (w : RetryingWrapper) (s : State) : Stage → Answer → Option State
  | _, .raised e => some (s.leave (.error e))
  | .waitForSensorApi, .sensorApiReady => some (s.goto .getRootCaPubkey)
  | .getRootCaPubkey, .rootCa success =>
    some (if success then s.goto .getPrivateKeyAndCsr else s.leave (.error .taskError))
  | .getPrivateKeyAndCsr, .privateKey success key csr challenge =>
    if success then
      match item "url" challenge, item "token" challenge with
      | some (.string _), some _ => some (s.goto (.getSignedPublicKey key csr))
      | _, _ => some (s.leave (.error .other))
    else some (s.leave (.error .taskError))
  | .getSignedPublicKey privKey _, .publicKey success pubKey =>
    some (if success then s.goto (.writeKeys privKey pubKey) else s.leave (.error .taskError))
  | .writeKeys _ pubKey, .keysWritten =>
    some { s.goto (.registerSensor pubKey) with serving := true }
  | .registerSensor pubKey, .registration status pinned data =>
    if status = 200 then
      -- The API has stored the sensor, also where its certificate is not the pinned one.
      some (if pinned then s.record .registered |>.goto (.spawnTasks pubKey data)
        else s.record .registered |>.leave (.error .taskError))
    else some (s.leave (.error .taskError))
  | .spawnTasks pubKey regData, .spawned =>
    match item "kafka_bootstrap_hosts" regData, item "sensor_topic" regData,
        item "default_configuration" regData with
    | some _, some _, some (.string text) =>
      match w.loads text with
      | some configuration => some (s.record (.sensing configuration) |>.goto (.waitForStop pubKey))
      | none => some (s.leave (.error .other))
    | _, _, _ => some (s.leave (.error .other))
  | .waitForStop pubKey, .signal =>
    if w.stopperGiven then none else some (s.record .stopped |>.goto (.cancelRemaining pubKey))
  | .waitForStop pubKey, .notification =>
    if w.stopperGiven then some (s.record .stopped |>.goto (.cancelRemaining pubKey)) else none
  | .cancelRemaining pubKey, .remainingCancelled =>
    some { s.goto (.deregisterSensor pubKey) with serving := false }
  | .deregisterSensor _, .deregistration status => some (s.leave (.ok (status = 200)))
  | _, _ => none

def loopStep (w : RetryingWrapper) (s : State) : Label → Option State
  | .stopRetrying value => some { s with stopRetrying := value }
  | .observe configuration => if s.serving then some (s.record (.sensing configuration)) else none
  | .check =>
    match s.phase with
    | .check _ =>
      some (if s.stopRetrying then { s with phase := .ended none } else s.goto .waitForSensorApi)
    | _ => none
  | .main answer =>
    match s.phase with
    | .main stage => mainStep w s stage answer
    | _ => none
  | .left raised =>
    match s.phase with
    | .leaving outcome =>
      let s := { s with serving := false }
      match raised with
      | some e => some (finish s (.error e))
      | none => some (finish s outcome)
    | _ => none
  | .slept =>
    match s.phase with
    | .backoff => some { s with phase := .check false }
    | _ => none

def retryLoop (w : RetryingWrapper) : Machine State Label where
  initial := .initial
  step := loopStep w

/-- The sensor is registered, or its sensing methods are started. -/
def Act.Revives : Act → Prop
  | .registered | .sensing _ => True
  | .stopped | .returned _ => False

/-- After a run of `main` that stopped and deregistered, nothing is revived. -/
def Quiet (history : List Act) : Prop :=
  ∀ before after, history = before ++ .returned true :: after → ∀ act ∈ after, ¬ act.Revives

theorem Quiet.of_not_mem {history : List Act} (never : Act.returned true ∉ history) : Quiet history := by
  rintro before after rfl
  simp at never

theorem Quiet.snoc {history : List Act} {act : Act} (quiet : Quiet history)
    (new : Act.returned true ∈ history → ¬ act.Revives) : Quiet (history ++ [act]) := by
  intro before after split later member
  rcases Lists.snoc_eq_append_cons split with ⟨rfl, -⟩ | ⟨shorter, rfl, earlier⟩
  · obtain ⟨-, rfl⟩ := List.cons.inj (List.append_cancel_left split)
    cases member
  · rcases List.mem_append.mp member with member | member
    · exact quiet before shorter earlier later member
    · obtain rfl := List.mem_singleton.mp member
      exact new (by simp [earlier])

section Steps

variable {w : RetryingWrapper} {s t : State} {stage : Stage}

structure MainMoves (s t : State) : Prop where
  flag : t.stopRetrying = s.stopRetrying
  phase : (∃ next, t.phase = .main next) ∨ ∃ outcome, t.phase = .leaving outcome
  acts : ∃ acts, t.history = s.history ++ acts ∧ ∀ deregistered, Act.returned deregistered ∉ acts

theorem MainMoves.goto {next : Stage} : MainMoves s (s.goto next) :=
  ⟨rfl, .inl ⟨next, rfl⟩, [], (List.append_nil _).symm, nofun⟩

theorem MainMoves.raise {e : Raised} : MainMoves s (s.leave (.error e)) :=
  ⟨rfl, .inr ⟨_, rfl⟩, [], (List.append_nil _).symm, nofun⟩

theorem MainMoves.record (act : Act) (goes : ∀ deregistered, act ≠ .returned deregistered)
    (moves : MainMoves (s.record act) t) : MainMoves s t := by
  obtain ⟨acts, grown, unfinished⟩ := moves.acts
  refine ⟨moves.flag, moves.phase, act :: acts, by simpa [State.record] using grown, ?_⟩
  intro deregistered member
  rcases List.mem_cons.mp member with same | member
  · exact goes deregistered same.symm
  · exact unfinished deregistered member

theorem MainMoves.serve {serving : Bool} (moves : MainMoves s t) :
    MainMoves s { t with serving := serving } :=
  ⟨moves.flag, moves.phase, moves.acts⟩

theorem MainMoves.choose {first second : State} {c : Prop} [Decidable c]
    (yes : MainMoves s first) (no : MainMoves s second) :
    MainMoves s (if c then first else second) := by
  split
  · exact yes
  · exact no

theorem mainStep_moves {answer : Answer} (moved : mainStep w s stage answer = some t) :
    MainMoves s t := by
  unfold mainStep at moved
  split at moved
  case h_1 => exact Option.some.inj moved ▸ .raise
  case h_2 => exact Option.some.inj moved ▸ .goto
  case h_3 => exact Option.some.inj moved ▸ .choose .goto .raise
  case h_4 =>
    split at moved
    · split at moved
      · exact Option.some.inj moved ▸ .goto
      · exact Option.some.inj moved ▸ .raise
    · exact Option.some.inj moved ▸ .raise
  case h_5 => exact Option.some.inj moved ▸ .choose .goto .raise
  case h_6 => exact Option.some.inj moved ▸ .serve .goto
  case h_7 =>
    split at moved
    · exact Option.some.inj moved ▸ .choose (.record .registered nofun .goto)
        (.record .registered nofun .raise)
    · exact Option.some.inj moved ▸ .raise
  case h_8 =>
    split at moved
    · split at moved
      · exact Option.some.inj moved ▸ .record (.sensing _) nofun .goto
      · exact Option.some.inj moved ▸ .raise
    · exact Option.some.inj moved ▸ .raise
  case h_9 =>
    split at moved
    · cases moved
    · exact Option.some.inj moved ▸ .record .stopped nofun .goto
  case h_10 =>
    split at moved
    · exact Option.some.inj moved ▸ .record .stopped nofun .goto
    · cases moved
  case h_11 => exact Option.some.inj moved ▸ .serve .goto
  case h_12 =>
    obtain rfl := Option.some.inj moved
    exact ⟨rfl, .inr ⟨_, rfl⟩, [], (List.append_nil _).symm, nofun⟩
  case h_13 => cases moved

/-- What a step of the loop does, with the phase that it is taken in. -/
inductive LoopMoves (w : RetryingWrapper) (s : State) : Label → State → Prop
  | stopRetrying {value : Bool} :
    LoopMoves w s (.stopRetrying value) { s with stopRetrying := value }
  | observe {configuration : Json} (serving : s.serving = true) :
    LoopMoves w s (.observe configuration) (s.record (.sensing configuration))
  | done {shutDown : Bool} (phase : s.phase = .check shutDown) (flag : s.stopRetrying = true) :
    LoopMoves w s .check { s with phase := .ended none }
  | again {shutDown : Bool} (phase : s.phase = .check shutDown) (flag : s.stopRetrying = false) :
    LoopMoves w s .check (s.goto .waitForSensorApi)
  | main {stage : Stage} {answer : Answer} {t : State} (phase : s.phase = .main stage)
    (moved : mainStep w s stage answer = some t) : LoopMoves w s (.main answer) t
  | left {outcome : Except Raised Bool} {raised : Option Raised} (phase : s.phase = .leaving outcome) :
    LoopMoves w s (.left raised) (finish { s with serving := false } (raised.elim outcome .error))
  | slept (phase : s.phase = .backoff) : LoopMoves w s .slept { s with phase := .check false }

theorem loopStep_moves {label : Label} (moved : loopStep w s label = some t) :
    LoopMoves w s label t := by
  cases label <;> dsimp only [loopStep] at moved
  case stopRetrying => exact Option.some.inj moved ▸ .stopRetrying
  case observe =>
    split at moved
    · exact Option.some.inj moved ▸ .observe ‹_›
    · cases moved
  case check =>
    split at moved
    · split at moved
      · exact Option.some.inj moved ▸ .done ‹_› ‹_›
      · exact Option.some.inj moved ▸ .again ‹_› (Bool.eq_false_iff.mpr ‹_›)
    · cases moved
  case main =>
    split at moved
    · exact .main ‹_› moved
    · cases moved
  case left raised =>
    split at moved
    · cases raised with
      | none => exact Option.some.inj moved ▸ .left ‹_›
      | some e => exact Option.some.inj moved ▸ .left ‹_›
    · cases moved
  case slept =>
    split at moved
    · exact Option.some.inj moved ▸ .slept ‹_›
    · cases moved

end Steps

/-- Nothing is revived, and from the end of a run of `main` that deregistered on, the loop is about to
look at the flag or over. -/
structure Settled (s : State) : Prop where
  quiet : Quiet s.history
  finished : Act.returned true ∈ s.history →
    s.serving = false ∧ (s.phase = .check true ∨ ∃ raised, s.phase = .ended raised)

/-- The flag is set where the loop looks at it after `main` has stopped and deregistered. -/
def StopsRetrying (s : State) (label : Label) : Prop :=
  label = .check → s.phase = .check true → s.stopRetrying = true

theorem Settled.of_not_mem {s : State} (never : Act.returned true ∉ s.history) : Settled s :=
  ⟨.of_not_mem never, fun member => absurd member never⟩

theorem Settled.running {s : State} (settled : Settled s)
    (running : s.phase ≠ .check true ∧ ∀ raised, s.phase ≠ .ended raised) :
    Act.returned true ∉ s.history := by
  intro member
  rcases (settled.finished member).2 with check | ⟨raised, ended⟩
  · exact running.1 check
  · exact running.2 raised ended

theorem finish_settled {s : State} {outcome : Except Raised Bool} (serving : s.serving = false)
    (never : Act.returned true ∉ s.history) : Settled (finish s outcome) := by
  unfold finish
  split
  · refine ⟨(Quiet.of_not_mem never).snoc fun member => absurd member never, fun member => ?_⟩
    rcases List.mem_append.mp member with member | member
    · exact absurd member never
    · obtain rfl := (Act.returned.inj (List.mem_singleton.mp member)).symm
      exact ⟨serving, .inl rfl⟩
  · exact .of_not_mem never
  · exact .of_not_mem never

theorem loopStep_settled {w : RetryingWrapper} {s t : State} {label : Label} (settled : Settled s)
    (moved : loopStep w s label = some t) (stops : StopsRetrying s label) : Settled t := by
  cases loopStep_moves moved with
  | stopRetrying => exact ⟨settled.quiet, settled.finished⟩
  | observe serving =>
    have never : Act.returned true ∉ s.history := by
      intro member
      simp [(settled.finished member).1] at serving
    exact .of_not_mem (by simpa [State.record] using never)
  | done phase flag =>
    exact ⟨settled.quiet, fun member => ⟨(settled.finished member).1, .inr ⟨none, rfl⟩⟩⟩
  | again phase flag =>
    refine .of_not_mem fun member => ?_
    rcases (settled.finished member).2 with check | ⟨raised, ended⟩
    · exact Bool.false_ne_true (flag.symm.trans (stops rfl check))
    · exact nomatch phase.symm.trans ended
  | main phase moved =>
    obtain ⟨acts, grown, unfinished⟩ := (mainStep_moves moved).acts
    refine .of_not_mem ?_
    rw [grown, List.mem_append, not_or]
    exact ⟨settled.running (by simp [phase]), unfinished true⟩
  | left phase => exact finish_settled rfl (settled.running (by simp [phase]))
  | slept phase => exact .of_not_mem (settled.running (by simp [phase]))

variable {w : RetryingWrapper}

theorem returned_of_check {s : State} (reached : (retryLoop w).Reachable s)
    (phase : s.phase = .check true) : Act.returned true ∈ s.history := by
  refine (retryLoop w).invariant (motive := fun s => s.phase = .check true →
    Act.returned true ∈ s.history) nofun ?_ reached phase
  intro s label t _ ih moved phase
  cases loopStep_moves moved with
  | stopRetrying => exact ih phase
  | observe serving => exact List.mem_append_left _ (ih phase)
  | done | again | slept => cases phase
  | main _ moved =>
    rcases (mainStep_moves moved).phase with ⟨next, there⟩ | ⟨outcome, there⟩
    · exact nomatch there.symm.trans phase
    · exact nomatch there.symm.trans phase
  | @left outcome raised _ =>
    revert phase
    cases raised.elim outcome .error with
    | ok deregistered =>
      intro phase
      obtain rfl : deregistered = true := Phase.check.inj phase
      exact List.mem_append_right _ (List.mem_singleton_self _)
    | error e => cases e <;> exact nofun

/-- The awaits of `main` up to the registration, all of them answered well. -/
def registersAgain : List Label :=
  [.check, .main .sensorApiReady, .main (.rootCa true),
    .main (.privateKey true "key" "csr" (.object fun _ => some (.string "http://api/challenge"))),
    .main (.publicKey true "cert"), .main .keysWritten, .main (.registration 200 true .null)]

theorem runFrom_registersAgain {s : State} {shutDown : Bool} (phase : s.phase = .check shutDown)
    (flag : s.stopRetrying = false) :
    ∃ t, (retryLoop w).runFrom s registersAgain = some t ∧ t.history = s.history ++ [.registered] := by
  obtain ⟨_, _, serving, history⟩ := s
  obtain rfl := phase
  obtain rfl := flag
  exact ⟨_, rfl, rfl⟩

/-- A run in which the flag is set whenever the loop looks at it after a stop and a deregistration
revives nothing after them; and wherever the flag is not set there, the run can go on to register the
sensor once more. -/
theorem stopped_for_good (w : RetryingWrapper) :
    (∀ labels s, (retryLoop w).run labels = some s → (retryLoop w).Throughout StopsRetrying labels →
        Quiet s.history) ∧
      ∀ s, (retryLoop w).Reachable s → s.phase = .check true → s.stopRetrying = false →
        ∃ more t, (retryLoop w).runFrom s more = some t ∧ ¬ Quiet t.history := by
  constructor
  · intro labels s reached through
    have settled : Settled s := (retryLoop w).invariant_of_throughout
      (.of_not_mem (by simp [retryLoop, State.initial]))
      (fun _ _ _ settled moved stops => loopStep_settled settled moved stops) reached through
    exact settled.quiet
  · intro s reached phase flag
    obtain ⟨t, ran, history⟩ := runFrom_registersAgain (w := w) phase flag
    refine ⟨registersAgain, t, ran, fun quiet => ?_⟩
    obtain ⟨before, after, split⟩ := List.append_of_mem (returned_of_check reached phase)
    rw [history, split, List.append_assoc] at quiet
    exact quiet before (after ++ [.registered]) rfl .registered (by simp) trivial

def firstRun : List Label :=
  registersAgain.dropLast ++
    [.main (.registration 200 true (.object fun _ => some (.string "{}"))), .main .spawned,
      .main .signal, .main .remainingCancelled, .main (.deregistration 200), .left none]

-- A signal ends the first run of `main`, and the second registers the sensor again.
theorem registered_after_stop :
    ∃ s, (retryLoop ⟨⟨1, fun _ => some .null, false⟩, false⟩).run (firstRun ++ registersAgain) = some s ∧
      ¬ Quiet s.history := by
  refine ⟨_, rfl, fun quiet => ?_⟩
  exact quiet [.registered, .sensing .null, .stopped] [.registered] rfl .registered (by simp) trivial

end VirtueSensing.Wrapper.RetryLoop
