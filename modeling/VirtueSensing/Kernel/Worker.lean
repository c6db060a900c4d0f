import Mathlib.Algebra.Group.Nat.Defs
import Mathlib.Tactic.Common
import VirtueSensing.Kernel.Sensor
import VirtueSensing.Shared.Machine

set_option autoImplicit false

/-!
# The worker of a kernel sensor

`run_kps_probe` and `run_klsof_probe` against the commands of `process_state_message`. The worker
changes `repeat` outside the lock of its sensor, so a command may fall between any two of its reads
and writes.
-/

namespace VirtueSensing.Kernel

inductive Probe where
  | kps
  | klsof
  deriving DecidableEq, Repr

inductive Phase where
  | idle
  | queued
  -- From the entry of the function to `repeat--`.
  | probing
  -- `repeat--` has read the count and has not yet written it.
  | decrementing (loaded : Int)
  | testing
  -- The loop variable of the sleep.
  | sleeping (i : Int)
  | requeueing
  | returning
  deriving DecidableEq, Repr

structure Worker where
  sensor : Sensor
  phase : Phase
  shouldShutdown : Bool
  -- The later of the on and off commands processed so far, if any, was on.
  switchedOn : Bool
  deriving DecidableEq, Repr

inductive WorkerLabel where
  | command (cmd : Command)
  -- The next step of the worker; the flag says whether a probe answers `-EAGAIN`.
  | advance (again : Bool)
  | shutdown
  deriving DecidableEq, Repr

namespace Worker

-- The count is a C int, and the kernel is built with wrapping signed arithmetic.
def decremented (n : Int) : Int :=
  (n - 1).bmod (2 ^ 32)

def advance (probe : Probe) (w : Worker) (again : Bool) : Option Phase :=
  match w.phase with
  | .idle => none
  | .queued => some .probing
  | .probing =>
    if probe = .kps ∧ again then some .probing else some (.decrementing w.sensor.repeatCount)
  | .decrementing _ => some .testing
  | .testing =>
    if 0 < w.sensor.repeatCount ∧ !w.shouldShutdown then some (.sleeping 0) else some .returning
  | .sleeping i =>
    if i < w.sensor.timeout ∧ !w.shouldShutdown then some (.sleeping (i + 1))
    else some .requeueing
  | .requeueing => if w.shouldShutdown then some .returning else some .queued
  | .returning => some .idle

-- The one write of the worker.
def store (w : Worker) : Sensor :=
  match w.phase with
  | .decrementing loaded => { w.sensor with repeatCount := decremented loaded }
  | _ => w.sensor

def switched (before : Bool) : Command → Bool
  | .on => true
  | .off => false
  | _ => before

def step (probe : Probe) (w : Worker) : WorkerLabel → Option Worker
  | .command cmd =>
    some { w with
      sensor := (processStateMessage w.sensor cmd).1
      switchedOn := switched w.switchedOn cmd }
  | .advance again =>
    (w.advance probe again).map fun next => { w with phase := next, sensor := w.store }
  | .shutdown => some { w with shouldShutdown := true }

/-- A sensor just registered: its work is queued and no command has been processed. -/
def machine (probe : Probe) (sensor : Sensor) : Machine Worker WorkerLabel where
  initial := { sensor, phase := .queued, shouldShutdown := false, switchedOn := false }
  step := step probe

def RunningOrQueued (w : Worker) : Prop :=
  w.phase ≠ .idle

instance (w : Worker) : Decidable w.RunningOrQueued :=
  inferInstanceAs (Decidable (_ ≠ _))

-- The count the worker has gone on from leaves a further run of its probe.
def Repeats (w : Worker) : Prop :=
  match w.phase with
  | .idle | .returning => False
  | .decrementing loaded => 0 < decremented loaded
  | .testing => 0 < w.sensor.repeatCount
  | .queued | .probing | .sleeping _ | .requeueing => True

theorem Repeats.runningOrQueued {w : Worker} (repeats : w.Repeats) : w.RunningOrQueued := by
  intro idle
  simp [Repeats, idle] at repeats

/-- The worker will still read the count that an on command stores now. -/
def Listens (w : Worker) : Prop :=
  match w.phase with
  | .idle | .returning => False
  | .decrementing loaded => 0 < decremented loaded
  | .queued | .probing | .testing | .sleeping _ | .requeueing => True

instance (w : Worker) : Decidable w.Listens :=
  match phase : w.phase with
  | .idle | .returning => .isFalse (by simp [Listens, phase])
  | .decrementing loaded => decidable_of_iff (0 < decremented loaded) (by simp [Listens, phase])
  | .queued | .probing | .testing | .sleeping _ | .requeueing =>
    .isTrue (by simp [Listens, phase])

/-- An on command falls where the worker will read its count, and the worker of a sensor that is on
has not used that count up. -/
def InTime (w : Worker) : WorkerLabel → Prop
  | .command cmd => cmd = .on → w.Listens
  | .advance _ => w.switchedOn ∧ w.phase = .probing → 0 < decremented w.sensor.repeatCount
  | .shutdown => True

instance (w : Worker) : (label : WorkerLabel) → Decidable (w.InTime label)
  | .command cmd => inferInstanceAs (Decidable (cmd = .on → w.Listens))
  | .advance _ => inferInstanceAs (Decidable (_ ∧ _ → _))
  | .shutdown => .isTrue trivial

theorem processStateMessage_repeatCount (s : Sensor) {cmd : Command} (noOff : cmd ≠ .off)
    (noOn : cmd ≠ .on) : (processStateMessage s cmd).1.repeatCount = s.repeatCount := by
  cases cmd <;> simp_all [processStateMessage, Sensor.lowNewState, Sensor.defaultNewState,
    Sensor.highNewState, Sensor.adversarialNewState, Sensor.newState] <;> grind

-- What a sensor that is on owes, while no shutdown is requested.
def Sustained (w : Worker) : Prop :=
  w.shouldShutdown = false ∧ (w.switchedOn → w.Repeats)

theorem command_sustained (probe : Probe) {w t : Worker} {cmd : Command} (sustained : w.Sustained)
    (inTime : w.InTime (.command cmd)) (moved : w.step probe (.command cmd) = some t) :
    t.Sustained := by
  obtain rfl := Option.some.inj moved
  refine ⟨sustained.1, ?_⟩
  by_cases on : cmd = .on
  next =>
    -- The count stored is the largest, so only a store still to come can undo it.
    subst on
    intro _
    have listens := inTime rfl
    cases phase : w.phase <;>
      simp_all [Listens, Repeats, processStateMessage, intMax]
  by_cases off : cmd = .off
  next =>
    simp [off, switched]
  next =>
    have unchanged : switched w.switchedOn cmd = w.switchedOn := by
      cases cmd <;> simp_all [switched]
    have count := processStateMessage_repeatCount w.sensor off on
    intro switchedOn
    have repeats := sustained.2 (unchanged ▸ switchedOn)
    simpa only [Repeats, count] using repeats

theorem advance_sustained (probe : Probe) {w t : Worker} {again : Bool} (sustained : w.Sustained)
    (inTime : w.InTime (.advance again)) (moved : w.step probe (.advance again) = some t) :
    t.Sustained := by
  obtain ⟨next, advanced, rfl⟩ := Option.map_eq_some_iff.mp moved
  obtain ⟨noShutdown, repeats⟩ := sustained
  refine ⟨noShutdown, fun switchedOn => ?_⟩
  replace repeats := repeats switchedOn
  cases phase : w.phase with
  | idle => simp [Repeats, phase] at repeats
  | returning => simp [Repeats, phase] at repeats
  | probing =>
    have left := inTime ⟨switchedOn, phase⟩
    simp only [advance, phase] at advanced
    split at advanced
    all_goals
      obtain rfl := Option.some.inj advanced
      simp [Repeats, left]
  | decrementing loaded =>
    obtain rfl : Phase.testing = next := by simpa [advance, phase] using advanced
    simpa [Repeats, store, phase] using repeats
  | testing =>
    have positive : 0 < w.sensor.repeatCount := by simpa [Repeats, phase] using repeats
    obtain rfl : Phase.sleeping 0 = next := by
      simpa [advance, phase, positive, noShutdown] using advanced
    simp [Repeats]
  | sleeping i =>
    simp only [advance, phase] at advanced
    split at advanced
    all_goals
      obtain rfl := Option.some.inj advanced
      simp [Repeats]
  | queued =>
    obtain rfl : Phase.probing = next := by simpa [advance, phase] using advanced
    simp [Repeats]
  | requeueing =>
    obtain rfl : Phase.queued = next := by
      simpa [advance, phase, noShutdown] using advanced
    simp [Repeats]

theorem run_sustained (probe : Probe) (sensor : Sensor) (labels : List WorkerLabel) (w : Worker)
    (reached : (machine probe sensor).run labels = some w) (noShutdown : .shutdown ∉ labels)
    (inTime : (machine probe sensor).Throughout InTime labels) : w.Sustained := by
  refine (machine probe sensor).run_induction (motive := fun labels w => .shutdown ∉ labels →
    (machine probe sensor).Throughout InTime labels → w.Sustained) ?_ ?_ labels w reached
    noShutdown inTime
  · intro _ _
    simp [machine, Sustained]
  · intro labels label s t before ih moved noShutdown inTime
    rw [(machine probe sensor).throughout_snoc InTime before] at inTime
    have sustained := ih (by simp_all) inTime.1
    cases label with
    | command cmd => exact command_sustained probe sustained inTime.2 moved
    | advance again => exact advance_sustained probe sustained inTime.2 moved
    | shutdown => simp at noShutdown

/-- A sensor that was switched on in time is being probed or will be, whatever the interleaving. -/
theorem switched_on_running_or_queued (probe : Probe) (sensor : Sensor) (labels : List WorkerLabel)
    (w : Worker) (reached : (machine probe sensor).run labels = some w)
    (noShutdown : .shutdown ∉ labels)
    (inTime : (machine probe sensor).Throughout InTime labels) (on : w.switchedOn = true) :
    w.RunningOrQueued :=
  ((run_sustained probe sensor labels w reached noShutdown inTime).2 on).runningOrQueued

-- `kernel-ps` as its module parameters leave it.
def psSensor : Sensor :=
  { name := ascii "kernel-ps", uuid := List.replicate 16 0, state := 0, timeout := 1
    repeatCount := 1 }

def onWhileQueued : List WorkerLabel :=
  [.command .off, .command .on, .advance false, .advance true, .command .low, .advance false,
    .advance false, .advance false]

theorem on_while_queued_running :
    ∃ w, (machine .kps psSensor).run onWhileQueued = some w ∧ w.switchedOn = true ∧
      w.RunningOrQueued := by
  have reached : (machine .kps psSensor).run onWhileQueued =
      some { sensor := { psSensor with state := 6, timeout := 3600, repeatCount := 2147483646 }
             phase := .sleeping 0, shouldShutdown := false, switchedOn := true } := by
    decide +kernel
  exact ⟨_, reached, rfl, switched_on_running_or_queued .kps psSensor onWhileQueued _ reached
    (by decide) ((machine .kps psSensor).throughout_of_follows InTime (by decide +kernel)) rfl⟩

-- The worker finishes its cycle before the sensor is switched on again.
def onWhileIdle : List WorkerLabel :=
  [.command .off, .advance false, .advance false, .advance false, .advance false, .advance false,
    .command .on]

theorem on_while_idle_not_queued :
    ¬ ∀ (probe : Probe) (sensor : Sensor) (labels : List WorkerLabel) (w : Worker),
      (machine probe sensor).run labels = some w → .shutdown ∉ labels → w.switchedOn = true →
        w.RunningOrQueued := by
  intro always
  have reached : (machine .kps psSensor).run onWhileIdle =
      some { sensor := { psSensor with repeatCount := intMax }
             phase := .idle, shouldShutdown := false, switchedOn := true } := by
    decide +kernel
  exact always .kps psSensor onWhileIdle _ reached (by decide) rfl rfl

end Worker

end VirtueSensing.Kernel
