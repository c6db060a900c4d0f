import Mathlib.Tactic.Common
import VirtueSensing.Shared.Machine

set_option autoImplicit false

/-!
# Starting and stopping the probes of the Windows driver

`Start` and `Stop` of the five concrete probes over the checks of `AbstractVirtueProbe`. The answer
of the operating system to a registration or deregistration is an argument.
-/

namespace VirtueSensing.Driver

inductive ProbeClass where
  | imageLoad
  | processCreate
  | threadCreate
  | processListValidation
  | registryModification
  deriving DecidableEq, Repr

structure Probe where
  cls : ProbeClass
  -- The bit `EnabledAtStart` of `Attributes`.
  enabledAtStart : Bool
  enabled : Bool
  -- How many times the system holds the callback of the probe.
  registrations : Nat
  deriving DecidableEq, Repr

namespace Probe

-- Every concrete constructor sets `EnabledAtStart`.
def construct (cls : ProbeClass) : Probe := ⟨cls, true, false, 0⟩

def register (p : Probe) (answer : Bool) : Probe × Bool :=
  if answer then ({ p with registrations := p.registrations + 1 }, true) else (p, false)

-- A callback that is not registered is not found, so that its removal fails.
def deregister (p : Probe) (answer : Bool) : Probe × Bool :=
  if answer ∧ p.registrations ≠ 0 then ({ p with registrations := p.registrations - 1 }, true)
  else (p, false)

def abstractStart (p : Probe) : Bool :=
  if p.enabled then false else p.enabledAtStart

-- A probe that is disabled already is not an error.
def abstractStop (_ : Probe) : Bool := true

-- `ImageLoadProbe` and `RegistryModificationProbe`, over `PsSetLoadImageNotifyRoutine` and
-- `CmRegisterCallbackEx`.
def startCallback (p : Probe) (answer : Bool) : Probe × Bool :=
  if p.abstractStart then
    let (p, status) := p.register answer
    if status then ({ p with enabled := true }, true) else (p, false)
  else (p, false)

def stopCallback (p : Probe) (answer : Bool) : Probe × Bool :=
  if p.abstractStop then
    let (p, status) := p.deregister answer
    if status then ({ p with enabled := false }, true) else (p, false)
  else (p, false)

def startProcessCreate (p : Probe) (answer : Bool) : Probe × Bool :=
  let (p, status) := if p.abstractStart then p.register answer else (p, false)
  ({ p with enabled := status }, status)

def stopProcessCreate (p : Probe) (answer : Bool) : Probe × Bool :=
  if p.abstractStop then { p with enabled := false }.deregister answer else (p, true)

-- The flag is returned, also where the base class refuses.
def startThreadCreate (p : Probe) (answer : Bool) : Probe × Bool :=
  if p.abstractStart then
    let (p, status) := p.register answer
    ({ p with enabled := status }, status)
  else (p, p.enabled)

def stopThreadCreate (p : Probe) (answer : Bool) : Probe × Bool :=
  if p.abstractStop then
    let (p, status) := p.deregister answer
    ({ p with enabled := status }, status)
  else (p, p.enabled)

def startProcessListValidation (p : Probe) : Probe × Bool :=
  ({ p with enabled := p.abstractStart }, p.abstractStart)

def stopProcessListValidation (p : Probe) : Probe × Bool :=
  if p.abstractStop then ({ p with enabled := false }, true) else (p, true)

def start (p : Probe) (answer : Bool) : Probe × Bool :=
  match p.cls with
  | .imageLoad => p.startCallback answer
  | .processCreate => p.startProcessCreate answer
  | .threadCreate => p.startThreadCreate answer
  | .processListValidation => p.startProcessListValidation
  | .registryModification => p.startCallback answer

def stop (p : Probe) (answer : Bool) : Probe × Bool :=
  match p.cls with
  | .imageLoad => p.stopCallback answer
  | .processCreate => p.stopProcessCreate answer
  | .threadCreate => p.stopThreadCreate answer
  | .processListValidation => p.stopProcessListValidation
  | .registryModification => p.stopCallback answer

end Probe

inductive ProbeCall where
  | start
  | stop
  deriving DecidableEq, Repr

def Probe.call (p : Probe) : ProbeCall → Bool → Probe × Bool
  | .start, answer => p.start answer
  | .stop, answer => p.stop answer

/-- A probe with its last call and what that returned. -/
structure Used where
  probe : Probe
  last : Option (ProbeCall × Bool)
  deriving DecidableEq, Repr

def probeMachine (cls : ProbeClass) : Machine Used (ProbeCall × Bool) where
  initial := ⟨.construct cls, none⟩
  step s label :=
    let (probe, returned) := s.probe.call label.1 label.2
    some ⟨probe, some (label.1, returned)⟩

/-- Whether the probe does its work: `ProcessListValidation` has no callback and works once it was
started. -/
def Used.working (s : Used) : Bool :=
  match s.probe.cls with
  | .processListValidation => s.last.any fun call => call.1 = .start
  | _ => s.probe.registrations ≠ 0

@[mk_iff]
structure Truthful (s : Used) : Prop where
  enabled : s.probe.enabled = s.working
  once : s.probe.registrations ≤ 1
  returned : ∀ call result, s.last = some (call, result) →
    (result = true ↔ s.probe.enabled = decide (call = .start))

/-- The calls that a class handles: no start while enabled and no stop while disabled, but for what
the bodies do with their flag and their result. -/
def ProbeClass.handles (cls : ProbeClass) (call : ProbeCall) (enabled answer : Bool) : Bool :=
  match cls, call with
  | .imageLoad, .start => !enabled
  | .imageLoad, .stop => enabled
  | .registryModification, .start => !enabled
  | .registryModification, .stop => enabled
  | .processCreate, .start => !enabled
  -- The flag is cleared before the callback is removed.
  | .processCreate, .stop => enabled && answer
  | .threadCreate, .start => true
  -- The flag is set when the callback was removed.
  | .threadCreate, .stop => false
  | .processListValidation, .start => !enabled
  | .processListValidation, .stop => true

def Handled (s : Used) (label : ProbeCall × Bool) : Prop :=
  s.probe.cls.handles label.1 s.probe.enabled label.2 = true

theorem call_enabledAtStart (p : Probe) (call : ProbeCall) (answer : Bool) :
    (p.call call answer).1.enabledAtStart = p.enabledAtStart := by
  obtain ⟨cls, enabledAtStart, enabled, registrations⟩ := p
  cases call <;> cases cls <;> cases enabledAtStart <;> cases enabled <;> cases answer <;>
    cases registrations <;> rfl

theorem call_truthful_iff {cls : ProbeClass} {enabled : Bool} {registrations : Nat}
    {last : Option (ProbeCall × Bool)} (truthful : Truthful ⟨⟨cls, true, enabled, registrations⟩, last⟩)
    (call : ProbeCall) (answer : Bool) :
    Truthful ⟨(Probe.call ⟨cls, true, enabled, registrations⟩ call answer).1,
        some (call, (Probe.call ⟨cls, true, enabled, registrations⟩ call answer).2)⟩ ↔
      cls.handles call enabled answer = true := by
  obtain ⟨flag, once, -⟩ := truthful
  have few : registrations = 0 ∨ registrations = 1 := by
    simp only at once
    omega
  rw [truthful_iff]
  -- What is left is a table: the class, its flag with the count that goes with it, and the call.
  cases cls <;> rcases few with rfl | rfl <;> cases enabled <;> simp [Used.working] at flag <;>
    cases call <;> cases answer <;>
    simp [Probe.call, Probe.start, Probe.stop, Probe.startCallback, Probe.stopCallback,
      Probe.startProcessCreate, Probe.stopProcessCreate, Probe.startThreadCreate,
      Probe.stopThreadCreate, Probe.startProcessListValidation, Probe.stopProcessListValidation,
      Probe.abstractStart, Probe.abstractStop, Probe.register, Probe.deregister, Used.working,
      ProbeClass.handles]

section Runs

variable {cls : ProbeClass}

theorem probeMachine_step (s : Used) (label : ProbeCall × Bool) :
    (probeMachine cls).step s label =
      some ⟨(s.probe.call label.1 label.2).1, some (label.1, (s.probe.call label.1 label.2).2)⟩ :=
  rfl

theorem probeMachine_runs (labels : List (ProbeCall × Bool)) :
    ∃ s, (probeMachine cls).run labels = some s := by
  induction labels using List.reverseRecOn with
  | nil => exact ⟨_, rfl⟩
  | append_singleton labels label ih =>
    obtain ⟨s, reached⟩ := ih
    exact ⟨_, by rw [(probeMachine cls).run_snoc, reached]; rfl⟩

theorem step_enabledAtStart {s t : Used} {label : ProbeCall × Bool}
    (moved : (probeMachine cls).step s label = some t) :
    t.probe.enabledAtStart = s.probe.enabledAtStart := by
  rw [probeMachine_step] at moved
  obtain rfl := Option.some.inj moved
  exact call_enabledAtStart s.probe label.1 label.2

theorem step_truthful_iff {s t : Used} {label : ProbeCall × Bool} (truthful : Truthful s)
    (attributes : s.probe.enabledAtStart = true)
    (moved : (probeMachine cls).step s label = some t) : Truthful t ↔ Handled s label := by
  rw [probeMachine_step] at moved
  obtain rfl := Option.some.inj moved
  obtain ⟨⟨cls, enabledAtStart, enabled, registrations⟩, last⟩ := s
  obtain rfl : enabledAtStart = true := attributes
  exact call_truthful_iff truthful label.1 label.2

end Runs

/-- Along a run of calls the flag tells whether the probe works, no callback is registered twice and
every call returns whether it had its effect, exactly when every call is one that the class
handles. -/
theorem probe_truthful_iff (cls : ProbeClass) (labels : List (ProbeCall × Bool)) :
    (∀ first s, first <+: labels → (probeMachine cls).run first = some s → Truthful s) ↔
      (probeMachine cls).Throughout Handled labels := by
  obtain ⟨last, reached⟩ := @probeMachine_runs cls labels
  refine (probeMachine cls).along_iff_of_invariant
    (fun s => Truthful s ∧ s.probe.enabledAtStart = true) ?_ (fun s inv => inv.1) ?_ ?_ reached
  · exact ⟨⟨by cases cls <;> rfl, by cases cls <;> decide, fun call result none => nomatch none⟩, rfl⟩
  · intro s label t inv moved handled
    exact ⟨(step_truthful_iff inv.1 inv.2 moved).mpr handled,
      (step_enabledAtStart moved).trans inv.2⟩
  · intro s label t inv moved truthful
    exact (step_truthful_iff inv.1 inv.2 moved).mp truthful

-- A stop of the thread probe removes the callback and reports the probe as enabled.
theorem stopped_thread_probe_enabled :
    ∃ s, (probeMachine .threadCreate).run [(.start, true), (.stop, true)] = some s ∧
      s.probe.enabled = true ∧ s.probe.registrations = 0 ∧ ¬ Truthful s := by
  refine ⟨_, rfl, rfl, rfl, fun truthful => ?_⟩
  exact absurd truthful.enabled (by decide)

end VirtueSensing.Driver
