import Mathlib.Algebra.Group.Nat.Defs
import Mathlib.Data.List.Forall2
import VirtueSensing.Driver.Probes

set_option autoImplicit false

/-!
# The commands that enable and disable probes

`ChangeProbeState` and `OnProtectionStateChange` of `WVUCommsManager`, with `FindProbeById`.
-/

namespace VirtueSensing.Driver

abbrev Uuid := BitVec 128

def zeroGuid : Uuid := 0

/-- A registered probe, with the answer of the system to the one call that a command makes for it. -/
structure Listed where
  probeId : Uuid
  probe : Probe
  answer : Bool
  deriving DecidableEq, Repr

/-- What differs between builds: whether `FLT_ASSERTMSG` evaluates its argument, and `LOG_MODULES`. -/
structure Build where
  assertEvaluates : Bool
  logModules : Nat
  deriving DecidableEq, Repr

-- The bits of `LOG_MODULES` in `config.h`: CTX, MAIN, CRYPTO, FLT_MGR, MAINTHREAD, CONTAINER, IOCTL
-- and NOTIFY_PROCESS.
def configuredModules : Nat :=
  2 ^ 2 + 2 ^ 3 + 2 ^ 4 + 2 ^ 6 + 2 ^ 11 + 2 ^ 12 + 2 ^ 13 + 2 ^ 19

-- Whether `WVU_DEBUG_PRINT(LOG_COMMS_MGR, ...)` evaluates what it prints.
def Build.logsCommsMgr (build : Build) : Bool :=
  build.logModules.testBit 7

inductive StateCommand where
  | enableProbe
  | disableProbe
  deriving DecidableEq, Repr

def changeProbeState (l : Listed) (command : StateCommand) : Probe × Bool :=
  if command = .disableProbe ∧ l.probe.enabled then l.probe.stop l.answer
  else if command = .enableProbe ∧ l.probe.enabled = false ∧ l.probe.enabledAtStart then
    l.probe.start l.answer
  else (l.probe, false)

-- The change is requested inside of the assertion, and a failed assertion goes on.
def assertChange (build : Build) (command : StateCommand) (l : Listed) : Listed :=
  if build.assertEvaluates then { l with probe := (changeProbeState l command).1 } else l

/-- `FindProbeById`, and what is done to the probe that was found. -/
def withProbeById (id : Uuid) (change : Listed → Listed) : List Listed → Option (List Listed)
  | [] => none
  | l :: rest =>
    if l.probeId = id then some (change l :: rest)
    else (withProbeById id change rest).map fun rest => l :: rest

inductive NtStatus where
  | success
  | notFound
  deriving DecidableEq, Repr

inductive CommandAnswer where
  | status (status : NtStatus) (probes : List Listed)
  -- The null `ProbeInfo` is used for its name.
  | nullDereference
  deriving DecidableEq, Repr

def onProtectionStateChange (build : Build) (command : StateCommand) (id : Uuid)
    (probes : List Listed) : CommandAnswer :=
  if id = zeroGuid then .status .success (probes.map (assertChange build command))
  else
    match withProbeById id (assertChange build command) probes with
    | some probes => .status .success probes
    | none => if build.logsCommsMgr then .nullDereference else .status .notFound probes

def StateCommand.wants : StateCommand → Bool
  | .enableProbe => true
  | .disableProbe => false

def Probe.working (p : Probe) : Bool :=
  match p.cls with
  | .processListValidation => p.enabled
  | _ => p.registrations ≠ 0

def Probe.inState (p : Probe) (command : StateCommand) : Bool :=
  p.enabled = command.wants ∧ p.working = command.wants

def addresses (id : Uuid) (l : Listed) : Bool :=
  id = zeroGuid ∨ l.probeId = id

structure Obeyed (build : Build) (command : StateCommand) (id : Uuid) (probes : List Listed) :
    Prop where
  success : ∀ after, onProtectionStateChange build command id probes = .status .success after →
    List.Forall₂ (fun l m => if addresses id l then m.probe.inState command else m = l) probes after
  unknown : id ≠ zeroGuid → (∀ l ∈ probes, l.probeId ≠ id) →
    ∃ after, onProtectionStateChange build command id probes = .status .notFound after

-- Whether `Stop` takes an enabled probe to its end, by class.
def Listed.stops (l : Listed) : Bool :=
  match l.probe.cls with
  | .imageLoad => l.answer ∧ l.probe.registrations = 1
  | .registryModification => l.answer ∧ l.probe.registrations = 1
  | .processCreate => l.probe.registrations = 0 ∨ l.answer ∧ l.probe.registrations = 1
  | .threadCreate => l.probe.registrations = 0
  | .processListValidation => true

/-- The probe is in the requested state already, or the build evaluates the assertion and the class
of the probe goes there. -/
def Listed.reaches (build : Build) (l : Listed) : StateCommand → Bool
  | .enableProbe =>
    if l.probe.enabled then l.probe.working
    else build.assertEvaluates ∧ l.probe.enabledAtStart ∧
      (l.probe.cls = .processListValidation ∨ l.answer)
  | .disableProbe =>
    if l.probe.enabled then build.assertEvaluates ∧ l.stops else !l.probe.working

/-- The first probe with the id reaches the state; a command leaves any other where it is. -/
def firstReaches (build : Build) (command : StateCommand) (id : Uuid) : List Listed → Bool
  | [] => true
  | l :: rest =>
    if l.probeId = id then
      l.reaches build command ∧ ∀ m ∈ rest, m.probeId = id → m.probe.inState command
    else firstReaches build command id rest

def Granted (build : Build) (command : StateCommand) (id : Uuid) (probes : List Listed) : Prop :=
  if id = zeroGuid then ∀ l ∈ probes, l.reaches build command
  else if ∃ l ∈ probes, l.probeId = id then firstReaches build command id probes
  else build.logsCommsMgr = false

theorem assertChange_inState (build : Build) (command : StateCommand) (l : Listed) :
    (assertChange build command l).probe.inState command = l.reaches build command := by
  obtain ⟨evaluates, modules⟩ := build
  obtain ⟨id, ⟨cls, enabledAtStart, enabled, registrations⟩, answer⟩ := l
  cases command <;> cases evaluates <;> cases enabled <;> cases enabledAtStart <;> cases answer <;>
    cases cls <;> rcases registrations with _ | _ | more <;> rfl

section Lists

variable {build : Build} {command : StateCommand} {id : Uuid}

theorem withProbeById_eq_none {change : Listed → Listed} {probes : List Listed} :
    withProbeById id change probes = none ↔ ∀ l ∈ probes, l.probeId ≠ id := by
  induction probes with
  | nil => simp [withProbeById]
  | cons l rest ih =>
    by_cases here : l.probeId = id
    · simp [withProbeById, here]
    · simp [withProbeById, here, ih]

theorem map_assertChange_iff (probes : List Listed) :
    List.Forall₂ (fun l m => if addresses zeroGuid l then m.probe.inState command else m = l)
        probes (probes.map (assertChange build command)) ↔
      ∀ l ∈ probes, l.reaches build command := by
  rw [List.forall₂_map_right_iff, List.forall₂_same]
  refine forall₂_congr fun l _ => ?_
  rw [if_pos (by simp [addresses]), assertChange_inState]

theorem forall₂_self_iff (other : id ≠ zeroGuid) (probes : List Listed) :
    List.Forall₂ (fun l m => if addresses id l then m.probe.inState command else m = l) probes probes ↔
      ∀ l ∈ probes, l.probeId = id → l.probe.inState command := by
  rw [List.forall₂_same]
  refine forall₂_congr fun l _ => ?_
  by_cases here : l.probeId = id
  · simp [addresses, here]
  · simp [addresses, here, other]

theorem withProbeById_iff (other : id ≠ zeroGuid) {probes after : List Listed}
    (found : withProbeById id (assertChange build command) probes = some after) :
    List.Forall₂ (fun l m => if addresses id l then m.probe.inState command else m = l) probes after ↔
      firstReaches build command id probes := by
  induction probes generalizing after with
  | nil => simp [withProbeById] at found
  | cons l rest ih =>
    by_cases here : l.probeId = id
    · obtain rfl : assertChange build command l :: rest = after := by
        simpa [withProbeById, here] using found
      rw [List.forall₂_cons, forall₂_self_iff other, if_pos (by simp [addresses, here]),
        assertChange_inState]
      simp [firstReaches, here]
    · obtain ⟨behind, later, rfl⟩ : ∃ behind,
          withProbeById id (assertChange build command) rest = some behind ∧ l :: behind = after := by
        simpa [withProbeById, here] using found
      rw [List.forall₂_cons, ih later, if_neg (by simp [addresses, here, other])]
      simp [firstReaches, here]

end Lists

/-- A command is obeyed exactly when every probe that it addresses reaches the requested state; an
unknown id is answered well exactly when the messages of the module are not logged. -/
theorem command_granted_iff (build : Build) (command : StateCommand) (id : Uuid)
    (probes : List Listed) :
    Obeyed build command id probes ↔ Granted build command id probes := by
  unfold Granted
  by_cases zero : id = zeroGuid
  · subst zero
    have answer : onProtectionStateChange build command zeroGuid probes =
        .status .success (probes.map (assertChange build command)) := if_pos rfl
    rw [if_pos rfl, ← map_assertChange_iff]
    constructor
    · intro obeyed
      exact obeyed.success _ answer
    · intro reached
      refine ⟨fun after success => ?_, fun other => absurd rfl other⟩
      rw [answer] at success
      obtain rfl := (CommandAnswer.status.inj success).2
      exact reached
  rw [if_neg zero]
  cases found : withProbeById id (assertChange build command) probes with
  | some after =>
    have answer : onProtectionStateChange build command id probes = .status .success after := by
      rw [onProtectionStateChange, if_neg zero, found]
    have known : ∃ l ∈ probes, l.probeId = id := by
      by_contra unknown
      push Not at unknown
      rw [withProbeById_eq_none.mpr unknown] at found
      cases found
    rw [if_pos known, ← withProbeById_iff zero found]
    constructor
    · intro obeyed
      exact obeyed.success after answer
    · intro reached
      refine ⟨fun others success => ?_, fun _ unknown => ?_⟩
      · rw [answer] at success
        obtain rfl := (CommandAnswer.status.inj success).2
        exact reached
      · obtain ⟨l, member, here⟩ := known
        exact absurd here (unknown l member)
  | none =>
    have unknown := withProbeById_eq_none.mp found
    have answer : onProtectionStateChange build command id probes =
        if build.logsCommsMgr then .nullDereference else .status .notFound probes := by
      rw [onProtectionStateChange, if_neg zero, found]
    rw [if_neg (by simpa using unknown)]
    cases logs : build.logsCommsMgr with
    | true =>
      rw [logs, if_pos rfl] at answer
      refine iff_of_false (fun obeyed => ?_) Bool.noConfusion
      obtain ⟨after, notFound⟩ := obeyed.unknown zero unknown
      rw [answer] at notFound
      cases notFound
    | false =>
      rw [logs, if_neg Bool.noConfusion] at answer
      refine iff_of_true ⟨fun after success => ?_, fun _ _ => ⟨probes, answer⟩⟩ rfl
      rw [answer] at success
      cases success

def freeBuild : Build := ⟨false, configuredModules⟩

def imageLoadListed : Listed := ⟨1, .construct .imageLoad, true⟩

-- The free build answers that it enabled all probes and enables none.
theorem free_build_changes_nothing :
    onProtectionStateChange freeBuild .enableProbe zeroGuid [imageLoadListed] =
        .status .success [imageLoadListed] ∧
      imageLoadListed.probe.enabled = false ∧
      ¬ Obeyed freeBuild .enableProbe zeroGuid [imageLoadListed] := by
  have answer : onProtectionStateChange freeBuild .enableProbe zeroGuid [imageLoadListed] =
      .status .success [imageLoadListed] := rfl
  refine ⟨answer, rfl, fun obeyed => ?_⟩
  have changed := obeyed.success _ answer
  rw [List.forall₂_cons] at changed
  exact absurd changed.1 (by decide)

end VirtueSensing.Driver
