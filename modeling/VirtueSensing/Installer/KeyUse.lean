import VirtueSensing.Installer.Plans

set_option autoImplicit false

/-!
# The keys an installation needs

An installation that goes through has found every key that its plan is made of.
-/

namespace VirtueSensing.Installer

open FileTree Attempt

/-- The keys that validation does not ask for, or not where an item is skipped. -/
structure Keyed (setup : Setup) : Prop where
  sensorVersions : ∀ sensor ∈ setup.sensors, setup.skipSensors.contains sensor.name →
    sensor.sensor.version.isMissing = false
  moduleVersions : ∀ kmod ∈ setup.kmods, setup.skipModules.contains kmod.name →
    kmod.kernelModule.version.isMissing = false
  keys : ∀ target ∈ targetsLeft setup, target.Complete (sensorsLeft setup) (kmodsLeft setup)

instance (setup : Setup) : Decidable (Keyed setup) :=
  decidable_of_iff (_ ∧ _ ∧ _) ⟨fun ⟨a, b, c⟩ => ⟨a, b, c⟩, fun ⟨a, b, c⟩ => ⟨a, b, c⟩⟩

/-! What goes through somewhere -/

def Can {α : Type} (attempt : Attempt Tree Failure α) : Prop := ∃ t, Passes attempt t

section

variable {α β : Type} {rest : α → Attempt Tree Failure β}

theorem Can.given_bind {result : Except Failure α} (can : Can (given result >>= rest)) :
    ∃ a, result = .ok a ∧ Can (rest a) := by
  obtain ⟨t, b, u, passed⟩ := can
  obtain ⟨a, v, found, after⟩ := bind_eq_ok.mp passed
  exact ⟨a, (Prod.mk.inj found).1, v, b, u, after⟩

theorem Can.both {x : Attempt Tree Failure α} {y : Attempt Tree Failure β}
    (can : Can (x >>= fun _ => y)) : Can x ∧ Can y := by
  obtain ⟨t, b, u, passed⟩ := can
  obtain ⟨a, v, first, after⟩ := bind_eq_ok.mp passed
  exact ⟨⟨t, a, v, first⟩, v, b, u, after⟩

theorem Can.inTurn {f : α → Action} {items : List α} (can : Can (inTurn f items)) :
    ∀ a ∈ items, Can (f a) := by
  induction items with
  | nil => exact fun _ member => absurd member List.not_mem_nil
  | cons b others ih =>
    rw [inTurn_cons] at can
    obtain ⟨first, after⟩ := can.both
    intro a member
    rcases List.mem_cons.mp member with rfl | later
    · exact first
    · exact ih after a later

end

theorem isText_of_path {setting : Setting} {value : Bytes} (path : setting.path = .ok value) :
    setting.IsText := by
  cases setting with
  | missing => cases path
  | other printed => cases path
  | text value => rfl

theorem not_missing_of_look {setting found : Setting} (looked : setting.look = .ok found) :
    setting.isMissing = false := by
  cases setting with
  | missing => cases looked
  | other printed => rfl
  | text value => rfl

theorem index_of_mem {α : Type} {name : α → Bytes} {items : List α} {key : Bytes} {a : α}
    (here : a ∈ found name items key) : index name items key = .ok a := by
  rw [index, Option.mem_toList.mp here]

/-! The functions of the installer -/

section

variable {target : Target}

theorem directories_of_can (can : Can (prepTarget target)) :
    ∀ directory ∈ target.directories, directory.IsText := by
  intro directory member
  obtain ⟨dir, path, -⟩ := (can.inTurn directory member).given_bind
  exact isText_of_path path

theorem kmod_of_can {kmod : Kmod} (can : Can (installKernelModule target kmod)) :
    kmod.kernelModule.targetFolder.IsText := by
  obtain ⟨_, -, can⟩ := can.given_bind
  obtain ⟨_, -, can⟩ := can.given_bind
  obtain ⟨_, path, -⟩ := can.given_bind
  exact isText_of_path path

theorem sensor_of_can {sensor : Sensor} (can : Can (installSensor target sensor)) :
    sensor.Complete := by
  obtain ⟨_, -, can⟩ := can.given_bind
  obtain ⟨_, -, can⟩ := can.given_bind
  obtain ⟨_, -, can⟩ := can.given_bind
  obtain ⟨_, -, can⟩ := can.given_bind
  obtain ⟨_, folder, can⟩ := can.given_bind
  obtain ⟨-, can⟩ := can.both
  obtain ⟨files, can⟩ := can.both
  obtain ⟨subDirectories, items, can⟩ := can.given_bind
  obtain ⟨made, -⟩ := can.both
  refine ⟨isText_of_path folder, fun file member => ?_, fun sub member => ?_⟩
  · obtain ⟨_, path, -⟩ := (files.inTurn file member).given_bind
    exact isText_of_path path
  · cases listing : sensor.sensor.requiredSubDirectories with
    | missing => rw [listing] at items; cases items
    | other => rw [listing] at items; cases items
    | list listed =>
      rw [listing] at items member
      obtain rfl : listed = subDirectories := Except.ok.inj items
      obtain ⟨_, join, -⟩ := (made.inTurn sub member).given_bind
      cases sub with
      | none => cases join
      | some text => rfl

theorem complete_of_can {setup : Setup} {sensors : List Sensor} {kmods : List Kmod}
    (can : Can (installSensorsInTarget setup sensors kmods target)) : target.Complete sensors kmods := by
  obtain ⟨prep, can⟩ := can.both
  obtain ⟨modules, can⟩ := can.both
  obtain ⟨-, can⟩ := can.both
  obtain ⟨installed, -⟩ := can.both
  refine ⟨directories_of_can prep, fun name member sensor here => ?_, fun name member kmod here => ?_⟩
  · obtain ⟨found, indexed, can⟩ := (installed.inTurn name member).given_bind
    obtain rfl : sensor = found := Except.ok.inj ((index_of_mem here).symm.trans indexed)
    exact sensor_of_can can
  · obtain ⟨found, indexed, can⟩ := (modules.inTurn name member).given_bind
    obtain rfl : kmod = found := Except.ok.inj ((index_of_mem here).symm.trans indexed)
    exact kmod_of_can can

end

theorem included_passed {α : Type} {name : α → Bytes} {skip : List Bytes}
    {printed : α → Except Failure Setting} {errors : Tree → α → List Bytes} {items others : List α}
    {t u : Tree} (passed : included name skip printed errors items t = (.ok others, u)) :
    (∀ a ∈ items, ∃ setting, printed a = .ok setting) ∧ others = left name skip items := by
  induction items generalizing others u with
  | nil =>
    obtain ⟨same, -⟩ := Prod.mk.inj passed
    exact ⟨fun _ member => absurd member List.not_mem_nil, (Except.ok.inj same).symm⟩
  | cons a rest ih =>
    rw [included] at passed
    cases printing : printed a with
    | error e =>
      rw [printing] at passed
      cases passed
    | ok setting =>
      have shown : (∀ b ∈ rest, ∃ setting, printed b = .ok setting) →
          ∀ b ∈ a :: rest, ∃ setting, printed b = .ok setting := by
        intro later b member
        rcases List.mem_cons.mp member with rfl | member
        · exact ⟨setting, printing⟩
        · exact later b member
      rw [printing] at passed
      by_cases skipped : skip.contains (name a)
      · obtain ⟨later, same⟩ := ih ((if_pos skipped).symm.trans passed)
        refine ⟨shown later, same.trans ?_⟩
        exact (List.filter_cons_of_neg (by simpa using skipped)).symm
      · replace passed := (if_neg skipped).symm.trans passed
        by_cases valid : errors t a ≠ []
        · cases (if_pos valid).symm.trans passed
        · replace passed := (if_neg valid).symm.trans passed
          obtain ⟨found, v, before, same⟩ := bind_eq_ok.mp passed
          obtain ⟨later, others⟩ := ih before
          obtain ⟨same, -⟩ := Prod.mk.inj same
          refine ⟨shown later, (Except.ok.inj same).symm.trans ?_⟩
          rw [others]
          exact (List.filter_cons_of_pos (by simpa using skipped)).symm

theorem keyed_of_main {setup : Setup} {base t : Tree} (ran : main setup base = (.ok (), t)) :
    Keyed setup := by
  obtain ⟨sensors, u, first, ran⟩ := bind_eq_ok.mp ran
  obtain ⟨kmods, v, second, ran⟩ := bind_eq_ok.mp ran
  obtain ⟨targets, w, third, ran⟩ := bind_eq_ok.mp ran
  obtain ⟨sensorsPrinted, rfl⟩ := included_passed first
  obtain ⟨kmodsPrinted, rfl⟩ := included_passed second
  obtain ⟨-, rfl⟩ := included_passed third
  have can : Can (inTurn (installSensorsInTarget setup (sensorsLeft setup) (kmodsLeft setup))
      (targetsLeft setup)) := ⟨w, (), t, ran⟩
  refine ⟨fun sensor member _ => ?_, fun kmod member _ => ?_, fun target member => ?_⟩
  · obtain ⟨setting, looked⟩ := sensorsPrinted sensor member
    exact not_missing_of_look looked
  · obtain ⟨setting, looked⟩ := kmodsPrinted kmod member
    exact not_missing_of_look looked
  · exact complete_of_can (can.inTurn target member)

end VirtueSensing.Installer
