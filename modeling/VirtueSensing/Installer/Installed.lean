import VirtueSensing.Installer.KeyUse
import VirtueSensing.Shared.FilePlanFailures

set_option autoImplicit false

/-!
# What an installation leaves

Validation asks for files and keys. That the directories of a target do not cut into one another, that
nothing is installed twice, and the keys it forgets, are left to the installation, which has removed
the old directories by then.
-/

namespace VirtueSensing.Installer

open FileTree Attempt

def targetFolders (setup : Setup) : List Path :=
  (targetsLeft setup).flatMap fun target => target.directories.map target.folder

/-- What the definitions list for the folders of the targets, with the contents of the sources. -/
def listed (setup : Setup) (base : Tree) : List Entry := outcome base [] (plan setup)

structure Installed (setup : Setup) (base t : Tree) : Prop where
  inside : ∀ e ∈ listed setup base, Under (targetFolders setup) e.1
  listed : ∀ e ∈ Installer.listed setup base, e.2.Meets (t.node e.1)
  nothingElse : ∀ d ∈ targetFolders setup, ∀ p, d <+: p → t.node p ≠ none →
    ∃ e ∈ Installer.listed setup base, p <+: e.1

def InstallsAsListed (setup : Setup) (base : Tree) : Prop :=
  Accepted setup base →
    (∃ t : Tree, main setup base = (.ok (), t) ∧ Installed setup base t) ∧
      ∀ e (t : Tree), main setup base = (.error e, t) →
        ∀ p, base.node p = some .dir → t.node p = some .dir

/-- What validation leaves open of a plan that puts its files where they should be. -/
structure Ready (setup : Setup) (base : Tree) : Prop where
  keyed : Keyed setup
  wrapper : targetsLeft setup ≠ [] → ∀ file ∈ wrapperRequirements :: libFiles,
    base.HasFile (resolve setup.wrapperDir file)
  includes : ∀ target ∈ targetsLeft setup, ∀ name ∈ target.target.kernelModules,
    ∀ kmod ∈ found Kmod.name (kmodsLeft setup) name, ∀ incPath ∈ kmod.kernelModule.includes,
      base.node (resolve kmod.root incPath) = some .dir
  orderly : Orderly base (plan setup)

instance (setup : Setup) (base : Tree) : Decidable (Ready setup base) :=
  decidable_of_iff (_ ∧ (targetsLeft setup = [] ∨ _) ∧ _ ∧ _)
    ⟨fun ⟨a, b, c, d⟩ => ⟨a, fun some => b.resolve_left some, c, d⟩,
      fun ⟨a, b, c, d⟩ => ⟨a, Classical.or_iff_not_imp_left.mpr b, c, d⟩⟩

section

variable {setup : Setup} {base t : Tree}

theorem main_run (accepted : Accepted setup base) (keyed : Keyed setup) :
    main setup base = run (plan setup) base := by
  have sensors : includedSensors setup base = (.ok (sensorsLeft setup), base) := by
    refine included_ok setup.sensors (fun sensor member => ?_) accepted.sensors
    by_cases skipped : setup.skipSensors.contains sensor.name
    · exact ⟨_, look_of (keyed.sensorVersions sensor member skipped)⟩
    · have staying : sensor ∈ sensorsLeft setup := List.mem_filter.mpr ⟨member, by simpa using skipped⟩
      exact ⟨_, look_of (sensor_of_valid (accepted.sensors sensor staying)).version⟩
  have kmods : includedModules setup base = (.ok (kmodsLeft setup), base) := by
    refine included_ok setup.kmods (fun kmod member => ?_) accepted.kmods
    by_cases skipped : setup.skipModules.contains kmod.name
    · exact ⟨_, look_of (keyed.moduleVersions kmod member skipped)⟩
    · have staying : kmod ∈ kmodsLeft setup := List.mem_filter.mpr ⟨member, by simpa using skipped⟩
      exact ⟨_, look_of (kmod_of_valid (accepted.kmods kmod staying)).1⟩
  have targets : includedTargets setup (sensorsLeft setup) (kmodsLeft setup) base =
      (.ok (targetsLeft setup), base) :=
    included_ok setup.targets (fun target _ => ⟨_, rfl⟩) accepted.targets
  rw [main, bind_ok sensors, bind_ok kmods, bind_ok targets]
  refine congrFun (inTurn_run _ fun target member => ?_) base
  exact installSensorsInTarget_run setup accepted.sensors accepted.kmods
    (accepted.targets target member) (keyed.keys target member)

/-! Every source is there, and only the folders of the targets are made anew -/

def Fed (base : Tree) (step : Step) : Prop := folders step = [] ∧ Sourced base step

theorem fed_kernelModule {target : Target} {kmod : Kmod}
    (includes : ∀ incPath ∈ kmod.kernelModule.includes,
      base.node (resolve kmod.root incPath) = some .dir) :
    ∀ step ∈ planKernelModule target kmod, Fed base step := by
  intro step member
  obtain ⟨incPath, listed, rfl⟩ := List.mem_map.mp member
  exact ⟨rfl, includes incPath listed⟩

theorem fed_wrapper {target : Target} {wrapperDir : Path}
    (wrapper : ∀ file ∈ wrapperRequirements :: libFiles, base.HasFile (resolve wrapperDir file)) :
    ∀ step ∈ planSensorWrapper wrapperDir target, Fed base step := by
  intro step member
  rcases List.mem_append.mp member with first | last
  · rcases List.mem_append.mp first with made | file
    · obtain rfl := List.mem_singleton.mp made
      exact ⟨rfl, trivial⟩
    · obtain ⟨libFile, listed, rfl⟩ := List.mem_map.mp file
      exact ⟨rfl, wrapper libFile (List.mem_cons_of_mem _ listed)⟩
  · obtain rfl := List.mem_singleton.mp last
    exact ⟨rfl, wrapper wrapperRequirements List.mem_cons_self⟩

theorem fed_sensor {target : Target} {sensor : Sensor} (valid : Valid base sensor) :
    ∀ step ∈ planSensor target sensor, Fed base step := by
  intro step member
  simp only [planSensor, List.mem_append] at member
  rcases member with (((made | file) | sub) | startup) | requirement
  · obtain rfl := List.mem_singleton.mp made
    exact ⟨rfl, trivial⟩
  · obtain ⟨fileDef, listed, rfl⟩ := List.mem_map.mp file
    exact ⟨rfl, Tree.hasFile_of_isFile (valid.sources fileDef listed)⟩
  · obtain ⟨subDirectory, -, planned⟩ := List.mem_flatMap.mp sub
    rcases List.mem_pair.mp planned with rfl | rfl <;> exact ⟨rfl, trivial⟩
  · rw [planStartup] at startup
    split at startup
    · next some =>
      obtain rfl := List.mem_singleton.mp startup
      exact ⟨rfl, Tree.hasFile_of_isFile (valid.startup some)⟩
    · cases startup
  · obtain ⟨name, listed, rfl⟩ := List.mem_map.mp requirement
    exact ⟨rfl, Tree.hasFile_of_isFile (valid.requirements name listed)⟩

theorem fed_scripts {host : Host} {sensors : List Sensor} {kmods : List Kmod} {target : Target} :
    ∀ step ∈ planScripts host sensors kmods target, Fed base step := by
  intro step member
  simp only [planScripts, planAptGet, planText, List.mem_append, List.mem_cons, List.not_mem_nil,
    or_false] at member
  rcases member with (rfl | rfl | rfl | rfl | rfl | rfl) | apt
  any_goals exact ⟨rfl, trivial⟩
  split at apt
  · cases apt
  · obtain rfl := List.mem_singleton.mp apt
    exact ⟨rfl, trivial⟩

theorem fed_plan (accepted : Accepted setup base) (ready : Ready setup base) {step : Step}
    (member : step ∈ plan setup) :
    (∃ target ∈ targetsLeft setup, ∃ directory ∈ target.directories,
      step = .fresh target.root directory.value) ∨ Fed base step := by
  obtain ⟨target, staying, member⟩ := List.mem_flatMap.mp member
  simp only [planTarget, List.mem_append] at member
  rcases member with (((prep | kernel) | wrapper) | sensor) | script
  · obtain ⟨directory, own, rfl⟩ := List.mem_map.mp prep
    exact .inl ⟨target, staying, directory, own, rfl⟩
  · obtain ⟨name, wanted, member⟩ := List.mem_flatMap.mp kernel
    obtain ⟨kmod, here, member⟩ := List.mem_flatMap.mp member
    exact .inr (fed_kernelModule (ready.includes target staying name wanted kmod here) step member)
  · exact .inr (fed_wrapper (ready.wrapper (List.ne_nil_of_mem staying)) step wrapper)
  · obtain ⟨name, wanted, member⟩ := List.mem_flatMap.mp sensor
    obtain ⟨sensor, here, member⟩ := List.mem_flatMap.mp member
    have there : sensor ∈ sensorsLeft setup :=
      List.mem_reverse.mp (List.mem_of_find?_eq_some (Option.mem_toList.mp here))
    exact .inr (fed_sensor (sensor_of_valid (accepted.sensors sensor there)) step member)
  · exact .inr (fed_scripts step script)

theorem sourced_plan (accepted : Accepted setup base) (ready : Ready setup base) :
    ∀ step ∈ plan setup, Sourced base step := by
  intro step member
  rcases fed_plan accepted ready member with ⟨target, -, directory, -, rfl⟩ | fed
  · trivial
  · exact fed.2

theorem mem_folders (accepted : Accepted setup base) (ready : Ready setup base) {d : Path} :
    d ∈ foldersOf [] (plan setup) ↔ d ∈ targetFolders setup := by
  rw [mem_foldersOf, or_iff_left List.not_mem_nil]
  constructor
  · rintro ⟨step, member, new⟩
    rcases fed_plan accepted ready member with ⟨target, staying, directory, own, rfl⟩ | fed
    · obtain rfl := List.mem_singleton.mp new
      exact List.mem_flatMap.mpr ⟨target, staying, List.mem_map.mpr ⟨directory, own, rfl⟩⟩
    · rw [fed.1] at new
      cases new
  · intro listed
    obtain ⟨target, staying, listed⟩ := List.mem_flatMap.mp listed
    obtain ⟨directory, own, rfl⟩ := List.mem_map.mp listed
    refine ⟨.fresh target.root directory.value, ?_, List.mem_singleton_self _⟩
    refine List.mem_flatMap.mpr ⟨target, staying, ?_⟩
    simp only [planTarget, List.mem_append]
    exact .inl (.inl (.inl (.inl (List.mem_map.mpr ⟨directory, own, rfl⟩))))

/-! A plan that goes through has its sources -/

theorem wrapper_of_sourced (sourced : ∀ step ∈ plan setup, Sourced base step)
    (some : targetsLeft setup ≠ []) :
    ∀ file ∈ wrapperRequirements :: libFiles, base.HasFile (resolve setup.wrapperDir file) := by
  obtain ⟨target, staying⟩ := List.exists_mem_of_ne_nil _ some
  have planned : ∀ step ∈ planSensorWrapper setup.wrapperDir target, Sourced base step := by
    intro step member
    refine sourced step (List.mem_flatMap.mpr ⟨target, staying, ?_⟩)
    simp only [planTarget, List.mem_append]
    exact .inl (.inl (.inr member))
  simp only [planSensorWrapper, List.mem_append] at planned
  intro file member
  rcases List.mem_cons.mp member with rfl | libFile
  · exact planned _ (.inr (List.mem_singleton_self _))
  · exact planned _ (.inl (.inr (List.mem_map.mpr ⟨file, libFile, rfl⟩)))

theorem includes_of_sourced (sourced : ∀ step ∈ plan setup, Sourced base step) {target : Target}
    (staying : target ∈ targetsLeft setup) {name : Bytes} (wanted : name ∈ target.target.kernelModules)
    {kmod : Kmod} (here : kmod ∈ found Kmod.name (kmodsLeft setup) name) :
    ∀ incPath ∈ kmod.kernelModule.includes, base.node (resolve kmod.root incPath) = some .dir := by
  have planned : ∀ step ∈ planKernelModule target kmod, Sourced base step := by
    intro step member
    have own := List.mem_flatMap.mpr ⟨kmod, here, member⟩
    refine sourced step (List.mem_flatMap.mpr ⟨target, staying, ?_⟩)
    simp only [planTarget, List.mem_append]
    exact .inl (.inl (.inl (.inr (List.mem_flatMap.mpr ⟨name, wanted, own⟩))))
  intro incPath member
  exact planned _ (List.mem_map.mpr ⟨incPath, member, rfl⟩)

end

/-! One sensor and one module in one target -/

def anyHost : Host where
  listed t p := ((t.map Prod.fst).filterMap fun q =>
    if q ≠ [] ∧ q.dropLast = p then q.getLast? else none).eraseDups
  walked t p := ((t.map Prod.fst).filter fun q => p <+: q ∧ t.node q = some .dir).eraseDups
  collated := List.eraseDups

def psSensor : Sensor where
  root := [ascii "ps"]
  sensor :=
    { name := .text (ascii "ps-sensor")
      version := .text (ascii "1.0")
      targetFolder := .text (ascii "ps")
      files := [⟨ascii "sensor_ps.py", .text (ascii "sensor_ps.py")⟩]
      startupScript := ascii "run_ps.sh"
      requirementsFiles := [ascii "ps_requirements.txt"]
      requiredSubDirectories := .list [some (ascii "certs")]
      aptGet := .list [] }
  name := ascii "ps-sensor"

def psModule : Kmod where
  root := [ascii "kernel"]
  kernelModule :=
    { name := .text (ascii "kernel-ps")
      version := .text (ascii "2018-01-09")
      targetFolder := .text (ascii "kernel_ps")
      includes := [ascii "./"]
      install := [ascii "install.sh"]
      aptGet := .list [ascii "build-essential"] }
  name := ascii "kernel-ps"

def demoTarget (kernelModDirectory : Setting) : Target where
  root := [ascii "demo"]
  target :=
    { os := .text (ascii "Linux")
      sensorsDirectory := .text (ascii "./sensors")
      requirementsDirectory := .text (ascii "./requirements")
      startupScriptsDirectory := .text (ascii "./sensor_startup")
      libraryDirectory := .text (ascii "./sensor_libraries")
      kernelModDirectory := kernelModDirectory
      sensors := [ascii "ps-sensor"]
      kernelModules := [ascii "kernel-ps"] }
  name := ascii "demo"

def demo (kernelModDirectory : Setting) : Setup where
  host := anyHost
  wrapperDir := [ascii "wrapper"]
  sensors := [psSensor]
  kmods := [psModule]
  targets := [demoTarget kernelModDirectory]
  skipSensors := []
  skipModules := []
  skipTargets := []

-- The sensors of an installation before are still there.
def demoTree : Tree :=
  [([], .dir), ([ascii "ps"], .dir), ([ascii "ps", ascii "sensor_ps.py"], .file (ascii "ps")),
    ([ascii "ps", ascii "run_ps.sh"], .file (ascii "run")),
    ([ascii "ps", ascii "ps_requirements.txt"], .file []), ([ascii "kernel"], .dir),
    ([ascii "kernel", ascii "install.sh"], .file (ascii "make")), ([ascii "wrapper"], .dir),
    ([ascii "wrapper", ascii "sensor_wrapper.py"], .file (ascii "wrapper")),
    ([ascii "wrapper", ascii "setup.py"], .file (ascii "setup")),
    ([ascii "wrapper", ascii "sensor_wrapper_requirements.txt"], .file (ascii "curio")),
    ([ascii "demo"], .dir), ([ascii "demo", ascii "sensors"], .dir),
    ([ascii "demo", ascii "sensors", ascii "lsof"], .dir)]

theorem demoTree_closed : demoTree.Closed := .of_entries (by decide +kernel) (by decide +kernel)

theorem eq_of_fst {α β : Type} {x : α × β} {a : α} (first : x.1 = a) : x = (a, x.2) := by
  rw [← first]

end VirtueSensing.Installer
