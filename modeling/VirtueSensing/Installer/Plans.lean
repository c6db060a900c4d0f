import VirtueSensing.Installer.Installation

set_option autoImplicit false

/-!
# The plan of an installation

Where no key is missing, the installer goes through a list of file operations that its definitions fix.
-/

namespace VirtueSensing.Installer

open FileTree Attempt

def Setting.value : Setting → Bytes
  | .text value => value
  | _ => []

def Setting.IsText (setting : Setting) : Prop := setting = .text setting.value

instance (setting : Setting) : Decidable setting.IsText :=
  inferInstanceAs (Decidable (setting = .text setting.value))

def Listing.listed {α : Type} : Listing α → List α
  | .list items => items
  | _ => []

def found {α : Type} (name : α → Bytes) (items : List α) (key : Bytes) : List α :=
  (items.reverse.find? fun a => name a = key).toList

namespace Target

def directories (target : Target) : List Setting :=
  [target.target.sensorsDirectory, target.target.requirementsDirectory,
    target.target.startupScriptsDirectory, target.target.libraryDirectory,
    target.target.kernelModDirectory]

def folder (target : Target) (directory : Setting) : Path := resolve target.root directory.value

def sensorsDir (target : Target) : Path := target.folder target.target.sensorsDirectory
def reqsDir (target : Target) : Path := target.folder target.target.requirementsDirectory
def runDir (target : Target) : Path := target.folder target.target.startupScriptsDirectory
def libDir (target : Target) : Path := target.folder target.target.libraryDirectory
def kmodDir (target : Target) : Path := target.folder target.target.kernelModDirectory

def windows (target : Target) : Bool := target.target.os = .text (ascii "Windows")

end Target

def planPrep (target : Target) : List Step :=
  target.directories.map fun directory => .fresh target.root directory.value

def planKernelModule (target : Target) (kmod : Kmod) : List Step :=
  let kmodRootDir := resolve target.kmodDir kmod.kernelModule.targetFolder.value
  kmod.kernelModule.includes.map fun incPath =>
    .copytree (resolve kmod.root incPath) (resolve kmodRootDir incPath)

def planSensorWrapper (wrapperDir : Path) (target : Target) : List Step :=
  let wrapperDestDir := resolve target.libDir (ascii "sensor_wrapper")
  [.makedirs wrapperDestDir] ++
    (libFiles.map fun libFile => .copy (resolve wrapperDir libFile) (resolve wrapperDestDir libFile)) ++
    [.copy (resolve wrapperDir wrapperRequirements) (resolve target.reqsDir wrapperRequirements)]

def planSubDirectory (sensorDestDir : Path) (subDirectory : Option Bytes) : List Step :=
  let runSubDir := subDirectory.getD []
  [.makedirs (resolve sensorDestDir runSubDir),
    .write sensorDestDir runSubDir (ascii ".empty") (.fixed (ascii "\n"))]

def planStartup (target : Target) (sensor : Sensor) : List Step :=
  let script := sensor.sensor.startupScript
  if script ≠ [] then [.copy (resolve sensor.root script) (resolve target.runDir script)] else []

def planSensor (target : Target) (sensor : Sensor) : List Step :=
  let sensorDestDir := resolve target.sensorsDir sensor.sensor.targetFolder.value
  [.makedirs sensorDestDir] ++
    (sensor.sensor.files.map fun file =>
      .copy (resolve sensor.root file.source) (resolve sensorDestDir file.dest.value)) ++
    sensor.sensor.requiredSubDirectories.listed.flatMap (planSubDirectory sensorDestDir) ++
    planStartup target sensor ++
    sensor.sensor.requirementsFiles.map fun file =>
      .copy (resolve sensor.root file) (resolve target.reqsDir file)

def planText (dir : Path) (name : Name) (contents : Tree → Bytes) : Step :=
  .write dir (ascii ".") name (.made contents)

def kmodSteps (kmods : List Kmod) (target : Target) (reqKmod : Bytes) : Bytes :=
  (found Kmod.name kmods reqKmod).flatMap fun kmod =>
    let modDir := resolve target.kmodDir kmod.kernelModule.targetFolder.value
    kmod.kernelModule.install.flatMap (buildStep (shellOf target.target.os) target.kmodDir modDir)

def sensorLibs (sensors : List Sensor) (name : Bytes) : List Bytes :=
  (found Sensor.name sensors name).flatMap fun sensor => sensor.sensor.aptGet.listed

def kmodLibs (kmods : List Kmod) (name : Bytes) : List Bytes :=
  (found Kmod.name kmods name).flatMap fun kmod => kmod.kernelModule.aptGet.listed

def planAptGet (host : Host) (sensors : List Sensor) (kmods : List Kmod) (target : Target) : List Step :=
  if target.windows then []
  else
    [planText target.libDir (ascii "apt_get_install.sh") fun _ =>
      aptGetText (host.collated
        (target.target.sensors.flatMap (sensorLibs sensors) ++
          target.target.kernelModules.flatMap (kmodLibs kmods)))]

def planScripts (host : Host) (sensors : List Sensor) (kmods : List Kmod) (target : Target) :
    List Step :=
  [.listdir target.reqsDir,
    planText target.reqsDir (ascii "requirements_master.txt") (requirementsText host target.reqsDir),
    planText target.libDir (installScript target.windows) (supportLibraryText host target.libDir),
    planText target.kmodDir (installScript target.windows) fun _ =>
      kernelModuleText target.target.os (target.target.kernelModules.map (kmodSteps kmods target)),
    .listdir target.runDir,
    planText target.runDir (ascii "run_sensors.sh") (startupText host target.runDir)] ++
  planAptGet host sensors kmods target

def planTarget (setup : Setup) (sensors : List Sensor) (kmods : List Kmod) (target : Target) :
    List Step :=
  planPrep target ++
    (target.target.kernelModules.flatMap fun name =>
      (found Kmod.name kmods name).flatMap (planKernelModule target)) ++
    planSensorWrapper setup.wrapperDir target ++
    (target.target.sensors.flatMap fun name =>
      (found Sensor.name sensors name).flatMap (planSensor target)) ++
    planScripts setup.host sensors kmods target

def left {α : Type} (name : α → Bytes) (skip : List Bytes) (items : List α) : List α :=
  items.filter fun a => !skip.contains (name a)

def sensorsLeft (setup : Setup) : List Sensor := left Sensor.name setup.skipSensors setup.sensors
def kmodsLeft (setup : Setup) : List Kmod := left Kmod.name setup.skipModules setup.kmods
def targetsLeft (setup : Setup) : List Target := left Target.name setup.skipTargets setup.targets

def plan (setup : Setup) : List Step :=
  (targetsLeft setup).flatMap (planTarget setup (sensorsLeft setup) (kmodsLeft setup))

theorem given_bind {α β : Type} (a : α) (rest : α → Attempt Tree Failure β) :
    (given (.ok a) >>= rest) = rest a := rfl

theorem run_single (step : Step) : run [step] = exec step := by
  funext t
  rw [run, Attempt.next]
  cases exec step t with
  | mk result u => cases result <;> rfl

theorem then_run {x y : Action} {p q : List Step} (first : x = run p) (second : y = run q) :
    (x >>= fun _ => y) = run (p ++ q) := by
  rw [run_append, first, second]
  rfl

theorem inTurn_cons {α : Type} (f : α → Action) (a : α) (rest : List α) :
    inTurn f (a :: rest) = (f a >>= fun _ => inTurn f rest) := by
  funext t
  show Attempt.next (Attempt.next (f a) _) _ t = Attempt.next (f a) _ t
  unfold Attempt.next
  cases f a t with
  | mk result u =>
    cases result with
    | error e => rfl
    | ok done =>
      show Attempt.next (Attempt.next (each f rest) _) _ u = Attempt.next (each f rest) _ u
      unfold Attempt.next
      cases each f rest u with
      | mk result v => cases result <;> rfl

theorem inTurn_run {α : Type} {f : α → Action} {plan : α → List Step} (items : List α)
    (same : ∀ a ∈ items, f a = run (plan a)) : inTurn f items = run (items.flatMap plan) := by
  induction items with
  | nil => rfl
  | cons a rest ih =>
    rw [inTurn_cons, List.flatMap_cons]
    exact then_run (same a List.mem_cons_self) (ih fun b member => same b (List.mem_cons_of_mem a member))

theorem inTurn_map {α : Type} {f : α → Action} {step : α → Step} (items : List α)
    (same : ∀ a ∈ items, f a = exec (step a)) : inTurn f items = run (items.map step) := by
  rw [List.map_eq_flatMap]
  exact inTurn_run items fun a member => (same a member).trans (run_single _).symm

theorem each_given {α β : Type} {g : α → Except Failure β} (value : α → β) (items : List α)
    (same : ∀ a ∈ items, g a = .ok (value a)) :
    each (fun a => given (g a)) items = (given (.ok (items.map value)) : Attempt Tree Failure _) := by
  induction items with
  | nil => rfl
  | cons a rest ih =>
    rw [each, same a List.mem_cons_self, given_bind,
      ih fun b member => same b (List.mem_cons_of_mem a member)]
    rfl

theorem writeText_run (dir : Path) (name : Name) (contents : Tree → Bytes)
    (simple : resolve dir name = dir ++ [name]) :
    writeText (resolve dir name) contents = run [planText dir name contents] := by
  have here : resolve dir (ascii ".") = dir := rfl
  have stop : stops dir (ascii ".") = [dir] := rfl
  rw [run_single, simple]
  funext t
  show writeText (dir ++ [name]) contents t = write dir (ascii ".") name (.made contents) t
  rw [write, writeText, Tree.lookup, Tree.reached, here, stop, List.all_cons, List.all_nil, Bool.and_true]
  by_cases there : t.node dir = some .dir
  · rw [if_pos (by simpa using there)]
    rfl
  · rw [if_neg (by simp [there])]
    have parent : (dir ++ [name]).dropLast = dir := List.dropLast_concat
    exact if_neg fun both => there (parent ▸ both.1)

/-! Looking up what is there -/

theorem Setting.IsText.path {setting : Setting} (text : setting.IsText) :
    setting.path = .ok setting.value := by
  rw [text]
  rfl

theorem look_of {setting : Setting} (there : setting.isMissing = false) :
    setting.look = .ok setting := by
  cases setting with
  | missing => cases there
  | other printed => rfl
  | text value => rfl

theorem items_of {α : Type} {listing : Listing α} (list : listing.isList) :
    listing.items = .ok listing.listed := by
  cases listing with
  | missing => cases list
  | other => cases list
  | list items => rfl

theorem index_found {α : Type} {name : α → Bytes} {items : List α} {key : Bytes}
    (any : items.any fun a => name a = key) :
    ∃ a ∈ items, found name items key = [a] ∧ index name items key = .ok a := by
  obtain ⟨a, member, same⟩ := List.any_eq_true.mp any
  cases result : items.reverse.find? fun a => name a = key with
  | none => exact absurd same (List.find?_eq_none.mp result a (List.mem_reverse.mpr member))
  | some b =>
    refine ⟨b, List.mem_reverse.mp (List.mem_of_find?_eq_some result), ?_, ?_⟩
    · rw [found, result]
      rfl
    · rw [index, result]

theorem isWindows_of {target : Target} (there : target.target.os.isMissing = false) :
    isWindows target = .ok target.windows := by
  rw [isWindows, look_of there]
  rfl

theorem installScript_simple (dir : Path) (windows : Bool) :
    resolve dir (installScript windows) = dir ++ [installScript windows] := by
  cases windows <;> rfl

/-! The functions of the installer -/

section

variable {target : Target} (texts : ∀ directory ∈ target.directories, directory.IsText)
include texts

theorem prepTarget_run : prepTarget target = run (planPrep target) := by
  refine inTurn_map target.directories fun directory member => ?_
  rw [(texts directory member).path, given_bind]
  rfl

theorem sensors_path : target.target.sensorsDirectory.path = .ok target.target.sensorsDirectory.value :=
  (texts _ (by simp [Target.directories])).path

theorem requirements_path :
    target.target.requirementsDirectory.path = .ok target.target.requirementsDirectory.value :=
  (texts _ (by simp [Target.directories])).path

theorem startup_path :
    target.target.startupScriptsDirectory.path = .ok target.target.startupScriptsDirectory.value :=
  (texts _ (by simp [Target.directories])).path

theorem library_path : target.target.libraryDirectory.path = .ok target.target.libraryDirectory.value :=
  (texts _ (by simp [Target.directories])).path

theorem kernelMod_path :
    target.target.kernelModDirectory.path = .ok target.target.kernelModDirectory.value :=
  (texts _ (by simp [Target.directories])).path

theorem installKernelModule_run {kmod : Kmod} (version : kmod.kernelModule.version.isMissing = false)
    (folder : kmod.kernelModule.targetFolder.IsText) :
    installKernelModule target kmod = run (planKernelModule target kmod) := by
  rw [installKernelModule, kernelMod_path texts, given_bind, look_of version, given_bind, folder.path,
    given_bind]
  exact inTurn_map _ fun _ _ => rfl

theorem installSensorWrapper_run (wrapperDir : Path) :
    installSensorWrapper wrapperDir target = run (planSensorWrapper wrapperDir target) := by
  rw [installSensorWrapper, requirements_path texts, given_bind, library_path texts, given_bind,
    planSensorWrapper, List.append_assoc]
  refine then_run (run_single (.makedirs _)).symm (then_run ?_ (run_single (.copy _ _)).symm)
  exact inTurn_map _ fun _ _ => rfl

theorem installSensor_run {sensor : Sensor} (version : sensor.sensor.version.isMissing = false)
    (folder : sensor.sensor.targetFolder.IsText) (dests : ∀ file ∈ sensor.sensor.files, file.dest.IsText)
    (list : sensor.sensor.requiredSubDirectories.isList)
    (subTexts : ∀ sub ∈ sensor.sensor.requiredSubDirectories.listed, sub.isSome) :
    installSensor target sensor = run (planSensor target sensor) := by
  rw [installSensor, sensors_path texts, given_bind, requirements_path texts, given_bind,
    startup_path texts, given_bind, look_of version, given_bind, folder.path, given_bind,
    planSensor, List.append_assoc, List.append_assoc, List.append_assoc]
  refine then_run (run_single (.makedirs _)).symm (then_run ?_ ?_)
  · refine inTurn_map _ fun file member => ?_
    rw [copyFile, (dests file member).path, given_bind]
    rfl
  · rw [items_of list, given_bind]
    refine then_run ?_ (then_run ?_ (inTurn_map _ fun _ _ => rfl))
    · refine inTurn_run _ fun sub member => ?_
      obtain ⟨runSubDir, rfl⟩ := Option.isSome_iff_exists.mp (subTexts sub member)
      rw [makeSubDirectory, joined, given_bind]
      exact then_run (run_single (.makedirs _)).symm (run_single (.write _ _ _ _)).symm
    · rw [planStartup, copyStartupScript]
      split
      · exact (run_single (.copy _ _)).symm
      · rfl

theorem createRequirementsMaster_run (host : Host) :
    createRequirementsMaster host target = run [.listdir target.reqsDir,
      planText target.reqsDir (ascii "requirements_master.txt")
        (requirementsText host target.reqsDir)] := by
  rw [createRequirementsMaster, requirements_path texts, given_bind]
  exact then_run (run_single (.listdir _)).symm (writeText_run _ _ _ rfl)

variable (os : target.target.os.isMissing = false)
include os

theorem createSupportLibraryInstallScript_run (host : Host) :
    createSupportLibraryInstallScript host target =
      run [planText target.libDir (installScript target.windows)
        (supportLibraryText host target.libDir)] := by
  rw [createSupportLibraryInstallScript, library_path texts, given_bind, isWindows_of os, given_bind]
  exact writeText_run _ _ _ (installScript_simple _ _)

theorem createKernelModuleInstallScript_run {kmods : List Kmod}
    (names : ∀ name ∈ target.target.kernelModules, kmods.any fun kmod => kmod.name = name)
    (folders : ∀ name ∈ target.target.kernelModules, ∀ kmod ∈ found Kmod.name kmods name,
      kmod.kernelModule.targetFolder.IsText) :
    createKernelModuleInstallScript kmods target =
      run [planText target.kmodDir (installScript target.windows) fun _ =>
        kernelModuleText target.target.os (target.target.kernelModules.map (kmodSteps kmods target))] := by
  rw [createKernelModuleInstallScript, kernelMod_path texts, given_bind, isWindows_of os, given_bind,
    each_given (kmodSteps kmods target), given_bind]
  · exact writeText_run _ _ _ (installScript_simple _ _)
  · intro name member
    obtain ⟨kmod, -, here, indexed⟩ := index_found (names name member)
    have folder := folders name member kmod (by simp [here])
    rw [buildSteps, indexed, Except.ok_bind, folder.path, Except.ok_bind, kmodSteps, here]
    simp
    rfl

omit os in
theorem createSensorStartupMaster_run (host : Host) :
    createSensorStartupMaster host target = run [.listdir target.runDir,
      planText target.runDir (ascii "run_sensors.sh") (startupText host target.runDir)] := by
  rw [createSensorStartupMaster, startup_path texts, given_bind]
  exact then_run (run_single (.listdir _)).symm (writeText_run _ _ _ rfl)

theorem createAptGetScript_run (host : Host) {sensors : List Sensor} {kmods : List Kmod}
    (sensorNames : ∀ name ∈ target.target.sensors, sensors.any fun sensor => sensor.name = name)
    (kmodNames : ∀ name ∈ target.target.kernelModules, kmods.any fun kmod => kmod.name = name)
    (sensorLists : ∀ sensor ∈ sensors, sensor.sensor.aptGet.isList)
    (kmodLists : ∀ kmod ∈ kmods, kmod.kernelModule.aptGet.isList) :
    createAptGetScript host sensors kmods target = run (planAptGet host sensors kmods target) := by
  rw [createAptGetScript, isWindows_of os, given_bind, planAptGet]
  split
  · rfl
  · rw [library_path texts, given_bind, each_given (sensorLibs sensors), given_bind,
      each_given (kmodLibs kmods), given_bind]
    · exact writeText_run _ _ _ rfl
    · intro name member
      obtain ⟨kmod, listed, here, indexed⟩ := index_found (kmodNames name member)
      rw [indexed, Except.ok_bind, items_of (kmodLists kmod listed), kmodLibs, here]
      simp
    · intro name member
      obtain ⟨sensor, listed, here, indexed⟩ := index_found (sensorNames name member)
      rw [indexed, Except.ok_bind, items_of (sensorLists sensor listed), sensorLibs, here]
      simp

end

/-- What validation does not ask for: the keys that are used have texts. -/
structure Sensor.Complete (sensor : Sensor) : Prop where
  targetFolder : sensor.sensor.targetFolder.IsText
  dests : ∀ file ∈ sensor.sensor.files, file.dest.IsText
  subDirectories : ∀ sub ∈ sensor.sensor.requiredSubDirectories.listed, sub.isSome

structure Target.Complete (sensors : List Sensor) (kmods : List Kmod) (target : Target) : Prop where
  directories : ∀ directory ∈ target.directories, directory.IsText
  sensors : ∀ name ∈ target.target.sensors, ∀ sensor ∈ found Sensor.name sensors name, sensor.Complete
  kmods : ∀ name ∈ target.target.kernelModules, ∀ kmod ∈ found Kmod.name kmods name,
    kmod.kernelModule.targetFolder.IsText

instance (sensor : Sensor) : Decidable sensor.Complete :=
  decidable_of_iff (_ ∧ _ ∧ _) ⟨fun ⟨a, b, c⟩ => ⟨a, b, c⟩, fun ⟨a, b, c⟩ => ⟨a, b, c⟩⟩

instance (sensors : List Sensor) (kmods : List Kmod) (target : Target) :
    Decidable (target.Complete sensors kmods) :=
  decidable_of_iff (_ ∧ _ ∧ _) ⟨fun ⟨a, b, c⟩ => ⟨a, b, c⟩, fun ⟨a, b, c⟩ => ⟨a, b, c⟩⟩

structure Accepted (setup : Setup) (t : Tree) : Prop where
  sensors : ∀ sensor ∈ sensorsLeft setup, validateSensor t sensor = []
  kmods : ∀ kmod ∈ kmodsLeft setup, validateKmod t kmod = []
  targets : ∀ target ∈ targetsLeft setup,
    validateTarget (sensorsLeft setup) (kmodsLeft setup) target = []

instance (setup : Setup) (t : Tree) : Decidable (Accepted setup t) :=
  decidable_of_iff (_ ∧ _ ∧ _) ⟨fun ⟨a, b, c⟩ => ⟨a, b, c⟩, fun ⟨a, b, c⟩ => ⟨a, b, c⟩⟩

section

variable {t : Tree} {sensors : List Sensor} {kmods : List Kmod} {target : Target}

theorem os_of_valid (valid : validateTarget sensors kmods target = []) :
    target.target.os.isMissing = false := by
  simp only [validateTarget, List.append_eq_nil_iff, List.map_eq_nil_iff, List.filter_eq_nil_iff] at valid
  simpa using valid.2 ("os", target.target.os) (by simp)

theorem sensors_of_valid (valid : validateTarget sensors kmods target = []) :
    ∀ name ∈ target.target.sensors, sensors.any fun sensor => sensor.name = name := by
  simp only [validateTarget, List.append_eq_nil_iff, List.map_eq_nil_iff, List.filter_eq_nil_iff] at valid
  intro name member
  simpa using valid.1.1.2 name member

theorem kmods_of_valid (valid : validateTarget sensors kmods target = []) :
    ∀ name ∈ target.target.kernelModules, kmods.any fun kmod => kmod.name = name := by
  simp only [validateTarget, List.append_eq_nil_iff, List.map_eq_nil_iff, List.filter_eq_nil_iff] at valid
  intro name member
  simpa using valid.1.2 name member

theorem kmod_of_valid {kmod : Kmod} (valid : validateKmod t kmod = []) :
    kmod.kernelModule.version.isMissing = false ∧ kmod.kernelModule.aptGet.isList = true := by
  simp only [validateKmod, List.append_eq_nil_iff, List.map_eq_nil_iff, List.filter_eq_nil_iff] at valid
  constructor
  · simpa using valid.1.2 ("version", kmod.kernelModule.version.isMissing) (by simp)
  · simpa using valid.2

theorem isList_of_errors {α : Type} {listing : Listing α} {absent other : Bytes}
    (none : (if listing.isMissing then [absent] else if listing.isList then [] else [other]) = []) :
    listing.isList = true := by
  cases listing with
  | missing => simp [Listing.isMissing] at none
  | other => simp [Listing.isMissing, Listing.isList] at none
  | list items => rfl

structure Valid (t : Tree) (sensor : Sensor) : Prop where
  version : sensor.sensor.version.isMissing = false
  aptGet : sensor.sensor.aptGet.isList = true
  subDirectories : sensor.sensor.requiredSubDirectories.isList = true
  startup : sensor.sensor.startupScript ≠ [] → t.isFile sensor.root sensor.sensor.startupScript = true
  requirements : ∀ file ∈ sensor.sensor.requirementsFiles, t.isFile sensor.root file = true
  sources : ∀ file ∈ sensor.sensor.files, t.isFile sensor.root file.source = true

theorem sensor_of_valid {sensor : Sensor} (valid : validateSensor t sensor = []) : Valid t sensor := by
  simp only [validateSensor, List.append_eq_nil_iff, List.map_eq_nil_iff, List.filter_eq_nil_iff,
    List.flatMap_cons, List.flatMap_nil, and_true] at valid
  obtain ⟨⟨⟨⟨startup, requirements⟩, sources⟩, lists⟩, keys⟩ := valid
  constructor
  · simpa using keys ("version", sensor.sensor.version) (by simp)
  · exact isList_of_errors lists.2
  · exact isList_of_errors lists.1
  · intro some
    by_contra absent
    simp [some, absent] at startup
  · intro file member
    simpa using requirements file member
  · intro file member
    simpa using sources file member

theorem installSensorsInTarget_run (setup : Setup)
    (validSensors : ∀ sensor ∈ sensors, validateSensor t sensor = [])
    (validKmods : ∀ kmod ∈ kmods, validateKmod t kmod = [])
    (valid : validateTarget sensors kmods target = []) (complete : target.Complete sensors kmods) :
    installSensorsInTarget setup sensors kmods target = run (planTarget setup sensors kmods target) := by
  have texts := complete.directories
  have os := os_of_valid valid
  have sensorNames := sensors_of_valid valid
  have kmodNames := kmods_of_valid valid
  rw [installSensorsInTarget, planTarget, List.append_assoc, List.append_assoc, List.append_assoc]
  refine then_run (prepTarget_run texts) (then_run ?_ (then_run (installSensorWrapper_run texts _)
    (then_run ?_ ?_)))
  · refine inTurn_run _ fun name member => ?_
    obtain ⟨kmod, listed, here, indexed⟩ := index_found (kmodNames name member)
    have folder := complete.kmods name member kmod (by simp [here])
    rw [indexed, given_bind, here, List.flatMap_singleton]
    exact installKernelModule_run texts (kmod_of_valid (validKmods kmod listed)).1 folder
  · refine inTurn_run _ fun name member => ?_
    obtain ⟨sensor, listed, here, indexed⟩ := index_found (sensorNames name member)
    have keys := complete.sensors name member sensor (by simp [here])
    have known := sensor_of_valid (validSensors sensor listed)
    rw [indexed, given_bind, here, List.flatMap_singleton]
    exact installSensor_run texts known.version keys.targetFolder keys.dests known.subDirectories
      keys.subDirectories
  · have first := createRequirementsMaster_run texts setup.host
    have second := createSupportLibraryInstallScript_run texts os setup.host
    have third := createKernelModuleInstallScript_run texts os kmodNames complete.kmods
    have fourth := createSensorStartupMaster_run texts setup.host
    have last := createAptGetScript_run texts os setup.host sensorNames kmodNames
      (fun sensor listed => (sensor_of_valid (validSensors sensor listed)).aptGet)
      (fun kmod listed => (kmod_of_valid (validKmods kmod listed)).2)
    have all := then_run first (then_run second (then_run third (then_run fourth last)))
    exact all

theorem included_ok {α : Type} {name : α → Bytes} {skip : List Bytes}
    {printed : α → Except Failure Setting} {errors : Tree → α → List Bytes} (items : List α)
    (shown : ∀ a ∈ items, ∃ setting, printed a = .ok setting)
    (valid : ∀ a ∈ left name skip items, errors t a = []) :
    included name skip printed errors items t = (.ok (left name skip items), t) := by
  induction items with
  | nil => rfl
  | cons a rest ih =>
    obtain ⟨setting, printing⟩ := shown a List.mem_cons_self
    have others : (∀ b ∈ left name skip rest, errors t b = []) →
        included name skip printed errors rest t = (.ok (left name skip rest), t) :=
      ih fun b member => shown b (List.mem_cons_of_mem a member)
    rw [included, printing]
    by_cases skipped : skip.contains (name a)
    · have same : left name skip (a :: rest) = left name skip rest :=
        List.filter_cons_of_neg (by simpa using skipped)
      rw [same] at valid ⊢
      exact (if_pos skipped).trans (others valid)
    · have same : left name skip (a :: rest) = a :: left name skip rest :=
        List.filter_cons_of_pos (by simpa using skipped)
      rw [same] at valid ⊢
      have ok := others fun b member => valid b (List.mem_cons_of_mem a member)
      have own : ¬ errors t a ≠ [] := not_not.mpr (valid a List.mem_cons_self)
      exact (if_neg skipped).trans ((if_neg own).trans (bind_ok ok))

end

end VirtueSensing.Installer
