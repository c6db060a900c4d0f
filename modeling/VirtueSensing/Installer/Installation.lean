import VirtueSensing.Installer.Setup
import VirtueSensing.Shared.FilePlans

set_option autoImplicit false

/-!
# Installation

What `bin/install_sensors.py` does in the targets, and its loops over what it was given.
-/

namespace VirtueSensing.Installer

open FileTree Attempt

-- The orders that Python and the system leave open.
structure Host where
  listed : Tree → Path → List Name
  walked : Tree → Path → List Path
  collated : List Bytes → List Bytes

def Setting.look : Setting → Except Failure Setting
  | .missing => .error .keyError
  | setting => .ok setting

def Setting.path : Setting → Except Failure Bytes
  | .missing => .error .keyError
  | .other _ => .error .typeError
  | .text value => .ok value

def Listing.items {α : Type} : Listing α → Except Failure (List α)
  | .missing => .error .keyError
  | .other => .error .typeError
  | .list items => .ok items

def joined : Option Bytes → Except Failure Bytes
  | some text => .ok text
  | none => .error .typeError

-- A dictionary that is filled from a list keeps the last of one name.
def index {α : Type} (name : α → Bytes) (items : List α) (key : Bytes) : Except Failure α :=
  match items.reverse.find? fun a => name a = key with
  | some a => .ok a
  | none => .error .keyError

def inTurn {α : Type} (f : α → Action) (items : List α) : Action := do
  let _ ← each f items
  return ()

def isWindows (target : Target) : Except Failure Bool := do
  let os ← target.target.os.look
  return os = .text (ascii "Windows")

def prepTarget (target : Target) : Action :=
  inTurn (fun directory => do
    let dir ← given directory.path
    fresh target.root dir)
    [target.target.sensorsDirectory, target.target.requirementsDirectory,
      target.target.startupScriptsDirectory, target.target.libraryDirectory,
      target.target.kernelModDirectory]

def installKernelModule (target : Target) (kmod : Kmod) : Action := do
  let directory ← given target.target.kernelModDirectory.path
  let kmodDir := resolve target.root directory
  let _ ← given kmod.kernelModule.version.look
  let targetFolder ← given kmod.kernelModule.targetFolder.path
  let kmodRootDir := resolve kmodDir targetFolder
  inTurn (fun incPath => copytree (resolve kmod.root incPath) (resolve kmodRootDir incPath))
    kmod.kernelModule.includes

def libFiles : List Bytes := [ascii "sensor_wrapper.py", ascii "setup.py"]

def wrapperRequirements : Bytes := ascii "sensor_wrapper_requirements.txt"

def installSensorWrapper (wrapperDir : Path) (target : Target) : Action := do
  let requirements ← given target.target.requirementsDirectory.path
  let reqsDir := resolve target.root requirements
  let library ← given target.target.libraryDirectory.path
  let libDir := resolve target.root library
  let wrapperDestDir := resolve libDir (ascii "sensor_wrapper")
  makedirs wrapperDestDir
  inTurn (fun libFile => copy (resolve wrapperDir libFile) (resolve wrapperDestDir libFile)) libFiles
  copy (resolve wrapperDir wrapperRequirements) (resolve reqsDir wrapperRequirements)

def copyFile (sensorSrcDir sensorDestDir : Path) (fileDef : FileDef) : Action := do
  let dest ← given fileDef.dest.path
  copy (resolve sensorSrcDir fileDef.source) (resolve sensorDestDir dest)

def makeSubDirectory (sensorDestDir : Path) (subDirectory : Option Bytes) : Action := do
  let runSubDir ← given (joined subDirectory)
  makedirs (resolve sensorDestDir runSubDir)
  write sensorDestDir runSubDir (ascii ".empty") (.fixed (ascii "\n"))

def copyStartupScript (sensorSrcDir runDir : Path) (script : Bytes) : Action :=
  if script ≠ [] then copy (resolve sensorSrcDir script) (resolve runDir script) else pure ()

def installSensor (target : Target) (sensor : Sensor) : Action := do
  let sensorsDirectory ← given target.target.sensorsDirectory.path
  let sensorsDir := resolve target.root sensorsDirectory
  let requirements ← given target.target.requirementsDirectory.path
  let reqsDir := resolve target.root requirements
  let startup ← given target.target.startupScriptsDirectory.path
  let runDir := resolve target.root startup
  let _ ← given sensor.sensor.version.look
  let targetFolder ← given sensor.sensor.targetFolder.path
  let sensorDestDir := resolve sensorsDir targetFolder
  makedirs sensorDestDir
  inTurn (copyFile sensor.root sensorDestDir) sensor.sensor.files
  let subDirectories ← given sensor.sensor.requiredSubDirectories.items
  inTurn (makeSubDirectory sensorDestDir) subDirectories
  copyStartupScript sensor.root runDir sensor.sensor.startupScript
  inTurn (fun file => copy (resolve sensor.root file) (resolve reqsDir file))
    sensor.sensor.requirementsFiles

def shared : Path → Path → Nat
  | a :: p, b :: q => if a = b then shared p q + 1 else 0
  | _, _ => 0

def relpath (p start : Path) : Bytes :=
  let parts := List.replicate (start.length - shared p start) (ascii "..") ++ p.drop (shared p start)
  if parts = [] then ascii "." else [slash].intercalate parts

def requirementsText (host : Host) (reqDir : Path) (t : Tree) : Bytes :=
  (host.listed t reqDir).flatMap fun file => inMessage "-r " file "\n"

def createRequirementsMaster (host : Host) (target : Target) : Action := do
  let directory ← given target.target.requirementsDirectory.path
  let reqDir := resolve target.root directory
  listdir reqDir
  writeText (resolve reqDir (ascii "requirements_master.txt")) (requirementsText host reqDir)

def installScript (windows : Bool) : Bytes :=
  if windows then ascii "install.ps1" else ascii "install.sh"

def hasSetup (t : Tree) (directory : Path) : Bool :=
  match t.node (directory ++ [ascii "setup.py"]) with
  | some (.file _) => true
  | _ => false

def supportLibraryText (host : Host) (libDir : Path) (t : Tree) : Bytes :=
  ((host.walked t libDir).filter (hasSetup t)).flatMap fun root =>
    inMessage "pip install ./" (relpath root libDir) " --upgrade\n"

def createSupportLibraryInstallScript (host : Host) (target : Target) : Action := do
  let directory ← given target.target.libraryDirectory.path
  let libDir := resolve target.root directory
  let windows ← given (isWindows target)
  writeText (resolve libDir (installScript windows)) (supportLibraryText host libDir)

def buildStep (shell : Bytes) (kmodRootDir modDir : Path) (install : Bytes) : Bytes :=
  let instFile := resolve modDir install
  inMessage "cd " (relpath instFile.dropLast kmodRootDir) "\n" ++ shell ++
    inMessage " ./" (basename instFile) "\n" ++
    inMessage "cd " (relpath kmodRootDir instFile.dropLast) "\n"

def buildSteps (kmods : List Kmod) (shell : Bytes) (kmodRootDir : Path) (reqKmod : Bytes) :
    Except Failure Bytes := do
  let kmod ← index Kmod.name kmods reqKmod
  let targetFolder ← kmod.kernelModule.targetFolder.path
  let modDir := resolve kmodRootDir targetFolder
  return kmod.kernelModule.install.flatMap (buildStep shell kmodRootDir modDir)

def shellOf (os : Setting) : Bytes :=
  if os = .text (ascii "Windows") then ascii "powershell -NoProfile -ExecutionPolicy Bypass"
  else if os = .text (ascii "Linux") then ascii "bash"
  else ascii "None"

def kernelModuleText (os : Setting) (steps : List Bytes) : Bytes :=
  (if os = .text (ascii "Linux") then ascii "#!/bin/bash\n" else []) ++ steps.flatten

def createKernelModuleInstallScript (kmods : List Kmod) (target : Target) : Action := do
  let directory ← given target.target.kernelModDirectory.path
  let kmodRootDir := resolve target.root directory
  let windows ← given (isWindows target)
  let steps ← each (fun reqKmod =>
    given (buildSteps kmods (shellOf target.target.os) kmodRootDir reqKmod)) target.target.kernelModules
  writeText (resolve kmodRootDir (installScript windows)) fun _ =>
    kernelModuleText target.target.os steps

def startupText (host : Host) (startDir : Path) (t : Tree) : Bytes :=
  ascii "#!/bin/bash\n" ++
    (host.listed t startDir).flatMap fun script => inMessage "/opt/sensor_startup/" script " &\n"

def createSensorStartupMaster (host : Host) (target : Target) : Action := do
  let directory ← given target.target.startupScriptsDirectory.path
  let startDir := resolve target.root directory
  listdir startDir
  writeText (resolve startDir (ascii "run_sensors.sh")) (startupText host startDir)

def aptGetText (aptLibs : List Bytes) : Bytes :=
  ascii "#!/bin/bash\n" ++
    if aptLibs.length > 0 then inMessage "apt-get install -y " ((ascii " ").intercalate aptLibs) "\n"
    else []

def createAptGetScript (host : Host) (sensors : List Sensor) (kmods : List Kmod) (target : Target) :
    Action := do
  let windows ← given (isWindows target)
  if windows then return ()
  else
    let directory ← given target.target.libraryDirectory.path
    let libDir := resolve target.root directory
    let sensorLibs ← each (fun name => given do
      let sensor ← index Sensor.name sensors name
      sensor.sensor.aptGet.items) target.target.sensors
    let kmodLibs ← each (fun name => given do
      let kmod ← index Kmod.name kmods name
      kmod.kernelModule.aptGet.items) target.target.kernelModules
    writeText (resolve libDir (ascii "apt_get_install.sh")) fun _ =>
      aptGetText (host.collated (sensorLibs.flatten ++ kmodLibs.flatten))

structure Setup where
  host : Host
  wrapperDir : Path
  sensors : List Sensor
  kmods : List Kmod
  targets : List Target
  skipSensors : List Bytes
  skipModules : List Bytes
  skipTargets : List Bytes

def installSensorsInTarget (setup : Setup) (sensors : List Sensor) (kmods : List Kmod)
    (target : Target) : Action := do
  prepTarget target
  inTurn (fun kmodName => do
    let kmod ← given (index Kmod.name kmods kmodName)
    installKernelModule target kmod) target.target.kernelModules
  installSensorWrapper setup.wrapperDir target
  inTurn (fun sensorName => do
    let sensor ← given (index Sensor.name sensors sensorName)
    installSensor target sensor) target.target.sensors
  createRequirementsMaster setup.host target
  createSupportLibraryInstallScript setup.host target
  createKernelModuleInstallScript kmods target
  createSensorStartupMaster setup.host target
  createAptGetScript setup.host sensors kmods target

-- What is printed of an item comes first, and the first that has errors ends the program.
def included {α : Type} (name : α → Bytes) (skip : List Bytes) (printed : α → Except Failure Setting)
    (errors : Tree → α → List Bytes) : List α → Attempt Tree Failure (List α)
  | [], t => (.ok [], t)
  | a :: rest, t =>
    match printed a with
    | .error e => (.error e, t)
    | .ok _ =>
      if skip.contains (name a) then included name skip printed errors rest t
      else if errors t a ≠ [] then (.error .exit, t)
      else next (included name skip printed errors rest) (fun others => pure (a :: others)) t

def includedSensors (setup : Setup) : Attempt Tree Failure (List Sensor) :=
  included Sensor.name setup.skipSensors (fun sensor => sensor.sensor.version.look) validateSensor
    setup.sensors

def includedModules (setup : Setup) : Attempt Tree Failure (List Kmod) :=
  included Kmod.name setup.skipModules (fun kmod => kmod.kernelModule.version.look) validateKmod
    setup.kmods

def includedTargets (setup : Setup) (sensors : List Sensor) (kmods : List Kmod) :
    Attempt Tree Failure (List Target) :=
  included Target.name setup.skipTargets (fun target => .ok (.text target.name))
    (fun _ => validateTarget sensors kmods) setup.targets

def main (setup : Setup) : Action := do
  let sensors ← includedSensors setup
  let kmods ← includedModules setup
  let targets ← includedTargets setup sensors kmods
  inTurn (installSensorsInTarget setup sensors kmods) targets

end VirtueSensing.Installer
