import VirtueSensing.Shared.FileTree

set_option autoImplicit false

/-!
# What the installer is given

The definitions of sensors, kernel modules and targets, and their validation, from
`bin/install_sensors.py` on a POSIX system.
-/

namespace VirtueSensing.Installer

open FileTree

-- What a JSON object has under a key. Another value than a text is told by how it is printed.
inductive Setting where
  | missing
  | other (printed : Bytes)
  | text (value : Bytes)
  deriving DecidableEq, Repr

inductive Listing (α : Type) where
  | missing
  | other
  | list (items : List α)

def Listing.isList {α : Type} : Listing α → Bool
  | .list _ => true
  | _ => false

def Listing.isMissing {α : Type} : Listing α → Bool
  | .missing => true
  | _ => false

def Setting.isMissing : Setting → Bool
  | .missing => true
  | _ => false

def Setting.printed : Setting → Bytes
  | .missing => []
  | .other printed => printed
  | .text value => value

-- A key without a `missing` value is one that validation looks up without asking for it first: a
-- definition that lacks it is not accepted, since the lookup raises.
structure KernelModule where
  name : Setting
  version : Setting
  targetFolder : Setting
  includes : List Bytes
  install : List Bytes
  aptGet : Listing Bytes

structure Kmod where
  root : Path
  kernelModule : KernelModule
  name : Bytes

structure FileDef where
  source : Bytes
  dest : Setting

structure SensorDef where
  name : Setting
  version : Setting
  targetFolder : Setting
  files : List FileDef
  -- Empty also where it is null.
  startupScript : Bytes
  requirementsFiles : List Bytes
  -- What is listed need not be texts.
  requiredSubDirectories : Listing (Option Bytes)
  aptGet : Listing Bytes

structure Sensor where
  root : Path
  sensor : SensorDef
  name : Bytes

structure TargetDef where
  os : Setting
  sensorsDirectory : Setting
  requirementsDirectory : Setting
  startupScriptsDirectory : Setting
  libraryDirectory : Setting
  kernelModDirectory : Setting
  sensors : List Bytes
  kernelModules : List Bytes

structure Target where
  root : Path
  target : TargetDef
  name : Bytes

def message (before within after : String) : Bytes := ascii before ++ ascii within ++ ascii after

def inMessage (before : String) (within : Bytes) (after : String) : Bytes :=
  ascii before ++ within ++ ascii after

def validateKmod (t : Tree) (kmod : Kmod) : List Bytes :=
  let definition := kmod.kernelModule
  let includes := (definition.includes.filter fun dir => (t.lookup kmod.root dir).isNone).map fun _ =>
    ascii "kernel_module.json::include does not point to an existing file or directory"
  let installs := (definition.install.filter fun file => ¬ t.isFile kmod.root file).map fun _ =>
    ascii "kernel_module.json::install entry does not point to an existing file"
  let keys := [("apt-get", definition.aptGet.isMissing), ("name", definition.name.isMissing),
    ("version", definition.version.isMissing), ("target_folder", definition.targetFolder.isMissing)]
  let missing := (keys.filter Prod.snd).map fun key =>
    message "kernel_module.json::" key.1 " is a required key"
  let lists := if definition.aptGet.isList then []
    else [ascii "kernel_module.json::apt-get needs to be a list"]
  includes ++ installs ++ missing ++ lists

def validateTarget (sensors : List Sensor) (kmods : List Kmod) (target : Target) : List Bytes :=
  let definition := target.target
  let platform := if definition.os.isMissing ∨ definition.os = .text (ascii "Linux") ∨
      definition.os = .text (ascii "Windows") then []
    else [inMessage "Platform " definition.os.printed " is Invalid!"]
  let unknownSensors := (definition.sensors.filter fun name =>
    ¬ sensors.any fun sensor => sensor.name = name).map fun name =>
      inMessage "required sensor [" name "] does not exist"
  let unknownKmods := (definition.kernelModules.filter fun name =>
    ¬ kmods.any fun kmod => kmod.name = name).map fun name =>
      inMessage "required kernel module [" name "] does not exist"
  let keys := [("os", definition.os), ("sensors_directory", definition.sensorsDirectory),
    ("requirements_directory", definition.requirementsDirectory),
    ("startup_scripts_directory", definition.startupScriptsDirectory),
    ("library_directory", definition.libraryDirectory)]
  let missing := (keys.filter fun key => key.2.isMissing).map fun key =>
    message "Required directory definition field missing [" key.1 "]"
  platform ++ unknownSensors ++ unknownKmods ++ missing

def validateSensor (t : Tree) (sensor : Sensor) : List Bytes :=
  let definition := sensor.sensor
  let startup := if definition.startupScript ≠ [] ∧ ¬ t.isFile sensor.root definition.startupScript then
      [ascii "sensor.json::startup_script does not point to an existing file"]
    else []
  let requirements := (definition.requirementsFiles.filter fun file => ¬ t.isFile sensor.root file).map
    fun file => inMessage "sensor.json::requirements_file [" file
      "] does not point to an existing file"
  let sources := (definition.files.filter fun file => ¬ t.isFile sensor.root file.source).map fun file =>
    inMessage "sensor.json::files[]::source [" file.source "] does not point to an existing file"
  -- The debugger that is started for a value of another type is left with "continue".
  let lists := [("required_sub_directories", definition.requiredSubDirectories.isMissing,
      definition.requiredSubDirectories.isList),
    ("apt-get", definition.aptGet.isMissing, definition.aptGet.isList)].flatMap fun key =>
      if key.2.1 then [message "sensor.json::" key.1 " required key is missing"]
      else if key.2.2 then []
      else [message "sensor.json::" key.1 " must be a list"]
  let keys := [("name", definition.name), ("version", definition.version),
    ("target_folder", definition.targetFolder)]
  let missing := (keys.filter fun key => key.2.isMissing).map fun key =>
    message "sensor.json::" key.1 " required key is missing"
  startup ++ requirements ++ sources ++ lists ++ missing

end VirtueSensing.Installer
