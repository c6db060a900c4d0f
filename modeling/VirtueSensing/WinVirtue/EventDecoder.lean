import VirtueSensing.Driver.RecordImages
import VirtueSensing.Shared.Utf16
import VirtueSensing.Shared.Utf8

set_option autoImplicit false

/-!
# The decoder of the driver's records

`GetSensorDataHeader`, `DecodeString`, the `build` of each record and `_packet_decode_header` of
`ntfltmgr.py`. An exception is `none`.
-/

namespace VirtueSensing.WinVirtue

open CLayout Driver Integers

abbrev Text := List Char

/-- A `uuid.UUID`, which keeps its sixteen bytes as one integer. -/
structure UUID where
  int : Nat
  inRange : int < 2 ^ 128
  deriving DecidableEq

namespace UUID

-- `uuid.UUID(bytes=...)`
def ofBytes (bytes : Bytes) : Option UUID :=
  if sized : bytes.length = 16 then
    some ⟨Dissect.unsigned bytes, by simpa [sized] using unsigned_lt bytes⟩
  else none

def bytes (u : UUID) : Bytes := Dissect.bigEndian 16 u.int

def hex (u : UUID) : Text := hexDigits 32 u.int

-- `str(u)`
def str (u : UUID) : Text :=
  u.hex.take 8 ++ '-' :: ((u.hex.drop 8).take 4 ++ '-' :: ((u.hex.drop 12).take 4 ++
    '-' :: ((u.hex.drop 16).take 4 ++ '-' :: u.hex.drop 20)))

end UUID

inductive SensorType where
  | none
  | imageLoad
  | processCreate
  | processDestroy
  | threadCreate
  | threadDestroy
  | processListValidationFailed
  | regQueryValueKeyInfo
  | regCreateKeyInfo
  | regSetValueKeyInfo
  | regOpenKeyInfo
  | regDeleteValueKeyInfo
  | regRenameKeyInfo
  | regPostOperationInfo
  deriving DecidableEq, Repr

namespace SensorType

-- `SensorType(number)`
def ofNumber : Nat → Option SensorType
  | 0x0000 => some none
  | 0x0001 => some imageLoad
  | 0x0002 => some processCreate
  | 0x0003 => some processDestroy
  | 0x0004 => some threadCreate
  | 0x0005 => some threadDestroy
  | 0x0006 => some processListValidationFailed
  | 0x0007 => some regQueryValueKeyInfo
  | 0x0008 => some regCreateKeyInfo
  | 0x0009 => some regSetValueKeyInfo
  | 0x000a => some regOpenKeyInfo
  | 0x000b => some regDeleteValueKeyInfo
  | 0x000c => some regRenameKeyInfo
  | 0x1001 => some regPostOperationInfo
  | _ => Option.none

def name : SensorType → String
  | none => "NONE"
  | imageLoad => "ImageLoad"
  | processCreate => "ProcessCreate"
  | processDestroy => "ProcessDestroy"
  | threadCreate => "ThreadCreate"
  | threadDestroy => "ThreadDestroy"
  | processListValidationFailed => "ProcessListValidationFailed"
  | regQueryValueKeyInfo => "RegQueryValueKeyInfo"
  | regCreateKeyInfo => "RegCreateKeyInfo"
  | regSetValueKeyInfo => "RegSetValueKeyInfo"
  | regOpenKeyInfo => "RegOpenKeyInfo"
  | regDeleteValueKeyInfo => "RegDeleteValueKeyInfo"
  | regRenameKeyInfo => "RegRenameKeyInfo"
  | regPostOperationInfo => "RegPostOperationInfo"

end SensorType

-- The enumerations: the names of the values from zero on, where two names of a value count as the first.
def keyValueInformationClass : List String :=
  ["KeyValueBasicInformation", "KeyValueFullInformation", "KeyValuePartialInformation",
    "KeyValueFullInformationAlign64", "KeyValuePartialInformationAlign64",
    "KeyValueLayerInformation", "MaxKeyValueInfoClass"]

def regNotifyClass : List String :=
  ["RegNtDeleteKey", "RegNtSetValueKey", "RegNtDeleteValueKey", "RegNtSetInformationKey",
    "RegNtRenameKey", "RegNtEnumerateKey", "RegNtEnumerateValueKey", "RegNtQueryKey",
    "RegNtQueryValueKey", "RegNtQueryMultipleValueKey", "RegNtPreCreateKey", "RegNtPostCreateKey",
    "RegNtPreOpenKey", "RegNtPostOpenKey", "RegNtKeyHandleClose", "RegNtPostDeleteKey",
    "RegNtPostSetValueKey", "RegNtPostDeleteValueKey", "RegNtPostSetInformationKey",
    "RegNtPostRenameKey", "RegNtPostEnumerateKey", "RegNtPostEnumerateValueKey",
    "RegNtPostQueryKey", "RegNtPostQueryValueKey", "RegNtPostQueryMultipleValueKey",
    "RegNtPostKeyHandleClose", "RegNtPreCreateKeyEx", "RegNtPostCreateKeyEx", "RegNtPreOpenKeyEx",
    "RegNtPostOpenKeyEx", "RegNtPreFlushKey", "RegNtPostFlushKey", "RegNtPreLoadKey",
    "RegNtPostLoadKey", "RegNtPreUnLoadKey", "RegNtPostUnLoadKey", "RegNtPreQueryKeySecurity",
    "RegNtPostQueryKeySecurity", "RegNtPreSetKeySecurity", "RegNtPostSetKeySecurity",
    "RegNtCallbackObjectContextCleanup", "RegNtPreRestoreKey", "RegNtPostRestoreKey",
    "RegNtPreSaveKey", "RegNtPostSaveKey", "RegNtPreReplaceKey", "RegNtPostReplaceKey",
    "RegNtPreQueryKeyName", "RegNtPostQueryKeyName", "MaxRegNtNotifyClass"]

def kprocessorMode : List String := ["KernelMode", "UserMode"]

def regObjectType : List String :=
  ["RegNone", "RegSz", "RegExpandSz", "RegBinary", "RegDWord", "RegDWordBE", "RegLink",
    "RegMultiSz", "RegResourceList", "RegFullResourceDescriptor", "RegResourceRequirementsList",
    "RegQWord"]

-- `(BYTE * length).from_buffer(memoryview(sb)[offset:length + offset])`
def fromBuffer (sb : Bytes) (offset : Nat) (length : Int) : Option Bytes :=
  let slc := load sb offset length.toNat
  if slc.length = length then some slc else none

-- `slc[::2]`
def everySecond : Bytes → Bytes
  | [] => []
  | [b] => [b]
  | b :: _ :: rest => b :: everySecond rest

-- `chr` of a signed `BYTE`
def chr (b : UInt8) : Option Char :=
  if b < 0x80 then some (Char.ofNat b.toNat) else none

-- The last attempt cannot fail, since `bytes` are not signed.
def decodeString (slc : Bytes) : Text :=
  match Utf16.decodeMarked slc with
  | some text => text
  | none =>
    match Utf8.decode slc with
    | some text => text
    | none => (everySecond slc).map fun b => Char.ofNat b.toNat

def field (r : Record) (path : List FieldName) : CLayout.Field FieldName :=
  (r.user.fields.find? fun f => f.path = path).getD ⟨path, 0, 0⟩

-- The bytes of `info.contents.` and the path.
def contents (r : Record) (path : List FieldName) (packet : Bytes) : Bytes :=
  load packet (field r path).offset (field r path).size

def longLongToHex (num : Int) : Text :=
  '0' :: 'x' :: Nat.toDigits 16 (0x10000000000000000 - num.natAbs)

inductive Value where
  | int (n : Int)
  | text (t : Text)
  deriving DecidableEq, Repr

/-- Where an element of a named tuple comes from. -/
inductive Source where
  | sensorId
  | sensorType
  | unsigned (path : List FieldName)
  | signed (path : List FieldName)
  | unsignedHex (path : List FieldName)
  | longLongHex (path : List FieldName)
  | unsignedLongLongHex (path : List FieldName)
  | name (names : List String) (path : List FieldName)
  | nameOrNumber (names : List String) (path : List FieldName)
  | decodedString
  deriving DecidableEq, Repr

def enumName (names : List String) (n : Nat) : Option Value :=
  names[n]?.map fun name => .text name.toList

def Source.value (r : Record) (packet : Bytes) (string : Text) : Source → Option Value
  | sensorId =>
    (UUID.ofBytes (contents r [.header, .sensorId, .data] packet)).map fun id => .text id.str
  | sensorType =>
    (SensorType.ofNumber (little (contents r [.header, .sensorType] packet))).map fun type =>
      .text type.name.toList
  | unsigned path => some (.int (little (contents r path packet)))
  | signed path => some (.int (Integers.signed (contents r path packet)))
  | unsignedHex path =>
    some (.text ('0' :: 'x' :: Nat.toDigits 16 (little (contents r path packet))))
  | longLongHex path => some (.text (longLongToHex (Integers.signed (contents r path packet))))
  | unsignedLongLongHex path => some (.text (longLongToHex (little (contents r path packet))))
  | name names path => enumName names (little (contents r path packet))
  | nameOrNumber names path =>
    let number := little (contents r path packet)
    some ((enumName names number).getD (.int number))
  | decodedString => some (.text string)

def eventHeader (rest : List (String × Source)) : List (String × Source) :=
  ("sensor_id", .sensorId) :: ("sensor_type", .sensorType) ::
    ("CurrentGMT", .signed [.header, .currentGmt]) :: rest

/-- The elements of the named tuple of each record. The other records are no events. -/
def namedTuple : Record → List (String × Source)
  | .regCreateKeyInfo =>
    eventHeader
      [("ProcessId", .signed [.processId]), ("EProcess", .longLongHex [.eProcess]),
        ("RootObject", .longLongHex [.rootObject]), ("Options", .unsigned [.options]),
        ("SecurityDescriptor", .longLongHex [.securityDescriptor]),
        ("SecurityQualityOfService", .longLongHex [.securityQualityOfService]),
        ("DesiredAccess", .unsigned [.desiredAccess]),
        ("GrantedAccess", .unsigned [.grantedAccess]), ("Version", .longLongHex [.version]),
        ("Wow64Flags", .unsigned [.wow64Flags]), ("Attributes", .unsigned [.attributes]),
        ("CheckAccessMode", .name kprocessorMode [.checkAccessMode]),
        ("CompleteName", .decodedString)]
  | .regQueryValueKeyInfo =>
    eventHeader
      [("ProcessId", .signed [.processId]), ("EProcess", .longLongHex [.eProcess]),
        ("Class", .name regNotifyClass [.notifyClass]), ("Object", .longLongHex [.object]),
        ("KeyValueInformationClass", .name keyValueInformationClass [.keyValueInformationClass]),
        ("ValueName", .decodedString)]
  | .regRenameKeyInfo =>
    eventHeader
      [("ProcessId", .signed [.processId]), ("EProcess", .longLongHex [.eProcess]),
        ("Object", .longLongHex [.object]), ("NewName", .decodedString)]
  | .regPostOperationInfo =>
    eventHeader
      [("ProcessId", .signed [.processId]), ("EProcess", .longLongHex [.eProcess]),
        ("Object", .longLongHex [.object]), ("Status", .unsignedHex [.status]),
        ("PreInformation", .longLongHex [.preInformation]),
        ("ReturnStatus", .unsignedHex [.returnStatus])]
  | .regDeleteValueKeyInfo =>
    eventHeader
      [("ProcessId", .signed [.processId]), ("EProcess", .longLongHex [.eProcess]),
        ("Object", .longLongHex [.object]), ("ValueName", .decodedString)]
  | .regSetValueKeyInfo =>
    eventHeader
      [("ProcessId", .signed [.processId]), ("EProcess", .longLongHex [.eProcess]),
        ("Object", .longLongHex [.object]), ("Type", .nameOrNumber regObjectType [.type]),
        ("ValueName", .decodedString)]
  | .processListValidationFailed =>
    eventHeader
      [("Status", .unsigned [.status]), ("ProcessId", .signed [.processId]),
        ("EProcess", .longLongHex [.eProcess])]
  | .loadedImageInfo =>
    eventHeader
      [("ProcessId", .signed [.processId]), ("EProcess", .longLongHex [.eProcess]),
        ("ImageBase", .longLongHex [.imageBase]), ("ImageSize", .signed [.imageSize]),
        ("FullImageName", .decodedString)]
  | .threadCreateInfo =>
    eventHeader
      [("ProcessId", .signed [.processId]), ("ThreadId", .signed [.threadId]),
        ("Win32StartAddress", .longLongHex [.win32StartAddress]),
        ("StartAddress", .longLongHex [.startAddress]),
        ("IsStartAddressValid", .signed [.isStartAddressValid])]
  | .threadDestroyInfo =>
    eventHeader [("ProcessId", .signed [.processId]), ("ThreadId", .signed [.threadId])]
  | .processCreateInfo =>
    eventHeader
      [("ParentProcessId", .signed [.parentProcessId]), ("ProcessId", .signed [.processId]),
        ("EProcess", .longLongHex [.eProcess]),
        ("UniqueProcess", .unsignedLongLongHex [.creatingThreadId, .uniqueProcess]),
        ("UniqueThread", .unsignedLongLongHex [.creatingThreadId, .uniqueThread]),
        ("FileObject", .longLongHex [.fileObject]),
        ("CreationStatus", .unsigned [.creationStatus]),
        ("CommandLineSz", .unsigned [.commandLineSz]), ("CommandLine", .decodedString)]
  | .processDestroyInfo =>
    eventHeader [("ProcessId", .signed [.processId]), ("EProcess", .longLongHex [.eProcess])]
  | _ => []

structure SensorDataHeader where
  sensorId : Text
  sensorType : SensorType
  dataSz : Nat
  currentGmt : Int
  packet : Bytes

def getSensorDataHeader (packet : Bytes) : Option SensorDataHeader := do
  let sensorId ← UUID.ofBytes (contents .probeDataHeader [.sensorId, .data] packet)
  let sensorType ← SensorType.ofNumber (little (contents .probeDataHeader [.sensorType] packet))
  return {
    sensorId := sensorId.str
    sensorType := sensorType
    dataSz := little (contents .probeDataHeader [.dataSz] packet)
    currentGmt := signed (contents .probeDataHeader [.currentGmt] packet)
    packet := packet }

-- A trailing array that is as long as a field of the record says.
def counted (r : Record) (length array : FieldName) (sb packet : Bytes) : Option Bytes :=
  fromBuffer sb (field r [array]).offset (little (contents r [length] packet))

/-- The string of a record. `create_string_buffer` ends its copy of the packet with a zero, but where
it is given the length. -/
def buildString (r : Record) (msgPkt : SensorDataHeader) : Option Text :=
  let packet := msgPkt.packet
  let sb := packet ++ [0]
  match r with
  | .regCreateKeyInfo => (counted r .completeNameSz .completeName packet packet).map decodeString
  | .regQueryValueKeyInfo => (counted r .valueNameLength .valueName sb packet).map decodeString
  | .regRenameKeyInfo => (counted r .newNameLength .newName sb packet).map decodeString
  | .regDeleteValueKeyInfo => (counted r .valueNameLength .valueName sb packet).map decodeString
  | .regSetValueKeyInfo => (counted r .valueNameLength .valueName sb packet).map decodeString
  | .loadedImageInfo => do
    let slc ← counted r .fullImageNameSz .fullImageName sb packet
    (everySecond slc).mapM chr
  | .processCreateInfo =>
    let offset := (field r [.commandLine]).offset
    (fromBuffer sb offset (msgPkt.dataSz - offset)).map decodeString
  | _ => some []

abbrev Event := List (String × Value)

-- The elements in their order, under their names.
def asdict (value : Source → Option Value) (elements : List (String × Source)) : Option Event :=
  elements.mapM fun element => (value element.2).map fun v => (element.1, v)

def build (r : Record) (msgPkt : SensorDataHeader) : Option Event := do
  let string ← buildString r msgPkt
  asdict (Source.value r msgPkt.packet string) (namedTuple r)

def SensorType.record : SensorType → Option Record
  | none => Option.none
  | imageLoad => some .loadedImageInfo
  | processCreate => some .processCreateInfo
  | processDestroy => some .processDestroyInfo
  | threadCreate => some .threadCreateInfo
  | threadDestroy => some .threadDestroyInfo
  | processListValidationFailed => some .processListValidationFailed
  | regQueryValueKeyInfo => some .regQueryValueKeyInfo
  | regCreateKeyInfo => some .regCreateKeyInfo
  | regSetValueKeyInfo => some .regSetValueKeyInfo
  | regOpenKeyInfo => some .regCreateKeyInfo
  | regDeleteValueKeyInfo => some .regDeleteValueKeyInfo
  | regRenameKeyInfo => some .regRenameKeyInfo
  | regPostOperationInfo => some .regPostOperationInfo

/-- `_packet_decode_header`, which answers `None` for a type without a record. -/
def packetDecodeHeader (packet : Bytes) : Option (Option Event) := do
  let pdh ← getSensorDataHeader packet
  match pdh.sensorType.record with
  | none => some none
  | some r => (build r pdh).map some

theorem asdict_cons {value : Source → Option Value} {element : String × Source}
    {rest : List (String × Source)} {e : Event} :
    asdict value (element :: rest) = some e ↔
      ∃ v others, value element.2 = some v ∧ asdict value rest = some others ∧
        e = (element.1, v) :: others := by
  unfold asdict
  rw [List.mapM_cons]
  simp only [Option.bind_eq_bind, Option.bind_eq_some_iff, Option.map_eq_some_iff, Option.pure_def,
    Option.some.injEq]
  constructor
  · rintro ⟨named, ⟨v, read, rfl⟩, others, made, rfl⟩
    exact ⟨v, others, read, made, rfl⟩
  · rintro ⟨v, others, read, made, rfl⟩
    exact ⟨_, ⟨v, read, rfl⟩, others, made, rfl⟩

theorem lookup_asdict {value : Source → Option Value} {elements : List (String × Source)} {e : Event}
    (made : asdict value elements = some e) (key : String) :
    e.lookup key = (elements.lookup key).bind value := by
  induction elements generalizing e with
  | nil =>
    obtain rfl := Option.some.inj made
    rfl
  | cons element rest ih =>
    obtain ⟨v, others, read, later, rfl⟩ := asdict_cons.mp made
    obtain ⟨name, source⟩ := element
    rw [List.lookup_cons, List.lookup_cons, ih later]
    cases key == name with
    | true => exact read.symm
    | false => rfl

theorem asdict_isSome {value : Source → Option Value} {elements : List (String × Source)} :
    (∃ e, asdict value elements = some e) ↔ ∀ element ∈ elements, ∃ v, value element.2 = some v := by
  induction elements with
  | nil => exact ⟨fun _ => nofun, fun _ => ⟨[], rfl⟩⟩
  | cons element rest ih =>
    rw [List.forall_mem_cons, ← ih]
    constructor
    · rintro ⟨e, made⟩
      obtain ⟨v, others, read, later, rfl⟩ := asdict_cons.mp made
      exact ⟨⟨v, read⟩, others, later⟩
    · rintro ⟨⟨v, read⟩, others, later⟩
      exact ⟨_, asdict_cons.mpr ⟨v, others, read, later, rfl⟩⟩

theorem contents_of_header {type : SensorType} {r : Record} (recorded : type.record = some r)
    {path : List FieldName} (shared : path ∈ [[.sensorId, .data], [.sensorType], [.dataSz]])
    (packet : Bytes) :
    contents r (.header :: path) packet = contents .probeDataHeader path packet := by
  have same : ∀ path ∈ [[.sensorId, .data], [.sensorType], [.dataSz]],
      (field r (.header :: path)).offset = (field .probeDataHeader path).offset ∧
        (field r (.header :: path)).size = (field .probeDataHeader path).size := by
    cases type <;> first | (cases recorded; decide +kernel) | cases recorded
  rw [contents, contents, (same path shared).1, (same path shared).2]

def knows (r : Record) (path : List FieldName) : Bool :=
  (r.user.fields.find? fun f => f.path = path).isSome

theorem find_field {r : Record} {path : List FieldName} (known : knows r path) :
    (r.user.fields.find? fun f => f.path = path) = some (field r path) := by
  obtain ⟨found, here⟩ := Option.isSome_iff_exists.mp known
  rw [field, here, Option.getD_some]

theorem path_field {r : Record} {path : List FieldName} (known : knows r path) :
    (field r path).path = path := by
  have found := List.find?_some (find_field known)
  exact of_decide_eq_true found

variable {r : Record} {writes : List (Assignment r)} {buffer : Bytes}

theorem contents_image (apart : Apart writes) (inside : Inside writes buffer.length)
    {a : Assignment r} (member : a ∈ writes) {path : List FieldName} (known : knows r path)
    (counterpart : path ∈ counterparts a.field.path) (inner : ¬ r.Trailing path) :
    contents r path (r.image buffer writes) = a.bytes := by
  have read := read_image apart inside member (List.mem_of_find?_eq_some (find_field known))
    (by rwa [path_field known])
  rwa [Record.read, path_field known, if_neg inner] at read

theorem load_image (apart : Apart writes) (inside : Inside writes buffer.length)
    {a : Assignment r} (member : a ∈ writes) {path : List FieldName} (known : knows r path)
    (counterpart : path ∈ counterparts a.field.path) (trailing : r.Trailing path) :
    load (r.image buffer writes) (field r path).offset a.bytes.length = a.bytes := by
  have read := read_image apart inside member (List.mem_of_find?_eq_some (find_field known))
    (by rwa [path_field known])
  rwa [Record.read, path_field known, if_pos trailing] at read

theorem little_put (apart : Apart writes) (inside : Inside writes buffer.length)
    {place : List FieldName} {value : Nat} {declared : r.declares place}
    (member : r.put place value declared ∈ writes) {path : List FieldName} (known : knows r path)
    (counterpart : path ∈ counterparts place) (inner : ¬ r.Trailing path)
    (fits : value < 256 ^ (r.place place declared).size) :
    little (contents r path (r.image buffer writes)) = value := by
  rw [contents_image apart inside member known (by rwa [Record.path_put]) inner]
  exact little_littleEndian fits

end VirtueSensing.WinVirtue
