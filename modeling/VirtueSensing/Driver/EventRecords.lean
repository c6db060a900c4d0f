import VirtueSensing.Driver.RecordImages

set_option autoImplicit false

/-!
# Records with a string

What the callbacks of `ImageLoadProbe`, `ProcessCreateProbe` and `RegistryModificationProbe` put in
the queue for an event that has a `UNICODE_STRING`.
-/

namespace VirtueSensing.Driver

open CLayout Integers

/-- A `UNICODE_STRING`. `maximumLength` bytes of memory are its own, and `length` of them the
string. -/
structure UnicodeString where
  length : UInt16
  maximumLength : UInt16
  buffer : Bytes
  within : length ≤ maximumLength
  sized : buffer.length = maximumLength.toNat

def UnicodeString.content (us : UnicodeString) : Bytes := us.buffer.take us.length.toNat

inductive ProbeType where
  | imageLoad
  | processCreate
  | regQueryValueKeyInformation
  | regCreateKeyInformation
  | regSetValueKeyInformation
  | regOpenKeyInformation
  | regDeleteValueKeyInformation
  | regRenameKeyInformation
  deriving DecidableEq, Repr

def ProbeType.number : ProbeType → Nat
  | imageLoad => 0x0001
  | processCreate => 0x0002
  | regQueryValueKeyInformation => 0x0007
  | regCreateKeyInformation => 0x0008
  | regSetValueKeyInformation => 0x0009
  | regOpenKeyInformation => 0x000a
  | regDeleteValueKeyInformation => 0x000b
  | regRenameKeyInformation => 0x000c

/-- What a callback has besides its arguments: the probe, the time, the process, the memory that it
is given, and the neighbours of the record in the queue. -/
structure Context where
  probeId : Uuid
  currentGmt : UInt64
  flink : UInt64
  blink : UInt64
  processId : UInt64
  eProcess : UInt64
  heap : Nat → UInt8

-- `new BYTE[size]`, which is not cleared.
def Context.allocate (context : Context) (size : Nat) : Bytes := (List.range size).map context.heap

theorem Context.length_allocate (context : Context) (size : Nat) :
    (context.allocate size).length = size := by
  rw [Context.allocate, List.length_map, List.length_range]

-- A size that is kept in a `USHORT`.
def ushortSize (size : Nat) : Nat := size % 2 ^ 16

structure Scalar (r : Record) where
  path : List FieldName
  value : Nat
  declared : r.declares path

def Record.scalar (r : Record) (path : List FieldName) (value : Nat)
    (declared : r.declares path := by decide +kernel) : Scalar r :=
  ⟨path, value, declared⟩

def Scalar.put {r : Record} (s : Scalar r) : Assignment r := r.put s.path s.value s.declared

def HasHeader (r : Record) : Prop :=
  r.declares [.probeDataHeader, .probeType] ∧ r.declares [.probeDataHeader, .dataSz] ∧
    r.declares [.probeDataHeader, .probeId] ∧ r.declares [.probeDataHeader, .currentGmt] ∧
    r.declares [.probeDataHeader, .listEntry, .flink] ∧
    r.declares [.probeDataHeader, .listEntry, .blink] ∧ r.declares [.processId] ∧
    r.declares [.eProcess]

instance (r : Record) : Decidable (HasHeader r) := inferInstanceAs (Decidable (_ ∧ _))

-- The links are those of `Enqueue`.
def headerScalars (r : Record) (context : Context) (type : ProbeType) (bufsz : Nat)
    (has : HasHeader r) : List (Scalar r) :=
  [r.scalar [.probeDataHeader, .probeType] type.number has.1,
    r.scalar [.probeDataHeader, .dataSz] bufsz has.2.1,
    r.scalar [.probeDataHeader, .probeId] context.probeId.toNat has.2.2.1,
    r.scalar [.probeDataHeader, .currentGmt] context.currentGmt.toNat has.2.2.2.1,
    r.scalar [.probeDataHeader, .listEntry, .flink] context.flink.toNat has.2.2.2.2.1,
    r.scalar [.probeDataHeader, .listEntry, .blink] context.blink.toNat has.2.2.2.2.2.1,
    r.scalar [.processId] context.processId.toNat has.2.2.2.2.2.2.1,
    r.scalar [.eProcess] context.eProcess.toNat has.2.2.2.2.2.2.2]

structure Place (r : Record) where
  length : FieldName
  array : FieldName
  header : HasHeader r := by decide +kernel
  counts : r.declares [length] := by decide +kernel
  holds : r.declares [array] := by decide +kernel
  trailing : r.Trailing [array] := by decide

def reportScalars {r : Record} (place : Place r) (context : Context) (type : ProbeType)
    (bufsz : Nat) (others : List (Scalar r)) (count : Nat) : List (Scalar r) :=
  headerScalars r context type bufsz place.header ++ others ++
    [r.scalar [place.length] count place.counts]

def reportWrites {r : Record} (place : Place r) (scalars : List (Scalar r)) (bytes : Bytes) :
    List (Assignment r) :=
  scalars.map Scalar.put ++ [r.move place.array bytes place.holds place.trailing]

/-- The record in its buffer. A write past the end of the buffer leaves none. -/
def report {r : Record} (place : Place r) (context : Context) (type : ProbeType) (buffer : Bytes)
    (others : List (Scalar r)) (us : UnicodeString) (count : Nat) : Option Bytes :=
  let writes := reportWrites place (reportScalars place context type buffer.length others count)
    (us.buffer.take count)
  if Inside writes buffer.length then some (r.image buffer writes) else none

def Place.fullImageName : Place .loadedImageInfo where
  length := .fullImageNameSz
  array := .fullImageName

def Place.commandLine : Place .processCreateInfo where
  length := .commandLineSz
  array := .commandLine

def Place.completeName : Place .regCreateKeyInfo where
  length := .completeNameSz
  array := .completeName

def Place.queriedValueName : Place .regQueryValueKeyInfo where
  length := .valueNameLength
  array := .valueName

def Place.newName : Place .regRenameKeyInfo where
  length := .newNameLength
  array := .newName

def Place.deletedValueName : Place .regDeleteValueKeyInfo where
  length := .valueNameLength
  array := .valueName

def Place.setValueName : Place .regSetValueKeyInfo where
  length := .valueNameLength
  array := .valueName

def imageLoadNotificationRoutine (context : Context) (fullImageName : UnicodeString)
    (imageBase imageSize : UInt64) : Option Bytes :=
  let r := Record.loadedImageInfo
  let length := fullImageName.length.toNat
  let bufsz := ushortSize (alignUp (r.driver.size + length) 0x10)
  report Place.fullImageName context .imageLoad (zeroBytes bufsz)
    [r.scalar [.imageBase] imageBase.toNat, r.scalar [.imageSize] imageSize.toNat] fullImageName length

def processNotifyCallbackEx (context : Context) (commandLine : UnicodeString)
    (parentProcessId uniqueProcess uniqueThread fileObject : UInt64) (creationStatus : UInt32) :
    Option Bytes :=
  let r := Record.processCreateInfo
  let length := commandLine.length.toNat
  let bufsz := ushortSize (alignUp (r.driver.size + length) 0x10)
  report Place.commandLine context .processCreate (zeroBytes bufsz)
    [r.scalar [.parentProcessId] parentProcessId.toNat,
      r.scalar [.creatingThreadId, .uniqueProcess] uniqueProcess.toNat,
      r.scalar [.creatingThreadId, .uniqueThread] uniqueThread.toNat,
      r.scalar [.fileObject] fileObject.toNat, r.scalar [.creationStatus] creationStatus.toNat]
    commandLine length

/-- `RegNtPreCreateKeyExCallback`, which is the callback for `RegNtPreOpenKeyEx` too. -/
def regNtPreCreateKeyExCallback (context : Context) (opens : Bool) (completeName : UnicodeString)
    (rootObject : UInt64) (options : UInt32) (securityDescriptor securityQualityOfService : UInt64)
    (desiredAccess grantedAccess : UInt32) (version : UInt64) (wow64Flags attributes : UInt32)
    (checkAccessMode : UInt8) : Option Bytes :=
  let r := Record.regCreateKeyInfo
  let length := completeName.length.toNat
  let bufsz := ushortSize (r.driver.size + length)
  report Place.completeName context
    (if opens then .regOpenKeyInformation else .regCreateKeyInformation) (context.allocate bufsz)
    [r.scalar [.rootObject] rootObject.toNat, r.scalar [.options] options.toNat,
      r.scalar [.securityDescriptor] securityDescriptor.toNat,
      r.scalar [.securityQualityOfService] securityQualityOfService.toNat,
      r.scalar [.desiredAccess] desiredAccess.toNat, r.scalar [.grantedAccess] grantedAccess.toNat,
      r.scalar [.version] version.toNat, r.scalar [.wow64Flags] wow64Flags.toNat,
      r.scalar [.attributes] attributes.toNat, r.scalar [.checkAccessMode] checkAccessMode.toNat]
    completeName length

-- `RegNtPreQueryValueKey`
def preQueryValueKey : Nat := 8

def regNtPreQueryValueKeyCallback (context : Context) (valueName : UnicodeString) (object : UInt64)
    (keyValueInformationClass : UInt32) : Option Bytes :=
  let r := Record.regQueryValueKeyInfo
  let length := valueName.maximumLength.toNat
  let bufsz := ushortSize (r.driver.size + length)
  report Place.queriedValueName context .regQueryValueKeyInformation
    (context.allocate bufsz)
    [r.scalar [.notifyClass] preQueryValueKey, r.scalar [.object] object.toNat,
      r.scalar [.keyValueInformationClass] keyValueInformationClass.toNat]
    valueName length

def regNtPreRenameKeyCallback (context : Context) (newName : UnicodeString) (object : UInt64) :
    Option Bytes :=
  let r := Record.regRenameKeyInfo
  let length := newName.maximumLength.toNat
  let bufsz := ushortSize (r.driver.size + length)
  report Place.newName context .regRenameKeyInformation
    (context.allocate bufsz) [r.scalar [.object] object.toNat] newName length

def regNtPreDeleteValueKeyCallback (context : Context) (valueName : UnicodeString)
    (object : UInt64) : Option Bytes :=
  let r := Record.regDeleteValueKeyInfo
  let length := valueName.maximumLength.toNat
  let bufsz := ushortSize (r.driver.size + length)
  report Place.deletedValueName context .regDeleteValueKeyInformation
    (context.allocate bufsz) [r.scalar [.object] object.toNat] valueName length

def regNtPreSetValueKeyCallback (context : Context) (valueName : UnicodeString) (object : UInt64)
    (type : UInt32) : Option Bytes :=
  let r := Record.regSetValueKeyInfo
  let length := valueName.maximumLength.toNat
  let bufsz := ushortSize (r.driver.size + length)
  report Place.setValueName context .regSetValueKeyInformation
    (context.allocate bufsz) [r.scalar [.object] object.toNat, r.scalar [.type] type.toNat] valueName
    length

section Fits

variable {r : Record} {place : Place r} {scalars : List (Scalar r)} {bytes : Bytes} {n : Nat}

def Place.offset (place : Place r) : Nat := (r.place [place.array] place.holds).offset

theorem Scalar.stop_le (s : Scalar r) : (s.put.write 0).stop ≤ r.driver.size := by
  have inner := Assignment.field_stop_le r s.put.field s.put.declared
  have sized : s.put.bytes.length = s.put.field.size := length_littleEndian _ _
  simp only [Write.stop, Assignment.write, sized, Nat.zero_add]
  exact inner

theorem stop_of_inside (inside : Inside (reportWrites place scalars bytes) n) :
    place.offset + bytes.length ≤ n := by
  have last := inside (r.move place.array bytes place.holds place.trailing)
    (List.mem_append_right _ (List.mem_singleton_self _))
  simpa [Write.Inside, Write.stop, Assignment.write, Record.move, Place.offset] using last

theorem inside_of_stop (large : r.driver.size ≤ n) (fits : place.offset + bytes.length ≤ n) :
    Inside (reportWrites place scalars bytes) n := by
  intro a member
  rcases List.mem_append.mp member with scalar | string
  · obtain ⟨s, -, rfl⟩ := List.mem_map.mp scalar
    exact Nat.le_trans s.stop_le large
  · rw [List.mem_singleton.mp string]
    simpa [Write.Inside, Write.stop, Assignment.write, Record.move, Place.offset] using fits

theorem offset_le (place : Place r) : place.offset ≤ r.driver.size :=
  Nat.le_of_add_right_le (Assignment.field_stop_le r _ (Record.place_mem place.holds))

def headerPaths : List (List FieldName) :=
  [[.probeDataHeader, .probeType], [.probeDataHeader, .dataSz], [.probeDataHeader, .probeId],
    [.probeDataHeader, .currentGmt], [.probeDataHeader, .listEntry, .flink],
    [.probeDataHeader, .listEntry, .blink], [.processId], [.eProcess]]

def Distinct (place : Place r) (others : List (List FieldName)) : Prop :=
  (headerPaths ++ others ++ [[place.length], [place.array]]).Pairwise Unrelated

instance (place : Place r) (others : List (List FieldName)) : Decidable (Distinct place others) :=
  inferInstanceAs (Decidable (List.Pairwise _ _))

theorem path_put (s : Scalar r) : s.put.field.path = s.path :=
  Record.path_put s.declared

theorem apart_report {context : Context} {type : ProbeType} {bufsz count : Nat}
    {others : List (Scalar r)} (distinct : Distinct place (others.map Scalar.path)) :
    Apart (reportWrites place (reportScalars place context type bufsz others count) bytes) := by
  have paths : ((reportWrites place (reportScalars place context type bufsz others count) bytes).map
      fun a => a.field.path) =
        headerPaths ++ others.map Scalar.path ++ [[place.length], [place.array]] := by
    simp only [reportWrites, reportScalars, List.map_append, List.map_map, List.map_cons,
      List.map_nil, Record.path_move, List.append_assoc]
    congr 1
    · simp only [headerScalars, List.map_cons, List.map_nil, Function.comp, path_put]
      rfl
    · congr 1
      · exact List.map_congr_left fun s _ => path_put s
      · simp only [path_put]
        rfl
  rw [Apart, paths]
  exact distinct

theorem stop_le_string (apart : Apart (reportWrites place scalars bytes)) :
    ∀ a ∈ reportWrites place scalars bytes, (a.write 0).stop ≤ place.offset + bytes.length := by
  intro a member
  rcases List.mem_append.mp member with scalar | string
  · rw [Apart, reportWrites, List.map_append, List.pairwise_append] at apart
    have unrelated := apart.2.2 _ (List.mem_map_of_mem scalar) _ (List.mem_singleton_self _)
    obtain ⟨s, -, rfl⟩ := List.mem_map.mp scalar
    have sized : s.put.bytes.length = s.put.field.size := length_littleEndian _ _
    rcases Assignment.fields_apart r _ s.put.declared _ (Record.place_mem place.holds) unrelated with
      ⟨before, -⟩ | ⟨-, inner⟩
    · simp only [Write.stop, Assignment.write, sized, Nat.zero_add]
      exact Nat.le_add_right_of_le before
    · exact absurd ((Record.path_place place.holds).symm ▸ place.trailing) inner
  · rw [List.mem_singleton.mp string]
    simp [Write.stop, Assignment.write, Record.move, Place.offset]

/-- Where the size of the record does not fit into a `USHORT`, the string does not fit into the
buffer. -/
theorem inside_iff {total : Nat} (large : r.driver.size + bytes.length ≤ total)
    (small : total < 2 ^ 16 + place.offset + bytes.length) :
    Inside (reportWrites place scalars bytes) (ushortSize total) ↔ total < 2 ^ 16 := by
  have behind := offset_le place
  constructor
  · intro inside
    have stop := stop_of_inside inside
    by_contra wide
    unfold ushortSize at stop
    omega
  · intro narrow
    rw [ushortSize, Nat.mod_eq_of_lt narrow]
    exact inside_of_stop (by omega) (by omega)

end Fits

end VirtueSensing.Driver
