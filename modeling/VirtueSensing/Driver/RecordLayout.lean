import VirtueSensing.Driver.ProbeRegistry
import VirtueSensing.Shared.CLayout

set_option autoImplicit false

/-!
# The records that the driver shares with user space

The structs of `WVUKernelUserComms.h` for x64 and the ctypes structures of `ntfltmgr.py`.
-/

namespace VirtueSensing.Driver

open CLayout

inductive FieldName where
  | probeDataHeader | header | probeId | sensorId | probeType | sensorType | dataSz | currentGmt
  | listEntry | flink | blink | space
  | uuid | data | data1 | data2 | data3 | data4
  | processId | eProcess | object | status | preInformation | returnStatus
  | entryCount | valueNameLength | valueName | newNameLength | newName
  | rootObject | options | securityDescriptor | securityQualityOfService | desiredAccess
  | grantedAccess | version | wow64Flags | attributes | checkAccessMode | completeNameSz
  | completeName | type | notifyClass | blank | keyValueInformationClass
  | threadId | win32StartAddress | startAddress | isStartAddressValid
  | imageBase | imageSize | fullImageNameSz | fullImageName
  | parentProcessId | creatingThreadId | uniqueProcess | uniqueThread | fileObject
  | creationStatus | commandLineSz | commandLine
  | command | response | numberOfEntries
  | lastRunTime | runInterval | operationCount | enabled | probeName | sensorName
  deriving DecidableEq, Repr

inductive Record where
  | probeDataHeader
  | loadedImageInfo
  | processCreateInfo
  | processDestroyInfo
  | threadCreateInfo
  | threadDestroyInfo
  | regCreateKeyInfo
  | regQueryValueKeyInfo
  | regRenameKeyInfo
  | regPostOperationInfo
  | regDeleteValueKeyInfo
  | regSetValueKeyInfo
  | processListValidationFailed
  | commandMessage
  | responseMessage
  | probeStatusHeader
  | probeStatus
  deriving DecidableEq, Repr

abbrev Members := List (FieldName × Layout FieldName)

-- `HANDLE`, `PEPROCESS`, `PVOID`, `ULONG_PTR`, `SIZE_T` and `LONGLONG`.
def quad : Layout FieldName := scalar 8
-- `ULONG`, `LONG`, `DWORD`, `UINT`, `NTSTATUS`, `ACCESS_MASK` and an `enum` without a type.
def long : Layout FieldName := scalar 4
def ushort : Layout FieldName := scalar 2
def byte : Layout FieldName := scalar 1

namespace Windows

def uuid : Layout FieldName :=
  struct [(.data1, long), (.data2, ushort), (.data3, ushort), (.data4, array byte 8)]

def largeInteger : Layout FieldName := quad

def listEntry : Layout FieldName := struct [(.flink, quad), (.blink, quad)]

def clientId : Layout FieldName := struct [(.uniqueProcess, quad), (.uniqueThread, quad)]

def headerMembers : Members :=
  [(.probeId, uuid), (.probeType, ushort), (.dataSz, ushort), (.currentGmt, largeInteger),
    (.listEntry, listEntry)]

def probeDataHeader : Layout FieldName := struct headerMembers

def registryMembers : Members :=
  [(.probeDataHeader, probeDataHeader), (.processId, quad), (.eProcess, quad)]

/-- The structs as the driver declares them. A trailing array has no element, or one. -/
def members : Record → Members
  | .probeDataHeader => headerMembers
  | .loadedImageInfo =>
    [(.probeDataHeader, probeDataHeader), (.processId, quad), (.eProcess, quad),
      (.imageBase, quad), (.imageSize, quad), (.fullImageNameSz, ushort),
      (.fullImageName, array byte 1)]
  | .processCreateInfo =>
    [(.probeDataHeader, probeDataHeader), (.parentProcessId, quad), (.processId, quad),
      (.eProcess, quad), (.creatingThreadId, clientId), (.fileObject, quad),
      (.creationStatus, long), (.commandLineSz, ushort), (.commandLine, array byte 1)]
  | .processDestroyInfo =>
    [(.probeDataHeader, probeDataHeader), (.processId, quad), (.eProcess, quad)]
  | .threadCreateInfo =>
    [(.probeDataHeader, probeDataHeader), (.processId, quad), (.threadId, quad),
      (.win32StartAddress, quad), (.startAddress, quad), (.isStartAddressValid, byte)]
  | .threadDestroyInfo =>
    [(.probeDataHeader, probeDataHeader), (.processId, quad), (.threadId, quad)]
  | .regCreateKeyInfo =>
    registryMembers ++
      [(.rootObject, quad), (.options, long), (.securityDescriptor, quad),
        (.securityQualityOfService, quad), (.desiredAccess, long), (.grantedAccess, long),
        (.version, quad), (.wow64Flags, long), (.attributes, long), (.checkAccessMode, byte),
        (.completeNameSz, ushort), (.completeName, array byte 1)]
  | .regQueryValueKeyInfo =>
    registryMembers ++
      [(.notifyClass, long), (.object, quad), (.keyValueInformationClass, long),
        (.valueNameLength, ushort), (.valueName, array byte 0)]
  | .regRenameKeyInfo =>
    registryMembers ++ [(.object, quad), (.newNameLength, ushort), (.newName, array byte 0)]
  | .regPostOperationInfo =>
    registryMembers ++
      [(.object, quad), (.status, long), (.preInformation, quad), (.returnStatus, long)]
  | .regDeleteValueKeyInfo =>
    registryMembers ++ [(.object, quad), (.valueNameLength, ushort), (.valueName, array byte 0)]
  | .regSetValueKeyInfo =>
    registryMembers ++
      [(.object, quad), (.type, long), (.valueNameLength, ushort), (.valueName, array byte 0)]
  | .processListValidationFailed =>
    [(.probeDataHeader, probeDataHeader), (.status, long), (.processId, quad), (.eProcess, quad)]
  | .commandMessage =>
    [(.command, long), (.probeId, uuid), (.dataSz, quad), (.data, array byte 1)]
  | .responseMessage =>
    [(.response, long), (.status, long), (.dataSz, quad), (.data, array byte 1)]
  | .probeStatusHeader => [(.numberOfEntries, long)]
  | .probeStatus =>
    [(.probeId, uuid), (.lastRunTime, largeInteger), (.runInterval, largeInteger),
      (.operationCount, long), (.attributes, ushort), (.enabled, byte),
      (.probeName, array byte maxSensorNameSz)]

end Windows

namespace Ctypes

def uuid : Layout FieldName :=
  struct [(.data1, long), (.data2, ushort), (.data3, ushort), (.data4, array byte 8)]

def uuidUnion : Layout FieldName := union [(.uuid, uuid), (.data, array byte 16)]

def listEntry : Layout FieldName := struct [(.space, array byte 16)]

def clientId : Layout FieldName := struct [(.uniqueProcess, quad), (.uniqueThread, quad)]

def headerMembers : Members :=
  [(.sensorId, uuidUnion), (.sensorType, ushort), (.dataSz, ushort), (.currentGmt, quad),
    (.listEntry, listEntry)]

def sensorDataHeader : Layout FieldName := struct headerMembers

def registryMembers : Members :=
  [(.header, sensorDataHeader), (.processId, quad), (.eProcess, quad)]

/-- The structures that `ntfltmgr.py` declares for the records of the driver. -/
def members : Record → Members
  | .probeDataHeader => headerMembers
  | .loadedImageInfo =>
    [(.header, sensorDataHeader), (.processId, quad), (.eProcess, quad), (.imageBase, quad),
      (.imageSize, quad), (.fullImageNameSz, ushort), (.fullImageName, array byte 1)]
  | .processCreateInfo =>
    [(.header, sensorDataHeader), (.parentProcessId, quad), (.processId, quad), (.eProcess, quad),
      (.creatingThreadId, clientId), (.fileObject, quad), (.creationStatus, long),
      (.commandLineSz, ushort), (.commandLine, array byte 1)]
  | .processDestroyInfo => [(.header, sensorDataHeader), (.processId, quad), (.eProcess, quad)]
  | .threadCreateInfo =>
    [(.header, sensorDataHeader), (.processId, quad), (.threadId, quad),
      (.win32StartAddress, quad), (.startAddress, quad), (.isStartAddressValid, byte)]
  | .threadDestroyInfo => [(.header, sensorDataHeader), (.processId, quad), (.threadId, quad)]
  | .regCreateKeyInfo =>
    registryMembers ++
      [(.rootObject, quad), (.options, long), (.securityDescriptor, quad),
        (.securityQualityOfService, quad), (.desiredAccess, long), (.grantedAccess, long),
        (.version, quad), (.wow64Flags, long), (.attributes, long), (.checkAccessMode, byte),
        (.completeNameSz, ushort), (.completeName, array byte 1)]
  | .regQueryValueKeyInfo =>
    registryMembers ++
      [(.notifyClass, long), (.blank, long), (.object, quad), (.keyValueInformationClass, long),
        (.valueNameLength, ushort), (.valueName, array byte 1)]
  | .regRenameKeyInfo =>
    registryMembers ++ [(.object, quad), (.newNameLength, ushort), (.newName, array byte 1)]
  | .regPostOperationInfo =>
    registryMembers ++
      [(.object, quad), (.status, long), (.preInformation, quad), (.returnStatus, long)]
  | .regDeleteValueKeyInfo =>
    registryMembers ++ [(.object, quad), (.valueNameLength, ushort), (.valueName, array byte 1)]
  | .regSetValueKeyInfo =>
    registryMembers ++
      [(.object, quad), (.type, long), (.valueNameLength, ushort), (.valueName, array byte 1)]
  | .processListValidationFailed =>
    [(.header, sensorDataHeader), (.status, long), (.processId, quad), (.eProcess, quad)]
  | .commandMessage =>
    [(.command, long), (.sensorId, uuidUnion), (.dataSz, quad), (.data, array byte 1)]
  | .responseMessage =>
    [(.response, long), (.status, long), (.dataSz, quad), (.data, array byte 1)]
  | .probeStatusHeader => [(.numberOfEntries, long)]
  | .probeStatus =>
    [(.sensorId, uuidUnion), (.lastRunTime, quad), (.runInterval, quad), (.operationCount, long),
      (.attributes, ushort), (.enabled, byte), (.sensorName, array byte maxSensorNameSz)]

end Ctypes

namespace Record

def driver (r : Record) : Layout FieldName := struct (Windows.members r)

def user (r : Record) : Layout FieldName := struct (Ctypes.members r)

def trailingArray : Record → Option FieldName
  | loadedImageInfo => some .fullImageName
  | processCreateInfo => some .commandLine
  | regCreateKeyInfo => some .completeName
  | regQueryValueKeyInfo | regDeleteValueKeyInfo | regSetValueKeyInfo => some .valueName
  | regRenameKeyInfo => some .newName
  | commandMessage | responseMessage => some .data
  | _ => none

def Trailing (r : Record) (path : List FieldName) : Prop := r.trailingArray.map ([·]) = some path

instance (r : Record) (path : List FieldName) : Decidable (r.Trailing path) :=
  inferInstanceAs (Decidable (_ = _))

end Record

def FieldName.renamed : FieldName → FieldName
  | probeDataHeader => header
  | probeId => sensorId
  | probeType => sensorType
  | probeName => sensorName
  | name => name

/-- Where user space has a field of the driver. It has an identifier twice, in a union, and the
links of a list entry as one array. -/
def counterparts : List FieldName → List (List FieldName)
  | [] => [[]]
  | [.probeId] => [[.sensorId], [.sensorId, .uuid], [.sensorId, .data]]
  | .probeId :: rest => (counterparts rest).map fun path => .sensorId :: .uuid :: path
  | [.listEntry] => [[.listEntry], [.listEntry, .space]]
  | .flink :: _ | .blink :: _ => []
  | name :: rest => (counterparts rest).map (name.renamed :: ·)

/-- Every field of one side is where the other has it, up to the links, and up to the filler that
only user space names. -/
structure LaidOutAlike (r : Record) : Prop where
  same : ∀ field ∈ r.driver.fields, ∀ other ∈ r.user.fields, other.path ∈ counterparts field.path →
    other.offset = field.offset ∧ (r.Trailing other.path ↔ r.Trailing field.path) ∧
      (¬ r.Trailing field.path → other.size = field.size)
  present : ∀ field ∈ r.driver.fields, ∀ path ∈ counterparts field.path,
    ∃ other ∈ r.user.fields, other.path = path
  covered : ∀ field ∈ r.driver.fields,
    counterparts field.path ≠ [] ∨ field.path.getLast? ∈ [some .flink, some .blink]
  known : ∀ other ∈ r.user.fields,
    other.path = [.blank] ∨ ∃ field ∈ r.driver.fields, other.path ∈ counterparts field.path

theorem laid_out_alike (r : Record) : LaidOutAlike r := by
  cases r <;>
    exact ⟨by decide, by decide, by decide, by decide⟩

def Unrelated (path other : List FieldName) : Prop := ¬ path <+: other ∧ ¬ other <+: path

instance (path other : List FieldName) : Decidable (Unrelated path other) :=
  inferInstanceAs (Decidable (_ ∧ _))

structure Assignment (r : Record) where
  field : CLayout.Field FieldName
  declared : field ∈ r.driver.fields
  bytes : Bytes
  sized : bytes.length = field.size ∨ r.Trailing field.path

namespace Assignment

variable {r : Record}

def write (a : Assignment r) (start : Nat) : Write := ⟨start + a.field.offset, a.bytes⟩

def Leaves (a : Assignment r) (later : Assignment r) : Prop :=
  Unrelated a.field.path later.field.path

theorem fields_apart (r : Record) :
    ∀ field ∈ r.driver.fields, ∀ other ∈ r.driver.fields, Unrelated field.path other.path →
      (field.offset + field.size ≤ other.offset ∧ ¬ r.Trailing field.path) ∨
        (other.offset + other.size ≤ field.offset ∧ ¬ r.Trailing other.path) := by
  cases r <;> decide

theorem field_stop_le (r : Record) :
    ∀ field ∈ r.driver.fields, field.offset + field.size ≤ r.driver.size := by
  cases r <;> decide

theorem stop_le (closed : r.trailingArray = none) (a : Assignment r) :
    a.field.offset + a.bytes.length ≤ r.driver.size := by
  have sized : a.bytes.length = a.field.size :=
    a.sized.resolve_right (by simp [Record.Trailing, closed])
  exact sized ▸ field_stop_le r a.field a.declared

theorem write_apart {a later : Assignment r} (leaves : a.Leaves later) (start : Nat) :
    (later.write start).Apart (a.write start) := by
  simp only [Write.Apart, Write.stop, write]
  rcases fields_apart r a.field a.declared later.field later.declared leaves with
    ⟨before, inner⟩ | ⟨after, inner⟩
  · have sized := a.sized.resolve_right inner
    omega
  · have sized := later.sized.resolve_right inner
    omega

end Assignment

/-- What user space reads from a field of its own. How much of a trailing array it reads does not
come from the layout. -/
def Record.read (r : Record) (other : CLayout.Field FieldName) (count : Nat) (packet : Bytes) : Bytes :=
  load packet other.offset (if r.Trailing other.path then count else other.size)

theorem read_eq_load {r : Record} (a : Assignment r) {other : CLayout.Field FieldName}
    (known : other ∈ r.user.fields) (counterpart : other.path ∈ counterparts a.field.path)
    (packet : Bytes) :
    r.read other a.bytes.length packet = load packet a.field.offset a.bytes.length := by
  obtain ⟨offset, array, size⟩ :=
    (laid_out_alike r).same a.field a.declared other known counterpart
  rw [Record.read, offset]
  by_cases trailing : r.Trailing a.field.path
  · rw [if_pos (array.mpr trailing)]
  · rw [if_neg (mt array.mp trailing), size trailing, a.sized.resolve_right trailing]

/-- After any assignments inside a record, user space reads from each field what was assigned to it
last. -/
def ReadAsWritten (r : Record) : Prop :=
  ∀ (before : List (Assignment r)) (a : Assignment r) (after : List (Assignment r))
    (packet : Bytes),
    (∀ b ∈ before ++ a :: after, (b.write 0).Inside packet.length) →
    (∀ later ∈ after, a.Leaves later) →
    ∀ other ∈ r.user.fields, other.path ∈ counterparts a.field.path →
      r.read other a.bytes.length
        (runWrites packet ((before ++ a :: after).map (·.write 0))) = a.bytes

theorem read_as_written (r : Record) : ReadAsWritten r := by
  intro before a after packet inside leaves other known counterpart
  have here : (a.write 0).offset = a.field.offset := Nat.zero_add _
  rw [read_eq_load a known counterpart, ← here]
  exact load_runWrites_map (fun b : Assignment r => b.write 0) inside fun later member =>
    Assignment.write_apart (leaves later member) 0

namespace Enumeration

-- The driver steps with `pProbeStatusHeader++` and `pProbeStatus++`.
def driverEntry (ndx : Nat) : Nat :=
  Record.probeStatusHeader.driver.size + ndx * Record.probeStatus.driver.size

-- `rsp_buf[sizeof(SensorStatusHeader):]`, and from that the slice of one entry.
def userEntry (reply : Bytes) (ndx : Nat) : Bytes :=
  load (reply.drop Record.probeStatusHeader.user.size) (ndx * Record.probeStatus.user.size)
    Record.probeStatus.user.size

inductive Part where
  | header (a : Assignment .probeStatusHeader)
  | entry (ndx : Nat) (a : Assignment .probeStatus)

def Part.bytes : Part → Bytes
  | header a => a.bytes
  | entry _ a => a.bytes

def Part.write : Part → Write
  | header a => a.write 0
  | entry ndx a => a.write (driverEntry ndx)

def Part.Leaves : Part → Part → Prop
  | header a, header later => a.Leaves later
  | entry ndx a, entry place later => ndx = place → a.Leaves later
  | _, _ => True

def Part.Counterpart : Part → CLayout.Field FieldName → Prop
  | header a, other =>
    other ∈ Record.probeStatusHeader.user.fields ∧ other.path ∈ counterparts a.field.path
  | entry _ a, other =>
    other ∈ Record.probeStatus.user.fields ∧ other.path ∈ counterparts a.field.path

def Part.read : Part → CLayout.Field FieldName → Bytes → Bytes
  | header a, other, reply => Record.probeStatusHeader.read other a.bytes.length reply
  | entry ndx a, other, reply =>
    Record.probeStatus.read other a.bytes.length (userEntry reply ndx)

theorem sizes_agree :
    Record.probeStatusHeader.user.size = Record.probeStatusHeader.driver.size ∧
      Record.probeStatus.user.size = Record.probeStatus.driver.size := by
  decide

theorem driverEntry_add_le {ndx place : Nat} (lower : ndx < place) :
    driverEntry ndx + Record.probeStatus.driver.size ≤ driverEntry place := by
  have next : (ndx + 1) * Record.probeStatus.driver.size ≤ place * Record.probeStatus.driver.size :=
    Nat.mul_le_mul_right _ lower
  rw [Nat.succ_mul] at next
  unfold driverEntry
  omega

theorem Part.write_apart {part later : Part} (leaves : part.Leaves later) :
    later.write.Apart part.write := by
  cases part with
  | header a =>
    cases later with
    | header b => exact Assignment.write_apart leaves 0
    | entry place b =>
      right
      have stop := a.stop_le rfl
      simp only [Part.write, Write.stop, Assignment.write, driverEntry]
      omega
  | entry ndx a =>
    cases later with
    | header b =>
      left
      have stop := b.stop_le rfl
      simp only [Part.write, Write.stop, Assignment.write, driverEntry]
      omega
    | entry place b =>
      have stopHere := a.stop_le rfl
      have stopThere := b.stop_le rfl
      rcases Nat.lt_trichotomy ndx place with lower | rfl | higher
      · have next := driverEntry_add_le lower
        right
        simp only [Part.write, Write.stop, Assignment.write]
        omega
      · exact Assignment.write_apart (leaves rfl) _
      · have next := driverEntry_add_le higher
        left
        simp only [Part.write, Write.stop, Assignment.write]
        omega

theorem Part.read_eq_load {part : Part} {other : CLayout.Field FieldName}
    (counterpart : part.Counterpart other) (reply : Bytes) :
    part.read other reply = load reply part.write.offset part.bytes.length := by
  cases part with
  | header a =>
    have here : (a.write 0).offset = a.field.offset := Nat.zero_add _
    exact (Driver.read_eq_load a counterpart.1 counterpart.2 reply).trans (here ▸ rfl)
  | entry ndx a =>
    have sizes := sizes_agree
    rw [Part.read, Driver.read_eq_load a counterpart.1 counterpart.2, userEntry, sizes.1, sizes.2,
      load_load (a.stop_le rfl), load_drop, ← Nat.add_assoc]
    rfl

end Enumeration

/-- Entry `ndx` of an enumeration starts where the driver puts it, and after any assignments inside
the reply user space reads from each field of the header and of each entry what was assigned to it
last. -/
structure EnumerationAsWritten : Prop where
  starts : ∀ ndx, Record.probeStatusHeader.user.size + ndx * Record.probeStatus.user.size =
    Enumeration.driverEntry ndx
  reads : ∀ (before : List Enumeration.Part) (part : Enumeration.Part)
    (after : List Enumeration.Part) (reply : Bytes),
    (∀ p ∈ before ++ part :: after, p.write.Inside reply.length) →
    (∀ later ∈ after, part.Leaves later) →
    ∀ other, part.Counterpart other →
      part.read other
        (runWrites reply ((before ++ part :: after).map Enumeration.Part.write)) = part.bytes

theorem enumeration_as_written : EnumerationAsWritten where
  starts ndx := by
    rw [Enumeration.sizes_agree.1, Enumeration.sizes_agree.2, Enumeration.driverEntry]
  reads before part after reply inside leaves other counterpart := by
    have bytes : part.bytes = part.write.bytes := by cases part <;> rfl
    rw [Enumeration.Part.read_eq_load counterpart, bytes]
    exact load_runWrites_map Enumeration.Part.write inside fun later member =>
      Enumeration.Part.write_apart (leaves later member)

example :
    let reply := (Write.mk (Enumeration.driverEntry 1 + 32) [7, 0, 0, 0]).run (zeroBytes 212)
    Record.probeStatus.read ⟨[.operationCount], 32, 4⟩ 4 (Enumeration.userEntry reply 1) =
      [7, 0, 0, 0] := by
  decide

theorem shared_records_agree :
    (∀ r, LaidOutAlike r) ∧ (∀ r, ReadAsWritten r) ∧ EnumerationAsWritten :=
  ⟨laid_out_alike, read_as_written, enumeration_as_written⟩

end VirtueSensing.Driver
