import VirtueSensing.Shared.CLayout
import VirtueSensing.Shared.Integers

set_option autoImplicit false

/-!
# The queries for processes and handles

`ntquerysys.py`. Structures are laid out as `ctypes` does for 64-bit Windows, and one that was read
from a buffer is its bytes. A generator is what it has yielded when it ends, with the slices it took.
-/

namespace VirtueSensing.WinVirtue.NtQuerySys

open CLayout Integers

inductive Name where
  | length
  | maximumLength
  | buffer
  | uniqueProcess
  | uniqueThread
  | nextEntryOffset
  | numberOfThreads
  | workingSetPrivate
  | hardFaultCount
  | numberOfThreadsHighWatermark
  | cycleTime
  | createTime
  | userTime
  | kernelTime
  | imageName
  | basePriority
  | uniqueProcessId
  | inheritedFromUniqueProcessId
  | handleCount
  | sessionId
  | uniqueProcessKey
  | peakVirtualSize
  | virtualSize
  | pageFaultCount
  | peakWorkingSetSize
  | workingSetSize
  | quotaPeakPagedPoolUsage
  | quotaPagedPoolUsage
  | quotaPeakNonPagedPoolUsage
  | quotaNonPagedPoolUsage
  | pagefileUsage
  | peakPagefileUsage
  | privatePageCount
  | readOperationCount
  | writeOperationCount
  | otherOperationCount
  | readTransferCount
  | writeTransferCount
  | otherTransferCount
  | waitTime
  | startAddress
  | clientId
  | priority
  | contextSwitches
  | threadState
  | waitReason
  | creatorBackTraceIndex
  | objectTypeIndex
  | handleAttributes
  | handleValue
  | object
  | grantedAccess
  | numberOfHandles
  | handles
  deriving DecidableEq, Repr

inductive Kind where
  | unsigned (size : Nat)
  | signed (size : Nat)
  | pointer
  | unicodeString
  deriving DecidableEq, Repr

def unicodeString : Layout Name :=
  struct [(.length, scalar 2), (.maximumLength, scalar 2), (.buffer, scalar 8)]

def clientId : Layout Name := struct [(.uniqueProcess, scalar 8), (.uniqueThread, scalar 8)]

def Kind.layout : Kind → Layout Name
  | .unsigned size | .signed size => scalar size
  | .pointer => scalar 8
  | .unicodeString => NtQuerySys.unicodeString

def ulong : Kind := .unsigned 4
def long : Kind := .signed 4
def largeInteger : Kind := .signed 8

def layout (members : List (Name × Kind)) : Layout Name :=
  struct (members.map fun member => (member.1, member.2.layout))

def systemProcessInformation : List (Name × Kind) :=
  [(.nextEntryOffset, ulong), (.numberOfThreads, ulong), (.workingSetPrivate, largeInteger),
    (.hardFaultCount, ulong), (.numberOfThreadsHighWatermark, ulong), (.cycleTime, .unsigned 8),
    (.createTime, largeInteger), (.userTime, largeInteger), (.kernelTime, largeInteger),
    (.imageName, .unicodeString), (.basePriority, long), (.uniqueProcessId, .pointer),
    (.inheritedFromUniqueProcessId, .pointer), (.handleCount, ulong), (.sessionId, ulong),
    (.uniqueProcessKey, .pointer), (.peakVirtualSize, .pointer), (.virtualSize, .pointer),
    (.pageFaultCount, ulong), (.peakWorkingSetSize, .pointer), (.workingSetSize, .pointer),
    (.quotaPeakPagedPoolUsage, .pointer), (.quotaPagedPoolUsage, .pointer),
    (.quotaPeakNonPagedPoolUsage, .pointer), (.quotaNonPagedPoolUsage, .pointer),
    (.pagefileUsage, .pointer), (.peakPagefileUsage, .pointer), (.privatePageCount, .unsigned 8),
    (.readOperationCount, largeInteger), (.writeOperationCount, largeInteger),
    (.otherOperationCount, largeInteger), (.readTransferCount, largeInteger),
    (.writeTransferCount, largeInteger), (.otherTransferCount, largeInteger)]

def systemThreadInformation : Layout Name :=
  struct [(.kernelTime, largeInteger.layout), (.userTime, largeInteger.layout),
    (.createTime, largeInteger.layout), (.waitTime, ulong.layout),
    (.startAddress, Kind.pointer.layout), (.clientId, clientId), (.priority, long.layout),
    (.basePriority, long.layout), (.contextSwitches, ulong.layout), (.threadState, ulong.layout),
    (.waitReason, ulong.layout)]

def systemHandleTableEntryInfo : List (Name × Kind) :=
  [(.uniqueProcessId, .unsigned 2), (.creatorBackTraceIndex, .unsigned 2),
    (.objectTypeIndex, .unsigned 1), (.handleAttributes, .unsigned 1), (.handleValue, .unsigned 2),
    (.object, .pointer), (.grantedAccess, ulong)]

def systemHandleInformation : Layout Name :=
  struct [(.numberOfHandles, ulong.layout), (.handles, layout systemHandleTableEntryInfo)]

@[irreducible] def szSpi : Nat := (layout systemProcessInformation).size
@[irreducible] def szSti : Nat := systemThreadInformation.size
@[irreducible] def szShtei : Nat := (layout systemHandleTableEntryInfo).size

def offsetIn (l : Layout Name) (name : Name) : Nat :=
  ((l.fields.find? fun f => f.path = [name]).map CLayout.Field.offset).getD 0

def fieldBytes (members : List (Name × Kind)) (name : Name) (record : Bytes) : Bytes :=
  match (layout members).fields.find? fun f => f.path = [name] with
  | some f => load record f.offset f.size
  | none => []

def nextEntryOffset (spi : Bytes) : Nat := little (fieldBytes systemProcessInformation .nextEntryOffset spi)
def numberOfThreads (spi : Bytes) : Nat := little (fieldBytes systemProcessInformation .numberOfThreads spi)

-- An address is an integer, or `None` where it is zero.
def address (bytes : Bytes) : Option Nat := if little bytes = 0 then none else some (little bytes)

def uniqueProcessId (spi : Bytes) : Option Nat :=
  address (fieldBytes systemProcessInformation .uniqueProcessId spi)

def owner (shi : Bytes) : Nat := little (fieldBytes systemHandleTableEntryInfo .uniqueProcessId shi)

inductive Value where
  | none
  | int (n : Int)
  | text (text : List Char)
  deriving DecidableEq, Repr

def Value.ofAddress : Option Nat → Value
  | some n => .int n
  | .none => .none

/-- The text that a `Buffer` points to. There may be none. -/
abbrev Texts := Nat → Option (List Char)

def asciiOnly (text : List Char) : Bool := text.all fun c => c.toNat < 128

def Kind.value (texts : Texts) (bytes : Bytes) : Kind → Value
  | .unsigned _ => .int (little bytes)
  | .signed _ => .int (Integers.signed bytes)
  | .pointer => .ofAddress (address bytes)
  | .unicodeString =>
    match texts (little (load bytes (offsetIn NtQuerySys.unicodeString .buffer) 8)) with
    | some text => if asciiOnly text then .text text else .none
    | none => .none

-- `to_dict` of a process, which has no field of the type `CLIENT_ID`.
def toDict (texts : Texts) (spi : Bytes) : List (Name × Value) :=
  systemProcessInformation.map fun member =>
    (member.1, member.2.value texts (fieldBytes systemProcessInformation member.1 spi))

structure Process where
  dict : List (Name × Value)
  threads : Bytes
  deriving DecidableEq, Repr

inductive Ending where
  | finished
  | valueError
  | running
  deriving DecidableEq, Repr

/-- A run of a generator, with the start and the end of each slice. -/
structure Run (α : Type) where
  items : List α
  slices : List (Nat × Nat)
  ending : Ending
  deriving DecidableEq, Repr

def Run.after {α : Type} (items : List α) (slices : List (Nat × Nat)) (r : Run α) : Run α :=
  ⟨items ++ r.items, slices ++ r.slices, r.ending⟩

/-- What the second `NtQuerySystemInformation` answers. -/
structure Answer where
  status : Nat
  raw : Bytes

def statusSuccess : Nat := 0

-- `create_string_buffer(buf.raw)` puts a zero behind it.
def Answer.array (answer : Answer) : Bytes := answer.raw ++ [0]

-- `(BYTE * size).from_buffer(...)` raises when there are fewer bytes.
def fromBuffer (size : Nat) (slice : Bytes) : Option Bytes :=
  if slice.length < size then none else some (slice.take size)

-- `pid and isinstance(pid, int) and pid == ...`
def selected (pid : Option Int) (owner : Option Nat) : Bool :=
  pid.any fun pid => pid ≠ 0 && owner.any fun owner => (owner : Int) = pid

def objectsFrom (texts : Texts) (pid : Option Int) (array : Bytes) : Nat → Nat → Run Process
  | 0, _ => ⟨[], [], .running⟩
  | fuel + 1, start =>
    let stop := start + szSpi
    match fromBuffer szSpi (load array start szSpi) with
    | none => ⟨[], [(start, stop)], .valueError⟩
    | some process =>
      if nextEntryOffset process = 0 then ⟨[], [(start, stop)], .finished⟩
      else
        let size := szSti * numberOfThreads process
        let turn := Run.after [⟨toDict texts process, load array stop size⟩]
          [(start, stop), (stop, stop + size)]
        if selected pid (uniqueProcessId process) then turn ⟨[], [], .finished⟩
        else turn (objectsFrom texts pid array fuel (start + nextEntryOffset process))

-- Every turn but the last moves on by a byte at least.
def getProcessObjects (texts : Texts) (pid : Option Int) (answer : Answer) : Run Process :=
  if answer.status = statusSuccess then objectsFrom texts pid answer.array answer.array.length 0
  else ⟨[], [], .finished⟩

def idsFrom (array : Bytes) : Nat → Nat → Run Nat
  | 0, _ => ⟨[], [], .running⟩
  | fuel + 1, start =>
    let stop := start + szSpi
    match fromBuffer szSpi (load array start szSpi) with
    | none => ⟨[], [(start, stop)], .valueError⟩
    | some spi =>
      let turn := Run.after [(uniqueProcessId spi).getD 0] [(start, stop)]
      if nextEntryOffset spi = 0 then turn ⟨[], [], .finished⟩
      else turn (idsFrom array fuel (start + nextEntryOffset spi))

def getProcessIds (answer : Answer) : Run Nat :=
  if answer.status = statusSuccess then idsFrom answer.array answer.array.length 0
  else ⟨[], [], .finished⟩

def handlesFrom (pid : Option Int) (array : Bytes) : Nat → Nat → Run Bytes
  | 0, _ => ⟨[], [], .finished⟩
  | left + 1, ndx =>
    let start := szShtei * ndx
    match fromBuffer szShtei (load array start szShtei) with
    | none => ⟨[], [(start, start + szShtei)], .valueError⟩
    | some shi =>
      let turn := Run.after [shi] [(start, start + szShtei)]
      if selected pid (some (owner shi)) then turn ⟨[], [], .finished⟩
      else turn (handlesFrom pid array left (ndx + 1))

def getSystemHandleInformation (pid : Option Int) (answer : Answer) : Run Bytes :=
  if pid.all fun pid => pid = 0 || pid % 4 ≠ 0 then ⟨[], [], .finished⟩
  else if answer.status = statusSuccess then
    handlesFrom pid (answer.array.drop (offsetIn systemHandleInformation .handles))
      (little (load answer.raw 0 4)) 0
  else ⟨[], [], .finished⟩

end VirtueSensing.WinVirtue.NtQuerySys
