import VirtueSensing.Kernel.PsSensor

set_option autoImplicit false

/-!
# The lsof sensor

`lsof-sensor.c`: one record for each open file of each task. The path of a file is written into a
buffer of the record, and a path that does not fit leaves the record with an offset made from an
error pointer.
-/

namespace VirtueSensing.Kernel

def maxDentryLen : Nat := 0x100

/-- A path that `d_path` finds room for, its terminating zero included. -/
structure DentryPath where
  bytes : Bytes
  fits : bytes.length < maxDentryLen - 1

def dPath (path : Bytes) : Option DentryPath :=
  if fits : path.length < maxDentryLen - 1 then some ⟨path, fits⟩ else none

structure File where
  path : Bytes
  flags : UInt32
  mode : UInt32
  count : Int64
  deriving DecidableEq

structure FilesTask where
  pid : Int32
  uid : UInt32
  files : List File

structure LsofData where
  clear : UInt8
  nonce : UInt64
  userId : UInt32
  pidNr : Int32
  count : Int64
  flags : UInt32
  mode : UInt32
  -- The string at `dp_offset`, unless the offset lies outside of the record.
  dpath : Option DentryPath

structure LsofSensor where
  name : Bytes
  uuidString : Bytes
  deriving DecidableEq, Repr

def LsofData.free : LsofData :=
  ⟨flexArrayFree, 0x6c6c6c6c6c6c6c6c, 0x6c6c6c6c, 0x6c6c6c6c, 0x6c6c6c6c6c6c6c6c, 0x6c6c6c6c,
    0x6c6c6c6c, none⟩

-- The reference that the sensor itself holds is not counted.
def File.lsofData (f : File) (t : FilesTask) (nonce : UInt64) : LsofData :=
  ⟨0, nonce, t.uid, t.pid, f.count - 1, f.flags, f.mode, dPath f.path⟩

def lsofGetFilesStruct (nonce : UInt64) (t : FilesTask) :
    List File → Nat → FlexArray LsofData → Int × Nat × FlexArray LsofData
  | [], start, a => (0, start, a)
  | f :: rest, start, a =>
    if start < a.size then
      lsofGetFilesStruct nonce t rest (start + 1) (a.put start (f.lsofData t nonce))
    else (enomem, start, a)

-- A task whose files find no room does not stop the loop.
def lsofForEachPidUnlocked (nonce : UInt64) :
    List FilesTask → Nat → FlexArray LsofData → Int × FlexArray LsofData
  | [], fileIndex, a => (fileIndex, a)
  | t :: rest, fileIndex, a =>
    let (_, fileIndex, a) := lsofGetFilesStruct nonce t t.files fileIndex a
    lsofForEachPidUnlocked nonce rest fileIndex a

def kernelLsofUnlocked (nonce : UInt64) (tasks : List FilesTask) (a : FlexArray LsofData) :
    Int × FlexArray LsofData :=
  lsofForEachPidUnlocked nonce tasks 0 a

def emptyLsofRecord (parent : LsofSensor) (rr : RecordsRequest) : Bytes :=
  scnprintf connectionMaxReply
    (replyHeader ++ ascii " " ++ quoted rr.jsonNonce ++ ascii ", " ++ quoted parent.name ++
      ascii ", " ++ quoted parent.uuidString ++ ascii "]\x7d\n")

-- `stray` is what stands at an offset outside of the record.
def LsofData.printedPath (stray : Bytes) (data : LsofData) : Bytes :=
  match data.dpath with
  | some path => path.bytes.cString
  | none => stray.cString

def lsofRecord (parent : LsofSensor) (tag stray : Bytes) (rr : RecordsRequest) (data : LsofData) :
    Bytes :=
  scnprintf connectionMaxReply
    (replyHeader ++ ascii " " ++ quoted rr.jsonNonce ++ ascii ", " ++ quoted parent.name ++
      ascii ", " ++ quoted tag ++ ascii ", " ++ quoted parent.uuidString ++
      ascii ",\x7b\"uid\": " ++ printInt data.userId.toBitVec.toInt ++
      ascii ", \"pid\": " ++ printInt data.pidNr.toInt ++
      ascii ", \"flags\": " ++ printInt data.flags.toNat ++
      ascii ", \"mode\": " ++ printInt data.mode.toNat ++
      ascii ", \"count\": " ++ printInt data.count.toInt ++
      ascii ", \"path\": " ++ quoted (data.printedPath stray) ++ ascii "\x7d ]\x7d\n")

def LsofData.ends (data : LsofData) (rr : RecordsRequest) : Bool :=
  data.clear = flexArrayFree ∨ (rr.nonce ≠ 0 ∧ data.nonce ≠ rr.nonce)

def readLsofRecord (parent : LsofSensor) (tag stray : Bytes) (rr : RecordsRequest)
    (a : FlexArray LsofData) : RecordsReply :=
  match a.get rr.index with
  | none => ⟨enoent, rr.range, emptyLsofRecord parent rr⟩
  | some data =>
    if data.ends rr then ⟨enoent, rr.range, emptyLsofRecord parent rr⟩
    else ⟨rr.index, rr.range, lsofRecord parent tag stray rr data⟩

def kernelLsofGetRecord (parent : LsofSensor) (tag stray : Bytes) (tasks : List FilesTask) :
    SensorMessage (FlexArray LsofData) :=
  fun rr rp a =>
    let (ccode, a) := if rr.runProbe then kernelLsofUnlocked rr.nonce tasks a else (0, a)
    if ccode < 0 then (ccode, rp, a)
    else
      (0, readLsofRecord parent tag stray rr a, if rr.clear then a.put rr.index .free else a)

def lsofMessage (parent : LsofSensor) (stray : Bytes) (tasks : List FilesTask) :
    SensorMessage (FlexArray LsofData) :=
  kernelLsofGetRecord parent (ascii "kernel-lsof") stray tasks

end VirtueSensing.Kernel
