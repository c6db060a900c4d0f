import VirtueSensing.Shared.Dissect

set_option autoImplicit false

/-!
# Basic data types of the NFS sensor

The packet classes of `nfs.py` for the basic types of NFS version 3. A packet that is a field of
another is there unless no byte was left for it.
-/

namespace VirtueSensing.Nfs

open Dissect

def int : Dissector Nat := field 0 (integer 4)
def long : Dissector Nat := field 0 (integer 8)
def str (length : Nat) : Dissector Bytes := field [] (string length)

-- `-length % 4`
def padLength (length : Nat) : Nat := (4 - length % 4) % 4

namespace Nfs3

structure Text where
  l : Nat
  v : Bytes
  p : Bytes
  deriving DecidableEq, Repr

def text : Dissector Text := do
  let l ← int
  let v ← str l
  let p ← str (padLength l)
  return ⟨l, v, p⟩

def fname : Dissector Text := text
def path : Dissector Text := text

structure Number where
  v : Nat
  deriving DecidableEq, Repr

def longNumber : Dissector Number := do
  let v ← long
  return ⟨v⟩

def intNumber : Dissector Number := do
  let v ← int
  return ⟨v⟩

def fileid : Dissector Number := longNumber
def cookie : Dissector Number := longNumber
def cookieverf : Dissector Number := longNumber
def createverf : Dissector Number := longNumber
def writeverf : Dissector Number := longNumber
def uid : Dissector Number := intNumber
def gid : Dissector Number := intNumber
def size : Dissector Number := longNumber
def offset : Dissector Number := longNumber
def mode : Dissector Number := intNumber
def count : Dissector Number := intNumber
def ftype : Dissector Number := intNumber

structure Specdata where
  specdata1 : Nat
  specdata2 : Nat
  deriving DecidableEq, Repr

def specdata : Dissector Specdata := do
  let specdata1 ← int
  let specdata2 ← int
  return ⟨specdata1, specdata2⟩

structure Time where
  sec : Nat
  nsec : Nat
  deriving DecidableEq, Repr

def time : Dissector Time := do
  let sec ← int
  let nsec ← int
  return ⟨sec, nsec⟩

structure Fhandle where
  l : Nat
  v : Bytes
  deriving DecidableEq, Repr

def fhandle : Dissector Fhandle := do
  let l ← int
  let v ← str l
  return ⟨l, v⟩

structure Fattr where
  ftype : Option Number
  mode : Option Number
  nlink : Option Number
  uid : Option Number
  gid : Option Number
  size : Option Number
  used : Option Number
  specdata : Option Specdata
  fsid : Nat
  fileid : Option Number
  atime : Option Time
  mtime : Option Time
  ctime : Option Time
  deriving DecidableEq, Repr

def fattr : Dissector Fattr := do
  let ftype ← packetField Nfs3.ftype
  let mode ← packetField Nfs3.mode
  let nlink ← packetField Nfs3.count
  let uid ← packetField Nfs3.uid
  let gid ← packetField Nfs3.gid
  let size ← packetField Nfs3.size
  let used ← packetField Nfs3.size
  let specdata ← packetField Nfs3.specdata
  let fsid ← long
  let fileid ← packetField Nfs3.fileid
  let atime ← packetField Nfs3.time
  let mtime ← packetField Nfs3.time
  let ctime ← packetField Nfs3.time
  return ⟨ftype, mode, nlink, uid, gid, size, used, specdata, fsid, fileid, atime, mtime, ctime⟩

structure Sattr where
  setMode : Nat
  mode : Option Number
  setUid : Nat
  uid : Option Number
  setGid : Nat
  gid : Option Number
  setSize : Nat
  size : Option Number
  setAtime : Nat
  atime : Option Time
  setMtime : Nat
  mtime : Option Time
  deriving DecidableEq, Repr

-- A word and, unless it is zero, a packet.
def following {α : Type} (d : Dissector α) : Dissector (Nat × Option α) := do
  let set ← int
  let value ← conditional (set ≠ 0) (packetField d)
  return (set, value)

def sattr : Dissector Sattr := do
  let (setMode, mode) ← following Nfs3.mode
  let (setUid, uid) ← following Nfs3.uid
  let (setGid, gid) ← following Nfs3.gid
  let (setSize, size) ← following Nfs3.size
  let (setAtime, atime) ← following Nfs3.time
  let (setMtime, mtime) ← following Nfs3.time
  return ⟨setMode, mode, setUid, uid, setGid, gid, setSize, size, setAtime, atime, setMtime, mtime⟩

structure PostOpAttr where
  attribsFollow : Nat
  fattr : Option Fattr
  deriving DecidableEq, Repr

def postOpAttr : Dissector PostOpAttr := do
  let (attribsFollow, fattr) ← following Nfs3.fattr
  return ⟨attribsFollow, fattr⟩

structure PostOpFh where
  handleFollows : Nat
  handle : Option Fhandle
  deriving DecidableEq, Repr

def postOpFh : Dissector PostOpFh := do
  let (handleFollows, handle) ← following Nfs3.fhandle
  return ⟨handleFollows, handle⟩

structure WccAttr where
  size : Option Number
  mtime : Option Time
  ctime : Option Time
  deriving DecidableEq, Repr

def wccAttr : Dissector WccAttr := do
  let size ← packetField Nfs3.size
  let mtime ← packetField Nfs3.time
  let ctime ← packetField Nfs3.time
  return ⟨size, mtime, ctime⟩

structure PreOpAttr where
  attribsFollow : Nat
  attr : Option WccAttr
  deriving DecidableEq, Repr

-- The attributes are read whether they follow or not.
def preOpAttr : Dissector PreOpAttr := do
  let attribsFollow ← int
  let attr ← packetField Nfs3.wccAttr
  return ⟨attribsFollow, attr⟩

structure WccData where
  before : Option PreOpAttr
  after : Option PostOpAttr
  deriving DecidableEq, Repr

def wccData : Dissector WccData := do
  let before ← packetField Nfs3.preOpAttr
  let after ← packetField Nfs3.postOpAttr
  return ⟨before, after⟩

structure DirOpArgs where
  handle : Option Fhandle
  fname : Option Text
  deriving DecidableEq, Repr

def dirOpArgs : Dissector DirOpArgs := do
  let handle ← packetField Nfs3.fhandle
  let fname ← packetField Nfs3.fname
  return ⟨handle, fname⟩

structure Sattrguard where
  check : Nat
  objCtime : Option Time
  deriving DecidableEq, Repr

def sattrguard : Dissector Sattrguard := do
  let (check, objCtime) ← following Nfs3.time
  return ⟨check, objCtime⟩

structure SymlinkData where
  attr : Option Sattr
  path : Option Text
  deriving DecidableEq, Repr

def symlinkData : Dissector SymlinkData := do
  let attr ← packetField Nfs3.sattr
  let path ← packetField Nfs3.path
  return ⟨attr, path⟩

structure Status where
  v : Option Nat
  deriving DecidableEq, Repr

def status : Dissector Status := do
  let v ← field none (some <$> integer 4)
  return ⟨v⟩

end Nfs3

namespace Rpc

structure Verifier where
  flavor : Nat
  l : Option Nat
  d : Bytes
  deriving DecidableEq, Repr

-- Without a length there is nothing left for the string either.
def verifier : Dissector Verifier := do
  let flavor ← int
  let l ← field none (some <$> integer 4)
  let d ← str (l.getD 0)
  return ⟨flavor, l, d⟩

end Rpc

end VirtueSensing.Nfs
