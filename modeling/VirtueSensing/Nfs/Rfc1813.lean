import VirtueSensing.Nfs.BasicTypes

set_option autoImplicit false

/-!
# Values of the NFS version 3 protocol

The basic types of RFC 1813 with their XDR encodings, and the packet that shows each value. An
opaque or a string is counted, and filled up with zero bytes to whole words.
-/

namespace VirtueSensing.Nfs

open Dissect

namespace Rfc1813

def word (n : UInt32) : Bytes := bigEndian 4 n.toNat
def hyper (n : UInt64) : Bytes := bigEndian 8 n.toNat

abbrev Counted := { bytes : Bytes // bytes.length < 2 ^ 32 }

namespace Counted

def length (c : Counted) : Nat := c.val.length

def padding (c : Counted) : Bytes := List.replicate (padLength c.length) 0

def encode (c : Counted) : Bytes := bigEndian 4 c.length ++ (c.val ++ c.padding)

def text (c : Counted) : Nfs3.Text := ⟨c.length, c.val, c.padding⟩

def fhandle (c : Counted) : Nfs3.Fhandle := ⟨c.length, c.val⟩

end Counted

structure OpaqueAuth where
  flavor : UInt32
  body : Counted
  deriving DecidableEq

def OpaqueAuth.encode (v : OpaqueAuth) : Bytes := word v.flavor ++ v.body.encode

def OpaqueAuth.packet (v : OpaqueAuth) : Rpc.Verifier :=
  ⟨v.flavor.toNat, some v.body.length, v.body.val⟩

-- A boolean, and the value unless it is false.
def optional {α : Type} (encode : α → Bytes) : Option α → Bytes
  | none => word 0
  | some v => word 1 ++ encode v

def follows {α : Type} (v : Option α) : Nat := if v.isSome then 1 else 0

structure Nfstime3 where
  seconds : UInt32
  nseconds : UInt32
  deriving DecidableEq

def Nfstime3.encode (v : Nfstime3) : Bytes := word v.seconds ++ word v.nseconds

def Nfstime3.packet (v : Nfstime3) : Nfs3.Time := ⟨v.seconds.toNat, v.nseconds.toNat⟩

structure Specdata3 where
  specdata1 : UInt32
  specdata2 : UInt32
  deriving DecidableEq

def Specdata3.encode (v : Specdata3) : Bytes := word v.specdata1 ++ word v.specdata2

def Specdata3.packet (v : Specdata3) : Nfs3.Specdata := ⟨v.specdata1.toNat, v.specdata2.toNat⟩

structure Fattr3 where
  type : UInt32
  mode : UInt32
  nlink : UInt32
  uid : UInt32
  gid : UInt32
  size : UInt64
  used : UInt64
  rdev : Specdata3
  fsid : UInt64
  fileid : UInt64
  atime : Nfstime3
  mtime : Nfstime3
  ctime : Nfstime3
  deriving DecidableEq

def Fattr3.encode (v : Fattr3) : Bytes :=
  word v.type ++ (word v.mode ++ (word v.nlink ++ (word v.uid ++ (word v.gid ++ (hyper v.size ++
    (hyper v.used ++ (v.rdev.encode ++ (hyper v.fsid ++ (hyper v.fileid ++ (v.atime.encode ++
      (v.mtime.encode ++ v.ctime.encode)))))))))))

def intNumber (n : UInt32) : Nfs3.Number := ⟨n.toNat⟩
def longNumber (n : UInt64) : Nfs3.Number := ⟨n.toNat⟩

def Fattr3.packet (v : Fattr3) : Nfs3.Fattr where
  ftype := some (intNumber v.type)
  mode := some (intNumber v.mode)
  nlink := some (intNumber v.nlink)
  uid := some (intNumber v.uid)
  gid := some (intNumber v.gid)
  size := some (longNumber v.size)
  used := some (longNumber v.used)
  specdata := some v.rdev.packet
  fsid := v.fsid.toNat
  fileid := some (longNumber v.fileid)
  atime := some v.atime.packet
  mtime := some v.mtime.packet
  ctime := some v.ctime.packet

inductive SetTime where
  | dontChange
  | setToServerTime
  | setToClientTime (time : Nfstime3)
  deriving DecidableEq

namespace SetTime

def how : SetTime → UInt32
  | dontChange => 0
  | setToServerTime => 1
  | setToClientTime _ => 2

def time : SetTime → Option Nfstime3
  | setToClientTime time => some time
  | _ => none

def encode (v : SetTime) : Bytes :=
  match v.time with
  | none => word v.how
  | some time => word v.how ++ time.encode

end SetTime

structure Sattr3 where
  mode : Option UInt32
  uid : Option UInt32
  gid : Option UInt32
  size : Option UInt64
  atime : SetTime
  mtime : SetTime
  deriving DecidableEq

def Sattr3.encode (v : Sattr3) : Bytes :=
  optional word v.mode ++ (optional word v.uid ++ (optional word v.gid ++
    (optional hyper v.size ++ (v.atime.encode ++ v.mtime.encode))))

def Sattr3.packet (v : Sattr3) : Nfs3.Sattr where
  setMode := follows v.mode
  mode := v.mode.map intNumber
  setUid := follows v.uid
  uid := v.uid.map intNumber
  setGid := follows v.gid
  gid := v.gid.map intNumber
  setSize := follows v.size
  size := v.size.map longNumber
  setAtime := v.atime.how.toNat
  atime := v.atime.time.map Nfstime3.packet
  setMtime := v.mtime.how.toNat
  mtime := v.mtime.time.map Nfstime3.packet

abbrev PostOpAttr := Option Fattr3

def PostOpAttr.encode (v : PostOpAttr) : Bytes := optional Fattr3.encode v

def PostOpAttr.packet (v : PostOpAttr) : Nfs3.PostOpAttr := ⟨follows v, v.map Fattr3.packet⟩

abbrev PostOpFh3 := Option Counted

def PostOpFh3.encode (v : PostOpFh3) : Bytes := optional Counted.encode v

def PostOpFh3.packet (v : PostOpFh3) : Nfs3.PostOpFh := ⟨follows v, v.map Counted.fhandle⟩

structure WccAttr where
  size : UInt64
  mtime : Nfstime3
  ctime : Nfstime3
  deriving DecidableEq

def WccAttr.encode (v : WccAttr) : Bytes := hyper v.size ++ (v.mtime.encode ++ v.ctime.encode)

def WccAttr.packet (v : WccAttr) : Nfs3.WccAttr :=
  ⟨some (longNumber v.size), some v.mtime.packet, some v.ctime.packet⟩

abbrev PreOpAttr := Option WccAttr

def PreOpAttr.encode (v : PreOpAttr) : Bytes := optional WccAttr.encode v

def PreOpAttr.packet (v : PreOpAttr) : Nfs3.PreOpAttr := ⟨follows v, v.map WccAttr.packet⟩

structure WccData where
  before : PreOpAttr
  after : PostOpAttr
  deriving DecidableEq

def WccData.encode (v : WccData) : Bytes := v.before.encode ++ v.after.encode

def WccData.packet (v : WccData) : Nfs3.WccData := ⟨some v.before.packet, some v.after.packet⟩

structure Diropargs3 where
  dir : Counted
  name : Counted
  deriving DecidableEq

def Diropargs3.encode (v : Diropargs3) : Bytes := v.dir.encode ++ v.name.encode

def Diropargs3.packet (v : Diropargs3) : Nfs3.DirOpArgs := ⟨some v.dir.fhandle, some v.name.text⟩

abbrev Sattrguard3 := Option Nfstime3

def Sattrguard3.encode (v : Sattrguard3) : Bytes := optional Nfstime3.encode v

def Sattrguard3.packet (v : Sattrguard3) : Nfs3.Sattrguard :=
  ⟨follows v, v.map Nfstime3.packet⟩

structure Symlinkdata3 where
  symlinkAttributes : Sattr3
  symlinkData : Counted
  deriving DecidableEq

def Symlinkdata3.encode (v : Symlinkdata3) : Bytes :=
  v.symlinkAttributes.encode ++ v.symlinkData.encode

def Symlinkdata3.packet (v : Symlinkdata3) : Nfs3.SymlinkData :=
  ⟨some v.symlinkAttributes.packet, some v.symlinkData.text⟩

end Rfc1813

end VirtueSensing.Nfs
