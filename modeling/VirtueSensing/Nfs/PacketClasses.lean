import VirtueSensing.Nfs.ProcedureReplies
import VirtueSensing.Nfs.RpcHeaders
import VirtueSensing.Shared.Layers

set_option autoImplicit false

/-!
# Packet classes of the NFS sensor

The classes of `nfs.py` for calls and replies, each with its fields in their order. What scapy makes
of some bytes is a list of layers.
-/

namespace VirtueSensing.Nfs

open Dissect

inductive Attr where
  | xid | direction | load | low | high
  | rpcVersion | prog | progVersion | proc | credFlav | credLen | authSys | authNull | verifier
  | state | verify | acceptState
  | handle | newAttr | guard | args | checkAccess | offset | count | stable | dataLen | data | mode
  | attr | how | where_ | symlink | ffrom | fto | link | cookie | cookieverf | dircount | maxcount
  | root | path
  | nfsStatus | fattr | objWcc | obj | dir | access | file | eof | p | wcc | committed | writeverf
  | linkdir | entryFollows | entries | tbytes | fbytes | abytes | tfiles | ffiles | afiles
  | invarsec | fs | rtmax | rtpref | rtmult | wtmax | wtpref | wtmult | dtmult | maxfilesize
  | timeDelta | properties | linkmax | nameMax | notrunc | chownRestricted | caseInsensitive
  | casePreserving | pathconf
  | status | authFlavorCt | authFlavors | program | version | proto | port
  deriving DecidableEq, Repr

/-- What stands in a field. -/
inductive Value where
  | none
  | int (v : Nat)
  | handle (handle : Option Nfs3.Fhandle)
  | text (text : Nfs3.Text)
  | dirOpArgs (args : Nfs3.DirOpArgs)
  | symlinkData (data : Nfs3.SymlinkData)
  | sattr (attr : Nfs3.Sattr)
  | nfsStatus (status : Nfs3.Status)
  | rpcStatus (status : Nfs3.Number)
  | postOpFh (fh : Nfs3.PostOpFh)
  | auth (auth : Item Rpc.AuthSys)
  -- No handler looks into it.
  | unread
  deriving DecidableEq

abbrev Fields := Attr → Value

abbrev Packet := List (Layer Attr Value)

def raw : Layer Attr Value := ⟨[.load], fun _ => .unread⟩

structure PacketClass where
  names : List Attr
  dissect : Dissector Fields

namespace PacketClass

-- A field is read with the fields before it.
def readFields : List (Attr × (Fields → Dissector Value)) → Fields → Dissector Fields
  | [], pkt => pure pkt
  | (name, getfield) :: rest, pkt => do
    let value ← getfield pkt
    readFields rest (Function.update pkt name value)

def of (fieldsDesc : List (Attr × (Fields → Dissector Value))) : PacketClass :=
  ⟨fieldsDesc.map Prod.fst, readFields fieldsDesc fun _ => .none⟩

-- A class whose fields no handler reads.
def unread {α : Type} (names : List Attr) (d : Dissector α) : PacketClass :=
  ⟨names, (fun _ _ => .unread) <$> d⟩

end PacketClass

/-- A class with the one that it guesses for its payload. -/
structure LayeredClass where
  cls : PacketClass
  payload : Fields → Option PacketClass

namespace LayeredClass

def plain (cls : PacketClass) : LayeredClass := ⟨cls, fun _ => none⟩

/-- The layers of some bytes. A class that raises leaves a raw one, as no class does. -/
def layers (c : LayeredClass) (s : Bytes) : Packet :=
  if s = [] then []
  else
    match c.cls.dissect s with
    | .error _ => [raw]
    | .ok (pkt, left) =>
      ⟨c.cls.names, pkt⟩ ::
        if left = [] then []
        else
          match c.payload pkt with
          | none => [raw]
          | some cls =>
            match cls.dissect left with
            | .error _ => [raw]
            | .ok (pkt, later) => ⟨cls.names, pkt⟩ :: if later = [] then [] else [raw]

def reads (c : LayeredClass) (s : Bytes) : Bool :=
  match c.cls.dissect s with
  | .error _ => false
  | .ok (pkt, left) =>
    left = [] ∨ ∀ cls ∈ c.payload pkt, (cls.dissect left).isOk

end LayeredClass

def intField : Fields → Dissector Value := fun _ => Value.int <$> int

def handleField : Fields → Dissector Value := fun _ => Value.handle <$> packetField Nfs3.fhandle

def packet {α : Type} (value : α → Value) (d : Dissector α) : Fields → Dissector Value := fun _ =>
  (fun p => (p.map value).getD .none) <$> packetField d

def unreadPacket {α : Type} (d : Dissector α) : Fields → Dissector Value := packet (fun _ => .unread) d

namespace Calls

def handleOnly (name : Attr) : PacketClass := .of [(name, handleField)]

def dirOp (name : Attr) : Attr × (Fields → Dissector Value) := (name, packet .dirOpArgs Nfs3.dirOpArgs)

def null : PacketClass := .of []

def getattr : PacketClass := handleOnly .handle

def setattr : PacketClass := .of [
  (.handle, handleField), (.newAttr, packet .sattr Nfs3.sattr), (.guard, unreadPacket Nfs3.sattrguard)]

def lookup : PacketClass := .of [dirOp .args]

def access : PacketClass := .of [(.handle, handleField), (.checkAccess, intField)]

def readlink : PacketClass := handleOnly .handle

def read : PacketClass := .of [
  (.handle, handleField), (.offset, unreadPacket Nfs3.offset), (.count, unreadPacket Nfs3.count)]

def write : PacketClass := .of [
  (.handle, handleField), (.offset, unreadPacket Nfs3.offset), (.count, unreadPacket Nfs3.count),
  (.stable, intField), (.dataLen, intField), (.data, fun _ => (fun _ => .unread) <$> remaining)]

-- UNCHECKED and GUARDED have attributes, EXCLUSIVE has a verifier.
def createAttr : Fields → Dissector Value := fun pkt =>
  if pkt .mode = .int 0 ∨ pkt .mode = .int 1 then unreadPacket Nfs3.sattr pkt else pure .none

def createHow : Fields → Dissector Value := fun pkt =>
  if pkt .mode = .int 2 then unreadPacket Nfs3.createverf pkt else pure .none

def create : PacketClass := .of [
  dirOp .args, (.mode, intField), (.attr, createAttr), (.how, createHow)]

def mkdir : PacketClass := .of [dirOp .args, (.attr, unreadPacket Nfs3.sattr)]

def symlink : PacketClass := .of [dirOp .where_, (.symlink, packet .symlinkData Nfs3.symlinkData)]

def mknod : PacketClass := .of []

def remove : PacketClass := .of [dirOp .args]

def rmdir : PacketClass := .of [dirOp .args]

def rename : PacketClass := .of [dirOp .ffrom, dirOp .fto]

def link : PacketClass := .of [(.handle, handleField), dirOp .link]

def readdir : PacketClass := .of [
  (.handle, handleField), (.cookie, unreadPacket Nfs3.cookie),
  (.cookieverf, unreadPacket Nfs3.cookieverf), (.count, unreadPacket Nfs3.count)]

def readdirplus : PacketClass := .of [
  (.handle, handleField), (.cookie, unreadPacket Nfs3.cookie),
  (.cookieverf, unreadPacket Nfs3.cookieverf), (.dircount, unreadPacket Nfs3.count),
  (.maxcount, unreadPacket Nfs3.count)]

def fsstat : PacketClass := handleOnly .root

def fsinfo : PacketClass := handleOnly .root

def pathconf : PacketClass := handleOnly .path

def commit : PacketClass := .of [
  (.root, handleField), (.offset, unreadPacket Nfs3.offset), (.count, unreadPacket Nfs3.count)]

def mountPath : PacketClass := .of [(.path, packet .text Nfs3.path)]

def portmapGetport : PacketClass := .of [
  (.program, intField), (.version, intField), (.proto, intField), (.port, intField)]

end Calls

-- The classes of the procedures, where the table has one for them.
def portmapCallLookup : List (Option PacketClass) :=
  [some (.of []), none, none, some Calls.portmapGetport, none, none]

def nfs3CallLookup : Procedure → PacketClass
  | .null => Calls.null
  | .getattr => Calls.getattr
  | .setattr => Calls.setattr
  | .lookup => Calls.lookup
  | .access => Calls.access
  | .readlink => Calls.readlink
  | .read => Calls.read
  | .write => Calls.write
  | .create => Calls.create
  | .mkdir => Calls.mkdir
  | .symlink => Calls.symlink
  | .mknod => Calls.mknod
  | .remove => Calls.remove
  | .rmdir => Calls.rmdir
  | .rename => Calls.rename
  | .link => Calls.link
  | .readdir => Calls.readdir
  | .readdirplus => Calls.readdirplus
  | .fsstat => Calls.fsstat
  | .fsinfo => Calls.fsinfo
  | .pathconf => Calls.pathconf
  | .commit => Calls.commit

def mount3CallLookup : MountProcedure → Option PacketClass
  | .null | .umntall | .exports => some (.of [])
  | .mnt | .umnt => some Calls.mountPath
  | .dump => none

/-- The class for the arguments. A procedure must be in the table of its program. -/
def Rpc.Call.payloadClass (p : Rpc.Call) : Option (Option LayeredClass) :=
  if p.prog = portmapper then portmapCallLookup[p.proc]?.map fun cls => cls.map .plain
  else if p.prog = mountd then
    MountProcedure.all[p.proc]?.map fun procedure => (mount3CallLookup procedure).map .plain
  else if p.prog = nfsProgram then
    Procedure.all[p.proc]?.map fun procedure => some (.plain (nfs3CallLookup procedure))
  else some none

def Rpc.callNames : List Attr :=
  [.rpcVersion, .prog, .progVersion, .proc, .credFlav, .credLen, .authSys, .authNull, .verifier]

def Rpc.Call.layer (p : Rpc.Call) : Layer Attr Value where
  fields := Rpc.callNames
  value
    | .prog => .int p.prog
    | .proc => .int p.proc
    | .credFlav => .int p.credFlav
    | .authSys => p.credential.authSys.elim .none .auth
    | _ => .unread

def Rpc.replyNames : List Attr := [.state, .verify, .acceptState]

def Rpc.Reply.layer (p : Rpc.Reply) : Layer Attr Value where
  fields := Rpc.replyNames
  value
    | .acceptState => p.acceptState.elim .none .rpcStatus
    | _ => .unread

namespace Replies

/-- A class with nothing but a status, by which the class of the results is chosen. -/
def withStatus (ok : PacketClass) (fail : Option PacketClass) : LayeredClass where
  cls := .of [(.nfsStatus, packet .nfsStatus Nfs3.status)]
  payload pkt := if pkt .nfsStatus = .nfsStatus ⟨some 0⟩ then some ok else fail

def attrOnly (name : Attr) : PacketClass := .of [(name, unreadPacket Nfs3.postOpAttr)]

def wccOnly : PacketClass := .of [(.wcc, unreadPacket Nfs3.wccData)]

def null : LayeredClass := .plain (.of [])

def getattrOk : PacketClass := .of [(.fattr, unreadPacket Nfs3.fattr)]

def getattr : LayeredClass := withStatus getattrOk none

def setattr : LayeredClass :=
  .plain (.of [(.nfsStatus, intField), (.objWcc, unreadPacket Nfs3.wccData)])

def lookupOk : PacketClass := .of [
  (.handle, handleField), (.obj, unreadPacket Nfs3.postOpAttr), (.dir, unreadPacket Nfs3.postOpAttr)]

def lookup : LayeredClass := withStatus lookupOk (attrOnly .dir)

def accessOk : PacketClass := .of [(.obj, unreadPacket Nfs3.postOpAttr), (.access, intField)]

def access : LayeredClass := withStatus accessOk (attrOnly .obj)

def readlinkOk : PacketClass := .of [
  (.link, unreadPacket Nfs3.postOpAttr), (.path, packet .text Nfs3.path)]

def readlink : LayeredClass := withStatus readlinkOk (attrOnly .link)

def readOk : PacketClass := .unread [.file, .count, .eof, .dataLen, .data, .p] Nfs3.readReplyOk

def read : LayeredClass := withStatus readOk (attrOnly .file)

def writeOk : PacketClass := .of [
  (.wcc, unreadPacket Nfs3.wccData), (.count, intField), (.committed, intField),
  (.writeverf, unreadPacket Nfs3.writeverf)]

def write : LayeredClass := withStatus writeOk wccOnly

-- CREATE, MKDIR and SYMLINK have classes with the same fields.
def madeOk : PacketClass := .of [
  (.handle, packet .postOpFh Nfs3.postOpFh), (.attr, unreadPacket Nfs3.postOpAttr),
  (.wcc, unreadPacket Nfs3.wccData)]

def create : LayeredClass := withStatus madeOk wccOnly

def mkdir : LayeredClass := withStatus madeOk wccOnly

def symlink : LayeredClass := withStatus madeOk wccOnly

def mknod : LayeredClass := .plain (.of [])

def remove : LayeredClass :=
  .plain (.of [(.nfsStatus, intField), (.wcc, unreadPacket Nfs3.wccData)])

def rmdir : LayeredClass :=
  .plain (.of [(.nfsStatus, intField), (.wcc, unreadPacket Nfs3.wccData)])

def rename : LayeredClass :=
  .plain (.of [(.nfsStatus, intField), (.ffrom, unreadPacket Nfs3.wccData),
    (.fto, unreadPacket Nfs3.wccData)])

-- There is no field for the status.
def link : LayeredClass :=
  .plain (.of [(.file, packet .postOpFh Nfs3.postOpFh), (.linkdir, unreadPacket Nfs3.wccData)])

def listingNames : List Attr := [.dir, .cookieverf, .entryFollows, .entries, .eof]

def readdir : LayeredClass :=
  withStatus (.unread listingNames Nfs3.readdirReplyOk) (attrOnly .dir)

def readdirplus : LayeredClass :=
  withStatus (.unread listingNames Nfs3.readdirplusReplyOk) (attrOnly .dir)

def fsstatOk : PacketClass := .of [
  (.dir, unreadPacket Nfs3.postOpAttr), (.tbytes, unreadPacket Nfs3.size),
  (.fbytes, unreadPacket Nfs3.size), (.abytes, unreadPacket Nfs3.size),
  (.tfiles, unreadPacket Nfs3.size), (.ffiles, unreadPacket Nfs3.size),
  (.afiles, unreadPacket Nfs3.size), (.invarsec, intField)]

def fsstat : LayeredClass := withStatus fsstatOk (attrOnly .fs)

def fsinfoOk : PacketClass := .of [
  (.fs, unreadPacket Nfs3.postOpAttr), (.rtmax, intField), (.rtpref, intField), (.rtmult, intField),
  (.wtmax, intField), (.wtpref, intField), (.wtmult, intField), (.dtmult, intField),
  (.maxfilesize, unreadPacket Nfs3.size), (.timeDelta, unreadPacket Nfs3.time),
  (.properties, intField)]

def fsinfo : LayeredClass := withStatus fsinfoOk (attrOnly .fs)

def pathconfOk : PacketClass := .of [
  (.dir, unreadPacket Nfs3.postOpAttr), (.linkmax, intField), (.nameMax, intField),
  (.notrunc, intField), (.chownRestricted, intField), (.caseInsensitive, intField),
  (.casePreserving, intField)]

def pathconf : LayeredClass := withStatus pathconfOk (attrOnly .pathconf)

def commitOk : PacketClass := .of [
  (.wcc, unreadPacket Nfs3.wccData), (.writeverf, unreadPacket Nfs3.writeverf)]

def commit : LayeredClass := withStatus commitOk wccOnly

-- As many as the field before it says.
def authFlavors : Fields → Dissector Value := fun pkt =>
  match pkt .authFlavorCt with
  | .int count => (fun _ => .unread) <$> field [0] (fieldList (integer 4) count)
  | _ => pure .none

def mntOk : PacketClass := .of [
  (.handle, handleField), (.authFlavorCt, intField), (.authFlavors, authFlavors)]

def mnt : LayeredClass where
  cls := .of [(.status, intField)]
  payload pkt := if pkt .status = .int 0 then some mntOk else none

def mismatch : LayeredClass := .plain (.of [(.low, intField), (.high, intField)])

end Replies

def nfs3ReplyClass : Procedure → LayeredClass
  | .null => Replies.null
  | .getattr => Replies.getattr
  | .setattr => Replies.setattr
  | .lookup => Replies.lookup
  | .access => Replies.access
  | .readlink => Replies.readlink
  | .read => Replies.read
  | .write => Replies.write
  | .create => Replies.create
  | .mkdir => Replies.mkdir
  | .symlink => Replies.symlink
  | .mknod => Replies.mknod
  | .remove => Replies.remove
  | .rmdir => Replies.rmdir
  | .rename => Replies.rename
  | .link => Replies.link
  | .readdir => Replies.readdir
  | .readdirplus => Replies.readdirplus
  | .fsstat => Replies.fsstat
  | .fsinfo => Replies.fsinfo
  | .pathconf => Replies.pathconf
  | .commit => Replies.commit

def ReplyClass.packetClass : ReplyClass → LayeredClass
  | .nfs p => nfs3ReplyClass p
  | .mountMnt => Replies.mnt
  | .portmapGetport => .plain (.of [(.port, intField)])
  | .portmapNull | .mountNull | .mountUmnt | .mountUmntall | .mountExport => .plain (.of [])

namespace Decoded

def layers : Decoded → Bytes → Packet
  | nothing, _ => []
  | default, _ => [raw]
  | mismatch, s => Replies.mismatch.layers s
  | reply cls, s => cls.packetClass.layers s

def reads : Decoded → Bytes → Bool
  | nothing, _ | default, _ => true
  | mismatch, s => Replies.mismatch.reads s
  | reply cls, s => cls.packetClass.reads s

end Decoded

end VirtueSensing.Nfs
