import VirtueSensing.Nfs.PacketClasses

set_option autoImplicit false

/-!
# Calls and replies with their packets

The calls of RFC 1813 to both programs with their encodings, and the layers that scapy makes of the
bytes of a call and of a reply.
-/

namespace VirtueSensing.Nfs

open Dissect Rfc1813

inductive Createhow3 where
  | unchecked (attributes : Sattr3)
  | guarded (attributes : Sattr3)
  | exclusive (verf : UInt64)
  deriving DecidableEq

def Createhow3.encode : Createhow3 → Bytes
  | unchecked attributes => word 0 ++ attributes.encode
  | guarded attributes => word 1 ++ attributes.encode
  | exclusive verf => word 2 ++ hyper verf

inductive NfsCall where
  | null
  | getattr (object : Counted)
  | setattr (object : Counted) (newAttributes : Sattr3) (guard : Sattrguard3)
  | lookup (what : Diropargs3)
  | access (object : Counted) (check : UInt32)
  | readlink (object : Counted)
  | read (file : Counted) (offset : UInt64) (count : UInt32)
  | write (file : Counted) (offset : UInt64) (count stable : UInt32) (data : Counted)
  | create (where_ : Diropargs3) (how : Createhow3)
  | mkdir (where_ : Diropargs3) (attributes : Sattr3)
  | symlink (where_ : Diropargs3) (data : Symlinkdata3)
  -- The class has no fields, so that the encoding of what is made does not matter.
  | mknod (where_ : Diropargs3) (what : Bytes)
  | remove (object : Diropargs3)
  | rmdir (object : Diropargs3)
  | rename (ffrom fto : Diropargs3)
  | link (file : Counted) (args : Diropargs3)
  | readdir (dir : Counted) (cookie cookieverf : UInt64) (count : UInt32)
  | readdirplus (dir : Counted) (cookie cookieverf : UInt64) (dircount maxcount : UInt32)
  | fsstat (fsroot : Counted)
  | fsinfo (fsroot : Counted)
  | pathconf (object : Counted)
  | commit (file : Counted) (offset : UInt64) (count : UInt32)
  deriving DecidableEq

namespace NfsCall

def procedure : NfsCall → Procedure
  | null => .null
  | getattr .. => .getattr
  | setattr .. => .setattr
  | lookup .. => .lookup
  | access .. => .access
  | readlink .. => .readlink
  | read .. => .read
  | write .. => .write
  | create .. => .create
  | mkdir .. => .mkdir
  | symlink .. => .symlink
  | mknod .. => .mknod
  | remove .. => .remove
  | rmdir .. => .rmdir
  | rename .. => .rename
  | link .. => .link
  | readdir .. => .readdir
  | readdirplus .. => .readdirplus
  | fsstat .. => .fsstat
  | fsinfo .. => .fsinfo
  | pathconf .. => .pathconf
  | commit .. => .commit

def encode : NfsCall → Bytes
  | null => []
  | getattr handle | readlink handle | fsstat handle | fsinfo handle | pathconf handle => handle.encode
  | setattr object newAttributes guard => object.encode ++ (newAttributes.encode ++ guard.encode)
  | lookup args | remove args | rmdir args => args.encode
  | access object check => object.encode ++ word check
  | read file offset count | commit file offset count => file.encode ++ (hyper offset ++ word count)
  | write file offset count stable data =>
    file.encode ++ (hyper offset ++ (word count ++ (word stable ++ data.encode)))
  | create args how => args.encode ++ how.encode
  | mkdir args attributes => args.encode ++ attributes.encode
  | symlink args data => args.encode ++ data.encode
  | mknod args what => args.encode ++ what
  | rename ffrom fto => ffrom.encode ++ fto.encode
  | link file args => file.encode ++ args.encode
  | readdir dir cookie cookieverf count =>
    dir.encode ++ (hyper cookie ++ (hyper cookieverf ++ word count))
  | readdirplus dir cookie cookieverf dircount maxcount =>
    dir.encode ++ (hyper cookie ++ (hyper cookieverf ++ (word dircount ++ word maxcount)))

end NfsCall

inductive MountCall where
  | null
  | mnt (dirpath : Counted)
  | dump
  | umnt (dirpath : Counted)
  | umntall
  | exports
  deriving DecidableEq

namespace MountCall

def procedure : MountCall → MountProcedure
  | null => .null
  | mnt _ => .mnt
  | dump => .dump
  | umnt _ => .umnt
  | umntall => .umntall
  | exports => .exports

def encode : MountCall → Bytes
  | mnt dirpath | umnt dirpath => dirpath.encode
  | null | dump | umntall | exports => []

end MountCall

inductive ProgramCall where
  | nfs (call : NfsCall)
  | mount (call : MountCall)
  deriving DecidableEq

namespace ProgramCall

def prog : ProgramCall → UInt32
  | nfs _ => 100003
  | mount _ => 100005

def proc : ProgramCall → UInt32
  | nfs call => .ofNat (Procedure.all.idxOf call.procedure)
  | mount call => .ofNat (MountProcedure.all.idxOf call.procedure)

def encode : ProgramCall → Bytes
  | nfs call => call.encode
  | mount call => call.encode

def replyClass : ProgramCall → Option ReplyClass
  | nfs call => nfs3ReplyLookup (nfs call).proc.toNat
  | mount call => mount3ReplyLookup (mount call).proc.toNat

end ProgramCall

def rpcHeader : Layer Attr Value := ⟨[.xid, .direction], fun _ => .unread⟩

/-- The layers of a call from its header on. A procedure outside the tables fails an assertion in
`RPC_Call.guess_payload_class`, which leaves a raw layer too. -/
def callPacket (s : Bytes) : Packet :=
  match Rpc.call s with
  | .error _ => [rpcHeader, raw]
  | .ok (p, left) =>
    match p.payloadClass with
    | some cls => rpcHeader :: p.layer :: cls.elim (if left = [] then [] else [raw]) (·.layers left)
    | none => rpcHeader :: if left = [] then [p.layer] else [raw]

/-- The layers of a reply from its header on, with the class found for its id. -/
def replyPacket (cls : Option ReplyClass) (s : Bytes) : Packet :=
  match Rpc.reply s with
  | .error _ => [rpcHeader, raw]
  | .ok (p, left) =>
    match p.payloadClass left cls with
    | some decoded => rpcHeader :: p.layer :: decoded.layers left
    | none => [rpcHeader, raw]

inductive Answer where
  | accepted (reply : Rfc1831.AcceptedReply)
  | rejected (reply : Rfc1831.RejectedReply)
  deriving DecidableEq

namespace Answer

def message : Answer → Rfc1831.Message
  | accepted reply => .accepted reply
  | rejected reply => .denied reply

/-- The status that a reply has to tell: that of NFS when the call was carried out, which its results
begin with, and else the one with which it was accepted or rejected. -/
def status : Answer → Nat
  | accepted reply => if reply.stat = 0 then unsigned (reply.results.take 4) else reply.stat.toNat
  | rejected (.rpcMismatch _ _) => 0
  | rejected (.authError _) => 1

end Answer

structure Pair where
  rpcvers : UInt32
  vers : UInt32
  cred : OpaqueAuth
  verf : OpaqueAuth
  call : ProgramCall
  answer : Answer
  deriving DecidableEq

namespace Pair

def body (p : Pair) : Rfc1831.CallBody :=
  ⟨p.rpcvers, p.call.prog, p.vers, p.call.proc, p.cred, p.verf, p.call.encode⟩

def callPacket (p : Pair) : Packet := Nfs.callPacket p.body.encode

def replyPacket (p : Pair) : Packet := Nfs.replyPacket p.call.replyClass p.answer.message.encode

end Pair

end VirtueSensing.Nfs
