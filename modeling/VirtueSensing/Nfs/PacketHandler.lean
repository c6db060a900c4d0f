import VirtueSensing.Nfs.PacketLayers
import VirtueSensing.Nfs.StateMonitor

set_option autoImplicit false

/-!
# Events of the NFS sensor

The handlers of `nfs_packet_handler.py`. They read the fields of a call and of its reply wherever
the packets have them, and report an event.
-/

namespace VirtueSensing.Nfs

inductive Exn where
  | attributeError
  | keyError
  | typeError
  | state (raised : Raised)
  deriving DecidableEq, Repr

def nfs3ValStatMap : List (Nat × String) :=
  [(0, "NFS3_OK"), (1, "NFS3ERR_PERM"), (2, "NFS3ERR_NOENT"), (5, "NFS3ERR_IO"),
    (6, "NFS3ERR_NXIO"), (13, "NFS3ERR_ACCES"), (17, "NFS3ERR_EXIST"), (18, "NFS3ERR_XDEV"),
    (19, "NFS3ERR_NODEV"), (20, "NFS3ERR_NOTDIR"), (21, "NFS3ERR_ISDIR"), (22, "NFS3ERR_INVAL"),
    (27, "NFS3ERR_FBIG"), (28, "NFS3ERR_NOSPC"), (30, "NFS3ERR_ROFS"), (31, "NFS3ERR_MLINK"),
    (63, "NFS3ERR_NAMETOOLONG"), (66, "NFS3ERR_NOTEMPTY"), (69, "NFS3ERR_DQUOT"),
    (70, "NFS3ERR_STALE"), (71, "NFS3ERR_REMOTE"), (10001, "NFS3ERR_BADHANDLE"),
    (10002, "NFS3ERR_NOT_SYNC"), (10003, "NFS3ERR_BAD_COOKIE"), (10004, "NFS3ERR_NOTSUPP"),
    (10005, "NFS3ERR_TOOSMALL"), (10006, "NFS3ERR_SERVERFAULT"), (10007, "NFS3ERR_BADTYPE"),
    (10008, "NFS3ERR_JUKEBOX")]

def mount3ValStatMap : List (Nat × String) :=
  [(0, "MNT3_OK"), (1, "MNT3ERR_PERM"), (2, "MNT3ERR_NOENT"), (5, "MNT3ERR_IO"),
    (13, "MNT3ERR_ACCES"), (20, "MNT3ERR_NOTDIR"), (22, "MNT3ERR_INVAL"),
    (63, "MNT3ERR_NAMETOOLONG"), (10004, "MNT3ERR_NOTSUPP"), (10006, "MNT3ERR_SERVERFAULT")]

/-- What an event says of a status: the name that a table has for it, the digits of a number, or the
number itself. -/
inductive StatusText where
  | name (text : String)
  | digits (v : Nat)
  | number (v : Nat)
  | other
  deriving DecidableEq, Repr

/-- What an event says of the caller. -/
inductive Who where
  | unix (auth : Rpc.AuthSys)
  | raw (load : Bytes)
  | none
  | authNull
  | authUnknown
  deriving DecidableEq, Repr

inductive Level where
  | debug
  | info
  deriving DecidableEq, Repr

inductive Proto where
  | nfs
  | mount
  deriving DecidableEq, Repr

inductive Command where
  | nfs (procedure : Procedure)
  | mnt
  | umnt
  | umntAll
  deriving DecidableEq, Repr

structure Event where
  level : Level
  proto : Proto
  command : Command
  path : Option Bytes
  who : Option Who
  status : Option StatusText
  target : Option Bytes
  access : Option Nat
  newAttr : Option Nfs3.Sattr
  deriving DecidableEq

def infoEvent (procedure : Procedure) (path : Option Bytes) (who : Who) (status : StatusText) :
    Event where
  level := .info
  proto := .nfs
  command := .nfs procedure
  path := path
  who := some who
  status := some status
  target := none
  access := none
  newAttr := none

-- `str` of a text that may have had no bytes.
def strText (text : Option Nfs3.Text) : Bytes := (text.map Nfs3.Text.v).getD (ascii "None")

namespace Value

def argsHandle : Value → Except Exn Handle
  | .dirOpArgs args => .ok args.handle
  | _ => .error .attributeError

def argsFname : Value → Except Exn Bytes
  | .dirOpArgs args => .ok (strText args.fname)
  | _ => .error .attributeError

-- The packet classes have an attribute `name` of their own, which is no field.
def argsName : Value → Except Exn Bytes
  | .dirOpArgs _ => .ok dirOpArgsName
  | _ => .error .attributeError

def linkPath : Value → Except Exn Bytes
  | .symlinkData data => .ok (strText data.path)
  | _ => .error .attributeError

-- `handle.handle`, if `handle.handle_follows`.
def following : Value → Except Exn (Option Handle)
  | .postOpFh fh => .ok (if fh.handleFollows = 0 then Option.none else some fh.handle)
  | _ => .error .attributeError

def statusV : Value → Except Exn Nat
  | .rpcStatus status => .ok status.v
  | _ => .error .attributeError

def success : Value → Except Exn Bool
  | .nfsStatus status => .ok (status.v = some 0)
  | _ => .error .attributeError

def statusStr : Value → Except Exn StatusText
  | .nfsStatus status =>
    match status.v.bind fun v => nfs3ValStatMap.lookup v with
    | some name => .ok (.name name)
    | .none => .error .keyError
  | .int v => .ok (.digits v)
  | _ => .ok .other

def number : Value → Option Nat
  | .int v => some v
  | _ => Option.none

def textStr : Value → Bytes
  | .text path => path.v
  | _ => strText Option.none

-- `NFS3_sattr.__str__`, which formats the value of the mode.
def sattrStr : Value → Except Exn (Option Nfs3.Sattr)
  | .sattr v => if v.setMode ≠ 0 ∧ v.mode = .none then .error .attributeError else .ok v
  | _ => .ok .none

-- `RPC_AuthSys.__str__`. The default of the machine name is no string.
def authStr : Value → Except Exn Who
  | .auth (.packet a) => if a.machineName = .none then .error .typeError else .ok (.unix a)
  | .auth (.raw load) => .ok (.raw load)
  | _ => .ok .none

end Value

-- Keys of the dictionary are handles only.
def Monitor.getPathOf (m : Monitor) : Value → Bytes
  | .handle h => m.getPath h
  | _ => ascii "\x7bunknown\x7d"

namespace Packet

def get (packet : Packet) (a : Attr) : Except Exn Value :=
  match Layer.lookup packet a with
  | some v => .ok v
  | none => .error .attributeError

-- `get_path` of a directory joined with a name.
def entryPath (packet : Packet) (m : Monitor) (a : Attr) (name : Value → Except Exn Bytes) :
    Except Exn Bytes := do
  let args ← packet.get a
  let dir ← args.argsHandle
  let name ← name args
  return pathJoin (m.getPath dir) name

def getAuthStr (call : Packet) : Except Exn Who := do
  let flavor ← call.get .credFlav
  if flavor = .int Rpc.authUnix then
    (← call.get .authSys).authStr
  else if flavor = .int Rpc.authNull then
    return .authNull
  else
    return .authUnknown

def nfsStatus (reply : Packet) : Except Exn StatusText := do
  (← reply.get .nfsStatus).statusStr

def succeeds (reply : Packet) : Except Exn Bool := do
  (← reply.get .nfsStatus).success

-- What is read of a reply only if it has succeeded.
def onSuccess (reply : Packet) (a : Attr) : Except Exn (Option Value) := do
  if ← reply.succeeds then
    return some (← reply.get a)
  else
    return none

-- The accept status of a reply. There is none in a reply that was cut off behind the verifier.
def acceptV (reply : Packet) : Except Exn Nat := do
  (← reply.get .acceptState).statusV

end Packet

abbrev Handler := Monitor → Packet → Packet → Except Exn (Option Event)

-- Logs the program and the procedure.
def handleNop : Handler := fun _ call _ => do
  let _ ← call.get .prog
  let _ ← call.get .proc
  return none

def handleNfs3Null : Handler := fun _ _ _ =>
  return some
    { level := .debug
      proto := .nfs
      command := .nfs .null
      path := none
      who := none
      status := none
      target := none
      access := none
      newAttr := none }

def report (call : Packet) (status : Except Exn StatusText) (event : Who → StatusText → Event) :
    Except Exn (Option Event) := do
  let who ← call.getAuthStr
  return some (event who (← status))

def handleObject (procedure : Procedure) (a : Attr) : Handler := fun m call reply => do
  let path := m.getPathOf (← call.get a)
  report call reply.nfsStatus (infoEvent procedure (some path))

def handleEntry (procedure : Procedure) (name : Value → Except Exn Bytes) : Handler :=
  fun m call reply => do
    let path ← call.entryPath m .args name
    report call reply.nfsStatus (infoEvent procedure (some path))

def handleNfs3Getattr : Handler := handleObject .getattr .handle

def handleNfs3Setattr : Handler := fun m call reply => do
  let path := m.getPathOf (← call.get .handle)
  let newAttr ← (← call.get .newAttr).sattrStr
  report call reply.nfsStatus fun who status => { infoEvent .setattr (some path) who status with newAttr }

def handleNfs3Lookup : Handler := handleEntry .lookup Value.argsFname

def handleNfs3Access : Handler := fun m call reply => do
  let path := m.getPathOf (← call.get .handle)
  let _ ← call.get .checkAccess
  let access ← reply.onSuccess .access
  report call reply.nfsStatus fun who status =>
    { infoEvent .access (some path) who status with access := access.bind Value.number }

def handleNfs3Readlink : Handler := fun m call reply => do
  let path := m.getPathOf (← call.get .handle)
  let target ← reply.onSuccess .path
  report call reply.nfsStatus fun who status =>
    { infoEvent .readlink (some path) who status with target := target.map Value.textStr }

def handleNfs3Read : Handler := handleObject .read .handle

def handleNfs3Write : Handler := handleObject .write .handle

def handleNfs3Create : Handler := handleEntry .create Value.argsFname

def handleNfs3Mkdir : Handler := handleEntry .mkdir Value.argsFname

def handleNfs3Symlink : Handler := fun m call reply => do
  let target ← call.entryPath m .where_ Value.argsFname
  let source ← (← call.get .symlink).linkPath
  report call reply.nfsStatus fun who status =>
    { infoEvent .symlink (some source) who status with target := some target }

def handleNfs3Mknod : Handler := fun _ call reply =>
  report call reply.nfsStatus (infoEvent .mknod none)

def handleNfs3Remove : Handler := handleEntry .remove Value.argsName

def handleNfs3Rmdir : Handler := handleEntry .rmdir Value.argsName

def handleNfs3Rename : Handler := fun m call reply => do
  let fromName ← call.entryPath m .ffrom Value.argsFname
  let toName ← call.entryPath m .fto Value.argsFname
  report call reply.nfsStatus fun who status =>
    { infoEvent .rename (some fromName) who status with target := some toName }

-- `os.path.join` takes no packet for a name.
def handleNfs3Link : Handler := fun m call reply => do
  let source := m.getPathOf (← call.get .handle)
  let dest ← call.entryPath m .link fun _ => .error .typeError
  report call reply.nfsStatus fun who status =>
    { infoEvent .link (some source) who status with target := some dest }

def handleNfs3Readdir : Handler := handleObject .readdir .handle

def handleNfs3Readdirplus : Handler := handleObject .readdirplus .handle

def handleNfs3Fsstat : Handler := handleObject .fsstat .root

def handleNfs3Fsinfo : Handler := handleObject .fsinfo .root

def handleNfs3Pathconf : Handler := handleObject .pathconf .path

def handleNfs3Commit : Handler := handleObject .commit .root

def nfs3HandlerLookup : Procedure → Handler
  | .null => handleNfs3Null
  | .getattr => handleNfs3Getattr
  | .setattr => handleNfs3Setattr
  | .lookup => handleNfs3Lookup
  | .access => handleNfs3Access
  | .readlink => handleNfs3Readlink
  | .read => handleNfs3Read
  | .write => handleNfs3Write
  | .create => handleNfs3Create
  | .mkdir => handleNfs3Mkdir
  | .symlink => handleNfs3Symlink
  | .mknod => handleNfs3Mknod
  | .remove => handleNfs3Remove
  | .rmdir => handleNfs3Rmdir
  | .rename => handleNfs3Rename
  | .link => handleNfs3Link
  | .readdir => handleNfs3Readdir
  | .readdirplus => handleNfs3Readdirplus
  | .fsstat => handleNfs3Fsstat
  | .fsinfo => handleNfs3Fsinfo
  | .pathconf => handleNfs3Pathconf
  | .commit => handleNfs3Commit

-- Only a missing field is caught. Of a status that was found there is a name, or `KeyError`.
def getRpcStatus (call reply : Packet) : Except Exn StatusText := do
  let named ←
    if (← call.get .prog) = .int mountd then
      match reply.get .status with
      | .ok (.int v) =>
        match mount3ValStatMap.lookup v with
        | some name => pure (some name)
        | none => .error .keyError
      | _ => pure none
    else pure none
  match named with
  | some name => return .name name
  | none => return .number (← reply.acceptV)

def mountEvent (proto : Proto) (command : Command) (path : Option Bytes) (who : Who)
    (status : StatusText) : Event where
  level := .info
  proto := proto
  command := command
  path := path
  who := some who
  status := some status
  target := none
  access := none
  newAttr := none

def handleMount3Mnt : Handler := fun _ call reply => do
  let path ← call.get .path
  report call (getRpcStatus call reply) (mountEvent .mount .mnt (some path.textStr))

def handleMount3Umnt : Handler := fun _ call reply => do
  let path ← call.get .path
  report call (getRpcStatus call reply) (mountEvent .mount .umnt (some path.textStr))

def handleMount3UmntAll : Handler := fun _ call reply =>
  report call (getRpcStatus call reply) (mountEvent .nfs .umntAll none)

def mount3HandlerLookup : MountProcedure → Handler
  | .null => handleNop
  | .mnt => handleMount3Mnt
  | .dump => handleNop
  | .umnt => handleMount3Umnt
  | .umntall => handleMount3UmntAll
  | .exports => handleNop

inductive Program where
  | nfs (procedure : Procedure)
  | mount (procedure : MountProcedure)
  | other
  deriving DecidableEq, Repr

-- The handler tables have no entry for another procedure.
def Packet.program (call : Packet) : Except Exn Program := do
  let prog ← call.get .prog
  let proc ← call.get .proc
  match prog, proc with
  | .int prog, .int proc =>
    if prog = mountd then
      match MountProcedure.all[proc]? with
      | some procedure => return .mount procedure
      | none => .error .keyError
    else if prog = nfsProgram then
      match Procedure.all[proc]? with
      | some procedure => return .nfs procedure
      | none => .error .keyError
    else return .other
  | _, _ => return .other

-- UMNT and UMNTALL have no status of their own.
def Packet.isResultParsable (reply : Packet) : MountProcedure → Except Exn Bool
  | .umnt | .umntall => return true
  | .mnt => do return (← reply.get .status) = .int 0
  | .null | .dump | .exports => return false

def Packet.isReplyParsable (reply : Packet) : Program → Except Exn Bool
  | .mount procedure => do
    let v ← reply.acceptV
    if v ≠ success then return false else reply.isResultParsable procedure
  | .nfs _ =>
    match reply.succeeds with
    | .error .attributeError => return false
    | parsable => parsable
  | .other => return false

def made (kind : Made) (a : Attr) (call reply : Packet) : Except Exn (Option Exchange) := do
  match ← (← reply.get .handle).following with
  | none => return none
  | some object =>
    let args ← call.get a
    let _ ← call.getAuthStr
    return some (.operation (.make kind (← args.argsHandle) (← args.argsFname) (some object)))

/-- What `update_state` does with a call and a reply that can be parsed. A reply of REMOVE, RMDIR,
RENAME or LINK never can. -/
def Packet.exchange (call reply : Packet) : Program → Except Exn (Option Exchange)
  | .mount .mnt => do
    let path ← call.get .path
    let _ ← call.getAuthStr
    match ← reply.get .handle with
    | .handle h => return some (.operation (.mnt path.textStr h))
    | _ => .error .attributeError
  | .mount .umnt => do
    return some (.umnt (← call.get .path).textStr)
  | .mount .umntall => return some .umntall
  | .nfs .lookup => do
    let args ← call.get .args
    let _ ← call.getAuthStr
    match ← reply.get .handle with
    | .handle h => return some (.operation (.lookup (← args.argsHandle) (← args.argsFname) h))
    | _ => .error .attributeError
  | .nfs .create => made .create .args call reply
  | .nfs .mkdir => made .mkdir .args call reply
  | .nfs .symlink => made .symlink .where_ call reply
  | _ => return none

def updatePacketState (m : Monitor) (call reply : Packet) : Except Exn Monitor := do
  let program ← call.program
  if ← reply.isReplyParsable program then
    match ← call.exchange reply program with
    | none => return m
    | some exchange => (updateState m exchange).mapError .state
  else return m

def handlePacket (m : Monitor) (call reply : Packet) : Except Exn (Option Event) := do
  match ← call.program with
  | .mount procedure => mount3HandlerLookup procedure m call reply
  | .nfs procedure => nfs3HandlerLookup procedure m call reply
  | .other => return none

/-- `_handler_core`, for a packet with an RPC header. -/
def handlerCore (m : Monitor) (rpc : Packet) (rpcCall : Option Packet) :
    Except Exn (Option Event × Monitor) :=
  match rpcCall with
  | none => return (none, m)
  | some call => do
    let res ← handlePacket m call rpc
    let m ← updatePacketState m call rpc
    return (res, m)

end VirtueSensing.Nfs
