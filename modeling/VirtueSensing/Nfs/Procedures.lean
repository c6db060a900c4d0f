import Mathlib.Tactic.Common

set_option autoImplicit false

/-!
# Programs and procedures of the NFS sensor

The tables of `nfs.py` from procedure numbers to reply classes.
-/

namespace VirtueSensing.Nfs

inductive Procedure where
  | null | getattr | setattr | lookup | access | readlink | read | write | create | mkdir | symlink
  | mknod | remove | rmdir | rename | link | readdir | readdirplus | fsstat | fsinfo | pathconf
  | commit
  deriving DecidableEq, Repr

def Procedure.all : List Procedure :=
  [.null, .getattr, .setattr, .lookup, .access, .readlink, .read, .write, .create, .mkdir, .symlink,
    .mknod, .remove, .rmdir, .rename, .link, .readdir, .readdirplus, .fsstat, .fsinfo, .pathconf,
    .commit]

inductive MountProcedure where
  | null | mnt | dump | umnt | umntall | exports
  deriving DecidableEq, Repr

def MountProcedure.all : List MountProcedure := [.null, .mnt, .dump, .umnt, .umntall, .exports]

inductive ReplyClass where
  | portmapNull
  | portmapGetport
  | mountNull
  | mountMnt
  | mountUmnt
  | mountUmntall
  | mountExport
  | nfs (procedure : Procedure)
  deriving DecidableEq, Repr

def portmapper : Nat := 100000
def nfsProgram : Nat := 100003
def mountd : Nat := 100005

def portmapReplyLookup (proc : Nat) : Option ReplyClass :=
  [some .portmapNull, none, none, some .portmapGetport, none, none].getD proc none

def mount3ReplyLookup (proc : Nat) : Option ReplyClass :=
  [some .mountNull, some .mountMnt, none, some .mountUmnt, some .mountUmntall,
    some .mountExport].getD proc none

def nfs3ReplyLookup (proc : Nat) : Option ReplyClass :=
  Procedure.all[proc]?.map .nfs

inductive Decoded where
  -- No bytes follow the reply header.
  | nothing
  | default
  | mismatch
  | reply (cls : ReplyClass)
  deriving DecidableEq, Repr

def success : Nat := 0
def progMismatch : Nat := 2

end VirtueSensing.Nfs
