import Mathlib.Data.List.AList
import VirtueSensing.Nfs.BasicTypes
import VirtueSensing.Shared.Machine
import VirtueSensing.Shared.NameTree

set_option autoImplicit false

/-!
# Paths of the NFS sensor

`nfs_state_monitor.py` keeps two dictionaries, from handles to paths and back, and updates them with
each call and reply. A Python string of the source is the bytes it was made from.
-/

namespace VirtueSensing.Nfs

-- A key of the dictionaries is what a packet has for a handle, `None` where it has no bytes for one.
abbrev Handle := Option Nfs3.Fhandle

-- A key of the dictionaries: a string, or the `NFS3_path` packet of a mount call, which equals none.
-- The length and the padding of a path follow from its text.
structure PathKey where
  packet : Bool
  text : Bytes
  deriving DecidableEq, Repr

inductive Made where
  | create
  | mkdir
  | symlink
  deriving DecidableEq, Repr

/-- A successful call with its reply. Of a new object the reply may leave out the handle. -/
inductive Operation where
  | mnt (path : Bytes) (handle : Handle)
  | lookup (dir : Handle) (fname : Bytes) (handle : Handle)
  | make (kind : Made) (dir : Handle) (fname : Bytes) (handle : Option Handle)
  | link (handle : Handle) (dir : Handle) (fname : Bytes)
  | remove (dir : Handle) (fname : Bytes)
  | rmdir (dir : Handle) (fname : Bytes)
  | rename (fromDir : Handle) (fromName : Bytes) (toDir : Handle) (toName : Bytes)
  deriving DecidableEq, Repr

inductive Exchange where
  | operation (op : Operation)
  | umnt (path : Bytes)
  | umntall
  deriving DecidableEq, Repr

inductive Raised where
  | typeError
  | keyError
  | runtimeError
  deriving DecidableEq, Repr

abbrev Dict (K V : Type) := AList fun _ : K => V

structure Monitor where
  handleNameMap : Dict Handle PathKey
  nameHandleMap : Dict PathKey Handle
  activeMountMap : Dict Bytes Handle

def slash : UInt8 := 0x2f

def pathJoin (path name : Bytes) : Bytes :=
  if name.head? = some slash then name
  else if path = [] ∨ path.getLast? = some slash then path ++ name
  else path ++ [slash] ++ name

namespace Monitor

def empty : Monitor := ⟨∅, ∅, ∅⟩

def createHandleMapping (m : Monitor) (path : PathKey) (handle : Handle) : Monitor :=
  { m with
    handleNameMap := m.handleNameMap.insert handle path
    nameHandleMap := m.nameHandleMap.insert path handle }

-- Always called with a path only, which must not be the empty string.
def destroyHandleMapping (m : Monitor) (path : PathKey) : Except Raised Monitor :=
  if ¬ path.packet ∧ path.text = [] then .error .runtimeError
  else
    match m.nameHandleMap.lookup path with
    | none => .error .keyError
    | some handle =>
      .ok { m with
        handleNameMap := m.handleNameMap.erase handle
        nameHandleMap := m.nameHandleMap.erase path }

def createMountMapping (m : Monitor) (path : Bytes) (handle : Handle) : Monitor :=
  createHandleMapping { m with activeMountMap := m.activeMountMap.insert path handle }
    ⟨true, path⟩ handle

def destroyMountMapping (m : Monitor) (path : Bytes) : Except Raised Monitor := do
  let below := m.nameHandleMap.keys.filter fun key => path.isPrefixOf key.text
  let m ← below.foldlM destroyHandleMapping m
  pure { m with activeMountMap := m.activeMountMap.erase path }

def getPath (m : Monitor) (handle : Handle) : Bytes :=
  match m.handleNameMap.lookup handle with
  | some path => path.text
  | none => ascii "\x7bunknown\x7d"

def createEntry (m : Monitor) (dir : Handle) (fname : Bytes) (handle : Handle) : Monitor :=
  m.createHandleMapping ⟨false, pathJoin (m.getPath dir) fname⟩ handle

end Monitor

/-- How the reply class of an operation stores its status. -/
inductive Status where
  -- A packet of its own, which has a method `success`.
  | packet (v : Nat)
  | int (v : Nat)
  | absent
  deriving DecidableEq, Repr

def Operation.nfsStatus : Operation → Status
  | .mnt .. => .absent
  | .lookup .. => .packet 0
  | .make .. => .packet 0
  | .link .. => .absent
  | .remove .. => .int 0
  | .rmdir .. => .int 0
  | .rename .. => .int 0

-- Calling a method of an integer raises `AttributeError`, just as reading a missing field does.
def isReplyParsable : Operation → Bool
  | .mnt .. => true
  | op =>
    match op.nfsStatus with
    | .packet v => v = 0
    | .int _ => false
    | .absent => false

-- What `args.name` is: the name of the packet class, not that of the file.
def dirOpArgsName : Bytes := ascii "dir_op_args"

def updateOperation (m : Monitor) : Operation → Except Raised Monitor
  | .mnt path handle => .ok (m.createMountMapping path handle)
  | .lookup dir fname handle => .ok (m.createEntry dir fname handle)
  | .make _ dir fname (some handle) => .ok (m.createEntry dir fname handle)
  | .make _ _ _ none => .ok m
  -- `_destroy_handle_mapping` has no parameter `name`.
  | .rmdir .. => .error .typeError
  | .rename .. => .error .typeError
  -- The word read as `handle_follows` is the status, which is zero.
  | .link .. => .ok m
  | .remove dir _ => m.destroyHandleMapping ⟨false, pathJoin (m.getPath dir) dirOpArgsName⟩

def updateState (m : Monitor) : Exchange → Except Raised Monitor
  | .operation op => if isReplyParsable op then updateOperation m op else .ok m
  | .umnt path => m.destroyMountMapping path
  | .umntall => m.activeMountMap.keys.foldlM Monitor.destroyMountMapping m

abbrev Tree := NameTree Handle Bytes Bytes

def childPath (path name : Bytes) : Bytes :=
  if path = [] ∨ path.getLast? = some slash then path ++ name else path ++ [slash] ++ name

def isDots (fname : Bytes) : Bool :=
  fname = ascii "." ∨ fname = ascii ".."

/-- The directory tree of the server, as far as the operations tell of it. -/
def reference (t : Tree) : Operation → Tree
  | .mnt path handle => t.setMount path handle
  | .lookup dir fname handle => if isDots fname then t else t.setEntry dir fname (some handle)
  | .make _ dir fname (some handle) => t.setEntry dir fname (some handle)
  | .make _ _ _ none => t
  | .link handle dir fname => t.setEntry dir fname (some handle)
  | .remove dir fname => t.setEntry dir fname none
  | .rmdir dir fname => t.setEntry dir fname none
  | .rename fromDir fromName toDir toName =>
    -- A rename between two names of one object does nothing.
    if t.entries fromDir fromName = t.entries toDir toName then t
    else (t.setEntry toDir toName (t.entries fromDir fromName)).setEntry fromDir fromName none

structure Tracking where
  monitor : Monitor
  tree : Tree
  raised : Bool

/-- Nothing was raised, and what the dictionaries say of handles and of names is so in the tree. -/
structure Agrees (s : Tracking) : Prop where
  quiet : s.raised = false
  handles : ∀ handle ∈ s.monitor.handleNameMap,
    s.tree.HasPath childPath handle (s.monitor.getPath handle)
  names : ∀ path handle, s.monitor.nameHandleMap.lookup path = some handle →
    s.tree.HasPath childPath handle path.text

-- The directory is known, and the entry is a plain name that had this handle or none.
def NamesEntry (s : Tracking) (dir : Handle) (fname : Bytes) (handle : Handle) : Prop :=
  dir ∈ s.monitor.handleNameMap ∧ fname.head? ≠ some slash ∧ isDots fname = false ∧
    (s.tree.entries dir fname = none ∨ s.tree.entries dir fname = some handle)

/-- What the sensor can follow: no name that it has seen is removed, renamed or given to another
object, and names are looked up and made in directories it knows. -/
def Followed (s : Tracking) : Operation → Prop
  | .mnt path handle => s.tree.mounts path = none ∨ s.tree.mounts path = some handle
  | .lookup dir fname handle => NamesEntry s dir fname handle
  | .make _ dir fname (some handle) => NamesEntry s dir fname handle
  | .make _ _ _ none => True
  | .link handle dir fname =>
    s.tree.entries dir fname = none ∨ s.tree.entries dir fname = some handle
  | .remove dir fname => s.tree.entries dir fname = none
  | .rmdir dir fname => s.tree.entries dir fname = none
  | .rename fromDir fromName toDir toName =>
    s.tree.entries fromDir fromName = s.tree.entries toDir toName

instance (s : Tracking) (dir : Handle) (fname : Bytes) (handle : Handle) :
    Decidable (NamesEntry s dir fname handle) :=
  inferInstanceAs (Decidable (_ ∧ _ ∧ _ ∧ _))

instance (s : Tracking) : (op : Operation) → Decidable (Followed s op)
  | .mnt _ _ => inferInstanceAs (Decidable (_ ∨ _))
  | .lookup dir fname handle => inferInstanceAs (Decidable (NamesEntry s dir fname handle))
  | .make _ dir fname (some handle) => inferInstanceAs (Decidable (NamesEntry s dir fname handle))
  | .make _ _ _ none => .isTrue trivial
  | .link _ _ _ => inferInstanceAs (Decidable (_ ∨ _))
  | .remove _ _ => inferInstanceAs (Decidable (_ = _))
  | .rmdir _ _ => inferInstanceAs (Decidable (_ = _))
  | .rename _ _ _ _ => inferInstanceAs (Decidable (_ = _))

theorem pathJoin_relative {path name : Bytes} (relative : name.head? ≠ some slash) :
    pathJoin path name = childPath path name := by
  rw [pathJoin, if_neg relative, childPath]

section Steps

variable {s : Tracking} (agrees : Agrees s)
include agrees

theorem Agrees.grow {t : Tree} (more : s.tree.Extends t) : Agrees ⟨s.monitor, t, s.raised⟩ :=
  ⟨agrees.quiet, fun handle known => (agrees.handles handle known).extends more,
    fun path handle found => (agrees.names path handle found).extends more⟩

theorem Agrees.createHandleMapping (path : PathKey) (handle : Handle)
    (there : s.tree.HasPath childPath handle path.text) :
    Agrees { s with monitor := s.monitor.createHandleMapping path handle } := by
  refine ⟨agrees.quiet, fun other known => ?_, fun key other found => ?_⟩
  · by_cases same : other = handle
    · subst same
      simpa [Monitor.getPath, Monitor.createHandleMapping] using there
    · have before : other ∈ s.monitor.handleNameMap := by
        simpa [Monitor.createHandleMapping, same] using known
      simpa [Monitor.getPath, Monitor.createHandleMapping, AList.lookup_insert_ne same]
        using agrees.handles other before
  · by_cases same : key = path
    · subst same
      obtain rfl : handle = other := by simpa [Monitor.createHandleMapping] using found
      exact there
    · have before : s.monitor.nameHandleMap.lookup key = some other := by
        simpa [Monitor.createHandleMapping, AList.lookup_insert_ne same] using found
      exact agrees.names key other before

theorem Agrees.createMountMapping {path : Bytes} {handle : Handle}
    (free : s.tree.mounts path = none ∨ s.tree.mounts path = some handle) :
    Agrees ⟨s.monitor.createMountMapping path handle, s.tree.setMount path handle, s.raised⟩ := by
  have grown := agrees.grow (s.tree.extends_setMount free)
  have mounted := grown.createHandleMapping ⟨true, path⟩ handle (.mount (by simp))
  exact ⟨mounted.quiet, mounted.handles, mounted.names⟩

theorem Agrees.createEntry {dir handle : Handle} {fname : Bytes}
    (entry : NamesEntry s dir fname handle) :
    Agrees ⟨s.monitor.createEntry dir fname handle, s.tree.setEntry dir fname (some handle),
      s.raised⟩ := by
  obtain ⟨known, relative, -, free⟩ := entry
  have grown := agrees.grow (s.tree.extends_setEntry free)
  apply grown.createHandleMapping
  rw [pathJoin_relative relative]
  exact .entry (grown.handles dir known) (by simp)

theorem Agrees.update {op : Operation} (followed : Followed s op) :
    ∃ m, updateState s.monitor (.operation op) = .ok m ∧
      Agrees ⟨m, reference s.tree op, s.raised⟩ := by
  cases op with
  | mnt path handle => exact ⟨_, rfl, agrees.createMountMapping followed⟩
  | lookup dir fname handle =>
    have plain : isDots fname = false := followed.2.2.1
    refine ⟨_, rfl, ?_⟩
    simpa [reference, plain] using agrees.createEntry followed
  | make kind dir fname handle =>
    cases handle with
    | some handle => exact ⟨_, rfl, agrees.createEntry followed⟩
    | none => exact ⟨_, rfl, agrees⟩
  | link handle dir fname => exact ⟨_, rfl, agrees.grow (s.tree.extends_setEntry followed)⟩
  | remove dir fname => exact ⟨_, rfl, agrees.grow (s.tree.extends_setEntry (.inl followed))⟩
  | rmdir dir fname => exact ⟨_, rfl, agrees.grow (s.tree.extends_setEntry (.inl followed))⟩
  | rename fromDir fromName toDir toName =>
    have same : s.tree.entries fromDir fromName = s.tree.entries toDir toName := followed
    refine ⟨_, rfl, ?_⟩
    simpa [reference, same] using agrees

end Steps

-- Three handles of one word each.
def rootHandle : Handle := some ⟨4, [0, 0, 0, 0]⟩
def firstHandle : Handle := some ⟨4, [0, 0, 0, 1]⟩
def secondHandle : Handle := some ⟨4, [0, 0, 0, 2]⟩

end VirtueSensing.Nfs
