import VirtueSensing.Nfs.ServedPairs

set_option autoImplicit false

/-!
# Paths over runs of calls

The dictionaries against the directory tree of the server, over any sequence of successful calls with
the packets of their replies.
-/

namespace VirtueSensing.Nfs

open Rfc1813

def trackingMachine : Machine Tracking ServedPair where
  initial := ⟨.empty, .empty, false⟩
  step s e :=
    some (match updatePacketState s.monitor e.pair.callPacket e.pair.replyPacket with
      | .ok m => ⟨m, reference s.tree e.served.operation, s.raised⟩
      | .error _ => ⟨s.monitor, reference s.tree e.served.operation, true⟩)

/-- The sensor can follow the operation, and it reads the packets unless their replies tell it
nothing. -/
def Traced (s : Tracking) (e : ServedPair) : Prop :=
  Followed s e.served.operation ∧ (e.served.Unnoticed ∨ e.Read)

theorem Agrees.step {s t : Tracking} (agrees : Agrees s) {e : ServedPair} (traced : Traced s e)
    (moved : trackingMachine.step s e = some t) : Agrees t := by
  obtain ⟨followed, read⟩ := traced
  obtain ⟨m, updated, later⟩ := agrees.update followed
  have ran : updatePacketState s.monitor e.pair.callPacket e.pair.replyPacket = .ok m := by
    rw [update_served s.monitor e read, updated]
    rfl
  simp only [trackingMachine, ran] at moved
  obtain rfl := Option.some.inj moved
  exact later

/-- While the sensor can follow the calls and reads their packets, its dictionaries agree with the
directory tree. -/
theorem paths_agree (pairs : List ServedPair) (s : Tracking)
    (reached : trackingMachine.run pairs = some s)
    (traced : trackingMachine.Throughout Traced pairs) : Agrees s := by
  refine trackingMachine.run_induction (motive := fun pairs s =>
    trackingMachine.Throughout Traced pairs → Agrees s) ?_ ?_ pairs s reached traced
  · intro _
    refine ⟨rfl, fun handle known => ?_, fun path handle found => ?_⟩
    · exact absurd known (AList.notMem_empty handle)
    · exact absurd found (by simp [trackingMachine, Monitor.empty])
  · intro pairs e s t before ih moved traced
    rw [trackingMachine.throughout_snoc Traced before] at traced
    exact (ih traced.1).step traced.2 moved

instance (call : Packet) : Decidable call.Legible :=
  decidable_of_iff (call.getAuthStr.isOk = true) <| by
    rw [← getAuthStr_iff]
    cases call.getAuthStr with
    | error e => exact iff_of_false nofun nofun
    | ok who => exact iff_of_true rfl ⟨who, rfl⟩

instance (e : ServedPair) : Decidable e.Read :=
  decidable_of_iff ((Rfc1831.Message.call e.pair.body).Aligned ∧ 4 ∣ e.replyVerf.body.length ∧
      e.pair.callPacket.Legible ∧ e.served.Whole)
    ⟨fun ⟨call, reply, legible, whole⟩ => ⟨call, reply, legible, whole⟩,
      fun ⟨call, reply, legible, whole⟩ => ⟨call, reply, legible, whole⟩⟩

instance (s : Tracking) (e : ServedPair) : Decidable (Traced s e) :=
  inferInstanceAs (Decidable (_ ∧ (_ ∨ _)))

def served (served : Served) : ServedPair :=
  ⟨2, 3, hostAuth, Rfc1831.noAuth, Rfc1831.noAuth, served⟩

def rootFh : Counted := ⟨[0, 0, 0, 0], by decide⟩
def firstFh : Counted := ⟨[0, 0, 0, 1], by decide⟩
def secondFh : Counted := ⟨[0, 0, 0, 2], by decide⟩

def noTime : Nfstime3 := ⟨0, 0⟩
def unset : Sattr3 := ⟨none, none, none, none, .dontChange, .dontChange⟩

-- The attributes of a directory from before a change, and none from after it.
def changed : WccData := ⟨some ⟨0, noTime, noTime⟩, none⟩

def growingTree : List ServedPair :=
  [served (.mnt ⟨ascii "/export", by decide⟩ rootFh ⟨[1], by decide⟩),
    served (.mkdir ⟨rootFh, ⟨ascii "d", by decide⟩⟩ unset ⟨some firstFh, none, changed⟩),
    served (.create ⟨firstFh, ⟨ascii "f", by decide⟩⟩ (.unchecked unset) ⟨some secondFh, none, changed⟩),
    served (.link secondFh ⟨rootFh, ⟨ascii "g", by decide⟩⟩ none changed),
    served (.remove ⟨rootFh, ⟨ascii "unseen", by decide⟩⟩ changed),
    served (.lookup ⟨rootFh, ⟨ascii "d", by decide⟩⟩ firstFh none none)]

theorem growing_tree_agrees :
    ∃ s, trackingMachine.run growingTree = some s ∧
      s.monitor.getPath secondHandle = ascii "/export/d/f" ∧ Agrees s := by
  refine ⟨_, rfl, by decide +kernel, ?_⟩
  exact paths_agree growingTree _ rfl
    (trackingMachine.throughout_of_follows Traced (by decide +kernel))

def removedFile : List ServedPair :=
  [served (.mnt ⟨ascii "/export", by decide⟩ rootFh ⟨[1], by decide⟩),
    served (.create ⟨rootFh, ⟨ascii "a", by decide⟩⟩ (.unchecked unset) ⟨some firstFh, none, changed⟩),
    served (.remove ⟨rootFh, ⟨ascii "a", by decide⟩⟩ changed)]

-- The mount is all that is left of the tree.
def removedTree : Tree :=
  (((NameTree.empty : Tree).setMount (ascii "/export") rootHandle).setEntry rootHandle (ascii "a")
    (some firstHandle)).setEntry rootHandle (ascii "a") none

theorem not_hasPath_removed (path : Bytes) : ¬ removedTree.HasPath childPath firstHandle path := by
  have bare : ∀ dir fname, removedTree.entries dir fname = none := by
    intro dir fname
    simp [removedTree, NameTree.setEntry, NameTree.setMount, NameTree.empty]
  intro there
  cases there with
  | mount here =>
    by_cases mounted : path = ascii "/export"
    · rw [mounted] at here
      exact absurd here (by decide +kernel)
    · simp [removedTree, NameTree.setEntry, NameTree.setMount, NameTree.empty, mounted] at here
  | entry above here => simp [bare] at here

-- The sensor still leads from the name to the handle and back.
theorem removed_name_resolves :
    ∃ s, trackingMachine.run removedFile = some s ∧ s.tree = removedTree ∧
      s.monitor.nameHandleMap.lookup ⟨false, ascii "/export/a"⟩ = some firstHandle ∧
      s.monitor.getPath firstHandle = ascii "/export/a" ∧ ¬ Agrees s := by
  refine ⟨_, rfl, rfl, by decide +kernel, by decide +kernel, fun agrees => ?_⟩
  exact not_hasPath_removed _ (agrees.names ⟨false, ascii "/export/a"⟩ firstHandle (by decide +kernel))

end VirtueSensing.Nfs
