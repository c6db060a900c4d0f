import VirtueSensing.Nfs.MountReports

set_option autoImplicit false

/-!
# Unmounting

What a call to UMNT or UMNTALL leaves of the paths under a mount, in any state that the exchanges before
it have led to.
-/

namespace VirtueSensing.Nfs

/-- The path itself, or one that leads on from it. -/
def AtOrBelow (path text : Bytes) : Prop := text = path ∨ childPath path [] <+: text

instance (path text : Bytes) : Decidable (AtOrBelow path text) :=
  inferInstanceAs (Decidable (_ ∨ _))

theorem AtOrBelow.starts {path text : Bytes} (below : AtOrBelow path text) : path.isPrefixOf text := by
  have front : path <+: childPath path [] := by
    unfold childPath
    split <;> simp
  rw [List.isPrefixOf_iff_prefix]
  rcases below with rfl | further
  · exact List.prefix_refl _
  · exact front.trans further

/-- Nothing is left of the path and of what is below it, and all else is as it was. -/
structure Unmounted (m : Monitor) (path : Bytes) (later : Monitor) : Prop where
  handles : ∀ handle key, later.handleNameMap.lookup handle = some key → ¬ AtOrBelow path key.text
  names : ∀ key handle, later.nameHandleMap.lookup key = some handle → ¬ AtOrBelow path key.text
  mount : path ∉ later.activeMountMap
  otherHandles : ∀ handle key, ¬ AtOrBelow path key.text →
    (later.handleNameMap.lookup handle = some key ↔ m.handleNameMap.lookup handle = some key)
  otherNames : ∀ key, ¬ AtOrBelow path key.text →
    later.nameHandleMap.lookup key = m.nameHandleMap.lookup key
  otherMounts : ∀ other, ¬ AtOrBelow path other →
    later.activeMountMap.lookup other = m.activeMountMap.lookup other

/-- Nothing is left of any path that was mounted and of what is below it. -/
structure AllUnmounted (m later : Monitor) : Prop where
  handles : ∀ path ∈ m.activeMountMap, ∀ handle key,
    later.handleNameMap.lookup handle = some key → ¬ AtOrBelow path key.text
  names : ∀ path ∈ m.activeMountMap, ∀ key handle,
    later.nameHandleMap.lookup key = some handle → ¬ AtOrBelow path key.text
  mounts : ∀ path, path ∉ later.activeMountMap

namespace Monitor

variable (m : Monitor) (path : Bytes)

def Unmounts : Prop := ∃ later, updateState m (.umnt path) = .ok later ∧ Unmounted m path later

def UnmountsAll : Prop := ∃ later, updateState m .umntall = .ok later ∧ AllUnmounted m later

/-- Every name that begins with the path is at it or below it. -/
def NoSibling : Prop := ∀ key ∈ m.nameHandleMap, path.isPrefixOf key.text → AtOrBelow path key.text

/-- The handles whose path is at or below this one are those that a name leads to which begins with
it. -/
def Traced : Prop :=
  ∀ handle key, m.handleNameMap.lookup handle = some key →
    (AtOrBelow path key.text ↔
      ∃ name, path.isPrefixOf name.text ∧ m.nameHandleMap.lookup name = some handle)

structure Unmountable : Prop where
  removable : m.Removable path
  noSibling : m.NoSibling path
  traced : m.Traced path

/-- A handle whose path is at or below a mount is one that a name leads to which begins with a mount. -/
structure AllUnmountable : Prop where
  removable : ∀ path ∈ m.activeMountMap, m.Removable path
  traced : ∀ path ∈ m.activeMountMap, ∀ handle key, m.handleNameMap.lookup handle = some key →
    AtOrBelow path key.text → ∃ mount ∈ m.activeMountMap, ∃ name,
      mount.isPrefixOf name.text ∧ m.nameHandleMap.lookup name = some handle

variable {m path}

theorem unmounted_iff {later : Monitor}
    (cleared : Cleared m (fun key => path.isPrefixOf key.text) later)
    (mounts : later.activeMountMap = m.activeMountMap.erase path) :
    Unmounted m path later ↔ m.NoSibling path ∧ m.Traced path := by
  constructor
  · intro unmounted
    refine ⟨fun key known starts => ?_, fun handle key led => ⟨fun below => ?_, ?_⟩⟩
    · by_contra other
      obtain ⟨handle, found⟩ := Option.isSome_iff_exists.mp (AList.lookup_isSome.mpr known)
      rw [← unmounted.otherNames key other, cleared.names] at found
      exact found.1 starts
    · by_contra lost
      refine unmounted.handles handle key ((cleared.handles handle key).mpr ⟨?_, led⟩) below
      exact fun name starts found => lost ⟨name, starts, found⟩
    · rintro ⟨name, starts, found⟩
      by_contra other
      have kept := (unmounted.otherHandles handle key other).mpr led
      exact ((cleared.handles handle key).mp kept).1 name starts found
  · rintro ⟨noSibling, traced⟩
    refine ⟨fun handle key left below => ?_, fun key handle left below => ?_, ?_, fun handle key other => ?_,
      fun key other => ?_, fun other apart => ?_⟩
    · obtain ⟨kept, led⟩ := (cleared.handles handle key).mp left
      obtain ⟨name, starts, found⟩ := (traced handle key led).mp below
      exact kept name starts found
    · exact ((cleared.names key handle).mp left).1 below.starts
    · rw [mounts, AList.mem_erase]
      exact fun both => both.1 rfl
    · rw [cleared.handles]
      refine and_iff_right_of_imp fun led name starts found => ?_
      exact other ((traced handle key led).mpr ⟨name, starts, found⟩)
    · refine Option.ext fun handle => ?_
      rw [cleared.names]
      refine and_iff_right_of_imp fun found starts => ?_
      exact other (noSibling key (AList.lookup_isSome.mp (found ▸ rfl)) starts)
    · rw [mounts, AList.lookup_erase_ne]
      exact fun same => apart (.inl same)

theorem unmounts_iff : m.Unmounts path ↔ m.Unmountable path := by
  constructor
  · rintro ⟨later, ran, unmounted⟩
    have removable := (destroyMountMapping_iff path).mp ⟨later, ran⟩
    obtain ⟨later', ran', cleared, mounts⟩ := destroyMountMapping_removable removable
    obtain rfl := Except.ok.inj (ran.symm.trans ran')
    obtain ⟨noSibling, traced⟩ := (unmounted_iff cleared mounts).mp unmounted
    exact ⟨removable, noSibling, traced⟩
  · rintro ⟨removable, noSibling, traced⟩
    obtain ⟨later, ran, cleared, mounts⟩ := destroyMountMapping_removable removable
    exact ⟨later, ran, (unmounted_iff cleared mounts).mpr ⟨noSibling, traced⟩⟩

theorem allUnmounted_iff {later : Monitor}
    (cleared : Cleared m (fun key => ∃ path ∈ m.activeMountMap.keys, path.isPrefixOf key.text) later)
    (mounts : ∀ path, path ∈ later.activeMountMap ↔
      path ∉ m.activeMountMap.keys ∧ path ∈ m.activeMountMap) :
    AllUnmounted m later ↔
      ∀ path ∈ m.activeMountMap, ∀ handle key, m.handleNameMap.lookup handle = some key →
        AtOrBelow path key.text → ∃ mount ∈ m.activeMountMap, ∃ name,
          mount.isPrefixOf name.text ∧ m.nameHandleMap.lookup name = some handle := by
  constructor
  · intro unmounted path active handle key led below
    by_contra lost
    refine unmounted.handles path active handle key ((cleared.handles handle key).mpr ⟨?_, led⟩) below
    rintro name ⟨mount, member, starts⟩ found
    exact lost ⟨mount, AList.mem_keys.mpr member, name, starts, found⟩
  · intro traced
    refine ⟨fun path active handle key left below => ?_, fun path active key handle left below => ?_,
      fun path left => ?_⟩
    · obtain ⟨kept, led⟩ := (cleared.handles handle key).mp left
      obtain ⟨mount, member, name, starts, found⟩ := traced path active handle key led below
      exact kept name ⟨mount, AList.mem_keys.mp member, starts⟩ found
    · exact ((cleared.names key handle).mp left).1 ⟨path, AList.mem_keys.mp active, below.starts⟩
    · obtain ⟨gone, active⟩ := (mounts path).mp left
      exact gone (AList.mem_keys.mp active)

theorem unmountsAll_iff : m.UnmountsAll ↔ m.AllUnmountable := by
  have keys : (∀ path ∈ m.activeMountMap.keys, m.Removable path) ↔
      ∀ path ∈ m.activeMountMap, m.Removable path := Iff.rfl
  constructor
  · rintro ⟨later, ran, unmounted⟩
    have removable := (destroyMounts_iff _).mp ⟨later, ran⟩
    obtain ⟨later', ran', cleared, mounts⟩ := destroyMounts_removable removable
    obtain rfl := Except.ok.inj (ran.symm.trans ran')
    exact ⟨keys.mp removable, (allUnmounted_iff cleared mounts).mp unmounted⟩
  · rintro ⟨removable, traced⟩
    obtain ⟨later, ran, cleared, mounts⟩ := destroyMounts_removable (keys.mpr removable)
    exact ⟨later, ran, (allUnmounted_iff cleared mounts).mpr traced⟩

def Inverse (m : Monitor) : Prop :=
  ∀ handle key, m.handleNameMap.lookup handle = some key ↔ m.nameHandleMap.lookup key = some handle

theorem Inverse.cleared {gone : PathKey → Prop} {later : Monitor} (inverse : m.Inverse)
    (cleared : Cleared m gone later) : later.Inverse := by
  intro handle key
  rw [cleared.handles, cleared.names, inverse]
  refine and_congr_left fun found => ⟨fun kept here => kept key here found, fun kept name here other => ?_⟩
  -- The handle leads back to one name only.
  have same := (inverse handle name).mpr other
  rw [(inverse handle key).mpr found] at same
  exact kept (Option.some.inj same ▸ here)

theorem Inverse.createHandleMapping {key : PathKey} {handle : Handle} (inverse : m.Inverse)
    (name : ∀ other, m.nameHandleMap.lookup key = some other → other = handle)
    (back : ∀ other, m.handleNameMap.lookup handle = some other → other = key) :
    (m.createHandleMapping key handle).Inverse := by
  intro h k
  simp only [Monitor.createHandleMapping]
  by_cases sameHandle : h = handle
  · subst sameHandle
    by_cases sameKey : k = key
    · subst sameKey
      simp
    · rw [AList.lookup_insert, AList.lookup_insert_ne sameKey, ← inverse]
      refine iff_of_false (fun same => sameKey (Option.some.inj same).symm) fun found => ?_
      exact sameKey (back k found)
  · by_cases sameKey : k = key
    · subst sameKey
      rw [AList.lookup_insert, AList.lookup_insert_ne sameHandle, inverse]
      refine iff_of_false (fun found => ?_) fun same => sameHandle (Option.some.inj same).symm
      exact sameHandle (name h found)
    · rw [AList.lookup_insert_ne sameHandle, AList.lookup_insert_ne sameKey, inverse]

theorem Inverse.traced (inverse : m.Inverse) (noSibling : m.NoSibling path) : m.Traced path := by
  intro handle key led
  have found := (inverse handle key).mp led
  refine ⟨fun below => ⟨key, below.starts, found⟩, ?_⟩
  rintro ⟨name, starts, other⟩
  have same := (inverse handle name).mpr other
  rw [led] at same
  obtain rfl := Option.some.inj same
  exact noSibling key (AList.lookup_isSome.mp (found ▸ rfl)) starts

theorem Inverse.unmountable_iff (inverse : m.Inverse) :
    m.Unmountable path ↔ m.Removable path ∧ m.NoSibling path :=
  ⟨fun can => ⟨can.removable, can.noSibling⟩, fun both => ⟨both.1, both.2, inverse.traced both.2⟩⟩

theorem Inverse.allUnmountable_iff (inverse : m.Inverse) :
    m.AllUnmountable ↔ ∀ path ∈ m.activeMountMap, m.Removable path := by
  refine ⟨fun can => can.removable, fun removable => ⟨removable, ?_⟩⟩
  intro path active handle key led below
  exact ⟨path, active, key, below.starts, (inverse handle key).mp led⟩

end Monitor

/-- The sensor with every exchange that it takes in. What is raised leaves the loop that reads the
packets, so a run ends there. -/
def monitorMachine : Machine Monitor Exchange where
  initial := .empty
  step m e := (updateState m e).toOption

def Operation.created (m : Monitor) : Operation → Option (PathKey × Handle)
  | .mnt path handle => some (⟨true, path⟩, handle)
  | .lookup dir fname handle => some (⟨false, pathJoin (m.getPath dir) fname⟩, handle)
  | .make _ dir fname (some handle) => some (⟨false, pathJoin (m.getPath dir) fname⟩, handle)
  | _ => none

/-- A name that is given to a handle had no other handle before, and the handle no other name. -/
def Paired (m : Monitor) : Exchange → Prop
  | .operation op => ∀ made ∈ op.created m,
      (∀ other ∈ m.nameHandleMap.lookup made.1, other = made.2) ∧
        ∀ other ∈ m.handleNameMap.lookup made.2, other = made.1
  | .umnt _ => True
  | .umntall => True

instance (m : Monitor) : (e : Exchange) → Decidable (Paired m e)
  | .operation op => by unfold Paired; infer_instance
  | .umnt _ => .isTrue trivial
  | .umntall => .isTrue trivial

theorem updateOperation_inverse {m later : Monitor} {op : Operation} (inverse : m.Inverse)
    (paired : Paired m (.operation op)) (updated : updateOperation m op = .ok later) :
    later.Inverse := by
  cases op with
  | mnt path handle =>
    cases updated
    obtain ⟨name, back⟩ := paired _ rfl
    exact inverse.createHandleMapping name back
  | lookup dir fname handle =>
    cases updated
    obtain ⟨name, back⟩ := paired _ rfl
    exact inverse.createHandleMapping name back
  | make kind dir fname handle =>
    cases handle with
    | none =>
      cases updated
      exact inverse
    | some handle =>
      cases updated
      obtain ⟨name, back⟩ := paired _ rfl
      exact inverse.createHandleMapping name back
  | link handle dir fname =>
    cases updated
    exact inverse
  | rmdir dir fname => cases updated
  | rename fromDir fromName toDir toName => cases updated
  | remove dir fname =>
    rw [updateOperation] at updated
    have named : (⟨false, pathJoin (m.getPath dir) dirOpArgsName⟩ : PathKey) ≠ emptyKey := by
      intro same
      rw [same, Monitor.destroyHandleMapping_emptyKey] at updated
      cases updated
    have known : (⟨false, pathJoin (m.getPath dir) dirOpArgsName⟩ : PathKey) ∈ m.nameHandleMap := by
      by_contra unknown
      rw [Monitor.destroyHandleMapping, if_neg (mt (eq_emptyKey_iff _).mpr named),
        AList.lookup_eq_none.mpr unknown] at updated
      cases updated
    obtain ⟨later', destroyed, cleared, -⟩ := Monitor.destroyHandleMapping_known named known
    obtain rfl := Except.ok.inj (updated.symm.trans destroyed)
    exact inverse.cleared cleared

theorem updateState_inverse {m later : Monitor} {e : Exchange} (inverse : m.Inverse)
    (paired : Paired m e) (updated : updateState m e = .ok later) : later.Inverse := by
  cases e with
  | operation op =>
    rw [updateState] at updated
    split at updated
    · exact updateOperation_inverse inverse paired updated
    · cases updated
      exact inverse
  | umnt path =>
    have removable := (Monitor.destroyMountMapping_iff path).mp ⟨later, updated⟩
    obtain ⟨later', ran, cleared, -⟩ := Monitor.destroyMountMapping_removable removable
    obtain rfl := Except.ok.inj (updated.symm.trans ran)
    exact inverse.cleared cleared
  | umntall =>
    have removable := (Monitor.destroyMounts_iff _).mp ⟨later, updated⟩
    obtain ⟨later', ran, cleared, -⟩ := Monitor.destroyMounts_removable removable
    obtain rfl := Except.ok.inj (updated.symm.trans ran)
    exact inverse.cleared cleared

theorem inverse_of_paired {exchanges : List Exchange} {m : Monitor}
    (reached : monitorMachine.run exchanges = some m)
    (paired : monitorMachine.Throughout Paired exchanges) : m.Inverse := by
  have start : Monitor.Inverse monitorMachine.initial := by
    intro handle key
    constructor <;> intro known <;> cases known
  have next (s : Monitor) (e : Exchange) (t : Monitor) (inverse : s.Inverse)
      (moved : (updateState s e).toOption = some t) (holds : Paired s e) : t.Inverse := by
    refine updateState_inverse inverse holds ?_
    cases updated : updateState s e with
    | error raised =>
      rw [updated] at moved
      cases moved
    | ok later =>
      rw [updated] at moved
      rw [Option.some.inj moved]
  exact monitorMachine.invariant_of_throughout start next reached paired

/-- In every state that a run leads to: UMNT is right exactly for a path without siblings whose handles
are traced by names, and UMNTALL exactly when the handles below all mounts are. Where every name and handle
of the run were paired once and for all, only the siblings count. -/
theorem unmounts_reached_iff {exchanges : List Exchange} {m : Monitor}
    (reached : monitorMachine.run exchanges = some m) :
    (∀ path, m.Unmounts path ↔ m.Unmountable path) ∧
      (m.UnmountsAll ↔ m.AllUnmountable) ∧
      (monitorMachine.Throughout Paired exchanges →
        (∀ path, m.Unmounts path ↔ m.Removable path ∧ m.NoSibling path) ∧
          (m.UnmountsAll ↔ ∀ path ∈ m.activeMountMap, m.Removable path)) := by
  refine ⟨fun path => Monitor.unmounts_iff, Monitor.unmountsAll_iff, fun paired => ?_⟩
  have inverse := inverse_of_paired reached paired
  exact ⟨fun path => Monitor.unmounts_iff.trans inverse.unmountable_iff,
    Monitor.unmountsAll_iff.trans inverse.allUnmountable_iff⟩

def exportMounted : List Exchange :=
  [.operation (.mnt (ascii "/export") rootHandle),
    .operation (.lookup rootHandle (ascii "d") firstHandle),
    .operation (.mnt (ascii "/home") secondHandle)]

theorem export_unmounts :
    ∃ m, monitorMachine.run exportMounted = some m ∧ m.Unmounts (ascii "/export") ∧ m.UnmountsAll := by
  have paired : monitorMachine.Throughout Paired exportMounted :=
    monitorMachine.throughout_of_follows Paired (by decide +kernel)
  obtain ⟨-, -, apart⟩ := @unmounts_reached_iff exportMounted _ rfl
  obtain ⟨one, all⟩ := apart paired
  refine ⟨_, rfl, (one _).mpr ⟨nofun, by unfold Monitor.NoSibling; decide +kernel⟩, all.mpr ?_⟩
  intro path active empty
  subst empty
  exact absurd active (by decide +kernel)

def siblingMounted : List Exchange :=
  [.operation (.mnt (ascii "/export") rootHandle), .operation (.mnt (ascii "/export2") firstHandle)]

-- The other mount begins with the same letters.
theorem sibling_unmounted :
    ¬ ∀ exchanges m, monitorMachine.run exchanges = some m → ∀ path, m.Unmounts path := by
  intro all
  have can := Monitor.unmounts_iff.mp (all siblingMounted _ rfl (ascii "/export"))
  have below := can.noSibling ⟨true, ascii "/export2"⟩ (by decide +kernel) (by decide +kernel)
  exact absurd below (by decide +kernel)

end VirtueSensing.Nfs
