import Mathlib.Algebra.Group.Int.Defs
import Mathlib.Data.List.Pairwise
import VirtueSensing.Driver.ProbeCommands
import VirtueSensing.Shared.Bytes

set_option autoImplicit false

/-!
# The registry of probes

Construction and destruction of `AbstractVirtueProbe`, `Register`, `Unregister` and
`FindProbeByName` of `WVUQueueManager`, and `OnEnumerateProbes` of `WVUCommsManager`.
-/

namespace VirtueSensing.Driver

def minLong : Int := -(2 ^ 31)

-- The bytes of an `ANSI_STRING`. One of length zero may be without a buffer.
abbrev NameString := Option Bytes

def NameString.bytes (string : NameString) : Bytes := string.getD []

def lowerCase (ignoreCase : Bool) (c : UInt8) : UInt8 :=
  if ignoreCase then c ||| 0x20 else c

/-- Zero for equal strings, else the negated place of the first difference: which is zero too, where
the first characters differ. -/
def compareAnsiString (string1 string2 : Bytes) (ignoreCase : Bool) : Int :=
  if string1.length ≠ string2.length then minLong
  else
    match (string1.zip string2).findIdx? fun pair =>
        lowerCase ignoreCase pair.1 ≠ lowerCase ignoreCase pair.2 with
    | some ndx => -ndx
    | none => 0

/-- A probe object, with the fields that an enumeration reads. The counters of a list entry go on
with the object, so the entry stands for the pointer. -/
structure ProbeObject where
  address : Nat
  probeName : NameString
  probeId : Uuid
  enabled : Bool
  attributes : UInt16
  lastRunTime : UInt64
  runInterval : UInt64
  operationCount : UInt32
  deriving DecidableEq, Repr

structure Registry where
  probeCount : BitVec 32
  numberOfRegisteredProbes : BitVec 32
  probeList : List ProbeObject
  -- The objects that are constructed and not destroyed.
  objects : List ProbeObject
  deriving DecidableEq, Repr

namespace Registry

-- An entry whose name has no buffer is passed over.
def sameName (name : NameString) (ignoreCase : Bool) (entry : ProbeObject) : Bool :=
  entry.probeName ≠ none ∧ compareAnsiString entry.probeName.bytes name.bytes ignoreCase = 0

def findProbeByName (r : Registry) (name : NameString) (ignoreCase : Bool) : Option ProbeObject :=
  r.probeList.find? (sameName name ignoreCase)

def register (r : Registry) (probe : ProbeObject) : Registry × Bool :=
  match r.findProbeByName probe.probeName true with
  | none =>
    ({ r with
        probeList := r.probeList ++ [probe]
        numberOfRegisteredProbes := r.numberOfRegisteredProbes + 1 }, true)
  | some _ => (r, false)

def unregister (r : Registry) (probe : ProbeObject) : Registry :=
  match r.findProbeByName probe.probeName true with
  | some _ =>
    { r with
      probeList := r.probeList.eraseP (sameName probe.probeName true)
      numberOfRegisteredProbes := r.numberOfRegisteredProbes - 1 }
  | none => r

-- The constructor drops the result of `Register`.
def construct (r : Registry) (probe : ProbeObject) : Registry :=
  let r := (r.register probe).1
  { r with probeCount := r.probeCount + 1, objects := r.objects ++ [probe] }

def destroy (r : Registry) (probe : ProbeObject) : Registry :=
  let r := r.unregister probe
  { r with
    probeCount := r.probeCount - 1
    objects := r.objects.filter fun other => other.address ≠ probe.address }

end Registry

def maxSensorNameSz : Nat := 64

/-- A `ProbeStatus`, whose name is cut and filled with zero bytes. -/
structure ProbeStatus where
  probeId : Uuid
  enabled : Bool
  attributes : UInt16
  lastRunTime : UInt64
  operationCount : UInt32
  runInterval : UInt64
  probeName : Bytes
  deriving DecidableEq, Repr

def zeroBytes (n : Nat) : Bytes := List.replicate n 0

def ProbeStatus.zero : ProbeStatus := ⟨0, false, 0, 0, 0, 0, zeroBytes maxSensorNameSz⟩

def ProbeObject.status (probe : ProbeObject) : ProbeStatus where
  probeId := probe.probeId
  enabled := probe.enabled
  attributes := probe.attributes
  lastRunTime := probe.lastRunTime
  operationCount := probe.operationCount
  runInterval := probe.runInterval
  probeName :=
    let name := probe.probeName.bytes
    let length := if name.length < maxSensorNameSz then name.length else maxSensorNameSz
    name.take length ++ zeroBytes (maxSensorNameSz - length)

-- `sizeof(ProbeStatusHeader)` and `sizeof(ProbeStatus)`.
def probeStatusHeaderSize : Nat := 4
def probeStatusSize : Nat := 104

inductive Enumeration where
  | success (numberOfEntries : Nat) (entries : List ProbeStatus)
  | bufferTooSmall
  | noMemory
  | noMoreEntries
  -- The entries were written past the end of the allocation.
  | overrun
  deriving DecidableEq, Repr

/-- The length is computed in a `ULONG`. Entries that no probe fills stay zero. -/
def onEnumerateProbes (r : Registry) (outputBufferLength : UInt32) (allocated : Bool) : Enumeration :=
  let probeCount := r.probeCount.toNat
  let responseLength := (probeStatusHeaderSize + probeCount * probeStatusSize) % 2 ^ 32
  if responseLength > outputBufferLength.toNat then .bufferTooSmall
  else if ¬ allocated then .noMemory
  else if responseLength <
      probeStatusHeaderSize + min r.probeList.length probeCount * probeStatusSize then .overrun
  else if probeCount < r.probeList.length then .noMoreEntries
  else .success probeCount (r.probeList.map ProbeObject.status ++
    List.replicate (probeCount - r.probeList.length) .zero)

inductive Lifetime where
  | construct (probe : ProbeObject)
  | destroy (probe : ProbeObject)
  deriving DecidableEq, Repr

/-- Objects are constructed where no other object is, and destroyed once. -/
def registryMachine : Machine Registry Lifetime where
  initial := ⟨0, 0, [], []⟩
  step r
    | .construct probe =>
      if r.objects.any fun other => other.address = probe.address then none
      else some (r.construct probe)
    | .destroy probe => if probe ∈ r.objects then some (r.destroy probe) else none

structure Consistent (r : Registry) : Prop where
  counts : r.probeCount = r.numberOfRegisteredProbes
  length : r.numberOfRegisteredProbes = BitVec.ofNat 32 r.probeList.length
  own : ∀ probe ∈ r.objects,
    (r.destroy probe).probeList = r.probeList.filter fun entry => entry.address ≠ probe.address
  enumerated : ∀ outputBufferLength : UInt32,
    probeStatusHeaderSize + r.probeList.length * probeStatusSize ≤ outputBufferLength.toNat →
    onEnumerateProbes r outputBufferLength true =
      .success r.probeList.length (r.probeList.map ProbeObject.status)

/-- The new name has a buffer, and no registered name compares as equal to it. -/
def NewName (r : Registry) : Lifetime → Prop
  | .construct probe =>
    probe.probeName ≠ none ∧
      ∀ entry ∈ r.probeList,
        compareAnsiString entry.probeName.bytes probe.probeName.bytes true ≠ 0
  | .destroy _ => True

@[simp] theorem compareAnsiString_self (name : Bytes) (ignoreCase : Bool) :
    compareAnsiString name name ignoreCase = 0 := by
  have same : (name.zip name).findIdx? (fun pair =>
      lowerCase ignoreCase pair.1 ≠ lowerCase ignoreCase pair.2) = none := by
    rw [List.findIdx?_eq_none_iff, List.zip_eq_zipWith, List.zipWith_self]
    intro pair member
    obtain ⟨c, -, rfl⟩ := List.mem_map.mp member
    simp
  rw [compareAnsiString, if_neg (by simp), same]

instance (r : Registry) : (label : Lifetime) → Decidable (NewName r label)
  | .construct _ => inferInstanceAs (Decidable (_ ∧ ∀ _ ∈ _, _))
  | .destroy _ => .isTrue trivial

/-- Every object has its own entry, and the names keep the entries apart. -/
structure Separate (r : Registry) : Prop where
  probeCount : r.probeCount = BitVec.ofNat 32 r.objects.length
  registered : r.numberOfRegisteredProbes = BitVec.ofNat 32 r.objects.length
  listed : r.probeList = r.objects
  addresses : (r.objects.map ProbeObject.address).Nodup
  named : ∀ probe ∈ r.objects, probe.probeName ≠ none
  names : r.objects.Pairwise fun first second =>
    compareAnsiString first.probeName.bytes second.probeName.bytes true ≠ 0

section Steps

variable {r : Registry} {probe : ProbeObject}

theorem sameName_self (named : probe.probeName ≠ none) :
    Registry.sameName probe.probeName true probe := by
  simp [Registry.sameName, named]

theorem Separate.eraseP_sameName (separate : Separate r) (member : probe ∈ r.objects) :
    r.objects.eraseP (Registry.sameName probe.probeName true) =
      r.objects.filter fun entry => entry.address ≠ probe.address := by
  obtain ⟨before, after, split⟩ := List.append_of_mem member
  have own := sameName_self (separate.named probe member)
  have names := separate.names
  have addresses := separate.addresses
  rw [split] at names addresses ⊢
  have different : ∀ entry ∈ before, ¬ Registry.sameName probe.probeName true entry := by
    intro entry inside
    have := (List.pairwise_append.mp names).2.2 entry inside probe List.mem_cons_self
    simp [Registry.sameName, this]
  rw [List.eraseP_append_right _ different, List.eraseP_cons_of_pos own]
  rw [List.map_append, List.map_cons, List.nodup_middle, List.nodup_cons] at addresses
  have elsewhere : ∀ entry ∈ before ++ after, entry.address ≠ probe.address := by
    intro entry inside same
    refine addresses.1 ?_
    rw [← List.map_append, ← same]
    exact List.mem_map_of_mem inside
  rw [List.filter_append, List.filter_cons_of_neg (by simp), ← List.filter_append]
  exact (List.filter_eq_self.mpr fun entry inside => by simpa using elsewhere entry inside).symm

theorem Separate.findProbeByName (separate : Separate r) (member : probe ∈ r.objects) :
    ∃ entry, r.findProbeByName probe.probeName true = some entry := by
  refine Option.isSome_iff_exists.mp (List.find?_isSome.mpr ⟨probe, ?_, ?_⟩)
  · rw [separate.listed]
    exact member
  · exact sameName_self (separate.named probe member)

theorem Separate.destroy_eq (separate : Separate r) (member : probe ∈ r.objects) :
    r.destroy probe =
      ⟨r.probeCount - 1, r.numberOfRegisteredProbes - 1,
        r.objects.filter fun entry => entry.address ≠ probe.address,
        r.objects.filter fun entry => entry.address ≠ probe.address⟩ := by
  obtain ⟨entry, found⟩ := separate.findProbeByName member
  simp only [Registry.destroy, Registry.unregister, found]
  rw [separate.listed, separate.eraseP_sameName member]

theorem Separate.length_destroy (separate : Separate r) (member : probe ∈ r.objects) :
    (r.objects.filter fun entry => entry.address ≠ probe.address).length + 1 = r.objects.length := by
  rw [← separate.eraseP_sameName member,
    List.length_eraseP_of_mem member (sameName_self (separate.named probe member))]
  exact Nat.succ_pred_eq_of_pos (List.length_pos_of_mem member)

theorem Separate.destroy (separate : Separate r) (member : probe ∈ r.objects) :
    Separate (r.destroy probe) := by
  have fewer := separate.length_destroy member
  have counts : BitVec.ofNat 32 r.objects.length - 1 =
      BitVec.ofNat 32 (r.objects.filter fun entry => entry.address ≠ probe.address).length := by
    rw [← fewer, BitVec.ofNat_add]
    exact BitVec.add_sub_cancel _ _
  rw [separate.destroy_eq member]
  refine ⟨?_, ?_, rfl, ?_, fun other left => ?_, separate.names.filter _⟩
  · rw [separate.probeCount]
    exact counts
  · rw [separate.registered]
    exact counts
  · exact separate.addresses.sublist (List.filter_sublist.map _)
  · exact separate.named other (List.mem_of_mem_filter left)

theorem findProbeByName_new
    (fresh : ∀ entry ∈ r.probeList,
      compareAnsiString entry.probeName.bytes probe.probeName.bytes true ≠ 0) :
    r.findProbeByName probe.probeName true = none := by
  rw [Registry.findProbeByName, List.find?_eq_none]
  intro entry member
  simp [Registry.sameName, fresh entry member]

theorem Separate.construct (separate : Separate r) (fresh : NewName r (.construct probe))
    (apart : ∀ other ∈ r.objects, other.address ≠ probe.address) :
    Separate (r.construct probe) := by
  obtain ⟨buffered, fresh⟩ := fresh
  simp only [Registry.construct, Registry.register, findProbeByName_new fresh]
  refine ⟨?_, ?_, ?_, ?_, ?_, ?_⟩
  · rw [separate.probeCount, List.length_append, List.length_singleton, BitVec.ofNat_add]
    rfl
  · rw [separate.registered, List.length_append, List.length_singleton, BitVec.ofNat_add]
    rfl
  · rw [separate.listed]
  · rw [List.map_append, List.nodup_append]
    refine ⟨separate.addresses, List.nodup_singleton _, ?_⟩
    rintro address inside other own rfl
    obtain ⟨entry, member, same⟩ := List.mem_map.mp inside
    refine apart entry member (same.trans ?_)
    simpa using own
  · intro other member
    rcases List.mem_append.mp member with older | new
    · exact separate.named other older
    · obtain rfl := List.mem_singleton.mp new
      exact buffered
  · rw [List.pairwise_append]
    refine ⟨separate.names, List.pairwise_singleton _ _, fun entry member other own => ?_⟩
    obtain rfl := List.mem_singleton.mp own
    exact fresh entry (separate.listed ▸ member)

theorem Separate.onEnumerateProbes (separate : Separate r) {outputBufferLength : UInt32}
    (fits : probeStatusHeaderSize + r.probeList.length * probeStatusSize ≤ outputBufferLength.toNat) :
    onEnumerateProbes r outputBufferLength true =
      .success r.probeList.length (r.probeList.map ProbeObject.status) := by
  have bound := outputBufferLength.toNat_lt
  have few : r.probeList.length < 2 ^ 32 := by
    unfold probeStatusHeaderSize probeStatusSize at fits
    omega
  have count : r.probeCount.toNat = r.probeList.length := by
    rw [separate.probeCount, ← separate.listed, BitVec.toNat_ofNat, Nat.mod_eq_of_lt few]
  have length : (probeStatusHeaderSize + r.probeList.length * probeStatusSize) % 2 ^ 32 =
      probeStatusHeaderSize + r.probeList.length * probeStatusSize :=
    Nat.mod_eq_of_lt (Nat.lt_of_le_of_lt fits bound)
  simp only [Driver.onEnumerateProbes, count, length]
  rw [if_neg (by omega), if_neg (by simp), if_neg (by simp), if_neg (by simp)]
  simp

theorem Separate.consistent (separate : Separate r) : Consistent r where
  counts := separate.probeCount.trans separate.registered.symm
  length := by rw [separate.registered, separate.listed]
  own := by
    intro probe member
    rw [separate.destroy_eq member, separate.listed]
  enumerated := fun _ fits => separate.onEnumerateProbes fits

-- A refused registration still counts as a probe.
theorem known_not_consistent (separate : Separate r) {entry : ProbeObject}
    (known : r.findProbeByName probe.probeName true = some entry) : ¬ Consistent (r.construct probe) := by
  intro consistent
  have counts := consistent.counts
  simp only [Registry.construct, Registry.register, known] at counts
  rw [separate.probeCount, separate.registered] at counts
  bv_omega

-- A probe whose name has no buffer keeps its entry when it is destroyed.
theorem unbuffered_not_consistent (unknown : r.findProbeByName probe.probeName true = none)
    (unbuffered : probe.probeName = none) : ¬ Consistent (r.construct probe) := by
  intro consistent
  have constructed : (r.construct probe).probeList = r.probeList ++ [probe] := by
    simp only [Registry.construct, Registry.register, unknown]
  have missed : (r.construct probe).findProbeByName probe.probeName true = none := by
    rw [Registry.findProbeByName] at unknown ⊢
    rw [constructed, List.find?_append, unknown]
    exact List.find?_eq_none.mpr (by simp [Registry.sameName, unbuffered])
  have removed := consistent.own probe (by simp [Registry.construct])
  have kept : probe ∈ ((r.construct probe).destroy probe).probeList := by
    simp only [Registry.destroy, Registry.unregister, missed, constructed]
    simp
  rw [removed] at kept
  simpa using (List.mem_filter.mp kept).2

theorem newName_of_consistent (separate : Separate r) (consistent : Consistent (r.construct probe)) :
    NewName r (.construct probe) := by
  cases found : r.findProbeByName probe.probeName true with
  | some entry => exact absurd consistent (known_not_consistent separate found)
  | none =>
    refine ⟨fun unbuffered => unbuffered_not_consistent found unbuffered consistent, ?_⟩
    intro entry member same
    have listed : entry.probeName ≠ none := separate.named entry (separate.listed ▸ member)
    have passed := List.find?_eq_none.mp found entry member
    simp [Registry.sameName, listed, same] at passed

end Steps

/-- The counters agree with the list, a destruction removes its own entry and an enumeration gives
every registered probe once, along exactly those runs in which no probe is constructed under a name
that has no buffer or compares as equal to a registered one. -/
theorem registry_consistent_iff {labels : List Lifetime} {r : Registry}
    (reached : registryMachine.run labels = some r) :
    (∀ first t, first <+: labels → registryMachine.run first = some t → Consistent t) ↔
      registryMachine.Throughout NewName labels := by
  refine registryMachine.along_iff_of_invariant Separate ?_ (fun _ => Separate.consistent)
    ?_ ?_ reached
  · exact ⟨rfl, rfl, rfl, List.nodup_nil, nofun, List.Pairwise.nil⟩
  · intro s label t separate moved fresh
    cases label with
    | construct probe =>
      obtain ⟨apart, moved⟩ := Option.ite_none_left_eq_some.mp moved
      obtain rfl := Option.some.inj moved
      exact separate.construct fresh (by simpa using apart)
    | destroy probe =>
      obtain ⟨member, moved⟩ := Option.ite_none_right_eq_some.mp moved
      obtain rfl := Option.some.inj moved
      exact separate.destroy member
  · intro s label t separate moved consistent
    cases label with
    | construct probe =>
      obtain rfl := Option.some.inj (Option.ite_none_left_eq_some.mp moved).2
      exact newName_of_consistent separate consistent
    | destroy probe => trivial

def namedProbe (address : Nat) (name : String) : ProbeObject :=
  ⟨address, some (ascii name), address, false, 0, 0, 0, 0⟩

def separateNames : List Lifetime :=
  [.construct (namedProbe 1 "ImageLoad"), .construct (namedProbe 2 "ProcessCreate"),
    .destroy (namedProbe 1 "ImageLoad")]

theorem separate_names_consistent :
    ∃ r, registryMachine.run separateNames = some r ∧ r.probeList = [namedProbe 2 "ProcessCreate"] ∧
      Consistent r := by
  refine ⟨_, rfl, by decide, ?_⟩
  exact (@registry_consistent_iff separateNames _ rfl).mpr
    (registryMachine.throughout_of_follows NewName (by decide)) _ _ (List.prefix_refl _) rfl

-- Names of one length that differ in their first character compare as equal.
theorem colliding_names_miscounted :
    ∃ r, registryMachine.run [.construct (namedProbe 1 "Files"), .construct (namedProbe 2 "Pipes")] =
        some r ∧
      compareAnsiString (ascii "Files") (ascii "Pipes") true = 0 ∧
      r.probeCount = 2 ∧ r.probeList = [namedProbe 1 "Files"] ∧ ¬ Consistent r := by
  refine ⟨_, rfl, by decide, rfl, by decide, fun consistent => ?_⟩
  exact absurd consistent.counts (by decide)

end VirtueSensing.Driver
