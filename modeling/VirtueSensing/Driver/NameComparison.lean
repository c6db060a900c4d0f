import VirtueSensing.Driver.ProbeRegistry

set_option autoImplicit false

/-!
# Comparing the names of probes

When `CompareAnsiString` tells equal names from others, and `FindProbeByName` finds the probe that has
a name.
-/

namespace VirtueSensing.Driver

def loweredLetter (c : UInt8) : UInt8 := if 0x41 ≤ c ∧ c ≤ 0x5a then c + 0x20 else c

def lowered (ignoreCase : Bool) (c : UInt8) : UInt8 := if ignoreCase then loweredLetter c else c

def SameName (ignoreCase : Bool) (a b : Bytes) : Prop :=
  a.map (lowered ignoreCase) = b.map (lowered ignoreCase)

instance (ignoreCase : Bool) (a b : Bytes) : Decidable (SameName ignoreCase a b) :=
  inferInstanceAs (Decidable (_ = _))

/-- Names of one length agree in their first byte up to the bit that is set in all bytes, and if all
bytes agree up to it, they are the same name. -/
def ToldApart (ignoreCase : Bool) (a b : Bytes) : Prop :=
  a.length = b.length →
    a.head?.map (lowerCase ignoreCase) = b.head?.map (lowerCase ignoreCase) ∧
      (a.map (lowerCase ignoreCase) = b.map (lowerCase ignoreCase) → SameName ignoreCase a b)

instance (ignoreCase : Bool) (a b : Bytes) : Decidable (ToldApart ignoreCase a b) :=
  inferInstanceAs (Decidable (_ → _ ∧ _))

section Comparison

variable {ignoreCase : Bool} {a b : Bytes}

theorem loweredLetter_or (c : UInt8) : loweredLetter c ||| 0x20 = c ||| 0x20 := by
  have all : ∀ n : Fin 256, loweredLetter (UInt8.ofNat n) ||| 0x20 = UInt8.ofNat n ||| 0x20 := by
    decide +kernel
  have here := all ⟨c.toNat, c.toNat_lt⟩
  rwa [UInt8.ofNat_toNat] at here

theorem lowerCase_lowered (ignoreCase : Bool) (c : UInt8) :
    lowerCase ignoreCase (lowered ignoreCase c) = lowerCase ignoreCase c := by
  cases ignoreCase with
  | false => rfl
  | true => exact loweredLetter_or c

theorem SameName.masked (same : SameName ignoreCase a b) :
    a.map (lowerCase ignoreCase) = b.map (lowerCase ignoreCase) := by
  have masked := congrArg (List.map (lowerCase ignoreCase)) same
  simpa only [List.map_map, Function.comp_def, lowerCase_lowered] using masked

theorem SameName.length_eq (same : SameName ignoreCase a b) : a.length = b.length := by
  simpa using congrArg List.length same

theorem findDifference_none (length : a.length = b.length) :
    ((a.zip b).findIdx? fun pair => lowerCase ignoreCase pair.1 ≠ lowerCase ignoreCase pair.2) = none ↔
      a.map (lowerCase ignoreCase) = b.map (lowerCase ignoreCase) := by
  induction a generalizing b with
  | nil =>
    obtain rfl := List.eq_nil_of_length_eq_zero length.symm
    exact iff_of_true rfl rfl
  | cons c rest ih =>
    cases b with
    | nil => cases length
    | cons d others =>
      have shorter : rest.length = others.length := Nat.succ.inj length
      rw [List.zip_cons_cons, List.findIdx?_cons, List.map_cons, List.map_cons, List.cons.injEq,
        ← ih shorter]
      by_cases agree : lowerCase ignoreCase c = lowerCase ignoreCase d
      · simp [agree]
      · simp [agree]

theorem findDifference_first (length : a.length = b.length) :
    ((a.zip b).findIdx? fun pair => lowerCase ignoreCase pair.1 ≠ lowerCase ignoreCase pair.2) = some 0 ↔
      a.head?.map (lowerCase ignoreCase) ≠ b.head?.map (lowerCase ignoreCase) := by
  cases a with
  | nil =>
    obtain rfl := List.eq_nil_of_length_eq_zero length.symm
    exact iff_of_false nofun fun differ => differ rfl
  | cons c rest =>
    cases b with
    | nil => cases length
    | cons d others =>
      rw [List.zip_cons_cons, List.findIdx?_cons]
      by_cases agree : lowerCase ignoreCase c = lowerCase ignoreCase d
      · simp [agree]
      · simp [agree]

theorem compareAnsiString_zero_iff :
    compareAnsiString a b ignoreCase = 0 ↔ a.length = b.length ∧
      (a.map (lowerCase ignoreCase) = b.map (lowerCase ignoreCase) ∨
        a.head?.map (lowerCase ignoreCase) ≠ b.head?.map (lowerCase ignoreCase)) := by
  rw [compareAnsiString]
  by_cases length : a.length = b.length
  · rw [if_neg (not_not.mpr length), and_iff_right length, ← findDifference_none length,
      ← findDifference_first length]
    rcases (a.zip b).findIdx? _ with _ | ndx
    · simp
    · simp [Int.natCast_eq_zero]
  · rw [if_pos length]
    exact iff_of_false (by decide) fun both => length both.1

theorem compare_iff_told :
    (compareAnsiString a b ignoreCase = 0 ↔ SameName ignoreCase a b) ↔ ToldApart ignoreCase a b := by
  rw [compareAnsiString_zero_iff, ToldApart]
  by_cases length : a.length = b.length
  · simp only [length, true_and, true_imp_iff]
    have masked : SameName ignoreCase a b → _ := SameName.masked
    have first : a.map (lowerCase ignoreCase) = b.map (lowerCase ignoreCase) →
        a.head?.map (lowerCase ignoreCase) = b.head?.map (lowerCase ignoreCase) := by
      intro same
      rw [← List.head?_map, ← List.head?_map, same]
    tauto
  · simp only [length, false_and, false_imp_iff, iff_true, false_iff]
    exact fun same => length same.length_eq

theorem SameName.compare_zero (same : SameName ignoreCase a b) :
    compareAnsiString a b ignoreCase = 0 :=
  compareAnsiString_zero_iff.mpr ⟨same.length_eq, .inl same.masked⟩

end Comparison

/-- A probe with the name is found if there is one, and never a probe with another name. -/
structure FindsByName (r : Registry) (name : NameString) (ignoreCase : Bool) : Prop where
  found : (∃ entry ∈ r.probeList, SameName ignoreCase entry.probeName.bytes name.bytes) →
    r.findProbeByName name ignoreCase ≠ none
  named : ∀ entry, r.findProbeByName name ignoreCase = some entry →
    SameName ignoreCase entry.probeName.bytes name.bytes

def Registry.buffered (r : Registry) : List ProbeObject :=
  r.probeList.filter fun entry => entry.probeName ≠ none

-- Those in front of the first one with the name, or all where there is none.
def entriesBefore (r : Registry) (name : NameString) (ignoreCase : Bool) : List ProbeObject :=
  r.buffered.takeWhile fun entry => ¬ SameName ignoreCase entry.probeName.bytes name.bytes

/-- The entries in front of the one with the name are told apart from it. Where a name without a buffer
is the name asked for, it has a buffer in another entry. -/
def LookedUp (r : Registry) (name : NameString) (ignoreCase : Bool) : Prop :=
  (∀ entry ∈ entriesBefore r name ignoreCase,
    ToldApart ignoreCase entry.probeName.bytes name.bytes) ∧
  ((∃ entry ∈ r.probeList, entry.probeName = none) → name.bytes = [] →
    ∃ entry ∈ r.probeList, entry.probeName = some [])

def comparesEqual (name : Bytes) (ignoreCase : Bool) (entry : ProbeObject) : Bool :=
  compareAnsiString entry.probeName.bytes name ignoreCase = 0

theorem comparesEqual_iff {name : Bytes} {ignoreCase : Bool} {entry : ProbeObject} :
    comparesEqual name ignoreCase entry ↔
      compareAnsiString entry.probeName.bytes name ignoreCase = 0 :=
  decide_eq_true_iff

theorem findProbeByName_buffered (r : Registry) (name : NameString) (ignoreCase : Bool) :
    r.findProbeByName name ignoreCase = r.buffered.find? (comparesEqual name.bytes ignoreCase) := by
  rw [Registry.buffered, List.find?_filter, Registry.findProbeByName]
  congr 1
  funext entry
  simp [Registry.sameName, comparesEqual]

theorem find_named_iff (name : Bytes) (ignoreCase : Bool) (entries : List ProbeObject) :
    (∀ entry, entries.find? (comparesEqual name ignoreCase) = some entry →
        SameName ignoreCase entry.probeName.bytes name) ↔
      ∀ entry ∈ entries.takeWhile fun entry => ¬ SameName ignoreCase entry.probeName.bytes name,
        ToldApart ignoreCase entry.probeName.bytes name := by
  induction entries with
  | nil => exact iff_of_true nofun nofun
  | cons first rest ih =>
    by_cases same : SameName ignoreCase first.probeName.bytes name
    · -- The first entry has the name, and is found.
      rw [List.find?_cons_of_pos (comparesEqual_iff.mpr same.compare_zero),
        List.takeWhile_cons_of_neg (by simpa using same)]
      exact iff_of_true (fun entry found => Option.some.inj found ▸ same) nofun
    · have told : ToldApart ignoreCase first.probeName.bytes name ↔
          ¬ compareAnsiString first.probeName.bytes name ignoreCase = 0 := by
        rw [← compare_iff_told]
        simp [same]
      rw [List.takeWhile_cons_of_pos (by simpa using same), List.forall_mem_cons, told, ← ih]
      by_cases zero : compareAnsiString first.probeName.bytes name ignoreCase = 0
      · rw [List.find?_cons_of_pos (comparesEqual_iff.mpr zero)]
        exact iff_of_false (fun named => same (named first rfl)) fun both => both.1 zero
      · rw [List.find?_cons_of_neg (mt comparesEqual_iff.mp zero)]
        exact (and_iff_right zero).symm

theorem SameName.nil_iff {ignoreCase : Bool} {a : Bytes} : SameName ignoreCase a [] ↔ a = [] := by
  simp [SameName]

section Lookup

variable {r : Registry} {name : NameString} {ignoreCase : Bool}

theorem mem_buffered {entry : ProbeObject} :
    entry ∈ r.buffered ↔ entry ∈ r.probeList ∧ entry.probeName ≠ none := by
  simp [Registry.buffered]

theorem found_of_buffered {entry : ProbeObject} (member : entry ∈ r.probeList)
    (buffered : entry.probeName ≠ none)
    (same : SameName ignoreCase entry.probeName.bytes name.bytes) :
    r.findProbeByName name ignoreCase ≠ none := by
  rw [findProbeByName_buffered]
  intro missed
  exact List.find?_eq_none.mp missed entry (mem_buffered.mpr ⟨member, buffered⟩)
    (comparesEqual_iff.mpr same.compare_zero)

theorem found_iff (named : ∀ entry, r.findProbeByName name ignoreCase = some entry →
      SameName ignoreCase entry.probeName.bytes name.bytes) :
    ((∃ entry ∈ r.probeList, SameName ignoreCase entry.probeName.bytes name.bytes) →
        r.findProbeByName name ignoreCase ≠ none) ↔
      ((∃ entry ∈ r.probeList, entry.probeName = none) → name.bytes = [] →
        ∃ entry ∈ r.probeList, entry.probeName = some []) := by
  constructor
  · rintro found ⟨entry, member, unbuffered⟩ empty
    have there : r.findProbeByName name ignoreCase ≠ none := by
      refine found ⟨entry, member, ?_⟩
      rw [unbuffered, empty]
      rfl
    obtain ⟨other, known⟩ := Option.ne_none_iff_exists'.mp there
    have same := named other known
    rw [findProbeByName_buffered] at known
    obtain ⟨inside, buffered⟩ := mem_buffered.mp (List.mem_of_find?_eq_some known)
    obtain ⟨text, has⟩ := Option.ne_none_iff_exists'.mp buffered
    rw [empty, SameName.nil_iff, has] at same
    exact ⟨other, inside, by rw [has, show text = [] from same]⟩
  · rintro buffered ⟨entry, member, same⟩
    by_cases bare : entry.probeName = none
    · have empty : name.bytes = [] := by
        rw [bare] at same
        exact List.map_eq_nil_iff.mp same.symm
      obtain ⟨other, inside, has⟩ := buffered ⟨entry, member, bare⟩ empty
      refine found_of_buffered inside (by simp [has]) ?_
      rw [has, empty]
      rfl
    · exact found_of_buffered member bare same

theorem finds_iff (r : Registry) (name : NameString) (ignoreCase : Bool) :
    FindsByName r name ignoreCase ↔ LookedUp r name ignoreCase := by
  have named := find_named_iff name.bytes ignoreCase r.buffered
  rw [← findProbeByName_buffered] at named
  constructor
  · intro finds
    exact ⟨named.mp finds.named, (found_iff finds.named).mp finds.found⟩
  · rintro ⟨told, buffered⟩
    exact ⟨(found_iff (named.mpr told)).mpr buffered, named.mpr told⟩

end Lookup

/-- Two names are compared right exactly if they are told apart, and a lookup is right exactly if every
entry in front of the one with the name is told apart from it and a name without a buffer is not missed. -/
theorem names_compared_iff (a b : NameString) (r : Registry) (name : NameString) (ignoreCase : Bool) :
    ((compareAnsiString a.bytes b.bytes ignoreCase = 0 ↔ SameName ignoreCase a.bytes b.bytes) ↔
      ToldApart ignoreCase a.bytes b.bytes) ∧
    (FindsByName r name ignoreCase ↔ LookedUp r name ignoreCase) :=
  ⟨compare_iff_told, finds_iff r name ignoreCase⟩

-- A difference in the first byte, and one in the bit of the case where no letters are.
theorem names_confused :
    (compareAnsiString (ascii "Files") (ascii "Pipes") false = 0 ∧
      compareAnsiString (ascii "a[") (ascii "a\x7b") true = 0) ∧
    ¬ ∀ (a b : Bytes) (ignoreCase : Bool),
      compareAnsiString a b ignoreCase = 0 ↔ SameName ignoreCase a b := by
  refine ⟨by decide, fun all => ?_⟩
  have same := (all (ascii "Files") (ascii "Pipes") false).mp (by decide)
  exact absurd same (by decide)

end VirtueSensing.Driver
