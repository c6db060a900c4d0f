import VirtueSensing.Driver.EventRecords

set_option autoImplicit false

/-!
# Sizes of records with a string

The `USHORT` that a callback computes for the buffer of its record, beside what it copies there.
-/

namespace VirtueSensing.Driver

open CLayout

/-- The callbacks that copy a string, by the record they build. -/
inductive Builder where
  | processCreate
  | imageLoad
  | createKey
  | queryValueKey
  | renameKey
  | deleteValueKey
  | setValueKey
  deriving DecidableEq, Repr

namespace Builder

def record : Builder → Record
  | processCreate => .processCreateInfo
  | imageLoad => .loadedImageInfo
  | createKey => .regCreateKeyInfo
  | queryValueKey => .regQueryValueKeyInfo
  | renameKey => .regRenameKeyInfo
  | deleteValueKey => .regDeleteValueKeyInfo
  | setValueKey => .regSetValueKeyInfo

def place : (b : Builder) → Place b.record
  | processCreate => .commandLine
  | imageLoad => .fullImageName
  | createKey => .completeName
  | queryValueKey => .queriedValueName
  | renameKey => .newName
  | deleteValueKey => .deletedValueName
  | setValueKey => .setValueName

-- Whether `MaximumLength` is used where the others have `Length`.
def usesMaximumLength : Builder → Bool
  | processCreate | imageLoad | createKey => false
  | queryValueKey | renameKey | deleteValueKey | setValueKey => true

def rounds : Builder → Bool
  | processCreate | imageLoad => true
  | createKey | queryValueKey | renameKey | deleteValueKey | setValueKey => false

def copied (b : Builder) (us : UnicodeString) : Nat :=
  if b.usesMaximumLength then us.maximumLength.toNat else us.length.toNat

def total (b : Builder) (us : UnicodeString) : Nat :=
  if b.rounds then alignUp (b.record.driver.size + b.copied us) 0x10
  else b.record.driver.size + b.copied us

def bufsz (b : Builder) (us : UnicodeString) : Nat := ushortSize (b.total us)

inductive Builds (context : Context) (us : UnicodeString) : Builder → Option Bytes → Prop where
  | processCreate (parent process thread file : UInt64) (status : UInt32) :
    Builds context us processCreate
      (processNotifyCallbackEx context us parent process thread file status)
  | imageLoad (imageBase imageSize : UInt64) :
    Builds context us imageLoad (imageLoadNotificationRoutine context us imageBase imageSize)
  | createKey (opens : Bool) (rootObject : UInt64) (options : UInt32)
      (securityDescriptor securityQualityOfService : UInt64) (desiredAccess grantedAccess : UInt32)
      (version : UInt64) (wow64Flags attributes : UInt32) (checkAccessMode : UInt8) :
    Builds context us createKey
      (regNtPreCreateKeyExCallback context opens us rootObject options securityDescriptor
        securityQualityOfService desiredAccess grantedAccess version wow64Flags attributes
        checkAccessMode)
  | queryValueKey (object : UInt64) (information : UInt32) :
    Builds context us queryValueKey (regNtPreQueryValueKeyCallback context us object information)
  | renameKey (object : UInt64) :
    Builds context us renameKey (regNtPreRenameKeyCallback context us object)
  | deleteValueKey (object : UInt64) :
    Builds context us deleteValueKey (regNtPreDeleteValueKeyCallback context us object)
  | setValueKey (object : UInt64) (type : UInt32) :
    Builds context us setValueKey (regNtPreSetValueKeyCallback context us object type)

def Covers (b : Builder) (us : UnicodeString) : Prop := b.place.offset + b.copied us ≤ b.bufsz us

/-- The copy ends in the buffer, and takes nothing but the string. -/
def Safe (b : Builder) (us : UnicodeString) : Prop := b.Covers us ∧ b.copied us ≤ us.length.toNat

-- How many bytes a record can have of a string, for its size to fit in a `USHORT`.
def limit : Builder → Nat
  | processCreate => 65416
  | imageLoad => 65432
  | createKey => 65407
  | queryValueKey => 65447
  | renameKey | deleteValueKey | setValueKey => 65455

section Sizes

variable (b : Builder) (us : UnicodeString)

theorem total_lt_iff : b.total us < 2 ^ 16 ↔ b.copied us ≤ b.limit := by
  have sizes : (if b.rounds then 65520 else 65535) = b.record.driver.size + b.limit := by
    cases b <;> decide +kernel
  generalize b.limit = limit at sizes
  rw [total]
  split at sizes
  · rename_i rounds
    rw [if_pos rounds]
    unfold alignUp
    omega
  · rename_i plain
    rw [if_neg plain]
    omega

theorem le_total : b.record.driver.size + b.copied us ≤ b.total us := by
  rw [total]
  split
  · exact le_alignUp (by decide) _
  · exact Nat.le_refl _

theorem total_lt : b.total us < 2 ^ 16 + b.place.offset + b.copied us := by
  have near : b.record.driver.size + 0x10 ≤ 2 ^ 16 := by
    cases b <;> decide +kernel
  have rounded := alignUp_lt (show 0 < 0x10 by decide) (b.record.driver.size + b.copied us)
  rw [total]
  split <;> omega

theorem covers_iff : b.Covers us ↔ b.copied us ≤ b.limit := by
  have behind := offset_le b.place
  have low := b.le_total us
  have high := b.total_lt us
  rw [← b.total_lt_iff us, Covers, bufsz]
  constructor
  · intro covers
    by_contra wide
    unfold ushortSize at covers
    omega
  · intro narrow
    rw [ushortSize, Nat.mod_eq_of_lt narrow]
    omega

theorem copied_le_maximumLength : b.copied us ≤ us.maximumLength.toNat := by
  rw [copied]
  split
  · exact Nat.le_refl _
  · exact us.within

theorem copied_le_length_iff :
    b.copied us ≤ us.length.toNat ↔ (b.usesMaximumLength → us.length = us.maximumLength) := by
  have within : us.length.toNat ≤ us.maximumLength.toNat := us.within
  rw [copied]
  split
  · rename_i uses
    rw [imp_iff_right uses]
    exact ⟨fun fits => UInt16.toNat_inj.mp (Nat.le_antisymm within fits),
      fun same => same ▸ Nat.le_refl _⟩
  · rename_i uses
    exact iff_of_true (Nat.le_refl _) fun here => absurd here uses

end Sizes

section Callbacks

variable {context : Context} {us : UnicodeString} {b : Builder}

theorem report_iff (buffer : Bytes) (type : ProbeType) (others : List (Scalar b.record))
    (sized : buffer.length = b.bufsz us) :
    report b.place context type buffer others us (b.copied us) ≠ none ↔ b.copied us ≤ b.limit := by
  have whole : (us.buffer.take (b.copied us)).length = b.copied us := by
    rw [List.length_take, us.sized]
    exact Nat.min_eq_left (b.copied_le_maximumLength us)
  have inside : Inside (reportWrites b.place
      (reportScalars b.place context type buffer.length others (b.copied us))
      (us.buffer.take (b.copied us))) buffer.length ↔ b.total us < 2 ^ 16 := by
    rw [sized]
    refine inside_iff ?_ ?_
    · rw [whole]
      exact b.le_total us
    · rw [whole]
      exact b.total_lt us
  rw [← b.total_lt_iff us, ← inside, report]
  split
  · rename_i here
    exact iff_of_true nofun here
  · rename_i outside
    exact iff_of_false (fun made => made rfl) outside

theorem built_iff {out : Option Bytes} (builds : Builds context us b out) :
    out ≠ none ↔ b.copied us ≤ b.limit := by
  cases builds with
  | processCreate => exact report_iff (b := processCreate) _ _ _ List.length_replicate
  | imageLoad => exact report_iff (b := imageLoad) _ _ _ List.length_replicate
  | createKey => exact report_iff (b := createKey) _ _ _ (context.length_allocate _)
  | queryValueKey => exact report_iff (b := queryValueKey) _ _ _ (context.length_allocate _)
  | renameKey => exact report_iff (b := renameKey) _ _ _ (context.length_allocate _)
  | deleteValueKey => exact report_iff (b := deleteValueKey) _ _ _ (context.length_allocate _)
  | setValueKey => exact report_iff (b := setValueKey) _ _ _ (context.length_allocate _)

end Callbacks

end Builder

/-- A record is built safely exactly if its string leaves room for it in a `USHORT` and, where it is
copied with its `MaximumLength`, fills all of that; the writes of its callback stay in the buffer exactly
if there is the room. -/
theorem record_safe_iff (b : Builder) (us : UnicodeString) :
    (b.Safe us ↔ b.copied us ≤ b.limit ∧ (b.usesMaximumLength → us.length = us.maximumLength)) ∧
      ∀ context out, b.Builds context us out → (out ≠ none ↔ b.copied us ≤ b.limit) :=
  ⟨and_congr (b.covers_iff us) (b.copied_le_length_iff us), fun _ _ => Builder.built_iff⟩

-- A command line of as many bytes as a `UNICODE_STRING` can have of whole characters.
def longLine : UnicodeString where
  length := 65534
  maximumLength := 65534
  buffer := List.replicate 65534 0
  within := by decide
  sized := List.length_replicate

theorem longLine_overruns : Builder.processCreate.bufsz longLine = 112 ∧
    ¬ ∀ (b : Builder) (us : UnicodeString), b.Safe us := by
  have copied : Builder.processCreate.copied longLine = 65534 := rfl
  have size : Builder.processCreate.record.driver.size = 104 := by decide +kernel
  refine ⟨?_, fun all => ?_⟩
  · have rounds : Builder.processCreate.rounds := rfl
    rw [Builder.bufsz, Builder.total, if_pos rounds, copied, size]
    decide
  · have fits := (Builder.processCreate.covers_iff longLine).mp (all .processCreate longLine).1
    rw [copied] at fits
    exact absurd fits (by decide)

end VirtueSensing.Driver
