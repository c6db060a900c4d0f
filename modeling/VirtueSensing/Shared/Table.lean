import Mathlib.Data.List.Nodup
import Mathlib.Tactic.Common

set_option autoImplicit false

/-!
# Tables with primary keys

The rows of a relational table under the keys that a sequence hands out, with the queries, the
single-row lookups and the unique indexes over them.
-/

namespace VirtueSensing

universe u v

structure Table (Row : Type u) where
  rows : List (Nat × Row)
  next : Nat
  distinct : (rows.map Prod.fst).Nodup
  below : ∀ entry ∈ rows, entry.1 < next

/-- What a query that expects one row makes of its answer. -/
inductive Lookup (Row : Type u) where
  | noMatches
  | found (id : Nat) (row : Row)
  | multipleMatches
  deriving DecidableEq, Repr

def Lookup.ofRows {Row : Type u} : List (Nat × Row) → Lookup Row
  | [] => .noMatches
  | [(id, row)] => .found id row
  | _ => .multipleMatches

namespace Table

variable {Row : Type u}

def empty : Table Row := ⟨[], 0, List.nodup_nil, nofun⟩

def insert (t : Table Row) (row : Row) : Table Row where
  rows := t.rows ++ [(t.next, row)]
  next := t.next + 1
  distinct := by
    rw [List.map_append, List.nodup_append]
    refine ⟨t.distinct, List.nodup_singleton _, ?_⟩
    intro id member other last same
    obtain ⟨entry, stored, rfl⟩ := List.mem_map.mp member
    obtain rfl := List.mem_singleton.mp last
    exact Nat.ne_of_lt (t.below entry stored) same
  below := by
    intro entry member
    rcases List.mem_append.mp member with member | member
    · exact Nat.lt_succ_of_lt (t.below entry member)
    · obtain rfl := List.mem_singleton.mp member
      exact Nat.lt_succ_self _

def change (id : Nat) (f : Row → Row) (entry : Nat × Row) : Nat × Row :=
  (entry.1, if entry.1 = id then f entry.2 else entry.2)

def update (t : Table Row) (id : Nat) (f : Row → Row) : Table Row where
  rows := t.rows.map (change id f)
  next := t.next
  distinct := by
    rw [List.map_map]
    exact t.distinct
  below := by
    intro entry member
    obtain ⟨before, stored, rfl⟩ := List.mem_map.mp member
    exact t.below before stored

def keep (t : Table Row) (holds : Nat × Row → Bool) : Table Row where
  rows := t.rows.filter holds
  next := t.next
  distinct := t.distinct.sublist (List.filter_sublist.map _)
  below entry member := t.below entry (List.mem_of_mem_filter member)

def delete (t : Table Row) (id : Nat) : Table Row :=
  t.keep fun entry => entry.1 ≠ id

def deleteWhere (t : Table Row) (holds : Row → Bool) : Table Row :=
  t.keep fun entry => !holds entry.2

def select (t : Table Row) (holds : Row → Bool) : List (Nat × Row) :=
  t.rows.filter fun entry => holds entry.2

def lookup (t : Table Row) (holds : Row → Bool) : Lookup Row :=
  Lookup.ofRows (t.select holds)

def find (t : Table Row) (id : Nat) : Option Row :=
  t.rows.lookup id

variable {t : Table Row}

theorem mem_select {holds : Row → Bool} {entry : Nat × Row} :
    entry ∈ t.select holds ↔ entry ∈ t.rows ∧ holds entry.2 :=
  List.mem_filter

theorem mem_insert {row : Row} {entry : Nat × Row} :
    entry ∈ (t.insert row).rows ↔ entry ∈ t.rows ∨ entry = (t.next, row) := by
  rw [insert, List.mem_append, List.mem_singleton]

theorem mem_update {id : Nat} {f : Row → Row} {entry : Nat × Row} :
    entry ∈ (t.update id f).rows ↔ ∃ row, (entry.1, row) ∈ t.rows ∧
      entry.2 = if entry.1 = id then f row else row := by
  constructor
  · intro member
    obtain ⟨before, stored, rfl⟩ := List.mem_map.mp member
    exact ⟨before.2, stored, rfl⟩
  · rintro ⟨row, stored, changed⟩
    exact List.mem_map.mpr ⟨(entry.1, row), stored, Prod.ext rfl changed.symm⟩

theorem mem_delete {id : Nat} {entry : Nat × Row} :
    entry ∈ (t.delete id).rows ↔ entry ∈ t.rows ∧ entry.1 ≠ id := by
  rw [delete, keep, List.mem_filter, decide_eq_true_eq]

theorem eq_of_id {a b : Nat × Row} (first : a ∈ t.rows) (second : b ∈ t.rows) (same : a.1 = b.1) :
    a = b :=
  List.inj_on_of_nodup_map t.distinct first second same

theorem find_eq_some {id : Nat} {row : Row} : t.find id = some row ↔ (id, row) ∈ t.rows := by
  constructor
  · intro stored
    obtain ⟨before, after, split, -⟩ := List.lookup_eq_some_iff.mp stored
    rw [split]
    exact List.mem_append_right _ List.mem_cons_self
  · intro stored
    cases found : t.find id with
    | some other =>
      obtain ⟨before, after, split, -⟩ := List.lookup_eq_some_iff.mp found
      have there : (id, other) ∈ t.rows := by
        rw [split]
        exact List.mem_append_right _ List.mem_cons_self
      rw [(Prod.mk.inj (eq_of_id there stored rfl)).2]
    | none =>
      have missing := List.lookup_eq_none_iff.mp found (id, row) stored
      simp at missing

theorem find_update {id other : Nat} {f : Row → Row} :
    (t.update id f).find other = if other = id then (t.find other).map f else t.find other := by
  have changed : ∀ rows : List (Nat × Row), (rows.map (change id f)).lookup other =
      if other = id then (rows.lookup other).map f else rows.lookup other := by
    intro rows
    induction rows with
    | nil => simp
    | cons entry rest ih =>
      obtain ⟨key, row⟩ := entry
      rw [List.map_cons, change, List.lookup_cons, List.lookup_cons, ih]
      by_cases same : other = key
      · by_cases named : key = id <;> simp [same, named]
      · rw [beq_eq_false_iff_ne.mpr same]
  exact changed t.rows

theorem lookup_found {holds : Row → Bool} {id : Nat} {row : Row}
    (found : t.lookup holds = .found id row) : t.select holds = [(id, row)] := by
  unfold lookup Lookup.ofRows at found
  split at found
  · exact absurd found nofun
  · next only =>
    obtain ⟨rfl, rfl⟩ := Lookup.found.inj found
    exact only
  · exact absurd found nofun

theorem mem_of_lookup {holds : Row → Bool} {id : Nat} {row : Row}
    (found : t.lookup holds = .found id row) : (id, row) ∈ t.rows ∧ holds row := by
  rw [← mem_select, lookup_found found]
  exact List.mem_singleton_self _

theorem lookup_multiple {holds : Row → Bool} (several : t.lookup holds = .multipleMatches) :
    ∃ entry : Nat × Row, entry ∈ t.rows ∧ holds entry.2 := by
  cases selected : t.select holds with
  | nil => rw [lookup, selected] at several; exact absurd several nofun
  | cons a rest => exact ⟨a, mem_select.mp (selected ▸ List.mem_cons_self)⟩

theorem lookup_noMatches {holds : Row → Bool} :
    t.lookup holds = .noMatches ↔ ∀ entry ∈ t.rows, holds entry.2 = false := by
  have nothing : t.lookup holds = .noMatches ↔ t.select holds = [] := by
    unfold lookup
    rcases t.select holds with - | ⟨a, - | ⟨b, rest⟩⟩ <;> simp [Lookup.ofRows]
  rw [nothing, select, List.filter_eq_nil_iff]
  simp only [Bool.not_eq_true]

theorem lookup_single {holds : Row → Bool} (single : (t.select holds).length ≤ 1) :
    t.lookup holds ≠ .multipleMatches := by
  unfold lookup
  rcases selected : t.select holds with - | ⟨a, - | ⟨b, rest⟩⟩
  · exact nofun
  · exact nofun
  · rw [selected] at single
    simp at single

section Unique

variable {κ : Type v} (key : Row → Option κ)

/-- No two rows share a key. Rows without one are not compared. -/
def Unique (t : Table Row) : Prop :=
  ∀ a ∈ t.rows, ∀ b ∈ t.rows, key a.2 ≠ none → key a.2 = key b.2 → a = b

def taken [DecidableEq κ] (t : Table Row) (row : Row) : Bool :=
  t.rows.any fun entry => key entry.2 ≠ none ∧ key entry.2 = key row

variable {key}

theorem taken_eq_false [DecidableEq κ] {row : Row} :
    t.taken key row = false ↔ ∀ entry ∈ t.rows, key entry.2 ≠ none → key entry.2 ≠ key row := by
  simp [taken]

theorem unique_empty : Unique key (empty : Table Row) := nofun

theorem unique_insert [DecidableEq κ] {row : Row} :
    Unique key (t.insert row) ↔ Unique key t ∧ t.taken key row = false := by
  rw [taken_eq_false]
  constructor
  · intro unique
    refine ⟨fun a here b there => ?_, fun entry stored keyed same => ?_⟩
    · exact unique a (mem_insert.mpr (.inl here)) b (mem_insert.mpr (.inl there))
    · have last := unique entry (mem_insert.mpr (.inl stored)) _ (mem_insert.mpr (.inr rfl)) keyed same
      have before := t.below entry stored
      rw [last] at before
      exact Nat.lt_irrefl _ before
  · rintro ⟨unique, free⟩ a here b there keyed same
    rcases mem_insert.mp here with here | rfl
    · rcases mem_insert.mp there with there | rfl
      · exact unique a here b there keyed same
      · exact absurd same (free a here keyed)
    · rcases mem_insert.mp there with there | rfl
      · exact absurd same.symm (free b there (same ▸ keyed))
      · rfl

theorem Unique.keep (unique : Unique key t) (holds : Nat × Row → Bool) :
    Unique key (t.keep holds) :=
  fun a here b there => unique a (List.mem_of_mem_filter here) b (List.mem_of_mem_filter there)

theorem Unique.update (unique : Unique key t) {id : Nat} {f : Row → Row}
    (kept : ∀ row, (id, row) ∈ t.rows → key (f row) = key row) : Unique key (t.update id f) := by
  have unchanged : ∀ entry ∈ (t.update id f).rows, ∃ row, (entry.1, row) ∈ t.rows ∧
      key entry.2 = key row ∧ entry.2 = if entry.1 = id then f row else row := by
    intro entry member
    obtain ⟨row, stored, changed⟩ := mem_update.mp member
    refine ⟨row, stored, ?_, changed⟩
    rw [changed]
    split
    · next same => exact kept row (same ▸ stored)
    · rfl
  intro a here b there keyed same
  obtain ⟨before, stored, keptA, changedA⟩ := unchanged a here
  obtain ⟨other, storedOther, keptB, changedB⟩ := unchanged b there
  have equal := unique _ stored _ storedOther (keptA ▸ keyed) (by rw [← keptA, ← keptB, same])
  obtain ⟨sameId, rfl⟩ := Prod.mk.inj equal
  exact Prod.ext sameId (by rw [changedA, changedB, sameId])

theorem Unique.length_select (unique : Unique key t) (k : κ) {holds : Row → Bool}
    (keyed : ∀ row, holds row → key row = some k) : (t.select holds).length ≤ 1 := by
  have nodup : (t.select holds).Nodup := (List.Nodup.of_map _ t.distinct).filter _
  cases selected : t.select holds with
  | nil => exact Nat.zero_le 1
  | cons a rest =>
    cases rest with
    | nil => exact Nat.le_refl 1
    | cons b rest =>
      have first : a ∈ t.rows ∧ holds a.2 := mem_select.mp (by simp [selected])
      have second : b ∈ t.rows ∧ holds b.2 := mem_select.mp (by simp [selected])
      have keyA := keyed a.2 first.2
      have same : a = b := unique a first.1 b second.1 (by simp [keyA]) (by
        rw [keyA, keyed b.2 second.2])
      rw [selected, same] at nodup
      simp at nodup

theorem Unique.lookup (unique : Unique key t) (k : κ) {holds : Row → Bool}
    (keyed : ∀ row, holds row → key row = some k) {id : Nat} {row : Row} (stored : (id, row) ∈ t.rows)
    (selected : holds row) : t.lookup holds = .found id row := by
  cases found : t.lookup holds with
  | noMatches =>
    have missed := lookup_noMatches.mp found _ stored
    rw [selected] at missed
    cases missed
  | found other entry =>
    obtain ⟨there, held⟩ := mem_of_lookup found
    have key := keyed row selected
    obtain ⟨rfl, rfl⟩ := Prod.mk.inj (unique _ stored _ there (by simp [key]) (key.trans (keyed entry held).symm))
    rfl
  | multipleMatches => exact absurd found (lookup_single (unique.length_select k keyed))

end Unique

end Table

end VirtueSensing
