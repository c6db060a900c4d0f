import Mathlib.Data.List.Forall2
import Mathlib.Data.List.Nodup
import Mathlib.Tactic.Common

set_option autoImplicit false

namespace VirtueSensing.Lists

universe u

variable {α : Type u}

theorem snoc_eq_append_cons {xs first rest : List α} {x y : α}
    (split : xs ++ [x] = first ++ y :: rest) :
    (first = xs ∧ y = x) ∨ ∃ shorter, rest = shorter ++ [x] ∧ xs = first ++ y :: shorter := by
  rcases List.eq_nil_or_concat rest with rfl | ⟨shorter, z, rfl⟩
  · obtain ⟨rfl, same⟩ := List.append_inj' split rfl
    exact .inl ⟨rfl, (List.singleton_inj.mp same).symm⟩
  · rw [List.concat_eq_append, ← List.cons_append, ← List.append_assoc] at split
    obtain ⟨rfl, same⟩ := List.append_inj' split rfl
    obtain rfl := List.singleton_inj.mp same
    exact .inr ⟨shorter, List.concat_eq_append, rfl⟩

theorem intercalate_snoc (sep : List α) (parts : List (List α)) (last : List α) :
    sep.intercalate (parts ++ [last]) =
      if parts = [] then last else sep.intercalate parts ++ sep ++ last := by
  induction parts with
  | nil => simp
  | cons part rest ih =>
    rw [List.cons_append, List.intercalate_cons_of_ne_nil (by simp), ih]
    by_cases alone : rest = []
    · simp [alone]
    · simp [alone, List.intercalate_cons_of_ne_nil alone]

theorem intercalate_cons_flatMap (sep part : List α) (rest : List (List α)) :
    sep.intercalate (part :: rest) = part ++ rest.flatMap (sep ++ ·) := by
  induction rest generalizing part with
  | nil => simp
  | cons next rest ih =>
    rw [List.intercalate_cons_of_ne_nil (by simp), ih]
    simp

theorem infix_intercalate {sep part : List α} {parts : List (List α)} (member : part ∈ parts) :
    part <:+: sep.intercalate parts := by
  induction parts with
  | nil => simp at member
  | cons first rest ih =>
    by_cases alone : rest = []
    · simp_all
    rw [List.intercalate_cons_of_ne_nil alone]
    rcases List.mem_cons.mp member with rfl | later
    · exact ⟨[], sep ++ sep.intercalate rest, by simp⟩
    · exact (ih later).trans (List.suffix_append _ _).isInfix

theorem not_mem_of_mem_splitOn [DecidableEq α] {a : α} {xs part : List α}
    (member : part ∈ xs.splitOn a) : a ∉ part := by
  induction xs generalizing part with
  | nil =>
    obtain rfl : part = [] := by simpa using member
    exact List.not_mem_nil
  | cons x xs ih =>
    rw [List.splitOn_cons_eq_if_modifyHead] at member
    split at member
    · rcases List.mem_cons.mp member with rfl | later
      · exact List.not_mem_nil
      · exact ih later
    · next other =>
      obtain ⟨first, rest, split⟩ := List.exists_cons_of_ne_nil (List.splitOn_ne_nil a xs)
      rw [split, List.modifyHead_cons] at member
      rcases List.mem_cons.mp member with rfl | later
      · have bare := ih (split ▸ List.mem_cons_self)
        simpa [Ne.symm (by simpa using other : x ≠ a)] using bare
      · exact ih (split ▸ List.mem_cons_of_mem _ later)

theorem mem_of_mem_splitOn [DecidableEq α] {a : α} {xs part : List α}
    (member : part ∈ xs.splitOn a) {x : α} (inside : x ∈ part) : x ∈ xs := by
  have whole : part <:+: [a].intercalate (xs.splitOn a) := infix_intercalate member
  rw [List.intercalate_splitOn] at whole
  exact whole.subset inside

theorem mem_of_pair_sublist {before rest : List α} {x y z : α}
    (inOrder : [x, y].Sublist (before ++ z :: rest)) :
    y ∈ rest ∨ y ∈ before ∨ (x ∈ before ∧ y = z) := by
  obtain ⟨first, last, split, inBefore, inRest⟩ := List.sublist_append_iff.mp inOrder
  match first, last, split with
  | [], _, rfl =>
    cases inRest with
    | cons _ later => exact .inl (later.subset (by simp))
    | cons_cons _ later => exact .inl (later.subset (by simp))
  | [_], [_], rfl =>
    rcases List.mem_cons.mp (inRest.subset List.mem_cons_self) with here | later
    · exact .inr (.inr ⟨inBefore.subset List.mem_cons_self, here⟩)
    · exact .inl later
  | [_, _], [], rfl => exact .inr (.inl (inBefore.subset (by simp)))

theorem countP_mem_eq_one [DecidableEq α] {parts : List (List α)} (nodup : parts.flatten.Nodup) {x : α}
    (present : x ∈ parts.flatten) : parts.countP (fun part => x ∈ part) = 1 := by
  induction parts with
  | nil => simp at present
  | cons part rest ih =>
    rw [List.flatten_cons, List.nodup_append] at nodup
    obtain ⟨-, restNodup, disjoint⟩ := nodup
    by_cases here : x ∈ part
    · have nowhere : rest.countP (fun part => x ∈ part) = 0 := by
        rw [List.countP_eq_zero]
        intro other member inside
        exact disjoint x here x (List.mem_flatten.mpr ⟨other, member, by simpa using inside⟩) rfl
      simp [here, nowhere]
    · have later : x ∈ rest.flatten := by simpa [here] using present
      simp [here, ih restNodup later]

theorem countP_eq_countP_iff {p q : α → Bool} {l : List α} (le : ∀ a ∈ l, p a → q a) :
    l.countP p = l.countP q ↔ ∀ a ∈ l, p a = q a := by
  induction l with
  | nil => simp
  | cons a rest ih =>
    have rested : ∀ b ∈ rest, p b → q b := fun b member => le b (List.mem_cons_of_mem a member)
    have fewer := List.countP_mono_left rested
    rw [List.forall_mem_cons, ← ih rested, List.countP_cons, List.countP_cons]
    cases here : p a with
    | true => simp [le a List.mem_cons_self here]
    | false =>
      cases there : q a with
      | false => simp
      | true =>
        simp only [Bool.false_eq_true, if_false, if_true, false_and, iff_false]
        omega

theorem eraseP_congr {p q : α → Bool} {l : List α} (same : ∀ a ∈ l, p a = q a) :
    l.eraseP p = l.eraseP q := by
  induction l with
  | nil => rfl
  | cons a l ih =>
    rw [List.eraseP_cons, List.eraseP_cons, same a List.mem_cons_self,
      ih fun b member => same b (List.mem_cons_of_mem a member)]

theorem find?_of_nodup {β : Type u} [DecidableEq β] {f : α → β} {l : List α}
    (distinct : (l.map f).Nodup) {a : α} (member : a ∈ l) :
    (l.find? fun b => f b = f a) = some a := by
  induction l with
  | nil => cases member
  | cons b l ih =>
    rw [List.map_cons, List.nodup_cons] at distinct
    rcases List.mem_cons.mp member with rfl | later
    · exact List.find?_cons_of_pos (by simp)
    · have other : f b ≠ f a := fun same => distinct.1 (same ▸ List.mem_map_of_mem later)
      rw [List.find?_cons_of_neg (by simpa using other), ih distinct.2 later]

theorem findIdx?_congr {p q : α → Bool} {l : List α} (same : ∀ a ∈ l, p a = q a) :
    l.findIdx? p = l.findIdx? q := by
  induction l with
  | nil => rfl
  | cons a l ih =>
    rw [List.findIdx?_cons, List.findIdx?_cons, same a List.mem_cons_self,
      ih fun b member => same b (List.mem_cons_of_mem a member)]

theorem lookup_ne_none_iff [DecidableEq α] {β : Type u} {table : List (α × β)} {a : α} :
    table.lookup a ≠ none ↔ a ∈ table.map Prod.fst := by
  rw [Option.ne_none_iff_isSome, List.lookup_isSome_iff, List.mem_map]
  constructor
  · rintro ⟨entry, member, same⟩
    exact ⟨entry, member, (beq_iff_eq.mp same).symm⟩
  · rintro ⟨entry, member, same⟩
    exact ⟨entry, member, beq_iff_eq.mpr same.symm⟩

theorem drop_append_eq_right_iff {first rest : List α} {n : Nat} :
    (first ++ rest).drop n = rest ↔ n = first.length ∨ rest = [] ∧ first.length ≤ n := by
  constructor
  · intro same
    have length := congrArg List.length same
    rw [List.length_drop, List.length_append] at length
    by_cases nothing : rest = []
    · rw [nothing, List.length_nil] at length
      exact .inr ⟨nothing, by omega⟩
    · have more := List.length_pos_of_ne_nil nothing
      exact .inl (by omega)
  · rintro (whole | ⟨nothing, past⟩)
    · exact List.drop_left' whole.symm
    · rw [nothing, List.append_nil]
      exact List.drop_eq_nil_of_le past

theorem mapM_eq_some {β : Type u} {f : α → Option β} {xs : List α} {ys : List β} :
    xs.mapM f = some ys ↔ List.Forall₂ (fun x y => f x = some y) xs ys := by
  induction xs generalizing ys with
  | nil =>
    rw [List.mapM_nil, List.forall₂_nil_left_iff]
    exact ⟨fun same => (Option.some.inj same).symm, fun nothing => nothing ▸ rfl⟩
  | cons x rest ih =>
    simp only [List.mapM_cons, Option.bind_eq_bind, Option.bind_eq_some_iff, Option.pure_def,
      Option.some.injEq, List.forall₂_cons_left_iff, ih]
    constructor
    · rintro ⟨y, here, ys, later, rfl⟩
      exact ⟨y, ys, here, later, rfl⟩
    · rintro ⟨y, ys, here, later, rfl⟩
      exact ⟨y, here, ys, later, rfl⟩

theorem exists_of_mapM {β : Type u} {f : α → Option β} {xs : List α} {ys : List β}
    (made : xs.mapM f = some ys) {y : β} (member : y ∈ ys) : ∃ x ∈ xs, f x = some y := by
  have each := mapM_eq_some.mp made
  obtain ⟨i, within, rfl⟩ := List.getElem_of_mem member
  have before : i < xs.length := each.length_eq ▸ within
  exact ⟨xs[i], List.getElem_mem before, each.get before within⟩

theorem flatMap_slice {β : Type u} {f : α → List β} {size : Nat} (same : ∀ a, (f a).length = size)
    (xs : List α) (tail : List β) {i : Nat} (within : i < xs.length) :
    ((xs.flatMap f ++ tail).drop (i * size)).take size = f xs[i] := by
  induction xs generalizing i with
  | nil => exact absurd within (Nat.not_lt_zero i)
  | cons a rest ih =>
    rw [List.flatMap_cons, List.append_assoc]
    cases i with
    | zero =>
      rw [Nat.zero_mul, List.drop_zero]
      exact List.take_left' (same a)
    | succ i =>
      have further : (i + 1) * size = (f a).length + i * size := by
        rw [same, Nat.succ_mul, Nat.add_comm]
      rw [further, ← List.drop_drop, List.drop_left, ih]
      rfl

def takeThrough (p : α → Bool) : List α → List α
  | [] => []
  | a :: rest => if p a then [a] else a :: takeThrough p rest

theorem takeThrough_eq_self {p : α → Bool} {l : List α} (nowhere : ∀ a ∈ l, p a = false) :
    takeThrough p l = l := by
  induction l with
  | nil => rfl
  | cons a rest ih =>
    rw [List.forall_mem_cons] at nowhere
    simp only [takeThrough, nowhere.1, ih nowhere.2, Bool.false_eq_true, if_false]

/-- Stopping at the first that is found leaves exactly those wanted only when there is nothing else in
front and no other behind. -/
theorem takeThrough_eq_filter_iff {p : α → Bool} {l : List α} :
    takeThrough p l = l.filter p ↔
      l = [] ∨ ∃ a rest, l = a :: rest ∧ p a = true ∧ ∀ b ∈ rest, p b = false := by
  cases l with
  | nil => simp [takeThrough]
  | cons a rest =>
    cases found : p a with
    | false =>
      refine iff_of_false (fun same => ?_) ?_
      · have member : a ∈ (a :: rest).filter p := by
          rw [← same]
          simp [takeThrough, found]
        have wanted := (List.mem_filter.mp member).2
        rw [found] at wanted
        cases wanted
      · rintro (none | ⟨b, others, split, first, -⟩)
        · cases none
        · rw [← (List.cons.inj split).1, found] at first
          cases first
    | true =>
      have whole : (∃ b others, a :: rest = b :: others ∧ p b = true ∧ ∀ c ∈ others, p c = false) ↔
          ∀ c ∈ rest, p c = false := by
        constructor
        · rintro ⟨b, others, split, -, absent⟩
          rwa [(List.cons.inj split).2]
        · exact fun absent => ⟨a, rest, rfl, found, absent⟩
      rw [whole]
      simp [takeThrough, found, List.filter_eq_nil_iff]

theorem eq_of_nodup_filterMap {β : Type u} {f : α → Option β} {l : List α}
    (distinct : (l.filterMap f).Nodup) {a b : α} {x : β} (there : a ∈ l) (here : b ∈ l)
    (first : f a = some x) (second : f b = some x) : a = b := by
  induction l with
  | nil => cases there
  | cons head rest ih =>
    have apart := List.pairwise_cons.mp (List.pairwise_filterMap.mp distinct)
    rcases List.mem_cons.mp there with rfl | thereLater <;>
      rcases List.mem_cons.mp here with rfl | hereLater
    · rfl
    · exact absurd rfl (apart.1 b hereLater x first x second)
    · exact absurd rfl (apart.1 a thereLater x second x first)
    · exact ih (List.pairwise_filterMap.mpr apart.2) thereLater hereLater

end VirtueSensing.Lists
