import Mathlib.Tactic.Common

set_option autoImplicit false

/-!
# Attempts

Steps over a state that may fail. A failure keeps what the steps before it have written.
-/

namespace VirtueSensing

universe u v w

def Attempt (σ : Type u) (ε : Type v) (α : Type w) := σ → Except ε α × σ

namespace Attempt

variable {σ : Type u} {ε : Type v} {α β : Type w}

def next (attempt : Attempt σ ε α) (rest : α → Attempt σ ε β) : Attempt σ ε β := fun s =>
  match attempt s with
  | (.ok a, t) => rest a t
  | (.error e, t) => (.error e, t)

instance : Monad (Attempt σ ε) where
  pure a s := (.ok a, s)
  bind := next

-- A step that reads and fails, but writes nothing.
def given (result : Except ε α) : Attempt σ ε α := fun s => (result, s)

/-- One attempt for each item in turn. The first that fails ends it. -/
def each (f : α → Attempt σ ε β) : List α → Attempt σ ε (List β)
  | [] => pure []
  | a :: rest => do
    let b ← f a
    let bs ← each f rest
    return b :: bs

variable {attempt : Attempt σ ε α} {rest : α → Attempt σ ε β} {s t : σ}

theorem bind_ok {a : α} (passed : attempt s = (.ok a, t)) : (attempt >>= rest) s = rest a t := by
  show next attempt rest s = _
  rw [next, passed]

theorem bind_error {e : ε} (failed : attempt s = (.error e, t)) :
    (attempt >>= rest) s = (.error e, t) := by
  show next attempt rest s = _
  rw [next, failed]

theorem bind_eq_ok {b : β} {u : σ} :
    (attempt >>= rest) s = (.ok b, u) ↔ ∃ a t, attempt s = (.ok a, t) ∧ rest a t = (.ok b, u) := by
  cases ran : attempt s with
  | mk result t =>
    cases result with
    | error e => simp [bind_error ran]
    | ok a => simp [bind_ok ran]

theorem each_ok {f : α → Attempt σ ε β} {value : α → β} {effect : α → σ → σ} (items : List α) (s : σ)
    (passed : ∀ a ∈ items, ∀ s, f a s = (.ok (value a), effect a s)) :
    each f items s = (.ok (items.map value), items.foldl (fun s a => effect a s) s) := by
  induction items generalizing s with
  | nil => rfl
  | cons a rest ih =>
    have others := ih (effect a s) fun b member => passed b (List.mem_cons_of_mem a member)
    rw [each, bind_ok (passed a List.mem_cons_self s), bind_ok others]
    rfl

theorem each_error {f : α → Attempt σ ε β} {a : α} (items : List α) (s : σ) (member : a ∈ items)
    (failed : ∀ s, ∃ e t, f a s = (.error e, t)) : ∃ e t, each f items s = (.error e, t) := by
  induction items generalizing s with
  | nil => exact absurd member List.not_mem_nil
  | cons b rest ih =>
    rw [each]
    cases ran : f b s with
    | mk result t =>
      cases result with
      | error e => exact ⟨e, t, bind_error ran⟩
      | ok c =>
        rw [bind_ok ran]
        rcases List.mem_cons.mp member with rfl | member
        · obtain ⟨e, u, stopped⟩ := failed s
          rw [stopped] at ran
          exact absurd (Prod.mk.inj ran).1 nofun
        · obtain ⟨e, u, stopped⟩ := ih t member
          exact ⟨e, u, bind_error stopped⟩

-- Where a step takes its effect or, if it fails, perhaps none, the steps of a beginning of the list do.
theorem each_ends (f : α → Attempt σ ε β) (effect : α → σ → σ)
    (passed : ∀ a s b t, f a s = (.ok b, t) → t = effect a s)
    (failed : ∀ a s e t, f a s = (.error e, t) → t = s ∨ t = effect a s) (items : List α) (s : σ) :
    ∃ handled, handled <+: items ∧
      (each f items s).2 = handled.foldl (fun s a => effect a s) s ∧
      ∀ bs, (each f items s).1 = .ok bs → handled = items := by
  induction items generalizing s with
  | nil => exact ⟨[], List.prefix_rfl, rfl, fun _ _ => rfl⟩
  | cons a rest ih =>
    rw [each]
    cases ran : f a s with
    | mk result t =>
      cases result with
      | error e =>
        rw [bind_error ran]
        rcases failed a s e t ran with rfl | rfl
        · exact ⟨[], List.nil_prefix, rfl, nofun⟩
        · exact ⟨[a], ⟨rest, rfl⟩, rfl, nofun⟩
      | ok b =>
        rw [bind_ok ran]
        obtain rfl := passed a s b t ran
        obtain ⟨handled, begins, left, whole⟩ := ih (effect a s)
        refine ⟨a :: handled, List.cons_prefix_cons.mpr ⟨rfl, begins⟩, ?_, ?_⟩
        · cases others : each f rest (effect a s) with
          | mk result u =>
            rw [others] at left
            cases result with
            | error e => rw [bind_error others, List.foldl_cons, ← left]
            | ok bs =>
              rw [bind_ok others, List.foldl_cons, ← left]
              rfl
        · intro bs ended
          cases others : each f rest (effect a s) with
          | mk result u =>
            rw [others] at whole
            cases result with
            | error e =>
              rw [bind_error others] at ended
              exact absurd ended nofun
            | ok cs => rw [whole cs rfl]

section Own

variable {κ ν : Type w} [DecidableEq κ] {key : α → κ} {effect : α → σ → σ} {view : σ → κ → ν}
  {own : α → ν → ν}

theorem foldl_untouched
    (frame : ∀ a s k, view (effect a s) k = if k = key a then own a (view s k) else view s k)
    (items : List α) (s : σ) {k : κ} (absent : k ∉ items.map key) :
    view (items.foldl (fun s a => effect a s) s) k = view s k := by
  induction items generalizing s with
  | nil => rfl
  | cons b rest ih =>
    rw [List.map_cons, List.mem_cons, not_or] at absent
    rw [List.foldl_cons, ih _ absent.2, frame, if_neg absent.1]

theorem foldl_own
    (frame : ∀ a s k, view (effect a s) k = if k = key a then own a (view s k) else view s k)
    {items : List α} (distinct : (items.map key).Nodup) {a : α} (member : a ∈ items) (s : σ) :
    view (items.foldl (fun s a => effect a s) s) (key a) = own a (view s (key a)) := by
  induction items generalizing s with
  | nil => exact absurd member List.not_mem_nil
  | cons b rest ih =>
    rw [List.map_cons, List.nodup_cons] at distinct
    rw [List.foldl_cons]
    rcases List.mem_cons.mp member with rfl | member
    · rw [foldl_untouched frame rest _ distinct.1, frame, if_pos rfl]
    · have different : key a ≠ key b := by
        intro same
        exact distinct.1 (same ▸ List.mem_map_of_mem member)
      rw [ih distinct.2 member, frame, if_neg different]

end Own

def Passes (attempt : Attempt σ ε α) (s : σ) : Prop :=
  ∃ a t, attempt s = (.ok a, t)

theorem Passes.after {a : α} (passed : attempt s = (.ok a, t)) (then_ : Passes (rest a) t) :
    Passes (attempt >>= rest) s := by
  rw [Passes, bind_ok passed]
  exact then_

/-- From a state with the precondition, an attempt that passes leaves the first condition and one that
fails the second. -/
def Triple (pre : σ → Prop) (attempt : Attempt σ ε α) (post : α → σ → Prop) (failed : σ → Prop) :
    Prop :=
  ∀ s, pre s → (∀ a t, attempt s = (.ok a, t) → post a t) ∧
    ∀ e t, attempt s = (.error e, t) → failed t

variable {pre failed : σ → Prop} {mid : α → σ → Prop} {post : β → σ → Prop}

theorem Triple.bind (first : Triple pre attempt mid failed)
    (then_ : ∀ a, Triple (mid a) (rest a) post failed) : Triple pre (attempt >>= rest) post failed := by
  intro s here
  have begun := first s here
  cases ran : attempt s with
  | mk result t =>
    cases result with
    | error e =>
      rw [bind_error ran]
      refine ⟨fun a u passed => absurd passed nofun, fun e' u stopped => ?_⟩
      obtain ⟨-, rfl⟩ := Prod.mk.inj stopped
      exact begun.2 e t ran
    | ok a =>
      rw [bind_ok ran]
      exact then_ a t (begun.1 a t ran)

theorem triple_given (result : Except ε α) :
    Triple failed (given result) (fun _ => failed) failed := by
  intro s here
  constructor
  · intro a t passed
    exact (Prod.mk.inj passed).2 ▸ here
  · intro e t stopped
    exact (Prod.mk.inj stopped).2 ▸ here

end Attempt

end VirtueSensing
