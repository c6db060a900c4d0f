import Mathlib.Data.List.Induction
import Mathlib.Tactic.Common
import VirtueSensing.Shared.Lists

set_option autoImplicit false

/-!
# Labelled machines

A machine has a partial step function. A label says which party moves and what its environment
answers, so that one list of labels is one interleaving.
-/

namespace VirtueSensing

universe u v

structure Machine (State : Type u) (Label : Type v) where
  initial : State
  step : State → Label → Option State

namespace Machine

variable {State : Type u} {Label : Type v} (m : Machine State Label)

def runFrom : State → List Label → Option State
  | s, [] => some s
  | s, a :: rest => (m.step s a).bind fun t => runFrom t rest

def run (labels : List Label) : Option State :=
  m.runFrom m.initial labels

@[simp] theorem runFrom_nil (s : State) : m.runFrom s [] = some s := rfl

@[simp] theorem runFrom_cons (s : State) (a : Label) (rest : List Label) :
    m.runFrom s (a :: rest) = (m.step s a).bind fun t => m.runFrom t rest := rfl

theorem runFrom_append (s : State) (first rest : List Label) :
    m.runFrom s (first ++ rest) = (m.runFrom s first).bind fun t => m.runFrom t rest := by
  induction first generalizing s with
  | nil => rfl
  | cons a first ih =>
    cases moved : m.step s a with
    | none => simp [moved]
    | some t => simp [moved, ih]

theorem run_append {first : List Label} {s : State} (reached : m.run first = some s)
    (rest : List Label) : m.run (first ++ rest) = m.runFrom s rest := by
  unfold run at reached ⊢
  rw [runFrom_append, reached]
  rfl

theorem run_snoc (labels : List Label) (a : Label) :
    m.run (labels ++ [a]) = (m.run labels).bind fun s => m.step s a := by
  unfold run
  rw [runFrom_append]
  congr 1
  funext s
  cases moved : m.step s a <;> simp [moved]

theorem run_snoc_eq_some {labels : List Label} {a : Label} {t : State}
    (reached : m.run (labels ++ [a]) = some t) :
    ∃ s, m.run labels = some s ∧ m.step s a = some t := by
  rw [run_snoc] at reached
  exact Option.bind_eq_some_iff.mp reached

-- The motive sees the labels too, so that it can speak about what a whole run did.
theorem run_induction {motive : List Label → State → Prop}
    (start : motive [] m.initial)
    (next : ∀ labels a s t, m.run labels = some s → motive labels s → m.step s a = some t →
      motive (labels ++ [a]) t)
    (labels : List Label) (s : State) (reached : m.run labels = some s) : motive labels s := by
  induction labels using List.reverseRecOn generalizing s with
  | nil =>
    obtain rfl := Option.some.inj reached
    exact start
  | append_singleton labels a ih =>
    obtain ⟨before, reachedBefore, moved⟩ := m.run_snoc_eq_some reached
    exact next labels a before s reachedBefore (ih before reachedBefore) moved

def Reachable (s : State) : Prop :=
  ∃ labels, m.run labels = some s

theorem invariant {motive : State → Prop} (start : motive m.initial)
    (next : ∀ s a t, m.Reachable s → motive s → m.step s a = some t → motive t)
    {s : State} (reached : m.Reachable s) : motive s := by
  obtain ⟨labels, reached⟩ := reached
  exact m.run_induction (motive := fun _ s => motive s) start
    (fun labels a s t before ih moved => next s a t ⟨labels, before⟩ ih moved) labels s reached

/-- Every step of the run is taken in a state and under a label that meet a condition. -/
def Throughout (holds : State → Label → Prop) (labels : List Label) : Prop :=
  ∀ first a rest s, labels = first ++ a :: rest → m.run first = some s → holds s a

theorem throughout_nil (holds : State → Label → Prop) : m.Throughout holds [] := by
  intro first a rest s split
  simp at split

theorem throughout_congr {holds meets : State → Label → Prop}
    (same : ∀ s a, m.Reachable s → (holds s a ↔ meets s a)) (labels : List Label) :
    m.Throughout holds labels ↔ m.Throughout meets labels := by
  constructor
  · intro through first a rest s split reached
    exact (same s a ⟨first, reached⟩).mp (through first a rest s split reached)
  · intro through first a rest s split reached
    exact (same s a ⟨first, reached⟩).mpr (through first a rest s split reached)

theorem throughout_snoc (holds : State → Label → Prop) {labels : List Label} {s : State}
    (reached : m.run labels = some s) (a : Label) :
    m.Throughout holds (labels ++ [a]) ↔ m.Throughout holds labels ∧ holds s a := by
  constructor
  · intro through
    refine ⟨fun first b rest t split before => ?_, through labels a [] s rfl reached⟩
    exact through first b (rest ++ [a]) t (by simp [split]) before
  · rintro ⟨through, last⟩ first b rest t split before
    rcases Lists.snoc_eq_append_cons split with ⟨rfl, rfl⟩ | ⟨shorter, -, split⟩
    · obtain rfl := Option.some.inj (reached.symm.trans before)
      exact last
    · exact through first b shorter t split before

-- A condition on the labels alone is one on the list of them.
theorem throughout_label_iff (holds : Label → Prop) {labels : List Label} {s : State}
    (reached : m.run labels = some s) : m.Throughout (fun _ a => holds a) labels ↔ ∀ a ∈ labels, holds a := by
  constructor
  · intro through a member
    obtain ⟨first, rest, rfl⟩ := List.append_of_mem member
    rw [run, runFrom_append] at reached
    obtain ⟨before, ran, -⟩ := Option.bind_eq_some_iff.mp reached
    exact through first a rest before rfl ran
  · rintro all first a rest _ rfl -
    exact all a (List.mem_append_right _ List.mem_cons_self)

-- The same as a check that runs, for a condition that can be decided.
def follows (holds : State → Label → Prop) [∀ s a, Decidable (holds s a)] :
    State → List Label → Bool
  | _, [] => true
  | s, a :: rest => decide (holds s a) && (m.step s a).all fun t => follows holds t rest

theorem throughout_of_follows (holds : State → Label → Prop) [∀ s a, Decidable (holds s a)]
    {labels : List Label} (checked : m.follows holds m.initial labels) :
    m.Throughout holds labels := by
  intro first a rest s split reached
  unfold run at reached
  generalize m.initial = start at checked reached
  induction first generalizing start labels with
  | nil =>
    obtain rfl := Option.some.inj reached
    subst split
    simp only [List.nil_append, follows, Bool.and_eq_true, decide_eq_true_eq] at checked
    exact checked.1
  | cons b first ih =>
    subst split
    obtain ⟨t, moved, reached⟩ := Option.bind_eq_some_iff.mp reached
    simp only [List.cons_append, follows, moved, Option.all_some, Bool.and_eq_true] at checked
    exact ih rfl t checked.2 reached

theorem invariant_of_throughout {inv : State → Prop} {holds : State → Label → Prop}
    (start : inv m.initial)
    (next : ∀ s a t, inv s → m.step s a = some t → holds s a → inv t)
    {labels : List Label} {s : State} (reached : m.run labels = some s)
    (through : m.Throughout holds labels) : inv s := by
  refine m.run_induction (motive := fun labels s => m.Throughout holds labels → inv s)
    (fun _ => start) ?_ labels s reached through
  intro labels a s t before ih moved through
  rw [m.throughout_snoc holds before a] at through
  exact next s a t (ih through.1) moved through.2

theorem Throughout.of_prefix {holds : State → Label → Prop} {first labels : List Label}
    (through : m.Throughout holds labels) (before : first <+: labels) :
    m.Throughout holds first := by
  obtain ⟨rest, rfl⟩ := before
  intro early a late s split reached
  exact through early a (late ++ rest) s (by simp [split]) reached

/-- Under an invariant that the steps under a condition keep, and that gives what is wanted, what is
wanted holds along a run exactly when all steps meet the condition; for a step without the condition
loses it. -/
theorem along_iff_of_invariant (inv : State → Prop) {good : State → Prop}
    {holds : State → Label → Prop}
    (start : inv m.initial) (sound : ∀ s, inv s → good s)
    (next : ∀ s a t, inv s → m.step s a = some t → holds s a → inv t)
    (forced : ∀ s a t, inv s → m.step s a = some t → good t → holds s a)
    {labels : List Label} {s : State} (reached : m.run labels = some s) :
    (∀ first t, first <+: labels → m.run first = some t → good t) ↔ m.Throughout holds labels := by
  constructor
  · refine m.run_induction (motive := fun labels _ =>
      (∀ first t, first <+: labels → m.run first = some t → good t) → m.Throughout holds labels)
      (fun _ => m.throughout_nil holds) ?_ labels s reached
    intro labels a s t before ih moved along
    have after : m.run (labels ++ [a]) = some t := by
      rw [m.run_snoc, before]
      exact moved
    have through := ih fun first u shorter => along first u (shorter.trans (List.prefix_append _ _))
    rw [m.throughout_snoc holds before a]
    exact ⟨through, forced s a t (m.invariant_of_throughout start next before through) moved
      (along _ t (List.prefix_refl _) after)⟩
  · intro through first t before here
    exact sound t (m.invariant_of_throughout start next here (Throughout.of_prefix m through before))

/-- What holds at first and is kept by exactly the steps that meet a condition, holds along a run
exactly when all its steps meet the condition. -/
theorem along_iff_throughout {good : State → Prop} {holds : State → Label → Prop}
    (start : good m.initial)
    (next : ∀ s a t, good s → m.step s a = some t → (good t ↔ holds s a))
    {labels : List Label} {s : State} (reached : m.run labels = some s) :
    (∀ first t, first <+: labels → m.run first = some t → good t) ↔ m.Throughout holds labels :=
  m.along_iff_of_invariant good start (fun _ here => here)
    (fun s a t here moved => (next s a t here moved).mpr)
    (fun s a t here moved => (next s a t here moved).mp) reached

end Machine

end VirtueSensing
