import Mathlib.Logic.Function.Basic
import Mathlib.Tactic.Common

set_option autoImplicit false

/-!
# Directory trees

Nodes with named entries, some of them mounted at a path. A node may have several paths.
-/

namespace VirtueSensing

universe u v w

variable {Node : Type u} {Name : Type v} {Path : Type w}

structure NameTree (Node : Type u) (Name : Type v) (Path : Type w) where
  mounts : Path → Option Node
  entries : Node → Name → Option Node

namespace NameTree

def empty : NameTree Node Name Path := ⟨fun _ => none, fun _ _ => none⟩

inductive HasPath (child : Path → Name → Path) (t : NameTree Node Name Path) : Node → Path → Prop where
  | mount {n : Node} {p : Path} (here : t.mounts p = some n) : HasPath child t n p
  | entry {d n : Node} {p : Path} {name : Name} (above : HasPath child t d p)
      (here : t.entries d name = some n) : HasPath child t n (child p name)

structure Extends (t u : NameTree Node Name Path) : Prop where
  mounts : ∀ p n, t.mounts p = some n → u.mounts p = some n
  entries : ∀ d name n, t.entries d name = some n → u.entries d name = some n

theorem HasPath.extends {child : Path → Name → Path} {t u : NameTree Node Name Path}
    (more : Extends t u) {n : Node} {p : Path} (path : HasPath child t n p) : HasPath child u n p := by
  induction path with
  | mount here => exact .mount (more.mounts _ _ here)
  | entry above here ih => exact .entry ih (more.entries _ _ _ here)

section Updates

variable [DecidableEq Node] [DecidableEq Name] [DecidableEq Path] (t : NameTree Node Name Path)

def setMount (p : Path) (n : Node) : NameTree Node Name Path :=
  { t with mounts := Function.update t.mounts p (some n) }

def setEntry (d : Node) (name : Name) (n : Option Node) : NameTree Node Name Path :=
  { t with entries := Function.update t.entries d (Function.update (t.entries d) name n) }

omit [DecidableEq Node] [DecidableEq Name] in
@[simp] theorem mounts_setMount (p : Path) (n : Node) : (t.setMount p n).mounts p = some n := by
  simp [setMount]

omit [DecidableEq Path] in
@[simp] theorem entries_setEntry (d : Node) (name : Name) (n : Option Node) :
    (t.setEntry d name n).entries d name = n := by
  simp [setEntry]

omit [DecidableEq Node] [DecidableEq Name] in
theorem extends_setMount {p : Path} {n : Node} (free : t.mounts p = none ∨ t.mounts p = some n) :
    Extends t (t.setMount p n) := by
  refine ⟨fun q m there => ?_, fun _ _ _ => id⟩
  by_cases same : q = p
  · subst same
    rcases free with unset | kept
    · simp [unset] at there
    · rw [mounts_setMount]
      exact kept.symm.trans there
  · simpa [setMount, same] using there

omit [DecidableEq Path] in
theorem extends_setEntry {d : Node} {name : Name} {n : Option Node}
    (free : t.entries d name = none ∨ t.entries d name = n) : Extends t (t.setEntry d name n) := by
  refine ⟨fun _ _ => id, fun e other m there => ?_⟩
  by_cases sameNode : e = d
  · subst sameNode
    by_cases sameName : other = name
    · subst sameName
      rcases free with unset | kept
      · simp [unset] at there
      · rw [entries_setEntry]
        exact kept.symm.trans there
    · simpa [setEntry, sameName] using there
  · simpa [setEntry, sameNode] using there

end Updates

end NameTree

end VirtueSensing
