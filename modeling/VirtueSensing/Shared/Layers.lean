import Mathlib.Data.List.Basic
import Mathlib.Tactic.Common

set_option autoImplicit false

/-!
# Packets of layers

A packet is a list of layers, each with fields of its own. A field is looked up in the first layer
that has one of its name.
-/

namespace VirtueSensing

structure Layer (α β : Type) where
  fields : List α
  value : α → β

namespace Layer

variable {α β : Type} [DecidableEq α]

def lookup (layers : List (Layer α β)) (a : α) : Option β :=
  match layers with
  | [] => none
  | layer :: rest => if a ∈ layer.fields then some (layer.value a) else lookup rest a

theorem lookup_append_of_absent {front : List (Layer α β)} {a : α}
    (absent : ∀ layer ∈ front, a ∉ layer.fields) (rest : List (Layer α β)) :
    lookup (front ++ rest) a = lookup rest a := by
  induction front with
  | nil => rfl
  | cons layer front ih =>
    rw [List.cons_append, lookup, if_neg (absent layer List.mem_cons_self)]
    exact ih fun other member => absent other (List.mem_cons_of_mem layer member)

theorem exists_of_lookup {layers : List (Layer α β)} {a : α} {v : β} (found : lookup layers a = some v) :
    ∃ layer ∈ layers, a ∈ layer.fields ∧ layer.value a = v := by
  induction layers with
  | nil => cases found
  | cons layer rest ih =>
    rw [lookup] at found
    split at found
    · rename_i here
      exact ⟨layer, List.mem_cons_self, here, Option.some.inj found⟩
    · obtain ⟨other, member, rest⟩ := ih found
      exact ⟨other, List.mem_cons_of_mem layer member, rest⟩

end Layer

end VirtueSensing
