import Mathlib.Data.List.Basic
import Mathlib.Tactic.Common

set_option autoImplicit false

/-!
# Mailboxes

Many senders put items into one queue and one receiver takes them. What the receiver has taken from a
sender and what still waits from it are together what the sender has put, in its order.
-/

namespace VirtueSensing

universe u v

structure Mailbox (Sender : Type u) (Item : Type v) where
  taken : List (Sender × Item)
  queued : List (Sender × Item)

namespace Mailbox

variable {Sender : Type u} {Item : Type v}

def empty : Mailbox Sender Item := ⟨[], []⟩

def put (box : Mailbox Sender Item) (sender : Sender) (item : Item) : Mailbox Sender Item :=
  { box with queued := box.queued ++ [(sender, item)] }

def take (box : Mailbox Sender Item) : Option ((Sender × Item) × Mailbox Sender Item) :=
  match box.queued with
  | [] => none
  | entry :: rest => some (entry, ⟨box.taken ++ [entry], rest⟩)

variable {box after : Mailbox Sender Item} {entry : Sender × Item}

theorem take_eq_some (took : box.take = some (entry, after)) :
    box.queued = entry :: after.queued ∧ after.taken = box.taken ++ [entry] := by
  unfold take at took
  split at took
  · cases took
  · next queued =>
    obtain ⟨rfl, rfl⟩ := Prod.mk.inj (Option.some.inj took)
    exact ⟨queued, rfl⟩

variable [DecidableEq Sender] {sender other : Sender} {item : Item}

-- What one sender has in a list of entries.
def of (sender : Sender) (entries : List (Sender × Item)) : List Item :=
  entries.filterMap fun entry => if entry.1 = sender then some entry.2 else none

def sent (box : Mailbox Sender Item) (sender : Sender) : List Item :=
  of sender (box.taken ++ box.queued)

@[simp] theorem of_nil : of sender ([] : List (Sender × Item)) = [] := rfl

@[simp] theorem of_append (first rest : List (Sender × Item)) :
    of sender (first ++ rest) = of sender first ++ of sender rest :=
  List.filterMap_append

@[simp] theorem of_own : of sender [(sender, item)] = [item] := by
  simp [of]

theorem of_other (different : other ≠ sender) : of sender [(other, item)] = [] := by
  simp [of, different]

theorem sent_eq (box : Mailbox Sender Item) (sender : Sender) :
    box.sent sender = of sender box.taken ++ of sender box.queued :=
  of_append ..

theorem sent_put_self : (box.put sender item).sent sender = box.sent sender ++ [item] := by
  simp [sent, put]

theorem sent_put_other (different : other ≠ sender) : (box.put other item).sent sender = box.sent sender := by
  simp [sent, put, of_other different]

theorem sent_take (took : box.take = some (entry, after)) (sender : Sender) :
    after.sent sender = box.sent sender := by
  obtain ⟨queued, taken⟩ := take_eq_some took
  rw [sent, sent, taken, queued, List.append_assoc, List.singleton_append]

theorem taken_prefix (box : Mailbox Sender Item) (sender : Sender) :
    of sender box.taken <+: box.sent sender :=
  ⟨of sender box.queued, (sent_eq box sender).symm⟩

end Mailbox

end VirtueSensing
