import Mathlib.Data.List.Basic
import Mathlib.Tactic.Common

set_option autoImplicit false

/-!
# Lines of a stream

A line ends with its only delimiter, so a stream of lines falls apart in one way.
-/

namespace VirtueSensing

universe u

variable {α : Type u} {d : α}

def IsLine (d : α) (line : List α) : Prop :=
  ∃ body, d ∉ body ∧ line = body ++ [d]

theorem IsLine.ne_nil {line : List α} (isLine : IsLine d line) : line ≠ [] := by
  obtain ⟨body, -, rfl⟩ := isLine
  simp

theorem IsLine.start_unique {first second rest more : List α} (firstLine : IsLine d first)
    (secondLine : IsLine d second) (same : first ++ rest = second ++ more) :
    first = second ∧ rest = more := by
  obtain ⟨body, bare, rfl⟩ := firstLine
  obtain ⟨body', bare', rfl⟩ := secondLine
  simp only [List.append_assoc, List.singleton_append] at same
  induction body generalizing body' with
  | nil =>
    cases body' with
    | nil => simpa using same
    | cons b body' =>
      obtain ⟨rfl, -⟩ := List.cons.inj same
      exact absurd List.mem_cons_self bare'
  | cons a body ih =>
    cases body' with
    | nil =>
      obtain ⟨rfl, -⟩ := List.cons.inj same
      exact absurd List.mem_cons_self bare
    | cons b body' =>
      simp only [List.cons_append, List.cons.injEq] at same
      obtain ⟨rfl, same⟩ := same
      have rest := ih (fun mem => bare (List.mem_cons_of_mem _ mem)) body'
        (fun mem => bare' (List.mem_cons_of_mem _ mem)) same
      simpa using rest

theorem IsLine.head_of_flatten {lines : List (List α)} {first rest : List α}
    (all : ∀ line ∈ lines, IsLine d line) (firstLine : IsLine d first)
    (stream : lines.flatten = first ++ rest) :
    ∃ tail, lines = first :: tail ∧ tail.flatten = rest := by
  cases lines with
  | nil =>
    have empty := firstLine.ne_nil
    simp_all
  | cons line tail =>
    obtain ⟨rfl, same⟩ := (all line List.mem_cons_self).start_unique firstLine stream
    exact ⟨tail, rfl, same⟩

theorem eq_of_isPrefix_of_flatten {lines first : List (List α)}
    (all : ∀ line ∈ lines, IsLine d line) (start : first <+: lines)
    (stream : first.flatten = lines.flatten) : first = lines := by
  obtain ⟨tail, rfl⟩ := start
  have empty : tail.flatten = [] := by simpa using stream
  cases tail with
  | nil => simp
  | cons line tail =>
    have nonempty := (all line (by simp)).ne_nil
    simp_all

theorem not_isLine_take {start rest : List α} {n : Nat} (bare : d ∉ rest)
    (behind : start.length < n) (cut : n ≤ start.length + rest.length) :
    ¬ IsLine d ((start ++ (rest ++ [d])).take n) := by
  rintro ⟨body, -, same⟩
  rw [List.take_append, List.take_of_length_le (by omega),
    List.take_append_of_le_length (by omega)] at same
  have nonempty : rest.take (n - start.length) ≠ [] := by
    rw [← List.length_pos_iff, List.length_take]
    omega
  have last := congrArg List.getLast? same
  rw [List.getLast?_append_of_ne_nil _ nonempty, List.getLast?_append_of_ne_nil _ (by simp)] at last
  exact bare (List.mem_of_mem_take (List.mem_of_getLast? last))

section Splitting

variable [DecidableEq α]

/-- The lines that are complete; `seen` is what the first one starts with. -/
def completeLines (d : α) : List α → List α → List (List α)
  | _, [] => []
  | seen, b :: rest =>
    if b = d then (seen ++ [b]) :: completeLines d [] rest else completeLines d (seen ++ [b]) rest

theorem completeLines_cons {body : List α} (bare : d ∉ body) (seen rest : List α) :
    completeLines d seen (body ++ d :: rest) = (seen ++ body ++ [d]) :: completeLines d [] rest := by
  induction body generalizing seen with
  | nil => simp [completeLines]
  | cons b body ih =>
    rw [List.mem_cons, not_or] at bare
    rw [List.cons_append, completeLines, if_neg (Ne.symm bare.1), ih bare.2]
    simp

theorem completeLines_bare {rest : List α} (bare : d ∉ rest) (seen : List α) :
    completeLines d seen rest = [] := by
  induction rest generalizing seen with
  | nil => rfl
  | cons b rest ih =>
    rw [List.mem_cons, not_or] at bare
    rw [completeLines, if_neg (Ne.symm bare.1), ih bare.2]

end Splitting

end VirtueSensing
