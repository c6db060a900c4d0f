import VirtueSensing.Shared.JsonSuffix

set_option autoImplicit false

/-!
# Values that start like another one

Where the start of an array or an object is a text of its own, it is the whole of it, and only blanks
follow.
-/

namespace VirtueSensing.JsonText

variable {extended : Bool} {text rest : Bytes} {ts us : List Token} {v w : Json}

/-- A text that does not end with a scalar keeps its tokens in front of any other bytes. -/
theorem Spells.lex_append (spells : Spells extended text ts)
    (ends : ∀ t ∈ ts.getLast?, t.isScalar = false) (rest : Bytes) :
    JsonText.lex extended 0 (text ++ rest) = (JsonText.lex extended 0 rest).map (ts ++ ·) := by
  have shorter {t : Token} {ts : List Token} (ends : ∀ u ∈ (t :: ts).getLast?, u.isScalar = false) :
      ∀ u ∈ ts.getLast?, u.isScalar = false :=
    fun u last => ends u (List.mem_getLast?_cons last)
  have consed (t : Token) (ts : List Token) :
      ((JsonText.lex extended 0 rest).map (ts ++ ·)).map (t :: ·) =
        (JsonText.lex extended 0 rest).map (t :: ts ++ ·) := Option.map_map _ _ _
  induction spells with
  | nil => simp
  | space blank later ih =>
    rw [List.cons_append, ← ih ends]
    simp [JsonText.lex, blank]
  | @mark b m text ts marks later ih =>
    rw [List.cons_append, ← consed, ← ih (shorter ends)]
    simp [JsonText.lex, mark_not_space marks, marks]
  | @string raw s text ts body later ih =>
    have shape : quote :: (raw ++ quote :: text) ++ rest = quote :: (raw ++ quote :: (text ++ rest)) := by
      simp
    rw [shape, lex_string extended (body.scan _), ih (shorter ends), consed]
  | @scalar raw text v ts literal breaks later ih =>
    have behind : Breaks (text ++ rest) := by
      refine breaks.append ?_
      rintro rfl
      obtain rfl := Option.some.inj later.lex
      cases ends _ rfl
    have read := literal.reads (text ++ rest) behind
    obtain ⟨b, raw, rfl⟩ := List.exists_cons_of_ne_nil literal.nonempty
    rw [List.cons_append] at read
    rw [List.append_assoc, List.cons_append, lex_scalar_cons (literal.bytes b List.mem_cons_self), read, Option.bind_some]
    dsimp only
    rw [List.length_cons, Nat.add_sub_cancel, List.drop_left, ih (shorter ends), consed]

theorem Spells.scalar_first {x : Scalar} (spells : Spells extended text (.scalar x :: us))
    (lexed : JsonText.lex extended 0 (text ++ rest) = some ts) : ∃ y vs, ts = .scalar y :: vs := by
  generalize first : Token.scalar x :: us = both at spells
  induction spells with
  | nil | mark | string => cases first
  | space blank later ih =>
    simp only [List.cons_append, JsonText.lex, blank, if_true] at lexed
    exact ih lexed first
  | @scalar raw text v ts' literal breaks later ih =>
    obtain ⟨b, raw, rfl⟩ := List.exists_cons_of_ne_nil literal.nonempty
    rw [List.append_assoc, List.cons_append,
      lex_scalar_cons (literal.bytes b List.mem_cons_self)] at lexed
    obtain ⟨s, -, later⟩ := Option.bind_eq_some_iff.mp lexed
    obtain ⟨vs, -, rfl⟩ := Option.map_eq_some_iff.mp later
    exact ⟨s.1, vs, rfl⟩

theorem build_snoc_scalar {stack : List Frame} {place : Place} {x : Scalar}
    (built : build stack place (ts ++ [.scalar x]) = some v) : v.isContainer = false := by
  induction ts generalizing stack place with
  | nil =>
    rw [List.nil_append, build_cons] at built
    obtain ⟨s, stepped, later⟩ := Option.bind_eq_some_iff.mp built
    obtain rfl := next_scalar stepped
    cases stack with
    | nil =>
      obtain ⟨-, rfl⟩ := build_nil_after later
      rfl
    | cons frame stack => cases later
  | cons t ts ih =>
    rw [List.cons_append, build_cons] at built
    obtain ⟨s, -, later⟩ := Option.bind_eq_some_iff.mp built
    exact ih later

/-- The start of an array or an object that is a text itself has the same value, and blanks follow. -/
theorem parse_prefix (whole : JsonText.parse extended (text ++ rest) = some v) (container : v.isContainer)
    (part : JsonText.parse extended text = some w) : w = v ∧ ∀ b ∈ rest, isSpace b := by
  obtain ⟨us, spells, built⟩ := spells_of_parse part
  obtain ⟨ts, lexed, wholeBuilt⟩ := Option.bind_eq_some_iff.mp whole
  -- A scalar at its end would be the first token of the whole.
  have ends : ∀ t ∈ us.getLast?, t.isScalar = false := by
    intro t last
    cases t with
    | mark | string => rfl
    | scalar x =>
      obtain ⟨front, rfl⟩ := List.getLast?_eq_some_iff.mp last
      obtain ⟨m, others, marked⟩ := build_marked wholeBuilt container
      rcases build_plain built (build_snoc_scalar built) with ⟨s, alone, -⟩ | ⟨y, alone, -⟩
      · obtain ⟨-, same⟩ := List.append_inj' (show front ++ [_] = [] ++ [_] from alone) rfl
        cases same
      · rw [alone] at spells
        obtain ⟨z, vs, scalar⟩ := spells.scalar_first lexed
        cases marked.symm.trans scalar
  rw [spells.lex_append ends] at lexed
  obtain ⟨vs, lexedRest, rfl⟩ := Option.map_eq_some_iff.mp lexed
  obtain rfl := build_ends built wholeBuilt
  rw [List.append_nil] at wholeBuilt
  exact ⟨Option.some.inj (built.symm.trans wholeBuilt),
    (spells_of_lex lexedRest List.isChain_nil).all_space⟩

end VirtueSensing.JsonText
