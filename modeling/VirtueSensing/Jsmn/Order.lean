import VirtueSensing.Jsmn.Consumed

set_option autoImplicit false

/-!
# The order of the tokens

A token that is no container ends before any later token starts. Of a container only the end is
changed later, and of any token the number of its children.
-/

namespace VirtueSensing.Jsmn

structure Shape where
  container : Bool
  start : Nat
  stop : Int
  deriving DecidableEq

def Token.shape (t : Token) : Shape :=
  ⟨t.container, t.start, if t.container then 0 else t.stop⟩

def Parser.shapes (p : Parser) : List Shape := p.tokens.map Token.shape

theorem map_modify_shape (tokens : List Token) (i : Nat) (f : Token → Token)
    (same : ∀ t, tokens[i]? = some t → (f t).shape = t.shape) :
    (tokens.modify i f).map Token.shape = tokens.map Token.shape := by
  apply List.ext_getElem?
  intro j
  rw [List.getElem?_map, List.getElem?_map, List.getElem?_modify]
  by_cases here : i = j
  · subst here
    cases found : tokens[i]? with
    | none => simp
    | some t => simp [same t found]
  · simp [here]

namespace Parser

variable {p q : Parser} {numTokens : Nat} {type : TokenType}

theorem shapes_growSuper (p : Parser) : p.growSuper.shapes = p.shapes := by
  unfold growSuper
  split
  · rfl
  · exact map_modify_shape _ _ _ fun t _ => rfl

theorem shapes_openContainer {pos : Nat} (container : type = .object ∨ type = .array)
    (opened : p.openContainer numTokens type pos = .ok q) :
    q.shapes = p.shapes ++ [⟨true, pos, 0⟩] := by
  unfold openContainer at opened
  split at opened
  · cases opened
  · obtain rfl := Except.ok.inj opened
    have shape : (⟨type, pos, -1, 0⟩ : Token).shape = ⟨true, pos, 0⟩ := by
      rcases container with rfl | rfl <;> rfl
    have grown := p.shapes_growSuper
    unfold shapes at grown ⊢
    rw [List.map_append, grown, List.map_singleton, shape]

theorem shapes_closeContainer {pos : Nat} (container : type = .object ∨ type = .array)
    (closed : p.closeContainer type pos = .ok q) : q.shapes = p.shapes := by
  unfold closeContainer at closed
  split at closed
  · cases closed
  · split at closed
    · cases closed
    · rename_i i _ typed
      obtain rfl := Except.ok.inj closed
      refine map_modify_shape _ _ _ fun t found => ?_
      rw [found, not_not, Option.map_some, Option.some.injEq] at typed
      have inside : t.container := by
        simpa [Token.container, typed] using container
      have same : ({ t with stop := (pos : Int) + 1 } : Token).container = t.container := rfl
      simp [Token.shape, same, inside]

theorem shapes_addScalar {start stop : Nat} (scalar : type = .string ∨ type = .primitive)
    (added : p.addScalar numTokens type start stop = .ok q) :
    q.shapes = p.shapes ++ [⟨false, start, stop⟩] := by
  unfold addScalar at added
  split at added
  · cases added
  · obtain rfl := Except.ok.inj added
    have shape : (⟨type, start, stop, 0⟩ : Token).shape = ⟨false, start, stop⟩ := by
      rcases scalar with rfl | rfl <;> rfl
    rw [shapes_growSuper]
    unfold shapes
    rw [List.map_append, List.map_singleton, shape]

theorem shapes_comma (p : Parser) : p.comma.shapes = p.shapes := by
  unfold comma shapes
  split
  · rfl
  · split
    · rfl
    · split <;> rfl

end Parser

/-- Where a token of this shape may stand in the bytes that were read. -/
structure Shape.Placed (read : Bytes) (s : Shape) : Prop where
  start : s.start ≤ read.length
  stop : s.container = false → s.stop ≤ read.length
  bracket : s.container → read[s.start]? = some 123 ∨ read[s.start]? = some 91

def Shape.Before (s t : Shape) : Prop := s.container ∨ s.stop ≤ t.start

structure Ordered (read : Bytes) (shapes : List Shape) : Prop where
  placed : ∀ s ∈ shapes, s.Placed read
  pairs : shapes.Pairwise Shape.Before

theorem Shape.Placed.more {read : Bytes} {s : Shape} (placed : s.Placed read) (body : Bytes) :
    s.Placed (read ++ body) := by
  refine ⟨?_, fun scalar => ?_, fun container => ?_⟩
  · have start := placed.start
    simp only [List.length_append]
    omega
  · have stop := placed.stop scalar
    simp only [List.length_append]
    omega
  · have inside : s.start < read.length := by
      rcases placed.bracket container with here | here
      · exact (List.getElem?_eq_some_iff.mp here).1
      · exact (List.getElem?_eq_some_iff.mp here).1
    rw [List.getElem?_append_left inside]
    exact placed.bracket container

namespace Ordered

variable {read : Bytes} {shapes : List Shape} (ordered : Ordered read shapes)
include ordered

theorem more (body : Bytes) : Ordered (read ++ body) shapes :=
  ⟨fun s member => (ordered.placed s member).more body, ordered.pairs⟩

theorem snoc {body : Bytes} {s : Shape} (placed : s.Placed (read ++ body))
    (behind : read.length ≤ s.start) : Ordered (read ++ body) (shapes ++ [s]) := by
  refine ⟨?_, List.pairwise_append.mpr ⟨ordered.pairs, List.pairwise_singleton _ _, ?_⟩⟩
  · intro t member
    rcases List.mem_append.mp member with old | new
    · exact (ordered.placed t old).more body
    · obtain rfl := List.mem_singleton.mp new
      exact placed
  · intro t member u new
    obtain rfl := List.mem_singleton.mp new
    cases container : t.container with
    | true => exact .inl container
    | false =>
      have stop := (ordered.placed t member).stop container
      exact .inr (by omega)

end Ordered

theorem parseLoop_ordered {numTokens fuel : Nat} {js : Bytes} {q : Parser}
    (parsed : parseLoop numTokens fuel js 0 initial = .ok q) :
    ∃ read, read <+: js ∧ Ordered read q.shapes := by
  refine @parseLoop_invariant numTokens (fun read p => Ordered read p.shapes) ?_ ?_ ?_ ?_ ?_ ?_ ?_
    fuel [] js initial q ⟨nofun, List.Pairwise.nil⟩ parsed
  · exact fun before c p _ kept => kept.more [c]
  · exact fun before p kept => kept
  · intro before p kept
    rwa [p.shapes_comma]
  · intro before p q type c bracket kept opened
    have container : type = .object ∨ type = .array := by
      simp at bracket
      tauto
    rw [Parser.shapes_openContainer container opened]
    refine kept.snoc ⟨by simp, nofun, fun _ => ?_⟩ (Nat.le_refl _)
    simp at bracket ⊢
    tauto
  · intro before p q type c bracket kept closed
    have container : type = .object ∨ type = .array := by
      simp at bracket
      tauto
    rw [Parser.shapes_closeContainer container closed]
    exact kept.more [c]
  · intro before body p q _ kept added
    rw [Parser.shapes_addScalar (.inl rfl) added]
    refine kept.snoc ⟨?_, fun _ => ?_, nofun⟩ (by simp)
    · simp
    · simp
      omega
  · intro before body p q _ _ kept added
    rw [Parser.shapes_addScalar (.inr rfl) added]
    exact kept.snoc ⟨by simp, fun _ => by simp, nofun⟩ (Nat.le_refl _)

theorem not_container_of_text {js read : Bytes} {t : Token} (behind : read <+: js)
    (placed : t.shape.Placed read) {c : UInt8} {rest : Bytes} (text : t.text js = c :: rest)
    (plain : c ≠ 123 ∧ c ≠ 91) : t.container = false := by
  by_contra container
  rw [Bool.not_eq_false] at container
  have first : js[t.start]? = some c := by
    have head := congrArg List.head? text
    simp only [Token.text, Bytes.slice, List.head?_take, List.head?_cons] at head
    split at head
    · cases head
    · rwa [List.head?_drop] at head
  obtain ⟨tail, rfl⟩ := behind
  have here (bracket : UInt8) (there : read[t.start]? = some bracket) : c = bracket := by
    rw [List.getElem?_append_left (List.getElem?_eq_some_iff.mp there).1, there] at first
    exact (Option.some.inj first).symm
  rcases placed.bracket container with brace | square
  · exact plain.1 (here 123 brace)
  · exact plain.2 (here 91 square)

theorem length_text_le (t : Token) (js : Bytes) : (t.text js).length ≤ js.length - t.start := by
  simp only [Token.text, Bytes.slice, List.length_take, List.length_drop]
  omega

theorem text_before (numTokens : Nat) (js : Bytes) {i j : Nat} (earlier : i < j) {t u : Token}
    (first : (parse numTokens js).tokens[i]? = some t)
    (second : (parse numTokens js).tokens[j]? = some u)
    {c : UInt8} {rest : Bytes} (text : t.text js = c :: rest) (plain : c ≠ 123 ∧ c ≠ 91) :
    t.start + (t.text js).length ≤ u.start := by
  unfold parse at first second
  split at first
  · rename_i p parsed
    rw [parsed] at second
    obtain ⟨read, behind, ordered⟩ := parseLoop_ordered parsed
    have placed := ordered.placed _ (List.mem_map_of_mem (List.mem_of_getElem? first))
    have scalar := not_container_of_text behind placed text plain
    have apart : t.shape.Before u.shape := by
      obtain ⟨i_lt, rfl⟩ := List.getElem?_eq_some_iff.mp first
      obtain ⟨j_lt, rfl⟩ := List.getElem?_eq_some_iff.mp second
      have related := List.pairwise_iff_getElem.mp ordered.pairs i j
        (by simpa [Parser.shapes] using i_lt) (by simpa [Parser.shapes] using j_lt) earlier
      simpa [Parser.shapes] using related
    have ends : t.stop ≤ u.start := by
      rcases apart with container | ends
      · exact absurd (container.symm.trans scalar) (by simp)
      · simpa [Token.shape, scalar] using ends
    have sized : (t.text js).length ≤ (t.stop - t.start).toNat := by
      simp only [Token.text, Bytes.slice, List.length_take]
      omega
    have some : 0 < (t.text js).length := by
      rw [text]
      exact Nat.succ_pos _
    omega
  · simp at first

theorem texts_apart (numTokens : Nat) (js : Bytes) {i j : Nat} (earlier : i < j) {t u : Token}
    (first : (parse numTokens js).tokens[i]? = some t)
    (second : (parse numTokens js).tokens[j]? = some u)
    (plain : ∀ c ∈ (t.text js).head?, c ≠ 123 ∧ c ≠ 91) :
    (t.text js).length + (u.text js).length ≤ js.length := by
  have later := length_text_le u js
  cases text : t.text js with
  | nil =>
    simp only [List.length_nil]
    omega
  | cons c rest =>
    have before := text_before numTokens js earlier first second text (plain c (by simp [text]))
    have whole := length_text_le t js
    rw [← text]
    omega

end VirtueSensing.Jsmn
