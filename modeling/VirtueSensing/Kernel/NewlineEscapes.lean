import Mathlib.Data.List.Count
import VirtueSensing.Shared.Memory

set_option autoImplicit false

/-!
# Escaped newlines

The helpers of the JSONL parser for newlines inside of a record: all three edit a string where it
stands and then ask the allocator for another size.
-/

namespace VirtueSensing.Kernel

def backslash : UInt8 := 0x5c

-- The two bytes that a record may not hold bare: a newline and a carriage return.
def isNewline (c : UInt8) : Bool := c == 0x0a || c == 0x0d

structure Block where
  memory : Memory
  size : Nat

section Trim

-- `while (c && c > in)`, with the place where the loop cuts the string.
def trimLoop (m : Memory) (stop : Nat) : (fuel : Nat) → (c : Option Nat) → Option Nat
  | 0, _ => none
  | _ + 1, none => none
  | _ + 1, some 0 => none
  | fuel + 1, some (c + 1) =>
    if m c = backslash then
      trimLoop m stop fuel (m.find (· == 0x0a) (stop - (c + 2)) (c + 2))
    else some (c + 1)

def trimToNl (a : Allocator) (b : Block) (len : Nat) : Block :=
  match trimLoop b.memory len (len + 1) (b.memory.find (· == 0x0a) len 0) with
  | some c => ⟨a.krealloc b.size c (Function.update b.memory c 0), c⟩
  | none => b

end Trim

section Unescape

-- `while (*p)` with the copy of the terminator behind it.
def shiftDown : (room : Nat) → Memory → (s p : Nat) → Memory
  | 0, m, s, p => Function.update m s (m p)
  | room + 1, m, s, p =>
    if m p = 0 then Function.update m s (m p)
    else shiftDown room (Function.update m s (m p)) (s + 1) (p + 1)

def unescapeLoop (stop : Nat) : (fuel : Nat) → Memory → (i count : Nat) → Memory × Nat
  | 0, m, _, count => (m, count)
  | fuel + 1, m, i, count =>
    match m.find (· == backslash) (stop - i) i with
    | none => (m, count)
    | some i =>
      if isNewline (m (i + 1)) then
        unescapeLoop stop fuel (shiftDown (stop - (i + 1)) m i (i + 1)) (i + 1) (count + 1)
      else unescapeLoop stop fuel m (i + 1) count

def unescapeNewlines (a : Allocator) (b : Block) (len : Nat) : Block :=
  let (m, count) := unescapeLoop len (len + 1) b.memory 0 0
  if count = 0 then ⟨m, b.size⟩
  else ⟨a.krealloc b.size (len - count) m, len - count⟩

end Unescape

section Escape

def countNewlines (m : Memory) (stop : Nat) : (fuel : Nat) → (c : Option Nat) → Nat
  | 0, _ => 0
  | _ + 1, none => 0
  | fuel + 1, some c =>
    if c < stop then countNewlines m stop fuel (m.find isNewline (stop - (c + 1)) (c + 1)) + 1
    else 0

-- `while (*p && count)`. Nothing but its count and a zero ends it, so it may run on behind the block.
def escapeLoop : (fuel : Nat) → Memory → (c p count : Nat) → Option Memory
  | 0, _, _, _, _ => none
  | fuel + 1, m, c, p, count =>
    if m p ≠ 0 ∧ count ≠ 0 then
      if isNewline (m p) then
        escapeLoop fuel (Function.update (Function.update m (p + 1) (m p)) c backslash)
          (c + 2) (p + 2) (count - 1)
      else escapeLoop fuel m (c + 1) (p + 1) count
    else some m

def escapeNewlines (a : Allocator) (fuel : Nat) (b : Block) (len : Nat) : Option Block :=
  let count := countNewlines b.memory len (len + 1) (b.memory.find isNewline len 0)
  if count = 0 then some b
  else
    let m := Function.update (a.krealloc b.size (len + count + 1) b.memory) (len + count) 0
    (escapeLoop fuel m 0 0 count).map (⟨·, len + count + 1⟩)

end Escape

/-! What the helpers are for. -/

-- A backslash in front of every newline and carriage return.
def escaped (text : Bytes) : Bytes :=
  text.flatMap fun c => if isNewline c then [backslash, c] else [c]

-- The first newline without a backslash in front of it; `previous` stands in front of the text.
def bareNewline (previous : UInt8) : Bytes → Option Nat
  | [] => none
  | c :: rest =>
    if c = 0x0a ∧ previous ≠ backslash then some 0
    else (bareNewline c rest).map (· + 1)

def trimmed (text : Bytes) : Bytes :=
  match bareNewline 0 text with
  | some i => text.take i
  | none => text

/-- A string of C, without the zero that ends it. -/
structure CText where
  text : Bytes
  nonzero : 0 ∉ text

structure Block.Has (b : Block) (s : CText) : Prop where
  holds : b.memory.Holds 0 s.text
  room : s.text.length < b.size

namespace CText

variable (allocators : Allocator → Prop) (s : CText)

def Escapes : Prop :=
  ∀ a, allocators a → ∀ b : Block, b.Has s →
    ∃ fuel out, escapeNewlines a fuel b s.text.length = some out ∧
      out.memory.Holds 0 (escaped s.text)

/-- The string that is left by escaping, with its own length, unescaped again. -/
def RoundTrips : Prop :=
  ∀ a, allocators a → ∀ b : Block, b.Has s →
    ∃ (fuel : Nat) (out : Block) (line : CText),
      escapeNewlines a fuel b s.text.length = some out ∧ out.memory.Holds 0 line.text ∧
        (unescapeNewlines a out line.text.length).memory.Holds 0 s.text

def Trims : Prop :=
  ∀ a, allocators a → ∀ b : Block, b.Has s →
    (trimToNl a b s.text.length).memory.Holds 0 (trimmed s.text)

/-- No byte but the last one is a newline or a carriage return. -/
def EndsOnly : Prop := ∀ c ∈ s.text.dropLast, isNewline c = false

end CText

section Trimming

variable {m : Memory} {text : Bytes}

theorem bareNewline_lt {previous : UInt8} {i : Nat} (bare : bareNewline previous text = some i) :
    i < text.length := by
  induction text generalizing previous i with
  | nil => cases bare
  | cons c rest ih =>
    rw [bareNewline] at bare
    split_ifs at bare
    · cases bare
      exact Nat.succ_pos _
    · obtain ⟨j, later, rfl⟩ := Option.map_eq_some_iff.mp bare
      exact Nat.succ_lt_succ (ih later)

theorem find_cons {accept : UInt8 → Bool} {i : Nat} {c : UInt8} {rest : Bytes}
    (holds : m.Holds i (c :: rest)) (nonzero : 0 ∉ c :: rest) (room : Nat) :
    m.find accept (room + 1) i = if accept c then some i else m.find accept room (i + 1) := by
  have first : m i = c := holds.1
  have ended : c ≠ 0 := (List.ne_of_not_mem_cons nonzero).symm
  rw [Memory.find, first, if_neg ended]

theorem trimLoop_eq {i fuel : Nat} (holds : m.Holds (i + 1) text) (nonzero : 0 ∉ text)
    (enough : text.length < fuel) :
    trimLoop m (i + 1 + text.length) fuel (m.find (· == 0x0a) text.length (i + 1)) =
      (bareNewline (m i) text).map (· + (i + 1)) := by
  induction text generalizing i fuel with
  | nil =>
    obtain ⟨fuel, rfl⟩ := Nat.exists_eq_add_of_lt enough
    simp [Memory.find, trimLoop, bareNewline]
  | cons c rest ih =>
    have first : m (i + 1) = c := holds.1
    have later (fuel : Nat) (enough : rest.length < fuel) := ih holds.2 (List.not_mem_of_not_mem_cons nonzero) enough
    rw [first] at later
    have stop : i + 1 + (c :: rest).length = i + 1 + 1 + rest.length := by
      rw [List.length_cons]
      omega
    rw [stop, List.length_cons, find_cons holds nonzero, bareNewline]
    rw [List.length_cons] at enough
    have shift : (fun j => j + (i + 1 + 1)) = (· + (i + 1)) ∘ (· + 1) := by
      funext j
      simp only [Function.comp_apply]
      omega
    by_cases newline : c = 0x0a
    · obtain ⟨fuel, rfl⟩ := Nat.exists_eq_succ_of_ne_zero (Nat.ne_of_gt (Nat.lt_of_le_of_lt (Nat.zero_le _) enough))
      subst newline
      rw [if_pos (by decide), trimLoop]
      by_cases before : m i = backslash
      · rw [if_pos before, if_neg (fun both => both.2 before), Option.map_map, ← shift]
        have room : i + 1 + 1 + rest.length - (i + 2) = rest.length := by omega
        rw [room]
        exact later fuel (by omega)
      · rw [if_neg before, if_pos ⟨rfl, before⟩]
        simp
    · rw [if_neg (by simpa using newline), if_neg (fun both => newline both.1), Option.map_map, ← shift]
      exact later fuel (by omega)

theorem trimLoop_start (holds : m.Holds 0 text) (nonzero : 0 ∉ text) :
    trimLoop m text.length (text.length + 1) (m.find (· == 0x0a) text.length 0) =
      if bareNewline 0 text = some 0 then none else bareNewline 0 text := by
  cases text with
  | nil => rfl
  | cons c rest =>
    have first : m 0 = c := holds.1
    rw [List.length_cons, find_cons holds nonzero]
    by_cases newline : c = 0x0a
    · have bare : bareNewline 0 (c :: rest) = some 0 := by
        rw [bareNewline, if_pos ⟨newline, by decide⟩]
      rw [bare, if_pos rfl, if_pos (by simpa using newline), trimLoop]
    · have bare : bareNewline 0 (c :: rest) = (bareNewline c rest).map (· + 1) := by
        rw [bareNewline, if_neg fun both => newline both.1]
      have later := @trimLoop_eq m rest 0 (rest.length + 1 + 1) holds.2
        (List.not_mem_of_not_mem_cons nonzero) (by omega)
      rw [show 0 + 1 + rest.length = rest.length + 1 by omega, first] at later
      have inside : bareNewline 0 (c :: rest) ≠ some 0 := by
        rw [bare]
        intro zero
        obtain ⟨j, -, next⟩ := Option.map_eq_some_iff.mp zero
        cases next
      rw [if_neg (by simpa using newline), if_neg inside, later, bare]

end Trimming

section Unescaping

variable {m : Memory} {text : Bytes}

-- What `unescape_newlines` leaves of a string.
def unescaped : Bytes → Bytes
  | [] => []
  | c :: rest =>
    if c = backslash ∧ rest.head?.any isNewline then unescaped rest else c :: unescaped rest

theorem holds_update {i j : Nat} (holds : m.Holds i text) (outside : j < i) (b : UInt8) :
    Memory.Holds (Function.update m j b) i text :=
  holds.congr fun _ low _ => Function.update_of_ne (Nat.ne_of_gt (Nat.lt_of_lt_of_le outside low)) ..

theorem shiftDown_holds {room s p : Nat} (holds : m.Holds p text) (nonzero : 0 ∉ text) (below : s < p)
    (enough : text.length ≤ room) :
    (shiftDown room m s p).Holds s text ∧ ∀ j < s, shiftDown room m s p j = m j := by
  induction text generalizing m room s p with
  | nil =>
    have ended : m p = 0 := holds.1
    have last : shiftDown room m s p = Function.update m s 0 := by
      cases room <;> simp [shiftDown, ended]
    rw [last]
    exact ⟨⟨Function.update_self .., trivial⟩,
      fun j low => Function.update_of_ne (Nat.ne_of_lt low) ..⟩
  | cons c rest ih =>
    obtain ⟨room, rfl⟩ := Nat.exists_eq_add_of_le' (Nat.le_trans (Nat.le_add_left 1 rest.length) enough)
    have first : m p = c := holds.1
    have ended : c ≠ 0 := (List.ne_of_not_mem_cons nonzero).symm
    rw [shiftDown, first, if_neg ended]
    obtain ⟨moved, kept⟩ := ih (m := Function.update m s c) (s := s + 1)
      (holds_update (i := p + 1) holds.2 (by omega) c) (List.not_mem_of_not_mem_cons nonzero) (by omega)
      (Nat.le_of_succ_le_succ enough)
    have copied : shiftDown room (Function.update m s c) (s + 1) (p + 1) s = c := by
      rw [kept s (Nat.lt_succ_self s), Function.update_self]
    refine ⟨.cons copied moved, fun j low => ?_⟩
    rw [kept j (by omega), Function.update_of_ne (Nat.ne_of_lt low)]

theorem unescapeLoop_nil {stop fuel i count : Nat} (ended : m i = 0) :
    unescapeLoop stop fuel m i count = (m, count) := by
  cases fuel with
  | zero => rfl
  | succ fuel =>
    have none : m.find (· == backslash) (stop - i) i = none := by
      cases stop - i <;> simp [Memory.find, ended]
    rw [unescapeLoop, none]

theorem find_first {accept : UInt8 → Bool} {stop i : Nat} (inside : i < stop) (more : m i ≠ 0) :
    m.find accept (stop - i) i =
      if accept (m i) then some i else m.find accept (stop - (i + 1)) (i + 1) := by
  have room : stop - i = stop - (i + 1) + 1 := by omega
  rw [room, Memory.find, if_neg more]

theorem unescapeLoop_other {stop fuel i count : Nat} (inside : i < stop) (more : m i ≠ 0)
    (other : m i ≠ backslash) :
    unescapeLoop stop fuel m i count = unescapeLoop stop fuel m (i + 1) count := by
  cases fuel with
  | zero => rfl
  | succ fuel => rw [unescapeLoop, find_first inside more, if_neg (by simpa using other), unescapeLoop]

theorem unescapeLoop_backslash {stop fuel i count : Nat} (inside : i < stop) (here : m i = backslash) :
    unescapeLoop stop (fuel + 1) m i count =
      if isNewline (m (i + 1)) then
        unescapeLoop stop fuel (shiftDown (stop - (i + 1)) m i (i + 1)) (i + 1) (count + 1)
      else unescapeLoop stop fuel m (i + 1) count := by
  rw [unescapeLoop, find_first inside (here ▸ by decide), if_pos (by simp [here])]

theorem length_unescaped_le (text : Bytes) : (unescaped text).length ≤ text.length := by
  induction text with
  | nil => exact Nat.le_refl _
  | cons c rest ih =>
    rw [unescaped]
    split
    · exact Nat.le_succ_of_le ih
    · exact Nat.succ_le_succ ih

theorem unescaped_subset (text : Bytes) : unescaped text ⊆ text := by
  induction text with
  | nil => exact fun _ member => member
  | cons c rest ih =>
    rw [unescaped]
    split
    · exact List.subset_cons_of_subset c ih
    · exact List.cons_subset_cons c ih

theorem isNewline_head {i : Nat} (holds : m.Holds i text) : isNewline (m i) = text.head?.any isNewline := by
  cases text with
  | nil =>
    have ended : m i = 0 := holds.1
    rw [ended]
    rfl
  | cons c rest =>
    have first : m i = c := holds.1
    rw [first]
    rfl

theorem unescapeLoop_holds {stop fuel i count : Nat} (holds : m.Holds i text) (nonzero : 0 ∉ text)
    (inside : i + text.length ≤ stop) (enough : text.length < fuel) :
    (unescapeLoop stop fuel m i count).1.Holds i (unescaped text) ∧
      (∀ j < i, (unescapeLoop stop fuel m i count).1 j = m j) ∧
      (unescapeLoop stop fuel m i count).2 + (unescaped text).length = count + text.length := by
  induction text generalizing m fuel i count with
  | nil =>
    rw [unescapeLoop_nil holds.1]
    exact ⟨holds, fun _ _ => rfl, rfl⟩
  | cons c rest ih =>
    have first : m i = c := holds.1
    have ended : c ≠ 0 := (List.ne_of_not_mem_cons nonzero).symm
    have nonzero := List.not_mem_of_not_mem_cons nonzero
    rw [List.length_cons] at inside enough
    -- The byte stays, and the loop goes on behind it.
    have keeps {fuel : Nat} (enough : rest.length < fuel)
        (stays : ¬ (c = backslash ∧ rest.head?.any isNewline)) :
        (unescapeLoop stop fuel m (i + 1) count).1.Holds i (unescaped (c :: rest)) ∧
          (∀ j < i, (unescapeLoop stop fuel m (i + 1) count).1 j = m j) ∧
          (unescapeLoop stop fuel m (i + 1) count).2 + (unescaped (c :: rest)).length =
            count + (c :: rest).length := by
      obtain ⟨moved, kept, counted⟩ := @ih m fuel (i + 1) count holds.2 nonzero (by omega) enough
      rw [unescaped, if_neg stays, List.length_cons, List.length_cons]
      exact ⟨.cons ((kept i (Nat.lt_succ_self i)).trans first) moved,
        fun j low => kept j (by omega), by omega⟩
    by_cases slash : c = backslash
    · obtain ⟨fuel, rfl⟩ := Nat.exists_eq_add_of_le' (Nat.le_trans (Nat.le_add_left 1 (rest.length + 1)) enough)
      rw [unescapeLoop_backslash (by omega) (first.trans slash), isNewline_head (i := i + 1) holds.2]
      by_cases newline : rest.head?.any isNewline
      · obtain ⟨shifted, below⟩ := @shiftDown_holds m rest (stop - (i + 1)) i (i + 1)
          holds.2 nonzero (Nat.lt_succ_self i) (by omega)
        rw [if_pos newline, unescaped, if_pos ⟨slash, newline⟩]
        generalize shiftDown (stop - (i + 1)) m i (i + 1) = m' at shifted below
        cases rest with
        | nil => cases newline
        | cons d rest =>
          have next : m' i = d := shifted.1
          have plain : isNewline d := newline
          have other : unescapeLoop stop fuel m' i (count + 1) =
              unescapeLoop stop fuel m' (i + 1) (count + 1) := by
            refine unescapeLoop_other (by omega) ?_ ?_
            · rw [next]
              exact (List.ne_of_not_mem_cons nonzero).symm
            · rw [next]
              rintro rfl
              cases plain
          obtain ⟨moved, kept, counted⟩ := @ih m' fuel i (count + 1) shifted nonzero (by omega) (by omega)
          rw [other] at moved kept counted
          refine ⟨moved, fun j low => (kept j low).trans (below j low), ?_⟩
          rw [List.length_cons (a := c)]
          omega
      · rw [if_neg newline]
        exact keeps (by omega) fun both => newline both.2
    · rw [unescapeLoop_other (by omega) (first ▸ ended) (first ▸ slash)]
      exact keeps (by omega) fun both => slash both.1

end Unescaping

section Escaping

variable {m : Memory} {text : Bytes}

-- What `escape_newlines` leaves of a string with a zero behind its terminator: the byte behind a
-- newline gives its place to the newline.
def overwritten : Bytes → Bytes
  | [] => []
  | [c] => if isNewline c then [backslash, c] else [c]
  | c :: d :: rest =>
    if isNewline c then backslash :: c :: overwritten rest else c :: overwritten (d :: rest)

theorem overwritten_eq_self (bare : text.countP isNewline = 0) : overwritten text = text := by
  induction text using overwritten.induct with
  | case1 => rfl
  | case2 c newline => simp [newline] at bare
  | case3 c plain => rw [overwritten, if_neg plain]
  | case4 c d rest newline => simp [newline] at bare
  | case5 c d rest plain ih =>
    rw [List.countP_cons_of_neg plain] at bare
    rw [overwritten, if_neg plain, ih bare]

theorem countNewlines_eq {i fuel : Nat} (holds : m.Holds i text) (nonzero : 0 ∉ text)
    (enough : text.length < fuel) :
    countNewlines m (i + text.length) fuel (m.find isNewline text.length i) = text.countP isNewline := by
  induction text generalizing i fuel with
  | nil =>
    obtain ⟨fuel, rfl⟩ := Nat.exists_eq_add_of_lt enough
    rfl
  | cons c rest ih =>
    have stop : i + (rest.length + 1) = i + 1 + rest.length := by omega
    have later (fuel : Nat) := @ih (i + 1) fuel holds.2 (List.not_mem_of_not_mem_cons nonzero)
    rw [List.length_cons] at enough ⊢
    rw [find_cons holds nonzero, stop]
    by_cases newline : isNewline c
    · obtain ⟨fuel, rfl⟩ := Nat.exists_eq_add_of_le' (Nat.le_trans (Nat.le_add_left 1 (rest.length + 1)) enough)
      have room : i + 1 + rest.length - (i + 1) = rest.length := by omega
      rw [if_pos newline, countNewlines, if_pos (by omega), room, later fuel (by omega),
        List.countP_cons_of_pos newline]
    · rw [if_neg newline, later fuel (by omega), List.countP_cons_of_neg newline]

theorem escapeLoop_mono {fuel c p count : Nat} {out : Memory}
    (done : escapeLoop fuel m c p count = some out) : escapeLoop (fuel + 1) m c p count = some out := by
  induction fuel generalizing m c p count with
  | zero => cases done
  | succ fuel ih =>
    rw [escapeLoop] at done ⊢
    split_ifs at done ⊢
    · exact ih done
    · exact ih done
    · exact done

theorem escapeLoop_le {fuel fuel' c p count : Nat} {out : Memory}
    (done : escapeLoop fuel m c p count = some out) (more : fuel ≤ fuel') :
    escapeLoop fuel' m c p count = some out := by
  induction more with
  | refl => exact done
  | step _ ih => exact escapeLoop_mono ih

theorem escapeLoop_unique {fuel fuel' c p count : Nat} {out out' : Memory}
    (done : escapeLoop fuel m c p count = some out) (done' : escapeLoop fuel' m c p count = some out') :
    out = out' := by
  have one := escapeLoop_le done (Nat.le_max_left fuel fuel')
  have other := escapeLoop_le done' (Nat.le_max_right fuel fuel')
  exact Option.some.inj (one.symm.trans other)

theorem escapeLoop_stop {fuel c p count : Nat} (ended : m p = 0 ∨ count = 0) :
    escapeLoop (fuel + 1) m c p count = some m := by
  rw [escapeLoop, if_neg fun both => ended.elim both.1 both.2]

theorem escapeLoop_plain {fuel p count : Nat} (more : m p ≠ 0) (counted : count ≠ 0)
    (plain : ¬ isNewline (m p)) :
    escapeLoop (fuel + 1) m p p count = escapeLoop fuel m (p + 1) (p + 1) count := by
  rw [escapeLoop, if_pos ⟨more, counted⟩, if_neg plain]

theorem escapeLoop_newline {fuel p count : Nat} (more : m p ≠ 0) (counted : count ≠ 0)
    (newline : isNewline (m p)) :
    escapeLoop (fuel + 1) m p p count =
      escapeLoop fuel (Function.update (Function.update m (p + 1) (m p)) p backslash)
        (p + 2) (p + 2) (count - 1) := by
  rw [escapeLoop, if_pos ⟨more, counted⟩, if_pos newline]

-- Both pointers stay together, so nothing is moved.
theorem escapeLoop_holds {p count : Nat} (holds : m.Holds p text) (nonzero : 0 ∉ text)
    (ended : m (p + text.length + 1) = 0) (counted : text.countP isNewline ≤ count) :
    ∃ fuel out, escapeLoop fuel m p p count = some out ∧ out.Holds p (overwritten text) ∧
      ∀ j < p, out j = m j := by
  -- Once the count is used up, the rest of the string has no newline.
  by_cases used : count = 0
  · refine ⟨1, m, escapeLoop_stop (.inr used), ?_, fun _ _ => rfl⟩
    rw [overwritten_eq_self (by omega)]
    exact holds
  induction text using overwritten.induct generalizing m p count with
  | case1 => exact ⟨1, m, escapeLoop_stop (.inl holds.1), holds, fun _ _ => rfl⟩
  | case2 c newline =>
    have first : m p = c := holds.1
    have more : c ≠ 0 := (List.ne_of_not_mem_cons nonzero).symm
    set m' : Memory := Function.update (Function.update m (p + 1) c) p backslash with edited
    have behind : m' (p + 2) = 0 := by
      rw [edited, Function.update_of_ne (by omega), Function.update_of_ne (by omega)]
      exact ended
    refine ⟨2, m', ?_, ?_, fun j low => ?_⟩
    · rw [escapeLoop_newline (first ▸ more) used (first ▸ newline), first, ← edited]
      exact escapeLoop_stop (.inl behind)
    · rw [overwritten, if_pos newline]
      refine ⟨Function.update_self .., ?_, behind, trivial⟩
      rw [edited, Function.update_of_ne (Nat.succ_ne_self p), Function.update_self]
    · rw [edited, Function.update_of_ne (by omega), Function.update_of_ne (by omega)]
  | case3 c plain =>
    have first : m p = c := holds.1
    have more : c ≠ 0 := (List.ne_of_not_mem_cons nonzero).symm
    refine ⟨2, m, ?_, ?_, fun _ _ => rfl⟩
    · rw [escapeLoop_plain (first ▸ more) used (first ▸ plain)]
      exact escapeLoop_stop (.inl holds.2.1)
    · rw [overwritten, if_neg plain]
      exact holds
  | case4 c d rest newline ih =>
    have first : m p = c := holds.1
    have more : c ≠ 0 := (List.ne_of_not_mem_cons nonzero).symm
    set m' : Memory := Function.update (Function.update m (p + 1) c) p backslash with edited
    have later : m'.Holds (p + 2) rest :=
      holds_update (holds_update (i := p + 2) holds.2.2 (by omega) c) (by omega) backslash
    have ended' : m' (p + 2 + rest.length + 1) = 0 := by
      rw [edited, Function.update_of_ne (by omega), Function.update_of_ne (by omega), ← ended]
      rw [List.length_cons, List.length_cons]
      congr 1
      omega
    have fewer : rest.countP isNewline ≤ count - 1 := by
      have grown : rest.countP isNewline ≤ (d :: rest).countP isNewline :=
        (List.sublist_cons_self d rest).countP_le
      rw [List.countP_cons_of_pos newline] at counted
      omega
    have tail : ∃ fuel out, escapeLoop fuel m' (p + 2) (p + 2) (count - 1) = some out ∧
        out.Holds (p + 2) (overwritten rest) ∧ ∀ j < p + 2, out j = m' j := by
      by_cases used' : count - 1 = 0
      · refine ⟨1, m', escapeLoop_stop (.inr used'), ?_, fun _ _ => rfl⟩
        rw [overwritten_eq_self (by omega)]
        exact later
      · exact ih later (fun member => nonzero (.tail _ (.tail _ member))) ended' fewer used'
    obtain ⟨fuel, out, done, left, kept⟩ := tail
    refine ⟨fuel + 1, out, ?_, ?_, fun j low => ?_⟩
    · rw [escapeLoop_newline (first ▸ more) used (first ▸ newline), first, ← edited]
      exact done
    · rw [overwritten, if_pos newline]
      refine ⟨?_, ?_, left⟩
      · rw [kept p (by omega), edited, Function.update_self]
      · rw [kept (p + 1) (by omega), edited, Function.update_of_ne (Nat.succ_ne_self p),
          Function.update_self]
    · rw [kept j (by omega), edited, Function.update_of_ne (by omega), Function.update_of_ne (by omega)]
  | case5 c d rest plain ih =>
    have first : m p = c := holds.1
    have more : c ≠ 0 := (List.ne_of_not_mem_cons nonzero).symm
    have ended' : m (p + 1 + (d :: rest).length + 1) = 0 := by
      rw [← ended, List.length_cons (a := c)]
      congr 1
      omega
    rw [List.countP_cons_of_neg plain] at counted
    obtain ⟨fuel, out, done, left, kept⟩ :=
      ih (p := p + 1) holds.2 (List.not_mem_of_not_mem_cons nonzero) ended' counted used
    refine ⟨fuel + 1, out, ?_, ?_, fun j low => kept j (by omega)⟩
    · rw [escapeLoop_plain (first ▸ more) used (first ▸ plain)]
      exact done
    · rw [overwritten, if_neg plain]
      exact .cons ((kept p (Nat.lt_succ_self p)).trans first) left

end Escaping

section Strings

variable {text : Bytes}

theorem escaped_cons (c : UInt8) (rest : Bytes) :
    escaped (c :: rest) = if isNewline c then backslash :: c :: escaped rest else c :: escaped rest := by
  rw [escaped, List.flatMap_cons]
  split <;> rfl

theorem head_escaped (text : Bytes) : (escaped text).head?.any isNewline = false := by
  cases text with
  | nil => rfl
  | cons c rest =>
    rw [escaped_cons]
    split
    · rfl
    · rename_i plain
      simpa using plain

theorem unescaped_escaped (text : Bytes) : unescaped (escaped text) = text := by
  induction text with
  | nil => rfl
  | cons c rest ih =>
    have stays : unescaped (c :: escaped rest) = c :: rest := by
      rw [unescaped, head_escaped, if_neg fun both => Bool.false_ne_true both.2, ih]
    rw [escaped_cons]
    by_cases newline : isNewline c
    · rw [if_pos newline, unescaped, if_pos ⟨rfl, newline⟩, stays]
    · rw [if_neg newline, stays]

theorem length_escaped (text : Bytes) : (escaped text).length = text.length + text.countP isNewline := by
  induction text with
  | nil => rfl
  | cons c rest ih =>
    rw [escaped_cons, List.length_cons]
    by_cases newline : isNewline c
    · rw [if_pos newline, List.countP_cons_of_pos newline, List.length_cons, List.length_cons, ih]
      omega
    · rw [if_neg newline, List.countP_cons_of_neg newline, List.length_cons, ih]
      omega

theorem length_overwritten (text : Bytes) :
    text.length ≤ (overwritten text).length ∧ (overwritten text).length ≤ (escaped text).length ∧
      (overwritten text).length ≤ text.length + 1 := by
  simp only [length_escaped]
  induction text using overwritten.induct with
  | case1 => decide
  | case2 c newline => simp [overwritten, newline]
  | case3 c plain => simp [overwritten, plain]
  | case4 c d rest newline ih =>
    have grown : rest.countP isNewline ≤ (d :: rest).countP isNewline :=
      (List.sublist_cons_self d rest).countP_le
    rw [overwritten, if_pos newline, List.countP_cons_of_pos newline]
    simp only [List.length_cons]
    omega
  | case5 c d rest plain ih =>
    rw [overwritten, if_neg plain, List.countP_cons_of_neg plain]
    simp only [List.length_cons] at ih ⊢
    omega

theorem head_overwritten (text : Bytes) : (overwritten text).head?.any isNewline = false := by
  induction text using overwritten.induct with
  | case1 => rfl
  | case2 c newline =>
    rw [overwritten, if_pos newline]
    rfl
  | case3 c plain => simp [overwritten, plain]
  | case4 c d rest newline =>
    rw [overwritten, if_pos newline]
    rfl
  | case5 c d rest plain => simp [overwritten, plain]

theorem zero_not_mem_overwritten (nonzero : 0 ∉ text) : 0 ∉ overwritten text := by
  induction text using overwritten.induct with
  | case1 => exact nonzero
  | case2 c newline => simpa [overwritten, newline, backslash] using nonzero
  | case3 c plain => simpa [overwritten, plain] using nonzero
  | case4 c d rest newline ih =>
    simp only [List.mem_cons, not_or] at nonzero ih
    rw [overwritten, if_pos newline, List.mem_cons, List.mem_cons, not_or, not_or]
    exact ⟨by decide, nonzero.1, ih nonzero.2.2⟩
  | case5 c d rest plain ih =>
    rw [overwritten, if_neg plain, List.mem_cons, not_or]
    rw [List.mem_cons, not_or] at nonzero
    exact ⟨nonzero.1, ih nonzero.2⟩

theorem unescaped_cons_overwritten (c : UInt8) (text : Bytes) :
    unescaped (c :: overwritten text) = c :: unescaped (overwritten text) := by
  rw [unescaped, head_overwritten, if_neg fun both => Bool.false_ne_true both.2]

theorem length_unescaped_overwritten (text : Bytes) :
    (unescaped (overwritten text)).length ≤ text.length := by
  induction text using overwritten.induct with
  | case1 => decide
  | case2 c newline =>
    rw [overwritten, if_pos newline, unescaped, if_pos ⟨rfl, newline⟩]
    exact length_unescaped_le [c]
  | case3 c plain =>
    rw [overwritten, if_neg plain]
    exact length_unescaped_le [c]
  | case4 c d rest newline ih =>
    rw [overwritten, if_pos newline, unescaped, if_pos ⟨rfl, newline⟩, unescaped_cons_overwritten]
    simp only [List.length_cons]
    omega
  | case5 c d rest plain ih =>
    rw [overwritten, if_neg plain, unescaped_cons_overwritten]
    simp only [List.length_cons] at ih ⊢
    omega

theorem overwritten_eq_escaped (ends : ∀ c ∈ text.dropLast, isNewline c = false) :
    overwritten text = escaped text := by
  induction text using overwritten.induct with
  | case1 => rfl
  | case2 c newline => simp [overwritten, escaped, newline]
  | case3 c plain => simp [overwritten, escaped, plain]
  | case4 c d rest newline =>
    rw [List.dropLast_cons_cons] at ends
    rw [ends c List.mem_cons_self] at newline
    cases newline
  | case5 c d rest plain ih =>
    rw [List.dropLast_cons_cons] at ends
    rw [overwritten, if_neg plain, escaped_cons, if_neg plain,
      ih fun c member => ends c (.tail _ member)]

/-- A newline in front of the last byte costs a byte: the string is too short, escaped and unescaped. -/
theorem overwritten_short (early : ∃ c ∈ text.dropLast, isNewline c) :
    (overwritten text).length < (escaped text).length ∧
      (unescaped (overwritten text)).length < text.length := by
  induction text using overwritten.induct with
  | case1 => simp at early
  | case2 => simp at early
  | case3 => simp at early
  | case4 c d rest newline =>
    have fits := (length_overwritten rest).2.1
    have back := length_unescaped_overwritten rest
    have grown : rest.countP isNewline ≤ (d :: rest).countP isNewline :=
      (List.sublist_cons_self d rest).countP_le
    rw [length_escaped] at fits ⊢
    rw [overwritten, if_pos newline, List.countP_cons_of_pos newline, unescaped,
      if_pos ⟨rfl, newline⟩, unescaped_cons_overwritten]
    simp only [List.length_cons]
    omega
  | case5 c d rest plain ih =>
    obtain ⟨e, member, newline⟩ := early
    rw [List.dropLast_cons_cons, List.mem_cons] at member
    have later : ∃ e ∈ (d :: rest).dropLast, isNewline e := by
      rcases member with rfl | member
      · exact absurd newline plain
      · exact ⟨e, member, newline⟩
    obtain ⟨short, back⟩ := ih later
    rw [overwritten, if_neg plain, escaped_cons, if_neg plain, unescaped_cons_overwritten]
    exact ⟨Nat.succ_lt_succ short, Nat.succ_lt_succ back⟩

theorem countP_le_one (ends : ∀ c ∈ text.dropLast, isNewline c = false) : text.countP isNewline ≤ 1 := by
  rcases text.eq_nil_or_concat with rfl | ⟨front, c, rfl⟩
  · decide
  · rw [List.concat_eq_append, List.dropLast_concat] at ends
    have none : front.countP isNewline = 0 :=
      List.countP_eq_zero.mpr fun c member newline => Bool.false_ne_true ((ends c member).symm.trans newline)
    rw [List.concat_eq_append, List.countP_append, none, Nat.zero_add]
    exact List.countP_le_length

end Strings

section Outcomes

variable {a : Allocator} {b : Block} {s : CText} {allocators : Allocator → Prop}

theorem countNewlines_start (has : b.Has s) :
    countNewlines b.memory s.text.length (s.text.length + 1)
      (b.memory.find isNewline s.text.length 0) = s.text.countP isNewline := by
  have counted := countNewlines_eq (i := 0) has.holds s.nonzero (Nat.lt_succ_self _)
  rwa [Nat.zero_add] at counted

theorem escapeNewlines_holds (has : b.Has s)
    (ended : s.text.countP isNewline ≤ 1 ∨
      a.krealloc b.size (s.text.length + s.text.countP isNewline + 1) b.memory (s.text.length + 1) = 0) :
    ∃ fuel out, escapeNewlines a fuel b s.text.length = some out ∧
      out.memory.Holds 0 (overwritten s.text) ∧ (overwritten s.text).length < out.size := by
  unfold escapeNewlines
  rw [countNewlines_start has]
  by_cases none : s.text.countP isNewline = 0
  · refine ⟨0, b, if_pos none, ?_⟩
    rw [overwritten_eq_self none]
    exact ⟨has.holds, has.room⟩
  · have room := has.room
    have kept : (a.krealloc b.size (s.text.length + s.text.countP isNewline + 1) b.memory).Holds 0 s.text :=
      Allocator.holds_krealloc has.holds (by omega)
    set m : Memory := Function.update
      (a.krealloc b.size (s.text.length + s.text.countP isNewline + 1) b.memory)
      (s.text.length + s.text.countP isNewline) 0 with enlarged
    have holds : m.Holds 0 s.text := by
      refine Memory.Reads.congr kept fun j _ inside => Function.update_of_ne ?_ ..
      rw [List.length_append, List.length_singleton] at inside
      omega
    have zero : m (0 + s.text.length + 1) = 0 := by
      rw [Nat.zero_add, enlarged]
      by_cases last : s.text.countP isNewline = 1
      · rw [last, Function.update_self]
      · rw [Function.update_of_ne (by omega)]
        exact ended.resolve_left (by omega)
    obtain ⟨fuel, out, done, left, -⟩ := escapeLoop_holds holds s.nonzero zero (Nat.le_refl _)
    refine ⟨fuel, ⟨out, s.text.length + s.text.countP isNewline + 1⟩, ?_, left, ?_⟩
    · rw [if_neg none]
      dsimp only
      rw [← enlarged, done, Option.map_some]
    · have fits := (length_overwritten s.text).2.1
      rw [length_escaped] at fits
      exact Nat.lt_succ_of_le fits

theorem escapeNewlines_unique {fuel fuel' len : Nat} {out out' : Block}
    (done : escapeNewlines a fuel b len = some out) (done' : escapeNewlines a fuel' b len = some out') :
    out = out' := by
  unfold escapeNewlines at done done'
  dsimp only at done done'
  split_ifs at done done'
  · exact Option.some.inj (done.symm.trans done')
  · obtain ⟨m, one, rfl⟩ := Option.map_eq_some_iff.mp done
    obtain ⟨m', other, rfl⟩ := Option.map_eq_some_iff.mp done'
    rw [escapeLoop_unique one other]

theorem unescapeNewlines_memory (holds : b.memory.Holds 0 s.text) :
    ∃ m : Memory, m.Holds 0 (unescaped s.text) ∧
      (unescapeNewlines a b s.text.length).memory =
        if (unescaped s.text).length = s.text.length then m
        else a.krealloc b.size (unescaped s.text).length m := by
  obtain ⟨left, -, counted⟩ := @unescapeLoop_holds b.memory s.text s.text.length
    (s.text.length + 1) 0 0 holds s.nonzero (by omega) (Nat.lt_succ_self _)
  refine ⟨_, left, ?_⟩
  unfold unescapeNewlines
  by_cases kept : (unescaped s.text).length = s.text.length
  · rw [if_pos kept]
    dsimp only
    rw [if_pos (by omega)]
  · rw [if_neg kept]
    dsimp only
    rw [if_neg (by omega)]
    dsimp only
    congr 1
    omega

def CText.block (s : CText) : Block := ⟨fun i => s.text.getD i 0, s.text.length + 1⟩

theorem CText.block_has (s : CText) : s.block.Has s :=
  ⟨Memory.holds_ofList [] s.text, Nat.lt_succ_self _⟩

theorem CText.clearing_clears (s : CText) : s.text.countP isNewline ≤ 1 ∨
    Allocator.clearing.krealloc s.block.size (s.text.length + s.text.countP isNewline + 1)
      s.block.memory (s.text.length + 1) = 0 := by
  refine (Nat.lt_or_ge 1 (s.text.countP isNewline)).symm.imp_right fun many => ?_
  refine if_neg ?_
  dsimp only [CText.block]
  omega

theorem CText.cutting_clears (s : CText) : s.text.countP isNewline ≤ 1 ∨
    Allocator.cutting.krealloc s.block.size (s.text.length + s.text.countP isNewline + 1)
      s.block.memory (s.text.length + 1) = 0 := by
  refine (Nat.lt_or_ge 1 (s.text.countP isNewline)).symm.imp_right fun many => ?_
  have behind : ¬ s.text.length + 1 <
      min (s.text.length + 1) (s.text.length + s.text.countP isNewline + 1) := by
    omega
  exact (if_neg behind).trans (if_pos (by dsimp only [CText.block]; omega))

theorem CText.endsOnly_or_early (s : CText) : s.EndsOnly ∨ ∃ c ∈ s.text.dropLast, isNewline c := by
  by_cases ends : s.EndsOnly
  · exact .inl ends
  · obtain ⟨c, member, newline⟩ : ∃ c ∈ s.text.dropLast, isNewline c ≠ false := by
      simpa [EndsOnly] using ends
    exact .inr ⟨c, member, eq_true_of_ne_false newline⟩

def CText.overwritten (s : CText) : CText := ⟨Kernel.overwritten s.text, zero_not_mem_overwritten s.nonzero⟩

theorem CText.zero_not_mem_escaped (s : CText) : 0 ∉ escaped s.text := by
  intro member
  obtain ⟨c, here, zero⟩ := List.mem_flatMap.mp member
  split at zero
  · rcases List.mem_cons.mp zero with slash | zero
    · exact absurd slash (by decide)
    · exact s.nonzero (List.mem_singleton.mp zero ▸ here)
  · exact s.nonzero (List.mem_singleton.mp zero ▸ here)

theorem escapes_iff (clears : allocators .clearing) : s.Escapes allocators ↔ s.EndsOnly := by
  constructor
  · intro escapes
    refine s.endsOnly_or_early.resolve_right fun early => ?_
    obtain ⟨fuel, out, done, holds⟩ := escapes .clearing clears s.block s.block_has
    obtain ⟨fuel', out', done', left, -⟩ := escapeNewlines_holds s.block_has s.clearing_clears
    obtain rfl := escapeNewlines_unique done done'
    have same := holds.unique left s.zero_not_mem_escaped s.overwritten.nonzero
    exact absurd (congrArg List.length same) (Nat.ne_of_gt (overwritten_short early).1)
  · intro ends a _ b has
    obtain ⟨fuel, out, done, left, -⟩ := escapeNewlines_holds (a := a) has (.inl (countP_le_one ends))
    exact ⟨fuel, out, done, overwritten_eq_escaped ends ▸ left⟩

theorem roundTrips_inPlace_iff : s.RoundTrips Allocator.ShrinksInPlace ↔ s.EndsOnly := by
  constructor
  · intro back
    refine s.endsOnly_or_early.resolve_right fun early => ?_
    obtain ⟨fuel, out, line, done, holds, same⟩ :=
      back .clearing Allocator.clearing_shrinksInPlace s.block s.block_has
    obtain ⟨fuel', out', done', left, room⟩ := escapeNewlines_holds s.block_has s.clearing_clears
    obtain rfl := escapeNewlines_unique done done'
    have line_eq : line.text = overwritten s.text := holds.unique left line.nonzero s.overwritten.nonzero
    obtain ⟨m, unescape, memory⟩ := unescapeNewlines_memory (a := .clearing) (s := line) holds
    have fits := length_unescaped_le line.text
    have short := (overwritten_short early).2
    rw [← line_eq] at room short
    have final : (unescapeNewlines .clearing out line.text.length).memory.Holds 0 (unescaped line.text) := by
      rw [memory]
      split
      · exact unescape
      · exact Allocator.clearing_shrinksInPlace.holds unescape (by omega)
    have nonzero : 0 ∉ unescaped line.text := fun zero => line.nonzero (unescaped_subset _ zero)
    exact absurd (congrArg List.length (final.unique same nonzero s.nonzero)) (Nat.ne_of_lt short)
  · intro ends a inPlace b has
    obtain ⟨fuel, out, done, left, room⟩ := escapeNewlines_holds (a := a) has (.inl (countP_le_one ends))
    refine ⟨fuel, out, s.overwritten, done, left, ?_⟩
    obtain ⟨m, unescape, memory⟩ := unescapeNewlines_memory (a := a) (s := s.overwritten) left
    have back : unescaped s.overwritten.text = s.text :=
      (congrArg unescaped (overwritten_eq_escaped ends)).trans (unescaped_escaped s.text)
    rw [back] at unescape memory
    rw [memory]
    split
    · exact unescape
    · have longer := (length_overwritten s.text).1
      exact inPlace.holds unescape (by omega)

theorem roundTrips_iff : s.RoundTrips (fun _ => True) ↔ ∀ c ∈ s.text, isNewline c = false := by
  constructor
  · intro back c member
    by_contra newline
    obtain ⟨fuel, out, line, done, holds, same⟩ := back .cutting trivial s.block s.block_has
    obtain ⟨fuel', out', done', left, room⟩ := escapeNewlines_holds s.block_has s.cutting_clears
    obtain rfl := escapeNewlines_unique done done'
    have line_eq : line.text = overwritten s.text := holds.unique left line.nonzero s.overwritten.nonzero
    obtain ⟨m, unescape, memory⟩ := unescapeNewlines_memory (a := .cutting) (s := line) holds
    have fits := length_unescaped_le line.text
    have shorter : (unescaped line.text).length < line.text.length := by
      rw [line_eq]
      have longer := (length_overwritten s.text).1
      have back := length_unescaped_overwritten s.text
      rcases s.endsOnly_or_early with ends | early
      · have counted : 0 < s.text.countP isNewline :=
          List.countP_pos_iff.mpr ⟨c, member, eq_true_of_ne_false newline⟩
        have length := length_escaped s.text
        rw [← overwritten_eq_escaped ends] at length
        omega
      · have short := (overwritten_short early).2
        omega
    have nonzero : 0 ∉ unescaped line.text := fun zero => line.nonzero (unescaped_subset _ zero)
    rw [memory, if_neg (Nat.ne_of_lt shorter)] at same
    rw [← line_eq] at room
    exact Allocator.cutting_not_holds unescape nonzero (by omega) _ same
  · intro bare a _ b has
    have none : s.text.countP isNewline = 0 :=
      List.countP_eq_zero.mpr fun c member newline =>
        Bool.false_ne_true ((bare c member).symm.trans newline)
    have ends : s.EndsOnly := fun c member => bare c (List.dropLast_subset _ member)
    obtain ⟨fuel, out, done, left, -⟩ := escapeNewlines_holds (a := a) has (.inl (countP_le_one ends))
    rw [overwritten_eq_self none] at left
    refine ⟨fuel, out, s, done, left, ?_⟩
    obtain ⟨m, unescape, memory⟩ := unescapeNewlines_memory (a := a) (s := s) left
    have back : unescaped s.text = s.text := by
      conv_lhs => rw [← overwritten_eq_self none, overwritten_eq_escaped ends, unescaped_escaped]
    rw [back] at unescape memory
    rw [memory, if_pos rfl]
    exact unescape

theorem trimToNl_eq (has : b.Has s) : trimToNl a b s.text.length =
    match bareNewline 0 s.text with
    | some (i + 1) => ⟨a.krealloc b.size (i + 1) (Function.update b.memory (i + 1) 0), i + 1⟩
    | _ => b := by
  unfold trimToNl
  rw [trimLoop_start has.holds s.nonzero]
  rcases bareNewline 0 s.text with _ | _ | i
  · rfl
  · rfl
  · rfl

theorem cut_holds {i : Nat} (has : b.Has s) (inside : i < s.text.length) :
    Memory.Holds (Function.update b.memory i 0) 0 (s.text.take i) := by
  have length : (s.text.take i).length = i := List.length_take_of_le (Nat.le_of_lt inside)
  refine Memory.reads_append.mpr ⟨?_, ?_, trivial⟩
  · have front : b.memory.Reads 0 (s.text.take i) := by
      have whole := has.holds.reads
      rw [← List.take_append_drop i s.text, Memory.reads_append] at whole
      exact whole.1
    refine front.congr fun j _ low => Function.update_of_ne ?_ ..
    omega
  · rw [length, Nat.zero_add, Function.update_self]

theorem trims_at_start (first : bareNewline 0 s.text = some 0) : ¬ s.Trims Allocator.ShrinksInPlace := by
  intro trims
  have holds := trims .clearing Allocator.clearing_shrinksInPlace s.block s.block_has
  rw [trimToNl_eq s.block_has, trimmed, first] at holds
  have same := holds.unique s.block_has.holds (List.not_mem_nil) s.nonzero
  have inside := bareNewline_lt first
  rw [← same] at inside
  cases inside

theorem trims_of_none (none : bareNewline 0 s.text = none) : s.Trims allocators := by
  intro a _ b has
  rw [trimToNl_eq has, trimmed, none]
  exact has.holds

theorem trims_inPlace_iff : s.Trims Allocator.ShrinksInPlace ↔ bareNewline 0 s.text ≠ some 0 := by
  refine ⟨fun trims first => trims_at_start first trims, fun inner => ?_⟩
  rcases found : bareNewline 0 s.text with _ | _ | i
  · exact trims_of_none found
  · exact absurd found inner
  · intro a inPlace b has
    have inside := bareNewline_lt found
    have room := has.room
    rw [trimToNl_eq has, trimmed, found]
    exact inPlace.holds (cut_holds has inside) (by omega)

theorem trims_iff : s.Trims (fun _ => True) ↔ bareNewline 0 s.text = none := by
  refine ⟨fun trims => ?_, trims_of_none⟩
  rcases found : bareNewline 0 s.text with _ | _ | i
  · rfl
  · exact absurd (fun a _ => trims a trivial) (trims_at_start found)
  · have holds := trims .cutting trivial s.block s.block_has
    have inside := bareNewline_lt found
    have room := s.block_has.room
    have length : (s.text.take (i + 1)).length = i + 1 := List.length_take_of_le (Nat.le_of_lt inside)
    rw [trimToNl_eq s.block_has, trimmed, found] at holds
    have smaller : (s.text.take (i + 1)).length ≤ s.block.size := by omega
    have cut := Allocator.cutting_not_holds (cut_holds s.block_has inside)
      (fun zero => s.nonzero (List.mem_of_mem_take zero)) smaller (s.text.take (i + 1))
    rw [length] at cut
    exact absurd holds cut

end Outcomes

/-- Escaping is right exactly for strings with no newline in front of their last byte, with any
allocator and with one that shrinks in place. Unescaping and trimming ask for an allocation without room
for the terminator: then they are right only where they cut nothing off, and with an allocator that
shrinks in place unless escaping has lost a byte or the newline is the first byte. -/
theorem newlines_iff (s : CText) :
    ((s.Escapes (fun _ => True) ↔ s.EndsOnly) ∧
        (s.RoundTrips (fun _ => True) ↔ ∀ c ∈ s.text, isNewline c = false) ∧
        (s.Trims (fun _ => True) ↔ bareNewline 0 s.text = none)) ∧
      ((s.Escapes Allocator.ShrinksInPlace ↔ s.EndsOnly) ∧
        (s.RoundTrips Allocator.ShrinksInPlace ↔ s.EndsOnly) ∧
        (s.Trims Allocator.ShrinksInPlace ↔ bareNewline 0 s.text ≠ some 0)) :=
  ⟨⟨escapes_iff trivial, roundTrips_iff, trims_iff⟩,
    escapes_iff Allocator.clearing_shrinksInPlace, roundTrips_inPlace_iff, trims_inPlace_iff⟩

def twoLines : CText := ⟨ascii "a\nb", by decide⟩

-- The byte behind the newline is lost.
theorem newline_inside_lost : overwritten twoLines.text = ascii "a\\\n" ∧
    ¬ ∀ s : CText, s.Escapes Allocator.ShrinksInPlace ∧ s.RoundTrips Allocator.ShrinksInPlace ∧
      s.Trims Allocator.ShrinksInPlace := by
  refine ⟨by decide, fun all => ?_⟩
  have ends := (escapes_iff Allocator.clearing_shrinksInPlace).mp (all twoLines).1
  exact absurd (ends 0x0a (by decide)) (by decide)

end VirtueSensing.Kernel
