import VirtueSensing.Jsmn.Consumed

set_option autoImplicit false

/-!
# How many slots a text needs

With fewer slots than the text has tokens `jsmn_parse` gives an error, and with more the same tokens.
-/

namespace VirtueSensing.Jsmn

section Counting

variable {numTokens : Nat} {p q : Parser} {pos : Nat} {type : TokenType}

theorem length_growSuper (p : Parser) : p.growSuper.tokens.length = p.tokens.length := by
  cases super : p.toksuper <;> simp [Parser.growSuper, super]

theorem length_openContainer (opened : p.openContainer numTokens type pos = .ok q) :
    q.tokens.length = p.tokens.length + 1 := by
  unfold Parser.openContainer at opened
  split_ifs at opened
  obtain rfl := Except.ok.inj opened
  simp [length_growSuper]

theorem length_addScalar {start stop : Nat} (added : p.addScalar numTokens type start stop = .ok q) :
    q.tokens.length = p.tokens.length + 1 := by
  unfold Parser.addScalar at added
  split_ifs at added
  obtain rfl := Except.ok.inj added
  simp [length_growSuper]

theorem length_closeContainer (closed : p.closeContainer type pos = .ok q) :
    q.tokens.length = p.tokens.length := by
  unfold Parser.closeContainer at closed
  split at closed
  · cases closed
  · split_ifs at closed
    obtain rfl := Except.ok.inj closed
    simp

theorem length_comma (p : Parser) : p.comma.tokens.length = p.tokens.length := by
  unfold Parser.comma
  split
  · rfl
  · split_ifs
    · rfl
    · split <;> rfl

theorem parseLoop_length {fuel : Nat} {before bytes : Bytes}
    (parsed : parseLoop numTokens fuel bytes before.length p = .ok q) :
    p.tokens.length ≤ q.tokens.length ∧
      (p.tokens.length ≤ before.length → q.tokens.length ≤ before.length + bytes.length) := by
  let I (read : Bytes) (r : Parser) : Prop :=
    p.tokens.length ≤ r.tokens.length ∧ (p.tokens.length ≤ before.length → r.tokens.length ≤ read.length)
  have longer {read body : Bytes} {r s : Parser} (kept : I read r) (some : 0 < body.length)
      (added : s.tokens.length = r.tokens.length + 1) : I (read ++ body) s := by
    simp only [I, List.length_append, added]
    exact ⟨Nat.le_add_right_of_le kept.1, fun start => Nat.add_le_add (kept.2 start) some⟩
  have same {read body : Bytes} {r s : Parser} (kept : I read r)
      (equal : s.tokens.length = r.tokens.length) : I (read ++ body) s := by
    simp only [I, List.length_append, equal]
    exact ⟨kept.1, fun start => Nat.le_add_right_of_le (kept.2 start)⟩
  obtain ⟨read, behind, least, most⟩ := @parseLoop_invariant numTokens I
    (fun _ _ _ _ kept => same kept rfl)
    (fun _ _ kept => kept)
    (fun read r kept => by
      rw [← List.append_nil read]
      exact same kept (length_comma r))
    (fun _ _ _ _ _ _ kept opened => longer kept Nat.one_pos (length_openContainer opened))
    (fun _ _ _ _ _ _ kept closed => same kept (length_closeContainer closed))
    (fun _ _ _ _ _ kept added => longer kept (Nat.succ_pos _) (length_addScalar added))
    (fun _ _ _ _ some _ kept added =>
      longer kept (List.length_pos_of_ne_nil some) (length_addScalar added))
    fuel before bytes p q ⟨Nat.le_refl _, id⟩ parsed
  have whole := behind.length_le
  rw [List.length_append] at whole
  exact ⟨least, fun start => Nat.le_trans (most start) whole⟩

theorem parseLoop_grows {fuel pos : Nat} {bytes : Bytes}
    (parsed : parseLoop numTokens fuel bytes pos p = .ok q) : p.tokens.length ≤ q.tokens.length := by
  rw [← List.length_replicate (n := pos) (a := (0 : UInt8))] at parsed
  exact (parseLoop_length parsed).1

end Counting

section Capacity

variable {n m : Nat} {p q next : Parser} {f g : Parser → Except Error Parser}

theorem allocate_capacity (fewer : n ≤ m) (longer : next.tokens.length = p.tokens.length + 1)
    (later : next.tokens.length ≤ n → (f next = .ok q ↔ g next = .ok q ∧ q.tokens.length ≤ n))
    (grows : g next = .ok q → next.tokens.length ≤ q.tokens.length) :
    ((if n ≤ p.tokens.length then .error .nomem else .ok next) >>= f) = .ok q ↔
      ((if m ≤ p.tokens.length then .error .nomem else .ok next) >>= g) = .ok q ∧
        q.tokens.length ≤ n := by
  by_cases full : n ≤ p.tokens.length
  · rw [if_pos full]
    refine iff_of_false nofun ?_
    rintro ⟨parsed, few⟩
    by_cases fullToo : m ≤ p.tokens.length
    · rw [if_pos fullToo] at parsed
      cases parsed
    · rw [if_neg fullToo] at parsed
      have more := grows parsed
      omega
  · rw [if_neg full, if_neg (by omega)]
    exact later (by omega)

theorem same_capacity {α : Type} {x : Except Error α} {f g : α → Except Error Parser}
    (later : ∀ a, x = .ok a → (f a = .ok q ↔ g a = .ok q ∧ q.tokens.length ≤ n)) :
    (x >>= f) = .ok q ↔ (x >>= g) = .ok q ∧ q.tokens.length ≤ n := by
  cases x with
  | error e => exact iff_of_false nofun fun parsed => nomatch parsed.1
  | ok a => exact later a rfl

theorem stop_capacity (room : p.tokens.length ≤ n) :
    (Except.ok p : Except Error Parser) = .ok q ↔
      (Except.ok p : Except Error Parser) = .ok q ∧ q.tokens.length ≤ n := by
  refine ⟨fun same => ⟨same, ?_⟩, And.left⟩
  rwa [← Except.ok.inj same]

-- The first allocation that the fewer slots refuse already takes more than there are.
theorem parseLoop_capacity (fewer : n ≤ m) {fuel : Nat} {bytes : Bytes} {pos : Nat}
    (room : p.tokens.length ≤ n) :
    parseLoop n fuel bytes pos p = .ok q ↔
      parseLoop m fuel bytes pos p = .ok q ∧ q.tokens.length ≤ n := by
  induction fuel generalizing bytes pos p with
  | zero => exact stop_capacity room
  | succ fuel ih =>
    cases bytes with
    | nil => exact stop_capacity room
    | cons c rest =>
      unfold parseLoop
      split_ifs with nul open1 open2 close1 close2 quote blank colon comma
      · exact stop_capacity room
      · exact allocate_capacity fewer (by simp [length_growSuper]) ih parseLoop_grows
      · exact allocate_capacity fewer (by simp [length_growSuper]) ih parseLoop_grows
      · refine same_capacity fun p' closed => ih ?_
        rwa [length_closeContainer closed]
      · refine same_capacity fun p' closed => ih ?_
        rwa [length_closeContainer closed]
      · refine same_capacity fun read _ => ?_
        exact allocate_capacity fewer (by simp [length_growSuper]) ih parseLoop_grows
      · exact ih room
      · exact ih room
      · refine ih ?_
        rwa [length_comma]
      · refine same_capacity fun read _ => ?_
        exact allocate_capacity fewer (by simp [length_growSuper]) ih parseLoop_grows

theorem parse_of_loop {js : Bytes} (parsed : parseLoop n js.length js 0 initial = .ok q) :
    (parse n js).result = q.tokens.length ∧ (parse n js).tokens = q.tokens := by
  unfold parse
  rw [parsed]
  exact ⟨rfl, rfl⟩

theorem loop_of_parse {js : Bytes} (accepted : 0 ≤ (parse n js).result) :
    ∃ q, parseLoop n js.length js 0 initial = .ok q := by
  unfold parse at accepted
  split at accepted
  · rename_i q parsed
    exact ⟨q, parsed⟩
  · rename_i e failed
    cases e <;> exact absurd accepted (by decide)

theorem parseLoop_whole (n : Nat) (js : Bytes) :
    parseLoop n js.length js 0 initial = .ok q ↔
      parseLoop js.length js.length js 0 initial = .ok q ∧ q.tokens.length ≤ n := by
  rcases Nat.le_total n js.length with fewer | more
  · exact parseLoop_capacity fewer (Nat.zero_le n)
  · have few {k : Nat} (parsed : parseLoop k js.length js 0 initial = .ok q) :
        q.tokens.length ≤ js.length := by
      simpa using (@parseLoop_length k initial q js.length [] js parsed).2 (Nat.le_refl 0)
    rw [parseLoop_capacity (p := initial) more (Nat.zero_le js.length)]
    exact ⟨fun parsed => ⟨⟨parsed, few parsed⟩, Nat.le_trans (few parsed) more⟩, fun parsed => parsed.1.1⟩

end Capacity

/-- `n` slots are enough exactly if the text has no more tokens. -/
theorem parse_capacity (n : Nat) (js : Bytes) :
    0 ≤ (parse n js).result ↔
      0 ≤ (parse js.length js).result ∧ (parse js.length js).tokens.length ≤ n := by
  constructor
  · intro accepted
    obtain ⟨q, parsed⟩ := loop_of_parse accepted
    obtain ⟨whole, few⟩ := (parseLoop_whole n js).mp parsed
    obtain ⟨result, tokens⟩ := parse_of_loop whole
    rw [result, tokens]
    exact ⟨Int.natCast_nonneg _, few⟩
  · rintro ⟨accepted, few⟩
    obtain ⟨q, whole⟩ := loop_of_parse accepted
    rw [(parse_of_loop whole).2] at few
    rw [(parse_of_loop ((parseLoop_whole n js).mpr ⟨whole, few⟩)).1]
    exact Int.natCast_nonneg _

theorem parse_tokens {n : Nat} {js : Bytes} (accepted : 0 ≤ (parse n js).result) :
    (parse n js).tokens = (parse js.length js).tokens := by
  obtain ⟨q, parsed⟩ := loop_of_parse accepted
  have whole := ((parseLoop_whole n js).mp parsed).1
  rw [(parse_of_loop parsed).2, (parse_of_loop whole).2]

end VirtueSensing.Jsmn
