import VirtueSensing.Jsmn.Parser

set_option autoImplicit false

/-!
# What the tokenizer has read

All loops of jsmn end at a zero byte, so the text of a token is a C string.
-/

namespace VirtueSensing.Jsmn

theorem parsePrimitive_reads {bytes behind : Bytes} {pos stop : Nat}
    (parsed : parsePrimitive bytes pos = .ok (stop, behind)) :
    ∃ body, bytes = body ++ behind ∧ stop = pos + body.length ∧ 0 ∉ body := by
  induction bytes generalizing pos with
  | nil =>
    obtain ⟨rfl, rfl⟩ : pos = stop ∧ [] = behind := by simpa [parsePrimitive] using parsed
    exact ⟨[], rfl, rfl, by simp⟩
  | cons c rest ih =>
    unfold parsePrimitive at parsed
    split_ifs at parsed with ends
    · obtain ⟨rfl, rfl⟩ : pos = stop ∧ c :: rest = behind := by simpa using parsed
      exact ⟨[], rfl, rfl, by simp⟩
    · obtain ⟨body, rfl, rfl, nonzero⟩ := ih parsed
      refine ⟨c :: body, rfl, by simp; omega, ?_⟩
      simp only [List.mem_cons, not_or] at ends ⊢
      exact ⟨fun zero => ends.1 zero.symm, nonzero⟩

theorem parseString_reads {mode : StringMode} {bytes behind : Bytes} {pos stop : Nat}
    (parsed : parseString mode bytes pos = .ok (stop, behind)) :
    ∃ body, bytes = body ++ 34 :: behind ∧ stop = pos + body.length ∧ 0 ∉ body := by
  induction bytes generalizing mode pos with
  | nil => cases mode <;> simp [parseString] at parsed
  | cons c rest ih =>
    have more {mode : StringMode} (later : parseString mode rest (pos + 1) = .ok (stop, behind))
        (nonzero : c ≠ 0) :
        ∃ body, c :: rest = body ++ 34 :: behind ∧ stop = pos + body.length ∧ 0 ∉ body := by
      obtain ⟨body, rfl, rfl, text⟩ := ih later
      refine ⟨c :: body, rfl, by simp; omega, ?_⟩
      simp only [List.mem_cons, not_or]
      exact ⟨nonzero.symm, text⟩
    cases mode with
    | plain =>
      unfold parseString at parsed
      split_ifs at parsed with zero quote escape
      · obtain ⟨rfl, rfl⟩ : pos = stop ∧ rest = behind := by simpa using parsed
        exact ⟨[], by simp [quote], rfl, by simp⟩
      · exact more parsed zero
      · exact more parsed zero
    | escaped =>
      unfold parseString at parsed
      split_ifs at parsed with unicode simple
      · exact more parsed (by simp [unicode])
      · apply more parsed
        rintro rfl
        exact absurd simple (by decide)
    | hex left =>
      cases left with
      | zero =>
        unfold parseString at parsed
        split_ifs at parsed with zero
        exact more parsed zero
      | succ left =>
        unfold parseString at parsed
        split_ifs at parsed with zero
        exact more parsed zero

section Turns

variable {numTokens : Nat} {I : Bytes → Parser → Prop}

theorem parseLoop_invariant
    (skip : ∀ before c p, c ∈ ascii "\t\r\n :," → I before p → I (before ++ [c]) p)
    (colon : ∀ before p, I before p → I before p.colon)
    (comma : ∀ before p, I before p → I before p.comma)
    (open_ : ∀ before p q type c, (c, type) ∈ [(123, .object), (91, .array)] → I before p →
      p.openContainer numTokens type before.length = .ok q → I (before ++ [c]) q)
    (close : ∀ before p q type c, (c, type) ∈ [(125, .object), (93, .array)] → I before p →
      p.closeContainer type before.length = .ok q → I (before ++ [c]) q)
    (string : ∀ before body p q, 0 ∉ body → I before p →
      p.addScalar numTokens .string (before.length + 1) (before.length + 1 + body.length) = .ok q →
      I (before ++ (34 :: body ++ [34])) q)
    (primitive : ∀ before body p q, body ≠ [] → 0 ∉ body → I before p →
      p.addScalar numTokens .primitive before.length (before.length + body.length) = .ok q →
      I (before ++ body) q)
    {fuel : Nat} {before bytes : Bytes} {p q : Parser} (start : I before p)
    (parsed : parseLoop numTokens fuel bytes before.length p = .ok q) :
    ∃ read, read <+: before ++ bytes ∧ I read q := by
  induction fuel generalizing before bytes p with
  | zero =>
    obtain rfl : p = q := by simpa [parseLoop] using parsed
    exact ⟨before, List.prefix_append _ _, start⟩
  | succ fuel ih =>
    cases bytes with
    | nil =>
      obtain rfl : p = q := by simpa [parseLoop] using parsed
      exact ⟨before, List.prefix_append _ _, start⟩
    | cons c rest =>
      -- One turn that reads `body`.
      have turn {body behind : Bytes} {p : Parser} {pos : Nat} (read : c :: rest = body ++ behind)
          (kept : I (before ++ body) p) (later : parseLoop numTokens fuel behind pos p = .ok q)
          (place : pos = before.length + body.length) :
          ∃ read, read <+: before ++ c :: rest ∧ I read q := by
        rw [read, ← List.append_assoc]
        apply ih kept
        simpa [← place] using later
      unfold parseLoop at parsed
      by_cases zero : c = 0
      · rw [if_pos zero] at parsed
        cases parsed
        exact ⟨before, List.prefix_append _ _, start⟩
      rw [if_neg zero] at parsed
      split_ifs at parsed with open1 open2 close1 close2 quote blank isColon isComma
      · obtain ⟨p', opened, later⟩ := Except.of_bind_ok parsed
        exact turn rfl (open_ before p p' _ c (by simp [open1]) start opened) later rfl
      · obtain ⟨p', opened, later⟩ := Except.of_bind_ok parsed
        exact turn rfl (open_ before p p' _ c (by simp [open2]) start opened) later rfl
      · obtain ⟨p', closed, later⟩ := Except.of_bind_ok parsed
        exact turn rfl (close before p p' _ c (by simp [close1]) start closed) later rfl
      · obtain ⟨p', closed, later⟩ := Except.of_bind_ok parsed
        exact turn rfl (close before p p' _ c (by simp [close2]) start closed) later rfl
      · obtain ⟨⟨stop, behind⟩, read, added⟩ := Except.of_bind_ok parsed
        obtain ⟨p', added, later⟩ := Except.of_bind_ok added
        obtain ⟨body, rfl, rfl, text⟩ := parseString_reads read
        refine @turn (34 :: body ++ [34]) _ _ _ (by simp [quote])
          (string before body p p' text start added) later ?_
        simp only [List.length_append, List.length_cons, List.length_nil]
        omega
      · have listed : c ∈ ascii "\t\r\n :," := by
          simp only [ascii] at blank ⊢
          grind
        exact turn rfl (skip before c p listed start) parsed rfl
      · exact turn rfl (skip before c _ (by simp [isColon, ascii]) (colon before p start)) parsed rfl
      · exact turn rfl (skip before c _ (by simp [isComma, ascii]) (comma before p start)) parsed rfl
      · obtain ⟨⟨stop, behind⟩, read, added⟩ := Except.of_bind_ok parsed
        obtain ⟨p', added, later⟩ := Except.of_bind_ok added
        have starts : ¬ (c = 0 ∨ endsPrimitive c) := by
          simp_all [endsPrimitive, ascii]
        have consumed := parsePrimitive_cons_consumes starts read
        obtain ⟨body, whole, rfl, text⟩ := parsePrimitive_reads read
        have some : body ≠ [] := by
          rintro rfl
          rw [List.nil_append] at whole
          rw [← whole, List.length_cons] at consumed
          omega
        exact turn whole (primitive before body p p' some text start added) later rfl

end Turns

def Parser.Within (p : Parser) (n : Nat) : Prop :=
  ∀ t ∈ p.tokens, t.stop ≤ n

namespace Parser.Within

variable {p q : Parser} {n m : Nat}

theorem mono (within : p.Within n) (larger : n ≤ m) : p.Within m := by
  intro t member
  have bound := within t member
  omega

theorem growSuper (within : p.Within n) : p.growSuper.Within n := by
  unfold Parser.growSuper
  split
  · exact within
  · intro t member
    obtain ⟨i, inside, rfl⟩ := List.mem_iff_getElem.mp member
    simp only [List.length_modify] at inside
    have same : (p.tokens.modify _ _)[i].stop = p.tokens[i].stop := by
      simp only [List.getElem_modify]
      split <;> rfl
    rw [same]
    exact within _ (List.getElem_mem inside)

theorem openContainer {numTokens : Nat} {type : TokenType} {pos : Nat} (within : p.Within n)
    (opened : p.openContainer numTokens type pos = .ok q) : q.Within n := by
  unfold Parser.openContainer at opened
  split at opened
  · simp at opened
  · cases opened
    intro t member
    rcases List.mem_append.mp member with before | last
    · exact within.growSuper t before
    · obtain rfl := List.mem_singleton.mp last
      simp only
      omega

theorem closeContainer {type : TokenType} {pos : Nat} (within : p.Within n) (room : pos < n)
    (closed : p.closeContainer type pos = .ok q) : q.Within n := by
  unfold Parser.closeContainer at closed
  split at closed
  · simp at closed
  · split at closed
    · simp at closed
    · cases closed
      intro t member
      obtain ⟨i, inside, rfl⟩ := List.mem_iff_getElem.mp member
      simp only [List.getElem_modify]
      split
      · simp only
        omega
      · exact within _ (List.getElem_mem _)

theorem addScalar {numTokens : Nat} {type : TokenType} {start stop : Nat} (within : p.Within n)
    (room : stop ≤ n) (added : p.addScalar numTokens type start stop = .ok q) : q.Within n := by
  unfold Parser.addScalar at added
  split at added
  · simp at added
  · cases added
    apply growSuper
    intro t member
    rcases List.mem_append.mp member with before | last
    · exact within t before
    · obtain rfl := List.mem_singleton.mp last
      simp only
      omega

theorem comma (within : p.Within n) : p.comma.Within n := by
  unfold Parser.comma
  split
  · exact within
  · split
    · exact within
    · split
      · exact within
      · exact within

end Parser.Within

theorem parseLoop_consumed {numTokens fuel : Nat} {js : Bytes} {q : Parser}
    (parsed : parseLoop numTokens fuel js 0 initial = .ok q) :
    ∃ before, before <+: js ∧ 0 ∉ before ∧ q.Within before.length := by
  let I (before : Bytes) (p : Parser) : Prop := 0 ∉ before ∧ p.Within before.length
  have more {before body : Bytes} {p q : Parser} (kept : I before p) (text : 0 ∉ body)
      (within : p.Within before.length → q.Within (before ++ body).length) : I (before ++ body) q :=
    ⟨by simp [kept.1, text], within kept.2⟩
  refine @parseLoop_invariant numTokens I ?_ ?_ ?_ ?_ ?_ ?_ ?_ fuel [] js initial q
    ⟨by simp, by simp [Parser.Within, initial]⟩ parsed
  · intro before c p listed kept
    refine more kept ?_ fun within => within.mono (by simp)
    rintro zero
    obtain rfl := List.mem_singleton.mp zero
    exact absurd listed (by decide)
  · exact fun before p kept => kept
  · exact fun before p kept => ⟨kept.1, kept.2.comma⟩
  · intro before p q type c bracket kept opened
    refine more kept ?_ fun within => (within.openContainer opened).mono (by simp)
    rintro zero
    obtain rfl := List.mem_singleton.mp zero
    simp at bracket
  · intro before p q type c bracket kept closed
    refine more kept ?_ fun within => (within.mono (by simp)).closeContainer (by simp) closed
    rintro zero
    obtain rfl := List.mem_singleton.mp zero
    simp at bracket
  · intro before body p q text kept added
    refine more kept ?_ fun within => (within.mono (by simp)).addScalar ?_ added
    · simp [text]
    · simp
      omega
  · intro before body p q _ text kept added
    exact more kept text fun within => (within.mono (by simp)).addScalar (by simp) added

theorem parse_text (numTokens : Nat) (js : Bytes) {t : Token}
    (member : t ∈ (parse numTokens js).tokens) : 0 ∉ t.text js := by
  unfold parse at member
  split at member
  · rename_i p parsed
    obtain ⟨before, ⟨behind, rfl⟩, nonzero, within⟩ := parseLoop_consumed parsed
    intro zero
    have stop := within t member
    simp only [Token.text, Bytes.slice] at zero
    by_cases empty : t.stop ≤ t.start
    · rw [Int.toNat_of_nonpos (by omega), List.take_zero] at zero
      exact absurd zero List.not_mem_nil
    · rw [List.take_drop, List.take_append_of_le_length (by omega)] at zero
      exact nonzero (List.mem_of_mem_take (List.mem_of_mem_drop zero))
  · simp at member

end VirtueSensing.Jsmn
