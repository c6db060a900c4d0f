import VirtueSensing.Shared.JsonText

set_option autoImplicit false

/-!
# Fields that are written without escapes

A writer that puts bytes between quotes as they are is read back exactly when the bytes are plain:
no other bytes come back as a string of the text, whatever else they make of it.
-/

namespace VirtueSensing.JsonText

mutual

/-- The keys and strings of a value, in the order of the text. -/
def Json.strings : Json → List Bytes
  | .scalar _ => []
  | .string text => [text]
  | .array items => itemStrings items
  | .object members => memberStrings members

def itemStrings : List Json → List Bytes
  | [] => []
  | v :: rest => v.strings ++ itemStrings rest

def memberStrings : List (Bytes × Json) → List Bytes
  | [] => []
  | (key, v) :: rest => key :: v.strings ++ memberStrings rest

end

def Token.strings : Token → List Bytes
  | .string text => [text]
  | _ => []

def tokenStrings (ts : List Token) : List Bytes :=
  ts.flatMap Token.strings

def Frame.strings : Frame → List Bytes
  | .items before => itemStrings before
  | .members before => memberStrings before
  | .member before key => memberStrings before ++ [key]

def stackStrings : List Frame → List Bytes
  | [] => []
  | f :: stack => stackStrings stack ++ f.strings

def Place.strings : Place → List Bytes
  | .colon name => [name]
  | .after v => v.strings
  | _ => []

theorem itemStrings_snoc (items : List Json) (v : Json) :
    itemStrings (items ++ [v]) = itemStrings items ++ v.strings := by
  induction items with
  | nil => simp [itemStrings]
  | cons w rest ih => simp [itemStrings, ih]

theorem memberStrings_snoc (members : List (Bytes × Json)) (key : Bytes) (v : Json) :
    memberStrings (members ++ [(key, v)]) = memberStrings members ++ key :: v.strings := by
  induction members with
  | nil => simp [memberStrings]
  | cons m rest ih => simp [memberStrings, ih]

theorem memberStrings_sublist {members : List (Bytes × Json)} {m : Bytes × Json}
    (present : m ∈ members) : m.2.strings.Sublist (memberStrings members) := by
  induction members with
  | nil => simp at present
  | cons other rest ih =>
    rw [memberStrings]
    rcases List.mem_cons.mp present with rfl | later
    · exact (List.sublist_cons_self _ _).trans (List.sublist_append_left _ _)
    · exact (ih later).trans (List.sublist_append_right _ _)

theorem itemStrings_sublist {items : List Json} {v : Json} (present : v ∈ items) :
    v.strings.Sublist (itemStrings items) := by
  induction items with
  | nil => simp at present
  | cons other rest ih =>
    rw [itemStrings]
    rcases List.mem_cons.mp present with rfl | later
    · exact List.sublist_append_left _ _
    · exact (ih later).trans (List.sublist_append_right _ _)

theorem get_strings {j v : Json} {key : Bytes} (found : j.get key = some v) :
    v.strings.Sublist j.strings := by
  cases j with
  | scalar | string | array => simp [Json.get] at found
  | object members =>
    obtain ⟨m, here, rfl⟩ := Option.map_eq_some_iff.mp found
    have present : m ∈ members := List.mem_reverse.mp (List.mem_of_find?_eq_some here)
    simpa [Json.strings] using memberStrings_sublist present

section Building

variable {stack after : List Frame} {place there : Place} {t : Token}

theorem start_strings (started : start stack t = some (after, there)) :
    stackStrings after ++ there.strings = stackStrings stack ++ t.strings := by
  unfold start at started
  split at started <;> cases started
  all_goals
    simp [stackStrings, Frame.strings, Place.strings, Token.strings, Json.strings, itemStrings,
      memberStrings]

theorem next_strings (stepped : next stack place t = some (after, there)) :
    stackStrings after ++ there.strings = stackStrings stack ++ place.strings ++ t.strings := by
  unfold next at stepped
  split at stepped
  case h_1 => simpa [Place.strings] using start_strings stepped
  case h_3 => simpa [Place.strings] using start_strings stepped
  all_goals cases stepped
  all_goals
    simp [stackStrings, Frame.strings, Place.strings, Token.strings, Json.strings,
      itemStrings_snoc, memberStrings_snoc]

theorem build_strings {ts : List Token} {v : Json} (built : build stack place ts = some v) :
    v.strings = stackStrings stack ++ place.strings ++ tokenStrings ts := by
  induction ts generalizing stack place with
  | nil =>
    unfold build at built
    split at built
    · simp_all [stackStrings, Place.strings, tokenStrings]
    · simp at built
    · simp_all
  | cons t rest ih =>
    simp only [build] at built
    split at built
    · simp at built
    · rename_i stepped
      rw [ih built, next_strings stepped, tokenStrings, tokenStrings, List.flatMap_cons]
      simp only [List.append_assoc]

end Building

/-- The text has a string that reads as `s`, and `rest` stands behind it. -/
def Occurs (text s rest : Bytes) : Prop :=
  ∃ before t, text = before ++ quote :: t ∧ scan 0 t = some (s, rest)

theorem Occurs.append {text s rest : Bytes} (before : Bytes) (occurs : Occurs text s rest) :
    Occurs (before ++ text) s rest := by
  obtain ⟨start, t, rfl, found⟩ := occurs
  exact ⟨before ++ start, t, by simp, found⟩

theorem Occurs.suffix {text s rest : Bytes} (occurs : Occurs text s rest) : rest <:+ text := by
  obtain ⟨start, t, rfl, found⟩ := occurs
  obtain ⟨raw, rfl, -⟩ := (scans_of_scan found).suffix
  exact ⟨start ++ quote :: raw ++ [quote], by simp⟩

section Lexing

variable {extended : Bool} {text : Bytes} {ts : List Token}

/-- What the first byte of a text starts. -/
inductive Lexes (extended : Bool) : Bytes → List Token → Prop where
  | ends : Lexes extended [] []
  | space {b : UInt8} {text : Bytes} {ts : List Token} (later : lex extended 0 text = some ts) :
      Lexes extended (b :: text) ts
  | string {text s rest : Bytes} {ts : List Token} (found : scan 0 text = some (s, rest))
      (later : lex extended 0 rest = some ts) : Lexes extended (quote :: text) (.string s :: ts)
  | other {b : UInt8} {text : Bytes} {t : Token} {ts : List Token} (n : Nat)
      (later : lex extended 0 (text.drop n) = some ts) (silent : t.strings = []) :
      Lexes extended (b :: text) (t :: ts)

theorem lexes_of_lex (lexed : lex extended 0 text = some ts) : Lexes extended text ts := by
  cases text with
  | nil =>
    cases lexed
    exact .ends
  | cons b text =>
    by_cases quoted : b = quote
    · subst quoted
      cases found : scan 0 text with
      | none =>
        simp [lex, found, show isSpace quote = false from rfl, show mark quote = none from rfl] at lexed
      | some pair =>
        rw [lex_string extended found] at lexed
        obtain ⟨ts, later, rfl⟩ := Option.map_eq_some_iff.mp lexed
        exact .string found later
    · simp only [lex, quoted, if_false] at lexed
      split at lexed
      · exact .space lexed
      · split at lexed
        · obtain ⟨ts, later, rfl⟩ := Option.map_eq_some_iff.mp lexed
          exact .other 0 later rfl
        · split at lexed
          · simp at lexed
          · rw [lex_skip] at lexed
            obtain ⟨ts, later, rfl⟩ := Option.map_eq_some_iff.mp lexed
            exact .other _ later rfl

theorem lex_occurs {s : Bytes} {more : List Bytes} (lexed : lex extended 0 text = some ts)
    (inOrder : (s :: more).Sublist (tokenStrings ts)) :
    ∃ rest ts', Occurs text s rest ∧ lex extended 0 rest = some ts' ∧
      more.Sublist (tokenStrings ts') := by
  induction size : text.length using Nat.strongRecOn generalizing text ts with
  | ind k ih =>
    cases lexes_of_lex lexed with
    | ends => simp [tokenStrings] at inOrder
    | @space b text _ later =>
      obtain ⟨rest, ts', occurs, found⟩ := ih _ (by simp at size; omega) later inOrder rfl
      exact ⟨rest, ts', occurs.append [b], found⟩
    | @string text s' rest ts found later =>
      rw [tokenStrings, List.flatMap_cons, Token.strings, List.singleton_append] at inOrder
      cases inOrder with
      | cons _ later' =>
        obtain ⟨raw, rfl, -⟩ := (scans_of_scan found).suffix
        obtain ⟨rest', ts', occurs, found'⟩ := ih _ (by simp at size; omega) later later' rfl
        have lifted := occurs.append (quote :: raw ++ [quote])
        exact ⟨rest', ts', by simpa using lifted, found'⟩
      | cons_cons _ rest' => exact ⟨rest, ts, ⟨[], text, rfl, found⟩, later, rest'⟩
    | @other b text t ts n later silent =>
      rw [tokenStrings, List.flatMap_cons, silent, List.nil_append] at inOrder
      obtain ⟨rest, ts', occurs, found⟩ := ih _ (by simp at size; simp; omega) later inOrder rfl
      refine ⟨rest, ts', ?_, found⟩
      have lifted := occurs.append (b :: text.take n)
      rwa [List.cons_append, List.take_append_drop] at lifted

theorem parse_occurs {v : Json} {s : Bytes} (parsed : parse extended text = some v)
    (present : s ∈ v.strings) : ∃ rest, Occurs text s rest := by
  obtain ⟨ts, lexed, built⟩ := Option.bind_eq_some_iff.mp parsed
  rw [build_strings built] at present
  obtain ⟨rest, -, occurs, -⟩ := lex_occurs lexed (List.singleton_sublist.mpr present)
  exact ⟨rest, occurs⟩

theorem parse_occurs_two {v : Json} {s s' : Bytes} (parsed : parse extended text = some v)
    (inOrder : [s, s'].Sublist v.strings) :
    ∃ rest, Occurs text s rest ∧ ∃ rest', Occurs rest s' rest' := by
  obtain ⟨ts, lexed, built⟩ := Option.bind_eq_some_iff.mp parsed
  rw [build_strings built] at inOrder
  obtain ⟨rest, ts', occurs, later, more⟩ := lex_occurs lexed inOrder
  obtain ⟨rest', -, occurs', -⟩ := lex_occurs later more
  exact ⟨rest, occurs, rest', occurs'⟩

end Lexing

-- What the text goes on with, between the quotes of two fields or behind the last one.
structure Between (text : Bytes) : Prop where
  starts : ∃ b ∈ text.head?, b ≠ quote
  raw : backslash ∉ text

instance (text : Bytes) : Decidable (Between text) :=
  decidable_of_iff ((∃ b ∈ text.head?, b ≠ quote) ∧ backslash ∉ text)
    ⟨fun h => ⟨h.1, h.2⟩, fun h => ⟨h.1, h.2⟩⟩

theorem Between.raw_takeWhile {text : Bytes} (between : Between text) :
    backslash ∉ text.takeWhile (· ≠ quote) :=
  fun member => between.raw ((List.takeWhile_sublist _).subset member)

theorem append_cons_split {α : Type} {a : α} {xs ys before after : List α}
    (same : xs ++ a :: ys = before ++ a :: after) :
    (∃ more, xs = before ++ a :: more ∧ after = more ++ a :: ys) ∨ (before = xs ∧ after = ys) ∨
      ∃ more, ys = more ++ a :: after ∧ before = xs ++ a :: more := by
  rcases List.append_eq_append_iff.mp same with ⟨more, rfl, split⟩ | ⟨more, rfl, split⟩
  · cases more with
    | nil => exact .inr (.inl ⟨by simp, by simpa using split.symm⟩)
    | cons b more =>
      obtain ⟨rfl, rfl⟩ := List.cons.inj split
      exact .inr (.inr ⟨more, rfl, rfl⟩)
  · cases more with
    | nil => exact .inr (.inl ⟨by simp, by simpa using split⟩)
    | cons b more =>
      obtain ⟨rfl, rfl⟩ := List.cons.inj split
      exact .inl ⟨more, rfl, rfl⟩

section Fields

variable {before content between text s rest : Bytes}

theorem plain_of_raw (raw : backslash ∉ text) (found : scan 0 text = some (s, rest)) : Plain s :=
  (scan_raw (fun member => raw ((List.takeWhile_sublist _).subset member)) found).2

theorem raw_takeWhile (raw : backslash ∉ before) (text : Bytes) :
    backslash ∉ (before ++ quote :: text).takeWhile (· ≠ quote) := by
  rw [List.takeWhile_append]
  split
  · simpa using raw
  · exact fun member => raw ((List.takeWhile_sublist _).subset member)

theorem plain_of_raw_before (raw : backslash ∉ before)
    (found : scan 0 (before ++ quote :: text) = some (s, rest)) : Plain s :=
  (scan_raw (raw_takeWhile raw text) found).2

theorem Inside.within_field {value : Bytes} {n : Nat}
    (inside : Inside (content ++ quote :: between) value n) (nonempty : content ≠ []) :
    n ≤ content.length := by
  rcases inside.alone with one | outside
  · rw [one]
    exact List.length_pos_iff.mpr nonempty
  · by_contra past
    apply outside
    rw [List.take_append, List.take_of_length_le (by omega)]
    obtain ⟨m, more⟩ := Nat.exists_eq_succ_of_ne_zero (Nat.sub_ne_zero_of_lt (Nat.not_le.mp past))
    simp [more]

/-- A scan that passes a field ends in it, takes it as it is, or goes on behind its closing quote. -/
theorem Scans.passes (scans : Scans text s rest) (split : text = content ++ quote :: between) :
    s.length < content.length ∨ (s = content ∧ Plain content) ∨
      ([backslash] <:+ content ∧ ∃ more, Scans between more rest ∧ more <:+ s) := by
  induction scans generalizing content with
  | ends rest =>
    cases content with
    | nil => exact .inr (.inl ⟨rfl, by simp [Plain]⟩)
    | cons c content => exact .inl (by simp)
  | @escaped text value s rest n taken later ih =>
    have inside := escape_inside taken
    cases content with
    | nil => exact absurd (List.cons.inj split).1 (by decide)
    | cons c content =>
      rw [List.cons_append] at split
      obtain ⟨rfl, rfl⟩ := List.cons.inj split
      by_cases last : content = []
      · -- The escape takes the closing quote.
        subst last
        have alone : n = 1 := by
          rcases inside.alone with one | outside
          · exact one
          · obtain ⟨m, rfl⟩ := Nat.exists_eq_succ_of_ne_zero (Nat.ne_of_gt inside.takes)
            simp at outside
        subst alone
        exact .inr (.inr ⟨List.suffix_refl _, s, later, List.suffix_append _ _⟩)
      · have within := inside.within_field last
        have shrinks := inside.shrinks
        have length : (content.drop n).length = content.length - n := List.length_drop
        rcases @ih (content.drop n) (by rw [List.drop_append_of_le_length within]) with
          short | ⟨rfl, -⟩ | ⟨ends, more, scans, suffix⟩
        · left
          rw [List.length_append, List.length_cons]
          omega
        · left
          rw [List.length_append, List.length_cons]
          omega
        · have later : [backslash] <:+ backslash :: content :=
            ends.trans ((List.drop_suffix n content).trans (List.suffix_cons _ _))
          exact .inr (.inr ⟨later, more, scans, suffix.trans (List.suffix_append _ _)⟩)
  | @plain b text s rest plain later ih =>
    cases content with
    | nil => exact absurd (List.cons.inj split).1 (plain b List.mem_cons_self).1
    | cons c content =>
      obtain ⟨rfl, rfl⟩ := List.cons.inj split
      rcases ih rfl with short | ⟨rfl, plainRest⟩ | ⟨ends, more, scans, suffix⟩
      · exact .inl (by simpa using short)
      · exact .inr (.inl ⟨rfl, plain_cons.mpr ⟨plain, plainRest⟩⟩)
      · exact .inr (.inr ⟨ends.trans (List.suffix_cons _ _), more, scans,
          suffix.trans (List.suffix_cons _ _)⟩)

theorem codeUnit_field (content between : Bytes) :
    codeUnit (content ++ quote :: between) = codeUnit (content ++ [quote]) := by
  have stops : hexValue quote = none := rfl
  match content with
  | a :: b :: c :: d :: e :: rest => rfl
  | [] | [a] | [a, b] | [a, b, c] | [a, b, c, d] =>
    rcases between with - | ⟨f, - | ⟨g, - | ⟨h, - | ⟨i, between⟩⟩⟩⟩ <;>
      simp [codeUnit, stops, show quote ≠ 117 by decide]

theorem lowSurrogate_field (content between : Bytes) :
    lowSurrogate (content ++ quote :: between) = lowSurrogate (content ++ [quote]) := by
  cases content with
  | nil => rfl
  | cons b content => simp only [lowSurrogate, List.cons_append, codeUnit_field content between]

theorem escape_field (nonempty : content ≠ []) (between : Bytes) :
    escape (content ++ quote :: between) = escape (content ++ [quote]) := by
  unfold escape
  rw [List.head?_append_of_ne_nil _ nonempty, List.head?_append_of_ne_nil _ nonempty,
    codeUnit_field content between]
  by_cases long : 5 ≤ content.length
  · rw [List.drop_append_of_le_length long, List.drop_append_of_le_length long,
      lowSurrogate_field]
  · cases unit : codeUnit (content ++ [quote]) with
    | none => rfl
    | some n =>
      obtain ⟨-, outside⟩ := codeUnit_inside unit
      rw [List.take_of_length_le (by simp; omega)] at outside
      exact absurd rfl (outside quote (by simp)).1

/-- Bytes that are the whole body of a string between quotes. -/
def Body (content value : Bytes) : Prop := scan 0 (content ++ [quote]) = some (value, [])

theorem Body.of_plain (plain : Plain content) : Body content content := scan_plain plain []

theorem Scans.field {value : Bytes} (scans : Scans text value rest) (none : rest = [])
    (split : text = content ++ [quote]) (between : Bytes) :
    Scans (content ++ quote :: between) value between := by
  induction scans generalizing content with
  | ends rest =>
    cases content with
    | nil => exact .ends between
    | cons c content =>
      obtain ⟨rfl, rfl⟩ := List.cons.inj split
      simp at none
  | @escaped text value s rest n taken later ih =>
    cases content with
    | nil => exact absurd (List.cons.inj split).1 (by decide)
    | cons c content =>
      rw [List.cons_append] at split
      obtain ⟨rfl, rfl⟩ := List.cons.inj split
      have inside := escape_inside taken
      by_cases last : content = []
      · -- The escape takes the last quote, so no quote ends the string.
        subst last
        have takes := inside.takes
        rw [List.drop_eq_nil_of_le (by simp; omega)] at later
        cases later
      · have within := inside.within_field last
        have again := @ih (content.drop n) none (by rw [List.drop_append_of_le_length within])
        rw [← List.drop_append_of_le_length within] at again
        exact .escaped ((escape_field last between).trans taken) again
  | @plain b text s rest plain later ih =>
    cases content with
    | nil => exact absurd (List.cons.inj split).1 (plain b List.mem_cons_self).1
    | cons c content =>
      obtain ⟨rfl, rfl⟩ := List.cons.inj split
      exact .plain plain (ih none rfl)

theorem Body.scan {value : Bytes} (body : Body content value) (between : Bytes) :
    scan 0 (content ++ quote :: between) = some (value, between) :=
  ((scans_of_scan body).field rfl rfl between).scan

theorem Scans.visible (scans : Scans text s rest) :
    ∀ b ∈ text, b ∈ rest ∨ ¬ isControl b := by
  induction scans with
  | ends rest => exact List.forall_mem_cons.mpr ⟨.inr (by decide), fun b member => .inl member⟩
  | @escaped text value s rest n taken later ih =>
    rw [List.forall_mem_cons]
    refine ⟨.inr (by decide), fun b member => ?_⟩
    rw [← List.take_append_drop n text, List.mem_append] at member
    rcases member with inside | behind
    · exact .inr ((escape_inside taken).visible b inside)
    · exact ih b behind
  | plain plain later ih =>
    exact List.forall_mem_cons.mpr ⟨.inr (plain _ List.mem_cons_self).2.2, ih⟩

theorem Body.visible {value : Bytes} (body : Body content value) : ∀ b ∈ content, ¬ isControl b := by
  intro b member
  have seen := (scans_of_scan body).visible b (List.mem_append_left _ member)
  simpa using seen

-- The closing quote is taken only by a field that ends with a backslash, and then it does not
-- come back.
theorem field_plain {content' : Bytes} (suffix : content' <:+ content)
    (starts : ∃ b ∈ between.head?, b ≠ quote)
    (raw : backslash ∉ between.takeWhile (· ≠ quote))
    (found : scan 0 (content' ++ quote :: between) = some (content, rest)) :
    content' = content ∧ Plain content := by
  rcases (scans_of_scan found).passes rfl with short | ⟨same, plain⟩ | ⟨ends, more, scans, last⟩
  · exact absurd suffix.length_le (Nat.not_le.mpr short)
  · exact ⟨same.symm, same ▸ plain⟩
  · obtain ⟨split, plain⟩ := scan_raw raw scans.scan
    have nonempty : 0 < more.length := by
      rw [List.length_pos_iff]
      rintro rfl
      obtain ⟨b, head, other⟩ := starts
      rw [split] at head
      exact other (Option.some.inj head).symm
    have inside : [backslash] <:+ more :=
      List.suffix_of_suffix_length_le (ends.trans suffix) last nonempty
    exact absurd rfl (plain backslash (inside.subset List.mem_cons_self)).2.1

theorem not_inside {lead more : Bytes} (inside : content = lead ++ quote :: more)
    (starts : ∃ b ∈ between.head?, b ≠ quote)
    (raw : backslash ∉ between.takeWhile (· ≠ quote))
    (found : scan 0 (more ++ quote :: between) = some (content, rest)) : False := by
  have suffix : more <:+ content := ⟨lead ++ [quote], by simp [inside]⟩
  have same := (field_plain suffix starts raw found).1
  have longer := congrArg List.length inside
  rw [same] at longer
  simp at longer
  omega

theorem plain_of_suffix (resumes : Between between) {lead : Bytes}
    (split : content ++ quote :: between = lead ++ quote :: text)
    (found : scan 0 text = some (content, rest)) : Plain content := by
  rcases append_cons_split split with ⟨more, inside, rfl⟩ | ⟨-, rfl⟩ | ⟨more, rfl, -⟩
  · exact (not_inside inside resumes.starts resumes.raw_takeWhile found).elim
  · exact plain_of_raw resumes.raw found
  · exact plain_of_raw (fun member => resumes.raw (by simp [member])) found

theorem plain_of_occurs (clean : backslash ∉ before) (resumes : Between between)
    (occurs : Occurs (before ++ quote :: (content ++ quote :: between)) content rest) :
    Plain content := by
  obtain ⟨start, t, split, found⟩ := occurs
  rcases append_cons_split split with ⟨more, rfl, rfl⟩ | ⟨-, rfl⟩ | ⟨more, inside, -⟩
  · exact plain_of_raw_before (fun member => clean (by simp [member])) found
  · exact (field_plain (List.suffix_refl _) resumes.starts resumes.raw_takeWhile found).2
  · exact plain_of_suffix resumes inside found

theorem plain_of_occurs_cut (clean : backslash ∉ before) (cut : text.length ≤ content.length)
    (occurs : Occurs (before ++ quote :: text) content rest) : Plain content := by
  obtain ⟨start, t, split, found⟩ := occurs
  obtain ⟨raw, rfl, short⟩ := (scans_of_scan found).suffix
  rcases append_cons_split split with ⟨more, rfl, later⟩ | ⟨-, rfl⟩ | ⟨more, rfl, -⟩
  · rw [later] at found
    exact plain_of_raw_before (fun member => clean (by simp [member])) found
  · simp at cut
    omega
  · simp at cut
    omega

theorem raw_field (plain : Plain content) (resumes : Between between) :
    backslash ∉ content ++ quote :: between := by
  intro member
  rcases List.mem_append.mp member with inside | behind
  · exact (plain _ inside).2.1 rfl
  · exact (List.mem_cons.mp behind).elim (by decide) resumes.raw

theorem plain_of_occurs_two {content' between' rest' : Bytes} (clean : backslash ∉ before)
    (resumes : Between between) (resumes' : Between between')
    (first : Occurs (before ++ quote :: (content ++ quote :: (between ++ quote ::
      (content' ++ quote :: between')))) content rest)
    (second : Occurs rest content' rest') : Plain content ∧ Plain content' := by
  have plain : Plain content := by
    have starts : ∃ b ∈ (between ++ quote :: (content' ++ quote :: between')).head?, b ≠ quote := by
      obtain ⟨b, head, other⟩ := resumes.starts
      exact ⟨b, by simp [Option.mem_def.mp head], other⟩
    have raw := raw_takeWhile resumes.raw (content' ++ quote :: between')
    obtain ⟨start, t, split, found⟩ := first
    rcases append_cons_split split with ⟨more, rfl, rfl⟩ | ⟨-, rfl⟩ | ⟨more, behind, -⟩
    · exact plain_of_raw_before (fun member => clean (by simp [member])) found
    · exact (field_plain (List.suffix_refl _) starts raw found).2
    rcases append_cons_split behind with ⟨more', inside, rfl⟩ | ⟨-, rfl⟩ | ⟨more', later, -⟩
    · exact (not_inside inside starts raw found).elim
    · exact plain_of_raw_before resumes.raw found
    rcases append_cons_split later with ⟨lead, rfl, rfl⟩ | last
    · exact plain_of_raw_before (fun member => resumes.raw (by simp [member])) found
    -- The first field is read from the second one on, so the second one still follows it.
    have suffix : t <:+ content' ++ quote :: between' := by
      rcases last with ⟨-, rfl⟩ | ⟨lead, split, -⟩
      · exact List.suffix_refl _
      · exact split ▸ ⟨lead ++ [quote], by simp⟩
    have plain' : Plain content' := by
      obtain ⟨raw, rfl, -⟩ := (scans_of_scan found).suffix
      obtain ⟨start', t', rfl, found'⟩ := second
      obtain ⟨lead, whole⟩ := suffix
      have split : content' ++ quote :: between' = (lead ++ raw ++ quote :: start') ++ quote :: t' := by
        rw [← whole]
        simp
      exact plain_of_suffix resumes' split found'
    exact plain_of_raw (fun member => raw_field plain' resumes' (suffix.subset member)) found
  obtain ⟨lead, whole⟩ := first.suffix
  have again : Occurs ((before ++ quote :: (content ++ quote :: between)) ++ quote ::
      (content' ++ quote :: between')) content' rest' := by
    have lifted := second.append lead
    rw [whole] at lifted
    simpa using lifted
  have clean' : backslash ∉ before ++ quote :: (content ++ quote :: between) := by
    intro member
    rcases List.mem_append.mp member with inside | behind
    · exact clean inside
    · exact (List.mem_cons.mp behind).elim (by decide) (raw_field plain resumes)
  exact ⟨plain, plain_of_occurs clean' resumes' again⟩

end Fields

end VirtueSensing.JsonText
