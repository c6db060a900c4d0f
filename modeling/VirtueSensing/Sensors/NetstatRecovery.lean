import VirtueSensing.Sensors.Netstat

set_option autoImplicit false

/-!
# What comes back of a row

Columns that are words come back whatever the padding. The program is what stands behind the only
slash of the last bit.
-/

namespace VirtueSensing.Sensors.Netstat

open Bridge

section Bits

theorem lineBits_append (text rest : Text) :
    lineBits (text ++ ' ' :: rest) = lineBits text ++ lineBits rest := by
  rw [lineBits, List.splitOn_append_cons_self, List.filter_append, lineBits, lineBits]

theorem lineBits_word {text : Text} (some : text ≠ []) (bare : ' ' ∉ text) : lineBits text = [text] := by
  rw [lineBits, List.splitOn_eq_singleton bare]
  simp [some]

theorem lineBits_blanks (n : Nat) (rest : Text) :
    lineBits (List.replicate n ' ' ++ rest) = lineBits rest := by
  induction n with
  | zero => rfl
  | succ n ih =>
    have empty : lineBits [] = [] := rfl
    have blank := lineBits_append [] (List.replicate n ' ' ++ rest)
    rw [List.replicate_succ, List.cons_append]
    rwa [empty, List.nil_append, List.nil_append, ih] at blank

theorem lineBits_column {text : Text} (some : text ≠ []) (bare : ' ' ∉ text) (padding : Nat)
    (rest : Text) : lineBits (column text padding ++ rest) = text :: lineBits rest := by
  rw [column, List.replicate_succ, List.append_assoc, List.cons_append, lineBits_append,
    lineBits_word some bare, lineBits_blanks]
  rfl

theorem bare_of_mem_lineBits {text bit : Text} (member : bit ∈ lineBits text) : ' ' ∉ bit :=
  Lists.not_mem_of_mem_splitOn (List.mem_filter.mp member).1

theorem splitAddress_column {address port : Text} (bare : ':' ∉ port) :
    splitAddress (address ++ ':' :: port) = (address, port) := by
  rw [splitAddress, List.splitOn_append_cons_self, List.splitOn_eq_singleton bare]
  simp [List.getLastD_eq_getLast?]

theorem splitProgram_bare {pid prog : Text} (barePid : '/' ∉ pid) (bareProg : '/' ∉ prog) :
    splitProgram (pid ++ '/' :: prog) = .ok (pid, prog) := by
  rw [splitProgram, if_pos (by simp), List.splitOn_append_cons_self, List.splitOn_eq_singleton barePid,
    List.splitOn_eq_singleton bareProg]
  rfl

theorem splitProgram_ok {bit pid prog : Text} (split : splitProgram bit = .ok (pid, prog)) :
    '/' ∉ prog ∧ ∀ c ∈ prog, c ∈ bit := by
  unfold splitProgram at split
  split_ifs at split with slash
  · split at split
    · next first second parts =>
      obtain ⟨rfl, rfl⟩ := Prod.mk.inj (Except.ok.inj split)
      have member : second ∈ bit.splitOn '/' := by simp [parts]
      exact ⟨Lists.not_mem_of_mem_splitOn member, fun c inside => Lists.mem_of_mem_splitOn member inside⟩
    · cases split
  · obtain ⟨-, rfl⟩ := Prod.mk.inj (Except.ok.inj split)
    exact ⟨List.not_mem_nil, nofun⟩

theorem parseBits_ok {bits : List Text} {m : Message} (bare : ∀ bit ∈ bits, ' ' ∉ bit)
    (parsed : parseBits bits = .ok m) : ' ' ∉ m.program ∧ '/' ∉ m.program := by
  unfold parseBits at parsed
  split at parsed
  · next proto recvQ sendQ localBit remoteBit rest =>
    obtain ⟨⟨pid, program⟩, split, parsed⟩ := Except.of_bind_ok parsed
    obtain ⟨noSlash, inside⟩ := splitProgram_ok split
    have last : rest.getLastD remoteBit ∈ remoteBit :: rest := by
      rw [List.getLastD_eq_getLast?]
      cases found : rest.getLast? with
      | none => exact List.mem_cons_self
      | some bit => exact List.mem_cons_of_mem _ (List.mem_of_getLast? found)
    have noBlank := bare _ (List.mem_cons_of_mem _ (List.mem_cons_of_mem _
      (List.mem_cons_of_mem _ (List.mem_cons_of_mem _ last))))
    cases rest with
    | nil => cases parsed
    | cons state rest =>
      obtain rfl := Except.ok.inj parsed
      exact ⟨fun blank => noBlank (inside ' ' blank), noSlash⟩
  · cases parsed

theorem parseLine_ok {line : Bytes} {m : Message} (parsed : parseLine line = .ok m) :
    ' ' ∉ m.program ∧ '/' ∉ m.program := by
  unfold parseLine at parsed
  split at parsed
  · cases parsed
  · exact parseBits_ok (fun bit member => bare_of_mem_lineBits member) parsed

end Bits

section Words

theorem Word.bare (w : Word) {c : Char} (invisible : c.toNat ≤ 32) : c ∉ w.text := by
  intro member
  have visible := w.visible c member
  omega

theorem Word.plain (w : Word) : ∀ c ∈ w.text, isWhitespace c = false := by
  intro c member
  obtain ⟨low, high⟩ := w.visible c member
  have all : ∀ n : Fin 127, 33 ≤ n.val → decide (n.val ∈ whitespace) = false := by decide
  exact all ⟨c.toNat, by omega⟩ low

theorem Endpoint.shown_bare (e : Endpoint) (width : Nat) {c : Char} (invisible : c.toNat ≤ 32) :
    c ∉ e.shown width := by
  rw [Endpoint.shown, List.mem_append, List.mem_cons, not_or, not_or]
  refine ⟨fun member => e.address.bare invisible (List.mem_of_mem_take member), ?_,
    e.port.bare invisible⟩
  rintro rfl
  exact absurd invisible (by decide)

theorem Endpoint.shown_ne_nil (e : Endpoint) (width : Nat) : e.shown width ≠ [] := by
  simp [Endpoint.shown]

end Words

section Lines

variable (p : Printer) (r : Row)

theorem lineBits_front (rest : Text) :
    lineBits (p.front r ++ rest) =
      r.proto.text :: r.recvQ.text :: r.sendQ.text :: r.here.shown (p.hereWidth r) ::
        r.there.shown (p.thereWidth r) :: r.state.text :: lineBits rest := by
  have blank : ' '.toNat ≤ 32 := by decide
  simp only [Printer.front, List.append_assoc]
  rw [lineBits_column r.proto.some (r.proto.bare blank),
    lineBits_column r.recvQ.some (r.recvQ.bare blank),
    lineBits_column r.sendQ.some (r.sendQ.bare blank),
    lineBits_column (r.here.shown_ne_nil _) (r.here.shown_bare _ blank),
    lineBits_column (r.there.shown_ne_nil _) (r.there.shown_bare _ blank),
    lineBits_column r.state.some (r.state.bare blank)]

theorem rdropWhile_mark {p : Char → Bool} {mark : Char} (kept : p mark = false) (lead rest : Text) :
    (lead ++ mark :: rest).rdropWhile p = lead ++ mark :: rest.rdropWhile p := by
  induction rest using List.reverseRecOn with
  | nil => rw [List.rdropWhile_concat, kept, if_neg Bool.false_ne_true, List.rdropWhile_nil]
  | append_singleton rest c ih =>
    rw [← List.cons_append, ← List.append_assoc, List.rdropWhile_concat, List.rdropWhile_concat]
    split
    · exact ih
    · rw [List.append_assoc, List.cons_append]

theorem trail_blank : ∀ c ∈ p.trail r, isWhitespace c := by
  intro c member
  rcases List.mem_append.mp member with blank | newline
  · rw [List.eq_of_mem_replicate blank]
    decide
  · rw [List.mem_singleton.mp newline]
    decide

theorem strip_row {mark : Char} (kept : isWhitespace mark = false) (lead rest : Text) :
    strip (p.front r ++ ((lead ++ mark :: rest) ++ p.trail r)) =
      p.front r ++ (lead ++ mark :: rest.rdropWhile isWhitespace) := by
  obtain ⟨c, more, proto⟩ := List.exists_cons_of_ne_nil r.proto.some
  have first : isWhitespace c = false := r.proto.plain c (proto ▸ List.mem_cons_self)
  obtain ⟨behind, front⟩ : ∃ behind, p.front r = c :: behind := by
    rw [Printer.front, column, proto]
    exact ⟨_, rfl⟩
  have start : (p.front r ++ ((lead ++ mark :: rest) ++ p.trail r)).dropWhile isWhitespace =
      p.front r ++ ((lead ++ mark :: rest) ++ p.trail r) := by
    rw [front, List.cons_append, List.dropWhile_cons, first, if_neg Bool.false_ne_true]
  rw [strip, start, ← List.append_assoc, rdropWhile_append (trail_blank p r), ← List.append_assoc,
    rdropWhile_mark kept, List.append_assoc]

def Printer.message (pid program : Text) : Message :=
  ⟨r.proto.text, r.recvQ.text, r.sendQ.text, r.state.text, r.here.address.text.take (p.hereWidth r),
    r.here.port.text, r.there.address.text.take (p.thereWidth r), r.there.port.text, pid, program⟩

theorem parseLine_row {line : Bytes} {mark : Char} (kept : isWhitespace mark = false) {lead rest : Text}
    (printed : line = Utf8.encode (p.front r ++ ((lead ++ mark :: rest) ++ p.trail r)))
    (bare : ' ' ∉ lead ++ mark :: rest) :
    parseLine line =
      (splitProgram (lead ++ mark :: rest.rdropWhile isWhitespace)).map
        fun pair => p.message r pair.1 pair.2 := by
  have last : ' ' ∉ lead ++ mark :: rest.rdropWhile isWhitespace := by
    intro blank
    apply bare
    rcases List.mem_append.mp blank with inLead | inRest
    · exact List.mem_append_left _ inLead
    · refine List.mem_append_right _ ?_
      rcases List.mem_cons.mp inRest with here | later
      · exact here ▸ List.mem_cons_self
      · exact List.mem_cons_of_mem _ ((List.rdropWhile_prefix _ _).subset later)
  rw [parseLine, Utf8.decode_eq_some.mpr printed]
  simp only [strip_row p r kept, lineBits_front, lineBits_word (by simp) last, parseBits,
    List.getLastD_cons, List.getLastD_nil, Endpoint.shown, splitAddress_column r.here.bare,
    splitAddress_column r.there.bare]
  cases splitProgram (lead ++ mark :: rest.rdropWhile isWhitespace) with
  | error e => rfl
  | ok pair => rfl

end Lines

section Output

variable (p : Printer) (r : Row)

def Printer.body : Bytes :=
  Utf8.encode (p.front r) ++ (p.program r ++ Utf8.encode (List.replicate (p.padding r 6) ' '))

theorem print_eq : p.print r = p.body r ++ [10] := by
  have newline : Utf8.encode ['\n'] = [10] := rfl
  simp only [Printer.print, Printer.body, Printer.trail, Utf8.encode_append, newline, List.append_assoc]

theorem newline_not_mem_column {text : Text} (bare : '\n' ∉ text) (padding : Nat) :
    '\n' ∉ column text padding := by
  simp [column, bare]

theorem newline_not_mem_front : '\n' ∉ p.front r := by
  have newline : '\n'.toNat ≤ 32 := by decide
  simp only [Printer.front, List.mem_append, not_or]
  exact ⟨newline_not_mem_column (r.proto.bare newline) _, newline_not_mem_column (r.recvQ.bare newline) _,
    newline_not_mem_column (r.sendQ.bare newline) _,
    newline_not_mem_column (r.here.shown_bare _ newline) _,
    newline_not_mem_column (r.there.shown_bare _ newline) _,
    newline_not_mem_column (r.state.bare newline) _⟩

theorem parseLines_one {line : Bytes} {m : Message} :
    parseLines [line] = .ok [m] ↔ parseLine line = .ok m := by
  cases parsed : parseLine line with
  | error e => simp [parseLines, parsed, bind, Except.bind]
  | ok n => simp [parseLines, parsed, bind, Except.bind, pure, Except.pure]

theorem length_parseLines {lines : List Bytes} {ms : List Message} (parsed : parseLines lines = .ok ms) :
    ms.length = lines.length := by
  induction lines generalizing ms with
  | nil =>
    obtain rfl := Except.ok.inj parsed
    rfl
  | cons line lines ih =>
    obtain ⟨m, -, parsed⟩ := Except.of_bind_ok parsed
    obtain ⟨rest, later, parsed⟩ := Except.of_bind_ok parsed
    obtain rfl := Except.ok.inj parsed
    rw [List.length_cons, List.length_cons, ih later]

theorem readlines_ne_nil {bytes : Bytes} (some : bytes ≠ []) : readlines bytes ≠ [] := by
  cases bytes with
  | nil => exact absurd rfl some
  | cons b rest =>
    rw [readlines]
    split
    · exact List.cons_ne_nil _ _
    · split <;> exact List.cons_ne_nil _ _

/-- A row comes back from one line, which its name must not break. -/
theorem recovers_iff :
    Recovers r (parseOutput (p.print r)) ↔
      10 ∉ p.program r ∧ ∃ m, parseLine (p.print r) = .ok m ∧ m.Shows r := by
  by_cases broken : 10 ∈ p.program r
  · refine iff_of_false ?_ fun both => both.1 broken
    rintro ⟨m, parsed, -⟩
    obtain ⟨before, behind, split, bare⟩ := List.eq_append_cons_of_mem broken
    have line : p.print r = (Utf8.encode (p.front r) ++ before) ++ 10 ::
        (behind ++ Utf8.encode (p.trail r)) := by
      simp only [Printer.print, split, List.append_assoc, List.cons_append]
    have bareLine : 10 ∉ Utf8.encode (p.front r) ++ before := by
      rw [List.mem_append, not_or]
      exact ⟨newline_not_mem_encode (newline_not_mem_front p r), bare⟩
    have more : readlines (behind ++ Utf8.encode (p.trail r)) ≠ [] := by
      apply readlines_ne_nil
      simp [Printer.trail, Utf8.encode]
    have lengths := length_parseLines parsed
    rw [line, readlines_line bareLine, List.length_cons, List.length_cons, List.length_nil] at lengths
    exact more (List.length_eq_zero_iff.mp (by omega))
  · have bare : 10 ∉ p.body r := by
      simp only [Printer.body, List.mem_append, not_or]
      refine ⟨newline_not_mem_encode (newline_not_mem_front p r), broken, newline_not_mem_encode ?_⟩
      simp
    have line : readlines (p.print r) = [p.print r] := by
      rw [print_eq, readlines_line bare]
      rfl
    simp only [Recovers, parseOutput, line, parseLines_one, broken, not_false_eq_true, true_and]

theorem length_le_of_take {α : Type} {text : List α} {width : Nat} (whole : text.take width = text) :
    text.length ≤ width := by
  have lengths := congrArg List.length whole
  rw [List.length_take] at lengths
  omega

theorem message_shows_iff (pid program : Text) :
    (p.message r pid program).Shows r ↔
      r.here.address.text.length ≤ p.hereWidth r ∧ r.there.address.text.length ≤ p.thereWidth r ∧
        (match r.owner with
          | none => pid = [] ∧ program = []
          | some owner => pid = owner.pid.text ∧ Utf8.encode program = owner.name) := by
  constructor
  · intro shows
    exact ⟨length_le_of_take shows.here.1, length_le_of_take shows.there.1, shows.owner⟩
  · rintro ⟨here, there, owner⟩
    exact ⟨rfl, rfl, rfl, rfl, ⟨List.take_of_length_le here, rfl⟩, ⟨List.take_of_length_le there, rfl⟩,
      owner⟩

end Output

section Names

variable (p : Printer) (r : Row)

theorem program_owner {owner : Owner} (owned : r.owner = some owner) :
    p.program r = Utf8.encode owner.pid.text ++ 47 :: owner.name.take (p.nameWidth r) := by
  rw [Printer.program, owned]

theorem program_unowned (unowned : r.owner = none) : p.program r = ascii "-" := by
  rw [Printer.program, unowned]

theorem encode_prefix {text start : Text} (begins : start <+: text) :
    (Utf8.encode start).length ≤ (Utf8.encode text).length ∧
      ((Utf8.encode start).length = (Utf8.encode text).length → start = text) := by
  obtain ⟨more, rfl⟩ := begins
  have sized := (Utf8.length_encode more).1
  rw [Utf8.encode_append, List.length_append]
  refine ⟨by omega, fun same => ?_⟩
  have none : more = [] := List.length_eq_zero_iff.mp (by omega)
  rw [none, List.append_nil]

theorem trail_starts : ∃ b rest, Utf8.encode (p.trail r) = b :: rest ∧ b < 0x80 := by
  unfold Printer.trail
  cases p.padding r 6 with
  | zero => exact ⟨10, [], rfl, by decide⟩
  | succ padding => exact ⟨32, _, rfl, by decide⟩

theorem decoded_name {owner : Owner} (owned : r.owner = some owner) {m : Message}
    (parsed : parseLine (p.print r) = .ok m) :
    ∃ text, Utf8.encode text = owner.name.take (p.nameWidth r) := by
  obtain ⟨whole, decoded⟩ : ∃ whole, Utf8.decode (p.print r) = some whole := by
    cases decoded : Utf8.decode (p.print r) with
    | none => rw [parseLine, decoded] at parsed; cases parsed
    | some whole => exact ⟨whole, rfl⟩
  have encoded := (Utf8.decode_eq_some.mp decoded).symm
  rw [Printer.print, program_owner p r owned] at encoded
  simp only [List.append_assoc, List.cons_append] at encoded
  rw [← List.append_assoc] at encoded
  obtain ⟨-, -, behind, -, -, name⟩ := Utf8.encode_split (by decide) encoded
  obtain ⟨b, rest, trail, ascii⟩ := trail_starts p r
  rw [trail] at name
  obtain ⟨text, -, -, -, shown, -⟩ := Utf8.encode_split ascii name
  exact ⟨text, shown⟩

theorem parseLine_owner {owner : Owner} (owned : r.owner = some owner) {text : Text}
    (shown : Utf8.encode text = owner.name.take (p.nameWidth r)) (noBlank : ' ' ∉ text)
    (noSlash : '/' ∉ text) :
    parseLine (p.print r) = .ok (p.message r owner.pid.text (text.rdropWhile isWhitespace)) := by
  have slash : Utf8.encode ('/' :: text) = 47 :: Utf8.encode text := rfl
  have printed : p.print r =
      Utf8.encode (p.front r ++ ((owner.pid.text ++ '/' :: text) ++ p.trail r)) := by
    rw [Printer.print, program_owner p r owned, ← shown, ← slash]
    simp only [Utf8.encode_append]
  have bare : ' ' ∉ owner.pid.text ++ '/' :: text := by
    rw [List.mem_append, List.mem_cons, not_or, not_or]
    exact ⟨owner.pid.bare (by decide), by decide, noBlank⟩
  have noSlash : '/' ∉ text.rdropWhile isWhitespace :=
    fun member => noSlash ((List.rdropWhile_prefix _ _).subset member)
  rw [parseLine_row p r (by decide) printed bare, splitProgram_bare owner.bare noSlash]
  rfl

theorem parseLine_unowned (unowned : r.owner = none) :
    parseLine (p.print r) = .ok (p.message r [] []) := by
  have printed : p.print r = Utf8.encode (p.front r ++ (([] ++ '-' :: []) ++ p.trail r)) := by
    have dash : Utf8.encode ['-'] = ascii "-" := rfl
    rw [Printer.print, program_unowned p r unowned, List.nil_append]
    simp only [Utf8.encode_append, dash]
  rw [parseLine_row p r (by decide) printed (by decide)]
  rfl

theorem recovers_owner_iff {owner : Owner} (owned : r.owner = some owner) :
    Recovers r (parseOutput (p.print r)) ↔
      r.here.address.text.length ≤ p.hereWidth r ∧ r.there.address.text.length ≤ p.thereWidth r ∧
        owner.name.length ≤ p.nameWidth r ∧ PlainName owner.name := by
  have newline : '\n'.toNat ≤ 32 := by decide
  have noNewline : 10 ∉ p.program r ↔ 10 ∉ owner.name.take (p.nameWidth r) := by
    have bare := newline_not_mem_encode (owner.pid.bare newline)
    simp [program_owner p r owned, bare]
  rw [recovers_iff, noNewline]
  constructor
  · rintro ⟨unbroken, m, parsed, shows⟩
    obtain ⟨text, shown⟩ := decoded_name p r owned parsed
    have name : Utf8.encode m.program = owner.name := by
      have both := shows.owner
      rw [owned] at both
      exact both.2
    have bare {c : Char} {b : UInt8} (ascii : b < 0x80) (value : c.toNat = b.toNat)
        (absent : c ∉ m.program) : c ∉ text := by
      rw [← Utf8.mem_encode_iff ascii value] at absent ⊢
      rw [name] at absent
      rw [shown]
      exact fun member => absent (List.mem_of_mem_take member)
    have noBlank := @bare ' ' 32 (by decide) rfl (parseLine_ok parsed).1
    have noSlash := @bare '/' 47 (by decide) rfl (parseLine_ok parsed).2
    rw [parseLine_owner p r owned shown noBlank noSlash] at parsed
    obtain rfl := Except.ok.inj parsed
    obtain ⟨here, there, -⟩ := (message_shows_iff p r _ _).mp shows
    have name : Utf8.encode (text.rdropWhile isWhitespace) = owner.name := name
    -- What was read is no longer than what was shown, and that no longer than the name.
    have stripped := encode_prefix (List.rdropWhile_prefix isWhitespace text)
    have cut := List.length_take_le' (p.nameWidth r) owner.name
    rw [← shown, ← name] at cut
    have whole := stripped.2 (Nat.le_antisymm stripped.1 cut)
    rw [whole] at name
    refine ⟨here, there, length_le_of_take (shown.symm.trans name), text, name,
      ⟨noBlank, noSlash, ?_⟩, whole⟩
    rwa [← Utf8.mem_encode_iff (show (10 : UInt8) < 0x80 by decide) (by decide), shown]
  · rintro ⟨here, there, wide, text, name, ⟨noBlank, noSlash, noBreak⟩, whole⟩
    have shown : Utf8.encode text = owner.name.take (p.nameWidth r) := by
      rw [name, List.take_of_length_le wide]
    refine ⟨?_, _, parseLine_owner p r owned shown noBlank noSlash, ?_⟩
    · rw [← shown]
      exact newline_not_mem_encode noBreak
    · rw [message_shows_iff, owned, whole]
      exact ⟨here, there, rfl, name⟩

theorem recovers_unowned_iff (unowned : r.owner = none) :
    Recovers r (parseOutput (p.print r)) ↔
      r.here.address.text.length ≤ p.hereWidth r ∧ r.there.address.text.length ≤ p.thereWidth r := by
  have unbroken : 10 ∉ p.program r := by
    rw [program_unowned p r unowned]
    decide
  rw [recovers_iff, parseLine_unowned p r unowned]
  simp [unbroken, message_shows_iff, unowned]

end Names

/-- A row comes back exactly if nothing of it is cut off and the name of its program is UTF-8 without
a blank, a slash and a newline, and does not end in what `strip` takes away. -/
theorem row_recovered_iff (p : Printer) (r : Row) :
    Recovers r (parseOutput (p.print r)) ↔
      p.ShowsAll r ∧ ∀ owner ∈ r.owner, PlainName owner.name := by
  cases owned : r.owner with
  | none =>
    rw [recovers_unowned_iff p r owned]
    constructor
    · exact fun both => ⟨⟨both.1, both.2, by simp [owned]⟩, by simp⟩
    · exact fun all => ⟨all.1.here, all.1.there⟩
  | some owner =>
    rw [recovers_owner_iff p r owned]
    constructor
    · rintro ⟨here, there, wide, plain⟩
      exact ⟨⟨here, there, by simpa [owned] using wide⟩, by simpa using plain⟩
    · rintro ⟨all, plain⟩
      exact ⟨all.here, all.there, all.name owner owned, plain owner rfl⟩

-- Columns of a fixed width, nothing of which is cut off.
def fullColumns : Printer := ⟨fun _ _ => 5, fun _ => 100, fun _ => 100, fun _ => 100⟩

def word (c : Char) (more : Text)
    (visible : (c :: more).all fun c => 33 ≤ c.toNat && c.toNat ≤ 126) : Word :=
  ⟨c :: more, List.cons_ne_nil c more, by simpa using visible⟩

def nginxRow (name : Bytes) : Row where
  proto := word 't' ['c', 'p', '6'] rfl
  recvQ := word '0' [] rfl
  sendQ := word '0' [] rfl
  here := ⟨word ':' [':'] rfl, word '8' ['0'] rfl, by decide⟩
  there := ⟨word ':' [':'] rfl, word '*' [] rfl, by decide⟩
  state := word 'L' ['I', 'S', 'T', 'E', 'N'] rfl
  owner := some ⟨word '1' ['2'] rfl, by decide, name⟩

theorem spaced_name_lost :
    ¬ Recovers (nginxRow (ascii "nginx: master"))
        (parseOutput (fullColumns.print (nginxRow (ascii "nginx: master")))) ∧
      parseOutput (fullColumns.print (nginxRow (ascii "a/b"))) = .error .valueError := by
  have lost : parseOutput (fullColumns.print (nginxRow (ascii "nginx: master"))) =
      .ok [fullColumns.message (nginxRow (ascii "nginx: master")) [] []] := by
    decide +kernel
  refine ⟨?_, by decide +kernel⟩
  rintro ⟨m, parsed, shows⟩
  obtain rfl := List.singleton_inj.mp (Except.ok.inj (lost.symm.trans parsed))
  have owner : ([] : Text) = ['1', '2'] := shows.owner.1
  cases owner

end VirtueSensing.Sensors.Netstat
