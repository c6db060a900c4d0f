import Mathlib.Algebra.GroupWithZero.Nat
import VirtueSensing.Bridge.Connection

set_option autoImplicit false

/-!
# Printed documents

A document that is printed over several lines is enqueued with its last one: the lines before it are no
document, and a joint of two lines changes no token.
-/

namespace VirtueSensing.Bridge

open JsonText

section Strip

variable {text : List Char} {ts : List Token}

theorem isWhitespace_bytes {c : Char} (blank : isWhitespace c) :
    (∃ b, String.utf8EncodeChar c = [b] ∧ isSpace b) ∨
      ∀ b ∈ String.utf8EncodeChar c, isSpace b = false ∧ isEdge b = false := by
  have all : ∀ n ∈ whitespace,
      ((String.utf8EncodeChar (Char.ofNat n)).length = 1 ∧
          ∀ b ∈ String.utf8EncodeChar (Char.ofNat n), isSpace b) ∨
        ∀ b ∈ String.utf8EncodeChar (Char.ofNat n), isSpace b = false ∧ isEdge b = false := by
    decide
  have here := all c.toNat (by simpa [isWhitespace] using blank)
  rw [Char.ofNat_toNat] at here
  refine here.imp_left fun ⟨single, space⟩ => ?_
  obtain ⟨b, bytes⟩ := List.length_eq_one_iff.mp single
  exact ⟨b, bytes, space b (by simp [bytes])⟩

theorem utf8EncodeChar_ne_nil (c : Char) : String.utf8EncodeChar c ≠ [] := by
  rw [← List.length_pos_iff, String.length_utf8EncodeChar]
  exact c.utf8Size_pos

theorem encode_cons (c : Char) (text : List Char) :
    Utf8.encode (c :: text) = String.utf8EncodeChar c ++ Utf8.encode text := List.flatMap_cons

theorem encode_append (first rest : List Char) :
    Utf8.encode (first ++ rest) = Utf8.encode first ++ Utf8.encode rest := List.flatMap_append

theorem spells_of_cons {c : Char} (blank : isWhitespace c)
    (spells : Spells true (Utf8.encode (c :: text)) ts) : Spells true (Utf8.encode text) ts := by
  rw [encode_cons] at spells
  rcases isWhitespace_bytes blank with ⟨b, bytes, space⟩ | foreign
  · rw [bytes] at spells
    exact spells.of_space space
  · obtain ⟨b, more, bytes⟩ := List.exists_cons_of_ne_nil (utf8EncodeChar_ne_nil c)
    obtain ⟨unspaced, inner⟩ := foreign b (by simp [bytes])
    rw [bytes] at spells
    rcases spells.cons_cases rfl with ⟨space, -⟩ | edge
    · simp [unspaced] at space
    · simp [inner] at edge

theorem spells_of_snoc {c : Char} (blank : isWhitespace c)
    (spells : Spells true (Utf8.encode (text ++ [c])) ts) : Spells true (Utf8.encode text) ts := by
  rw [encode_append, encode_cons, show Utf8.encode [] = [] from rfl, List.append_nil] at spells
  rcases isWhitespace_bytes blank with ⟨b, bytes, space⟩ | foreign
  · rw [bytes] at spells
    exact spells.of_snoc_space space
  · obtain ⟨front, b, bytes⟩ : ∃ front b, String.utf8EncodeChar c = front ++ [b] :=
      ⟨_, _, (List.dropLast_append_getLast (utf8EncodeChar_ne_nil c)).symm⟩
    obtain ⟨unspaced, inner⟩ := foreign b (by simp [bytes])
    rw [bytes, ← List.append_assoc] at spells
    rcases spells.snoc_cases rfl with ⟨space, -⟩ | edge
    · simp [unspaced] at space
    · simp [inner] at edge

theorem spells_strip (spells : Spells true (Utf8.encode text) ts) :
    Spells true (Utf8.encode (strip text)) ts := by
  have front : Spells true (Utf8.encode (text.dropWhile isWhitespace)) ts := by
    induction text with
    | nil => exact spells
    | cons c text ih =>
      rw [List.dropWhile_cons]
      split
      · exact ih (spells_of_cons ‹_› spells)
      · exact spells
  rw [strip]
  generalize text.dropWhile isWhitespace = text at front
  induction text using List.reverseRecOn with
  | nil => exact front
  | append_singleton text c ih =>
    rw [List.rdropWhile_concat]
    split
    · exact ih (spells_of_snoc ‹_› front)
    · exact front

theorem rdropWhile_append {p : Char → Bool} {trail : List Char} (all : ∀ c ∈ trail, p c) (text : List Char) :
    (text ++ trail).rdropWhile p = text.rdropWhile p := by
  induction trail using List.reverseRecOn with
  | nil => rw [List.append_nil]
  | append_singleton trail c ih =>
    rw [← List.append_assoc, List.rdropWhile_concat, if_pos (all c (by simp))]
    exact ih fun d member => all d (List.mem_append_left _ member)

-- Indentation in front of a line and blanks behind it do not count.
theorem strip_line {indent trail : List Char} (before : ∀ c ∈ indent, isWhitespace c)
    (behind : ∀ c ∈ trail, isWhitespace c) : strip (indent ++ text ++ trail) = strip text := by
  unfold strip
  rw [List.append_assoc, List.dropWhile_append_of_pos before, List.dropWhile_append]
  split
  · rename_i empty
    rw [List.isEmpty_iff.mp empty, List.dropWhile_eq_nil_iff.mpr behind]
  · exact rdropWhile_append behind _

end Strip

theorem loads_of_spells {body : List Char} {ts : List Token} (spells : Spells true (Utf8.encode body) ts) :
    loads body = build [] .value ts := spells.parse

theorem isWhitespace_of_spaces {text : List Char} (spaces : ∀ b ∈ Utf8.encode text, isSpace b) :
    ∀ c ∈ text, isWhitespace c := by
  intro c member
  obtain ⟨b, more, bytes⟩ := List.exists_cons_of_ne_nil (utf8EncodeChar_ne_nil c)
  have space := spaces b (List.mem_flatMap.mpr ⟨c, member, by simp [bytes]⟩)
  simp only [isSpace, decide_eq_true_eq] at space
  have value (ascii : b < 0x80) : c.toNat = b.toNat :=
    (Utf8.encode_of_ascii_mem ascii (by simp [bytes])).2
  rcases space with rfl | rfl | rfl | rfl
  all_goals
    have same := value (by decide)
    simp [isWhitespace, same, whitespace]

theorem strip_nil_of_spells {text : List Char} (spells : Spells true (Utf8.encode text) []) :
    strip text = [] := by
  rw [strip, List.dropWhile_eq_nil_iff.mpr (isWhitespace_of_spaces spells.all_space), List.rdropWhile_nil]

def lineBytes (text : List Char) : Bytes := Utf8.encode text ++ [10]

structure PrintedLine where
  indent : List Char
  text : List Char
  blank : ∀ c ∈ indent, isWhitespace c
  bare : '\n' ∉ indent ++ text

structure BlankLine where
  text : List Char
  blank : ∀ c ∈ text, isWhitespace c
  bare : '\n' ∉ text

namespace PrintedLine

def line (l : PrintedLine) : List Char := l.indent ++ l.text

def bytes (l : PrintedLine) : Bytes := lineBytes l.line

end PrintedLine

def BlankLine.bytes (l : BlankLine) : Bytes := lineBytes l.text

def IsNonempty : Json → Prop
  | .array items => items ≠ []
  | .object members => members ≠ []
  | .scalar _ | .string _ => False

def joined (lines : List PrintedLine) : List Char := lines.flatMap fun l => l.text ++ ['\n']

/-- A JSON text, printed over several lines, with the blank lines in front of it. -/
structure Document where
  blanks : List BlankLine
  lines : List PrintedLine
  value : Json
  reads : loads (joined lines) = some value
  nonempty : IsNonempty value
  short : (lines.map fun l => (strip l.line).length).sum ≤ 8192

def Document.bytes (d : Document) : List Bytes := d.blanks.map BlankLine.bytes ++ d.lines.map PrintedLine.bytes

def printed (documents : List Document) (behind : List BlankLine) : List Bytes :=
  documents.flatMap Document.bytes ++ behind.map BlankLine.bytes

theorem turn_line (body text : List Char) : turn none body (lineBytes text) =
    match loads (body ++ strip text) with
    | some msg => if truthy msg then .enqueued msg else .closed
    | none => .kept (if (body ++ strip text).length > 8192 then [] else body ++ strip text) := by
  have decoded : Utf8.decode (Utf8.encode text ++ [10]) = some (text ++ ['\n']) := by
    rw [Utf8.decode_eq_some, encode_append]
    rfl
  have stripped : strip (text ++ ['\n']) = strip text :=
    @strip_line text [] ['\n'] nofun (List.forall_mem_singleton.mpr rfl)
  cases loaded : loads (body ++ strip text) with
  | none => simp [turn, lineBytes, decodeLine, decoded, stripped, loaded]
  | some msg => simp [turn, lineBytes, decodeLine, decoded, stripped, loaded]

theorem newline_not_mem_encode {text : List Char} (bare : '\n' ∉ text) : 10 ∉ Utf8.encode text :=
  fun member => bare ((Utf8.mem_encode_iff (by decide) rfl).mp member)

theorem readlines_line {body : Bytes} (bare : 10 ∉ body) (rest : Bytes) :
    readlines (body ++ 10 :: rest) = (body ++ [10]) :: readlines rest := by
  induction body with
  | nil => simp [readlines]
  | cons b body ih =>
    rw [List.mem_cons, not_or] at bare
    rw [List.cons_append, readlines, if_neg (Ne.symm bare.1), ih bare.2]
    rfl

theorem readlines_flatten {lines : List Bytes} (all : ∀ line ∈ lines, IsLine 10 line) :
    readlines lines.flatten = lines := by
  induction lines with
  | nil => rfl
  | cons line lines ih =>
    obtain ⟨body, bare, rfl⟩ := all line List.mem_cons_self
    rw [List.flatten_cons, List.append_assoc, List.singleton_append, readlines_line bare,
      ih fun other member => all other (List.mem_cons_of_mem _ member)]

theorem truthy_of_nonempty {value : Json} (nonempty : IsNonempty value) : truthy value := by
  cases value with
  | array items => simpa [truthy, IsNonempty] using nonempty
  | object members => simpa [truthy, IsNonempty] using nonempty
  | scalar | string => cases nonempty

theorem PrintedLine.strip_eq (l : PrintedLine) : strip l.line = strip l.text := by
  have same := @strip_line l.text l.indent [] l.blank nofun
  rwa [List.append_nil] at same

theorem spells_lines {lines : List PrintedLine} {ts : List Token}
    (spells : Spells true (Utf8.encode (joined lines)) ts) :
    ∃ tss, List.Forall₂ (fun l us => Spells true (Utf8.encode l.text) us) lines tss ∧
      ts = tss.flatten := by
  induction lines generalizing ts with
  | nil =>
    obtain rfl := Option.some.inj spells.lex
    exact ⟨[], .nil, rfl⟩
  | cons l lines ih =>
    have shape : Utf8.encode (joined (l :: lines)) = Utf8.encode l.text ++ 10 :: Utf8.encode (joined lines) := by
      rw [joined, List.flatMap_cons, List.append_assoc, encode_append]
      rfl
    obtain ⟨us, vs, rfl, first, second⟩ := spells.cut shape
    obtain ⟨tss, each, rfl⟩ := ih second
    exact ⟨us :: tss, .cons first each, rfl⟩

theorem receive_empty {α : Type} {text : α → List Char} {lines : List α}
    (empty : ∀ l ∈ lines, strip (text l) = []) (rest : List Bytes) :
    receive none [] (lines.map (fun l => lineBytes (text l)) ++ rest) = receive none [] rest := by
  induction lines with
  | nil => rfl
  | cons l lines ih =>
    have kept : turn none [] (lineBytes (text l)) = .kept [] := by
      rw [turn_line, empty l List.mem_cons_self]
      rfl
    rw [List.map_cons, List.cons_append, receive, kept]
    exact ih fun other member => empty other (List.mem_cons_of_mem _ member)

theorem BlankLine.strip_text (l : BlankLine) : strip l.text = [] := by
  rw [strip, List.dropWhile_eq_nil_iff.mpr l.blank, List.rdropWhile_nil]

theorem strip_of_no_tokens {lines : List PrintedLine} {tss : List (List Token)}
    (each : List.Forall₂ (fun l us => Spells true (Utf8.encode l.text) us) lines tss)
    (none : tss.flatten = []) : ∀ l ∈ lines, strip l.line = [] := by
  induction each with
  | nil => exact nofun
  | @cons l us lines tss here later ih =>
    rw [List.flatten_cons, List.append_eq_nil_iff] at none
    obtain ⟨rfl, rest⟩ := none
    exact List.forall_mem_cons.mpr ⟨l.strip_eq.trans (strip_nil_of_spells here), ih rest⟩

/-- The lines that are left of a document complete it, and what is kept so far does not. -/
theorem receive_lines {lines : List PrintedLine} {tss : List (List Token)}
    (each : List.Forall₂ (fun l us => Spells true (Utf8.encode l.text) us) lines tss)
    {body : List Char} {ts : List Token} (spells : Spells true (Utf8.encode body) ts) {value : Json}
    (built : build [] .value (ts ++ tss.flatten) = some value) (full : truthy value)
    (short : body.length + (lines.map fun l => (strip l.line).length).sum ≤ 8192)
    (more : tss.flatten ≠ []) (rest : List Bytes) :
    receive none body (lines.map PrintedLine.bytes ++ rest) =
      (value :: (receive none [] rest).1, (receive none [] rest).2) := by
  induction each generalizing body ts with
  | nil => exact absurd rfl more
  | @cons l us lines tss here later ih =>
    rw [List.map_cons, List.sum_cons] at short
    rw [List.flatten_cons, ← List.append_assoc] at built
    have apart : Apart (ts ++ us) := (List.isChain_append.mp (build_apart built)).1
    have grown : Spells true (Utf8.encode (body ++ strip l.line)) (ts ++ us) := by
      rw [encode_append, l.strip_eq]
      exact spells.append (spells_strip here) apart
    have turned : turn none body l.bytes = _ := turn_line body l.line
    rw [loads_of_spells grown] at turned
    rw [List.map_cons, List.cons_append, receive, turned]
    by_cases last : tss.flatten = []
    · rw [last, List.append_nil] at built
      rw [built]
      dsimp only
      rw [if_pos full]
      have empty : ∀ l ∈ lines, strip l.line = [] := strip_of_no_tokens later last
      exact congrArg (fun r => (value :: r.1, r.2)) (receive_empty empty rest)
    · have none : build [] .value (ts ++ us) = none := by
        rw [Option.eq_none_iff_forall_ne_some]
        exact fun u whole => last (build_ends whole built)
      have fits : ¬ (body ++ strip l.line).length > 8192 := by
        rw [List.length_append]
        omega
      rw [none]
      dsimp only
      rw [if_neg fits]
      exact ih grown built (by rw [List.length_append]; omega) last

theorem receive_blanks (blanks : List BlankLine) (rest : List Bytes) :
    receive none [] (blanks.map BlankLine.bytes ++ rest) = receive none [] rest :=
  receive_empty (fun l _ => l.strip_text) rest

theorem receive_document (d : Document) (rest : List Bytes) :
    receive none [] (d.bytes ++ rest) = (d.value :: (receive none [] rest).1, (receive none [] rest).2) := by
  obtain ⟨ts, spells, built⟩ := spells_of_parse d.reads
  obtain ⟨tss, each, rfl⟩ := spells_lines spells
  have more : tss.flatten ≠ [] := by
    intro none
    rw [none] at built
    cases built
  rw [Document.bytes, List.append_assoc, receive_blanks]
  exact receive_lines each .nil built (truthy_of_nonempty d.nonempty)
    (by simpa using d.short) more rest

theorem receive_documents (documents : List Document) (behind : List BlankLine) :
    receive none [] (printed documents behind) = (documents.map Document.value, true) := by
  unfold printed
  induction documents with
  | nil =>
    rw [List.flatMap_nil, List.nil_append, ← List.append_nil (behind.map _), receive_blanks]
    rfl
  | cons d documents ih =>
    rw [List.flatMap_cons, List.append_assoc, receive_document, ih]
    rfl

theorem printed_isLine (documents : List Document) (behind : List BlankLine) :
    ∀ line ∈ printed documents behind, IsLine 10 line := by
  have isLine {text : List Char} (bare : '\n' ∉ text) : IsLine 10 (lineBytes text) :=
    ⟨Utf8.encode text, newline_not_mem_encode bare, rfl⟩
  have blanks (lines : List BlankLine) : ∀ line ∈ lines.map BlankLine.bytes, IsLine 10 line :=
    List.forall_mem_map.mpr fun l _ => isLine l.bare
  rw [printed, List.forall_mem_append]
  refine ⟨?_, blanks behind⟩
  intro line member
  obtain ⟨d, -, inside⟩ := List.mem_flatMap.mp member
  rcases List.mem_append.mp inside with blank | text
  · exact blanks d.blanks line blank
  · obtain ⟨l, -, rfl⟩ := List.mem_map.mp text
    exact isLine l.bare

/-- Every document is enqueued, in order, and then the end of the stream. -/
theorem documents_enqueued (documents : List Document) (behind : List BlankLine) :
    handleConnectionCurio (printed documents behind).flatten =
      documents.map (fun d => some d.value) ++ [none] := by
  rw [handleConnectionCurio, readlines_flatten (printed_isLine documents behind),
    messages_eq_receive, receive_documents]
  simp

-- An array over two lines, behind a blank one.
example : Document where
  blanks := [⟨[' '], List.forall_mem_singleton.mpr rfl, by decide⟩]
  lines := [⟨[], ['[', '1', ','], List.forall_mem_nil _, by decide⟩,
    ⟨[' '], ['2', ']'], List.forall_mem_singleton.mpr rfl, by decide⟩]
  value := .array [.scalar (.int 1), .scalar (.int 2)]
  reads := rfl
  nonempty := List.cons_ne_nil _ _
  short := by decide

end VirtueSensing.Bridge
