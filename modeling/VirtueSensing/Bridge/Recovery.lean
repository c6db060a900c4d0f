import VirtueSensing.Bridge.Documents
import VirtueSensing.Shared.JsonSuffix

set_option autoImplicit false

/-!
# Lines that are no documents

A document may run over several lines, so a line that completes none is kept, and the document on a line
behind it is lost. What is kept is dropped as soon as it has more than 8192 characters.
-/

namespace VirtueSensing.Bridge

open JsonText

section Keeping

variable (limit : Option Nat)

/-- What is kept behind some lines, as long as the connection is read. -/
def keeps : List Char → List Bytes → Option (List Char)
  | body, [] => some body
  | body, line :: rest =>
    match turn limit body line with
    | .raised | .closed => none
    | .enqueued _ => keeps [] rest
    | .kept body => keeps body rest

def document (line : Bytes) : Option Json := (decodeLine limit line).bind loads

def added (line : Bytes) : Nat := ((decodeLine limit line).map fun text => (strip text).length).getD 0

structure Kept (body : List Char) : Prop where
  short : body.length ≤ 8192
  starts : ∀ c ∈ body.head?, isWhitespace c = false

theorem Kept.nil : Kept [] := ⟨Nat.zero_le _, nofun⟩

variable {limit} {body body' kept text : List Char} {line : Bytes} {lines before after : List Bytes} {msg : Json}

theorem strip_starts (text : List Char) : ∀ c ∈ (strip text).head?, isWhitespace c = false := by
  intro c head
  obtain ⟨rest, same⟩ := List.rdropWhile_prefix isWhitespace (l := text.dropWhile isWhitespace)
  have first := List.head?_dropWhile_not isWhitespace text
  rw [← same, show (text.dropWhile isWhitespace).rdropWhile isWhitespace = strip text from rfl,
    List.head?_append, head] at first
  exact first

theorem turn_kept (isKept : Kept body) (turned : turn limit body line = .kept body') : Kept body' := by
  unfold turn at turned
  split at turned
  · cases turned
  · rename_i text decoded
    split at turned
    · split at turned <;> cases turned
    · cases turned
      split
      · exact .nil
      · rename_i short
        refine ⟨Nat.le_of_not_lt short, ?_⟩
        cases body with
        | nil => exact strip_starts text
        | cons c body => exact isKept.starts

theorem turn_grows (turned : turn limit body line = .kept body') (more : body' ≠ []) :
    body'.length = body.length + added limit line := by
  unfold turn at turned
  split at turned
  · cases turned
  · rename_i text decoded
    split at turned
    · split at turned <;> cases turned
    · cases turned
      split at more
      · exact absurd rfl more
      · rename_i short
        rw [if_neg short, List.length_append, added, decoded]
        rfl

theorem keeps_kept (isKept : Kept body) (read : keeps limit body lines = some kept) : Kept kept := by
  induction lines generalizing body with
  | nil => exact Option.some.inj read ▸ isKept
  | cons line lines ih =>
    rw [keeps] at read
    cases turned : turn limit body line with
    | raised | closed => simp [turned] at read
    | enqueued msg =>
      rw [turned] at read
      exact ih .nil read
    | kept body' =>
      rw [turned] at read
      exact ih (turn_kept isKept turned) read

theorem receive_append (body : List Char) (before after : List Bytes) :
    (receive limit body (before ++ after)).1 =
      (receive limit body before).1 ++
        ((keeps limit body before).map fun kept => (receive limit kept after).1).getD [] := by
  induction before generalizing body with
  | nil => rfl
  | cons line before ih =>
    rw [List.cons_append, receive, receive, keeps]
    cases turn limit body line with
    | raised | closed => rfl
    | enqueued msg => exact congrArg (msg :: ·) (ih [])
    | kept body => exact ih body

theorem loads_strip {value : Json} (read : loads text = some value) : loads (strip text) = some value := by
  obtain ⟨ts, spells, built⟩ := spells_of_parse read
  rw [loads_of_spells (spells_strip spells), built]

theorem isZero_of_scalarTruthy {value : Scalar} (full : scalarTruthy value) : value.isZero = false := by
  cases value with
  | null | bool | constant => rfl
  | int n => simpa [scalarTruthy, Scalar.isZero] using full
  | decimal digits scale =>
    rw [scalarTruthy, decide_eq_true_eq] at full
    refine decide_eq_false ?_
    rintro rfl
    rw [Int.natAbs_zero, Nat.zero_mul, Nat.zero_mul] at full
    exact Nat.not_lt_zero _ full

theorem isZero_of_truthy {value : Json} (full : truthy value) : value.isZero = false := by
  cases value with
  | scalar value => exact isZero_of_scalarTruthy full
  | string | array | object => rfl

theorem turn_enqueues (isKept : Kept kept) (holds : document limit line = some msg) (full : truthy msg) :
    turn limit kept line = .enqueued msg ↔ kept = [] := by
  obtain ⟨text, decoded, read⟩ := Option.bind_eq_some_iff.mp holds
  have alone := loads_strip read
  rw [turn, decoded]
  dsimp only
  constructor
  · intro turned
    have whole : loads (kept ++ strip text) = some msg := by
      cases loaded : loads (kept ++ strip text) with
      | none => simp [loaded] at turned
      | some value =>
        rw [loaded] at turned
        dsimp only at turned
        split at turned
        · rw [Turn.enqueued.inj turned]
        · cases turned
    rw [loads, encode_append] at whole
    have blank := isWhitespace_of_spaces (parse_suffix whole alone (isZero_of_truthy full))
    cases kept with
    | nil => rfl
    | cons c kept =>
      have starts := isKept.starts c rfl
      rw [blank c List.mem_cons_self] at starts
      cases starts
  · rintro rfl
    rw [List.nil_append, alone]
    dsimp only
    rw [if_pos full]

/-- Behind lines with more than 8192 characters there was a line behind which nothing was kept. -/
theorem keeps_nil (isKept : Kept body) (read : keeps limit body lines = some kept)
    (long : 8192 < body.length + (lines.map (added limit)).sum) :
    ∃ first rest, lines = first ++ rest ∧ first ≠ [] ∧ keeps limit body first = some [] := by
  induction lines generalizing body with
  | nil =>
    have short := isKept.short
    simp at long
    omega
  | cons line lines ih =>
    have first (turned : keeps limit body [line] = some []) :
        ∃ first rest, line :: lines = first ++ rest ∧ first ≠ [] ∧ keeps limit body first = some [] :=
      ⟨[line], lines, rfl, List.cons_ne_nil _ _, turned⟩
    cases turned : turn limit body line with
    | raised | closed => simp [keeps, turned] at read
    | enqueued msg => exact first (by simp [keeps, turned])
    | kept body' =>
      rw [keeps, turned] at read
      by_cases empty : body' = []
      · exact first (by simp [keeps, turned, empty])
      · have grown := turn_grows turned empty
        rw [List.map_cons, List.sum_cons, ← Nat.add_assoc, ← grown] at long
        obtain ⟨front, rest, rfl, more, emptied⟩ := ih (turn_kept isKept turned) read long
        exact ⟨line :: front, rest, rfl, List.cons_ne_nil _ _, by simpa [keeps, turned] using emptied⟩

theorem keeps_append (body : List Char) (before after : List Bytes) :
    keeps limit body (before ++ after) = (keeps limit body before).bind fun kept => keeps limit kept after := by
  induction before generalizing body with
  | nil => rfl
  | cons line before ih =>
    rw [List.cons_append, keeps, keeps]
    cases turn limit body line with
    | raised | closed => rfl
    | enqueued msg => exact ih []
    | kept body => exact ih body

theorem receive_line (body : List Char) (line : Bytes) (msg : Json) :
    (receive limit body [line]).1 = [msg] ↔ turn limit body line = .enqueued msg := by
  rw [receive]
  cases turn limit body line with
  | raised | closed | kept => simp [receive]
  | enqueued msg' => simp [receive]

end Keeping

structure Line where
  body : Bytes
  bare : 10 ∉ body

def Line.bytes (l : Line) : Bytes := l.body ++ [10]

inductive Handler where
  | curio
  | asyncio (closes : Bool)

namespace Handler

variable (h : Handler) (before after : List Line)

def limit : Option Nat :=
  match h with
  | curio => none
  | asyncio _ => some defaultLimit

def handle : Bytes → List (Option Json) :=
  match h with
  | curio => handleConnectionCurio
  | asyncio closes => handleConnection closes

def enqueued : List Json := (h.handle (before.map Line.bytes).flatten).filterMap id

def keeps : Option (List Char) := Bridge.keeps h.limit [] (before.map Line.bytes)

def Enqueues (line : Line) (msg : Json) : Prop := h.enqueued (before ++ [line]) = h.enqueued before ++ [msg]

/-- Whatever a connection has read, a document on the next line is enqueued. -/
def Recovers : Prop :=
  ∀ before line msg, document h.limit line.bytes = some msg → truthy msg → h.Enqueues before line msg

theorem handle_messages (stream : Bytes) :
    (h.handle stream).filterMap id = (messages h.limit (readlines stream)).1 := by
  cases h with
  | curio =>
    unfold handle handleConnectionCurio
    dsimp only
    split <;> simp [limit]
  | asyncio closes =>
    unfold handle handleConnection
    dsimp only
    split <;> simp [limit]

theorem enqueued_eq : h.enqueued before = (receive h.limit [] (before.map Line.bytes)).1 := by
  have isLine : ∀ line ∈ before.map Line.bytes, IsLine 10 line :=
    List.forall_mem_map.mpr fun l _ => ⟨l.body, l.bare, rfl⟩
  rw [enqueued, handle_messages, readlines_flatten isLine, messages_eq_receive]

theorem enqueued_append : h.enqueued (before ++ after) =
    h.enqueued before ++
      ((h.keeps before).map fun kept => (receive h.limit kept (after.map Line.bytes)).1).getD [] := by
  rw [enqueued_eq, enqueued_eq, List.map_append, receive_append]
  rfl

/-- A line that completes no document costs the documents behind it until 8192 characters are kept. -/
theorem recovered {before : List Line} {kept : List Char} (read : h.keeps before = some kept) :
    kept.length ≤ 8192 ∧
      (∀ line msg, document h.limit line.bytes = some msg → truthy msg →
        (h.Enqueues before line msg ↔ kept = [])) ∧
      ∀ more rest, h.keeps (before ++ more) = some rest →
        8192 < kept.length + (more.map fun l => added h.limit l.bytes).sum →
          ∃ first later, more = first ++ later ∧ first ≠ [] ∧ h.keeps (before ++ first) = some [] := by
  have isKept := keeps_kept .nil read
  refine ⟨isKept.short, fun line msg holds full => ?_, fun more rest behind long => ?_⟩
  · rw [Enqueues, enqueued_append, read, List.append_cancel_left_eq, ← turn_enqueues isKept holds full]
    exact receive_line kept line.bytes msg
  · rw [keeps, List.map_append, keeps_append, show Bridge.keeps _ _ _ = some kept from read,
      Option.bind_some] at behind
    obtain ⟨front, back, split, more, emptied⟩ := keeps_nil isKept behind (by rwa [List.map_map])
    obtain ⟨first, later, rfl, rfl, -⟩ := List.map_eq_append_iff.mp split
    refine ⟨first, later, rfl, by simpa using more, ?_⟩
    rw [keeps, List.map_append, keeps_append, show Bridge.keeps _ _ _ = some kept from read]
    exact emptied

def malformedLine : Line := ⟨ascii "x", by decide⟩

def falsyLine : Line := ⟨ascii "null", by decide⟩

def documentLine : Line := ⟨ascii "[1]", by decide⟩

theorem recovered_malformed : ¬ curio.Enqueues [malformedLine] documentLine (.array [.scalar (.int 1)]) := by
  have read : curio.keeps [malformedLine] = some ['x'] := by decide
  exact mt ((recovered curio read).2.1 documentLine _ rfl (by decide)).mp (by decide)

-- A document is lost behind a malformed line, and behind a false document.
theorem later_document_lost :
    curio.enqueued [malformedLine, documentLine] = [] ∧ curio.enqueued [falsyLine, documentLine] = [] ∧
      ¬ curio.Recovers := by
  have malformed : curio.enqueued [malformedLine, documentLine] = [] := (enqueued_eq ..).trans (by decide)
  have falsy : curio.enqueued [falsyLine, documentLine] = [] := (enqueued_eq ..).trans (by decide)
  refine ⟨malformed, falsy, fun recovers => ?_⟩
  have enqueued := recovers [malformedLine] documentLine _ rfl (by decide)
  rw [Enqueues, show [malformedLine] ++ [documentLine] = [malformedLine, documentLine] from rfl,
    malformed] at enqueued
  simp at enqueued

end Handler

end VirtueSensing.Bridge
