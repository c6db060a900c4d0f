import VirtueSensing.Shared.JsonPrefix
import VirtueSensing.Shared.Utf8

set_option autoImplicit false

/-!
# Reading the body of a request

`SensorWrapper.wait_for_json` takes the body from the connection in reads of up to 1024 bytes, and asks
after each of them whether what it has is a JSON text.
-/

namespace VirtueSensing.Wrapper

open JsonText

-- `json.loads`, which knows `NaN` and the infinities.
def jsonLoads (text : List Char) : Option Json := parse true (Utf8.encode text)

inductive BodyOutcome where
  | returned (decoded : Json)
  | unicodeDecodeError

/-- `wait_for_json` over the reads that are left, with the body it has. Without fuel it goes on. -/
def waitForJson : Nat → (Nat → Bytes) → List Char → Option BodyOutcome
  | 0, _, _ => none
  | fuel + 1, reads, body =>
    match Utf8.decode (reads 0) with
    | none => some .unicodeDecodeError
    | some line =>
      match jsonLoads (body ++ line) with
      | some decoded => some (.returned decoded)
      | none => waitForJson fuel (fun turn => reads (turn + 1)) (body ++ line)

/-- A connection that ends behind these reads: each later one is empty. -/
def connection (chunks : List Bytes) (turn : Nat) : Bytes := chunks[turn]?.getD []

def Returns (chunks : List Bytes) (decoded : Json) : Prop :=
  ∃ fuel, waitForJson fuel (connection chunks) [] = some (.returned decoded)

def Fails (chunks : List Bytes) : Prop :=
  ∃ fuel, waitForJson fuel (connection chunks) [] = some .unicodeDecodeError

def Undecided (body : List Char) (lines : List (List Char)) : Prop :=
  ∀ read, read ≠ [] → read <+: lines → jsonLoads (body ++ read.flatten) = none

section Turns

variable {fuel : Nat} {body line : List Char} {chunk : Bytes} {chunks rest : List Bytes}
  {lines : List (List Char)} {decoded : Json}

theorem wait_undecoded (fails : Utf8.decode chunk = none) :
    waitForJson (fuel + 1) (connection (chunk :: rest)) body = some .unicodeDecodeError := by
  simp [waitForJson, connection, fails]

theorem wait_loaded (loads : jsonLoads (body ++ line) = some decoded) :
    waitForJson (fuel + 1) (connection (Utf8.encode line :: rest)) body = some (.returned decoded) := by
  simp [waitForJson, connection, Utf8.decode_eq_some.mpr rfl, loads]

theorem wait_goes_on (undecided : jsonLoads (body ++ line) = none) :
    waitForJson (fuel + 1) (connection (Utf8.encode line :: rest)) body =
      waitForJson fuel (connection rest) (body ++ line) := by
  have decodes : Utf8.decode (Utf8.encode line) = some line := Utf8.decode_eq_some.mpr rfl
  simp only [waitForJson, connection, List.getElem?_cons_zero, Option.getD_some, decodes, undecided]
  rfl

theorem undecided_cons :
    Undecided body (line :: lines) ↔ jsonLoads (body ++ line) = none ∧ Undecided (body ++ line) lines := by
  constructor
  · intro undecided
    refine ⟨?_, fun read some behind => ?_⟩
    · simpa using undecided [line] (List.cons_ne_nil _ _) (List.prefix_cons_inj line |>.mpr (List.nil_prefix))
    · simpa using undecided (line :: read) (List.cons_ne_nil _ _) ((List.prefix_cons_inj line).mpr behind)
  · rintro ⟨first, later⟩ read some behind
    cases read with
    | nil => exact absurd rfl some
    | cons line' read =>
      obtain ⟨rfl, inside⟩ := List.cons_prefix_cons.mp behind
      cases read with
      | nil => simpa using first
      | cons next read => simpa using later (next :: read) (List.cons_ne_nil _ _) inside

theorem wait_undecided (undecided : Undecided body lines) :
    waitForJson (lines.length + fuel) (connection (lines.map Utf8.encode ++ rest)) body =
      waitForJson fuel (connection rest) (body ++ lines.flatten) := by
  induction lines generalizing body with
  | nil => simp
  | cons line lines ih =>
    obtain ⟨first, later⟩ := undecided_cons.mp undecided
    have turns : (line :: lines).length + fuel = lines.length + fuel + 1 := by
      rw [List.length_cons]
      omega
    rw [turns, List.map_cons, List.cons_append, wait_goes_on first, ih later, List.flatten_cons,
      List.append_assoc]

theorem wait_ended (undecided : jsonLoads body = none) : waitForJson fuel (connection []) body = none := by
  induction fuel with
  | zero => rfl
  | succ fuel ih =>
    have decodes : Utf8.decode [] = some [] := Utf8.decode_eq_some.mpr rfl
    have empty : ∀ turn, connection [] turn = [] := fun _ => rfl
    simp only [waitForJson, empty, decodes, List.append_nil, undecided]
    exact ih

theorem wait_more {reads : Nat → Bytes} {outcome : BodyOutcome} (more : Nat)
    (ended : waitForJson fuel reads body = some outcome) :
    waitForJson (fuel + more) reads body = some outcome := by
  induction fuel generalizing reads body with
  | zero => cases ended
  | succ fuel ih =>
    rw [Nat.add_right_comm]
    unfold waitForJson at ended ⊢
    cases decodes : Utf8.decode (reads 0) with
    | none => rwa [decodes] at ended
    | some line =>
      simp only [decodes] at ended ⊢
      cases loads : jsonLoads (body ++ line) with
      | some decoded => rwa [loads] at ended
      | none =>
        rw [loads] at ended
        exact ih ended

theorem wait_unique {reads : Nat → Bytes} {n m : Nat} {first second : BodyOutcome}
    (one : waitForJson n reads body = some first) (other : waitForJson m reads body = some second) :
    first = second := by
  have later := wait_more n other
  rw [Nat.add_comm] at later
  exact Option.some.inj ((wait_more m one).symm.trans later)

inductive Settled (body : List Char) (chunks : List Bytes) : Prop where
  | undecoded (lines : List (List Char)) (chunk : Bytes) (rest : List Bytes)
    (split : chunks = lines.map Utf8.encode ++ chunk :: rest) (undecided : Undecided body lines)
    (fails : Utf8.decode chunk = none)
  | loaded (lines : List (List Char)) (line : List Char) (rest : List Bytes) (decoded : Json)
    (split : chunks = lines.map Utf8.encode ++ Utf8.encode line :: rest)
    (undecided : Undecided body lines) (loads : jsonLoads (body ++ lines.flatten ++ line) = some decoded)
  | never (lines : List (List Char)) (split : chunks = lines.map Utf8.encode)
    (undecided : Undecided body lines)

theorem undecided_nil (body : List Char) : Undecided body [] :=
  fun _ some behind => absurd (List.prefix_nil.mp behind) some

theorem settled (body : List Char) (chunks : List Bytes) : Settled body chunks := by
  induction chunks generalizing body with
  | nil => exact .never [] rfl (undecided_nil body)
  | cons chunk rest ih =>
    cases decodes : Utf8.decode chunk with
    | none => exact .undecoded [] chunk rest rfl (undecided_nil body) decodes
    | some line =>
      obtain rfl := Utf8.decode_eq_some.mp decodes
      cases loads : jsonLoads (body ++ line) with
      | some decoded => exact .loaded [] line rest decoded rfl (undecided_nil body) (by simpa using loads)
      | none =>
        cases ih (body ++ line) with
        | undecoded lines chunk rest split undecided fails =>
          exact .undecoded (line :: lines) chunk rest (by rw [split]; rfl)
            (undecided_cons.mpr ⟨loads, undecided⟩) fails
        | loaded lines line' rest decoded split undecided last =>
          refine .loaded (line :: lines) line' rest decoded (by rw [split]; rfl)
            (undecided_cons.mpr ⟨loads, undecided⟩) ?_
          simpa using last
        | never lines split undecided =>
          exact .never (line :: lines) (by rw [split]; rfl) (undecided_cons.mpr ⟨loads, undecided⟩)

theorem fails_of_undecoded (undecided : Undecided [] lines) (fails : Utf8.decode chunk = none) :
    Fails (lines.map Utf8.encode ++ chunk :: rest) :=
  ⟨_, (wait_undecided undecided).trans (@wait_undecoded 0 _ _ _ fails)⟩

theorem returns_of_loaded (undecided : Undecided [] lines)
    (loads : jsonLoads (lines.flatten ++ line) = some decoded) :
    Returns (lines.map Utf8.encode ++ Utf8.encode line :: rest) decoded :=
  ⟨_, (wait_undecided undecided).trans (@wait_loaded 0 _ _ _ _ loads)⟩

theorem undecided_flatten (undecided : Undecided [] lines) : jsonLoads lines.flatten = none := by
  cases lines with
  | nil => rfl
  | cons line lines => exact undecided _ (List.cons_ne_nil _ _) (List.prefix_refl _)

theorem loops_of_undecided (undecided : Undecided [] lines) (fuel : Nat) :
    waitForJson fuel (connection (lines.map Utf8.encode)) [] = none := by
  cases ended : waitForJson fuel (connection (lines.map Utf8.encode)) [] with
  | none => rfl
  | some outcome =>
    have later := wait_more lines.length ended
    have turns := @wait_undecided fuel [] [] lines undecided
    rw [Nat.add_comm, ← List.append_nil (lines.map Utf8.encode), turns, List.nil_append,
      wait_ended (undecided_flatten undecided)] at later
    cases later

end Turns

section Bodies

variable {text : List Char} {chunks rest : List Bytes} {lines : List (List Char)} {line : List Char}
  {decoded loaded : Json}

theorem loaded_whole (loads : jsonLoads text = some decoded) (container : decoded.isContainer)
    (whole : (lines.map Utf8.encode ++ Utf8.encode line :: rest).flatten = Utf8.encode text)
    (early : jsonLoads (lines.flatten ++ line) = some loaded) :
    loaded = decoded ∧ ∀ b ∈ rest.flatten, isSpace b := by
  refine parse_prefix ?_ container early
  rw [Utf8.encode_append, Utf8.encode_flatten, List.append_assoc, ← List.flatten_cons,
    ← List.flatten_append, whole]
  exact loads

theorem isSpace_ascii {b : UInt8} (space : isSpace b) : b < 0x80 := by
  simp only [isSpace, decide_eq_true_eq] at space
  rcases space with rfl | rfl | rfl | rfl <;> decide

theorem returns_iff_decodes (loads : jsonLoads text = some decoded) (container : decoded.isContainer)
    (whole : chunks.flatten = Utf8.encode text) :
    Returns chunks decoded ↔ ∀ chunk ∈ chunks, (Utf8.decode chunk).isSome := by
  have decodes (line : List Char) : (Utf8.decode (Utf8.encode line)).isSome := by
    rw [Utf8.decode_eq_some.mpr rfl]
    rfl
  cases settled [] chunks with
  | undecoded lines chunk rest split undecided fails =>
    subst split
    refine iff_of_false ?_ fun all => ?_
    · rintro ⟨fuel, returned⟩
      obtain ⟨fuel', failed⟩ : Fails _ := fails_of_undecoded undecided fails
      cases wait_unique returned failed
    · have here := all chunk (List.mem_append_right _ List.mem_cons_self)
      rw [fails] at here
      cases here
  | loaded lines line rest early split undecided first =>
    subst split
    obtain ⟨rfl, blank⟩ := loaded_whole loads container whole first
    refine iff_of_true (returns_of_loaded undecided first) fun chunk member => ?_
    rcases List.mem_append.mp member with before | here
    · obtain ⟨line, -, rfl⟩ := List.mem_map.mp before
      exact decodes line
    · rcases List.mem_cons.mp here with rfl | behind
      · exact decodes line
      · rw [Utf8.decode_ascii fun b inside => isSpace_ascii (blank b (List.mem_flatten.mpr ⟨chunk, behind, inside⟩))]
        rfl
  | never lines split undecided =>
    have none := undecided_flatten undecided
    rw [jsonLoads, Utf8.encode_flatten, ← split, whole, ← jsonLoads, loads] at none
    cases none

theorem fails_iff : Fails chunks ↔ ∃ lines chunk rest,
    chunks = lines.map Utf8.encode ++ chunk :: rest ∧ Undecided [] lines ∧ Utf8.decode chunk = none := by
  constructor
  · rintro ⟨fuel, failed⟩
    cases settled [] chunks with
    | undecoded lines chunk rest split undecided fails => exact ⟨lines, chunk, rest, split, undecided, fails⟩
    | loaded lines line rest early split undecided first =>
      subst split
      obtain ⟨fuel', returned⟩ : Returns _ _ := returns_of_loaded undecided first
      cases wait_unique returned failed
    | never lines split undecided =>
      rw [split, loops_of_undecided undecided] at failed
      cases failed
  · rintro ⟨lines, chunk, rest, rfl, undecided, fails⟩
    exact fails_of_undecoded undecided fails

end Bodies

/-- An object is returned exactly if every read of its body is UTF-8 by itself. An error ends the loop
exactly if some read is not, and up to there the reads are, and never make up a JSON text. -/
theorem body_read_iff (chunks : List Bytes) :
    (∀ (text : List Char) (members : List (Bytes × Json)),
      jsonLoads text = some (.object members) → chunks.flatten = Utf8.encode text →
      (Returns chunks (.object members) ↔ ∀ chunk ∈ chunks, (Utf8.decode chunk).isSome)) ∧
    (Fails chunks ↔ ∃ lines chunk rest,
      chunks = lines.map Utf8.encode ++ chunk :: rest ∧ Undecided [] lines ∧ Utf8.decode chunk = none) :=
  ⟨fun _ _ loads whole => returns_iff_decodes loads rfl whole, fails_iff⟩

theorem halves_read : Returns [ascii "\x7b\"a\"", ascii ":1\x7d"] (.object [(ascii "a", .scalar (.int 1))]) := by
  refine ((body_read_iff [ascii "\x7b\"a\"", ascii ":1\x7d"]).1 "\x7b\"a\":1\x7d".toList _ rfl rfl).mpr ?_
  simp only [List.forall_mem_cons]
  refine ⟨?_, ?_, nofun⟩
  · rw [Utf8.decode_ascii (by decide)]
    rfl
  · rw [Utf8.decode_ascii (by decide)]
    rfl

-- A read that ends within a letter of two bytes, and a body that is no JSON text.
def splitLetter : List Bytes := [ascii "\x7b\"a\":\"" ++ [0xc3], [0xa9] ++ ascii "\"\x7d"]

theorem splitLetter_fails :
    Fails splitLetter ∧ (∀ fuel, waitForJson fuel (connection [ascii "x"]) [] = none) ∧
      ¬ ((∀ (text : List Char) (members : List (Bytes × Json)) (chunks : List Bytes),
          jsonLoads text = some (.object members) → chunks.flatten = Utf8.encode text →
          Returns chunks (.object members)) ∧
        ∀ chunks : List Bytes, (∀ text, chunks.flatten = Utf8.encode text → jsonLoads text = none) →
          Fails chunks) := by
  have fails : Fails splitLetter :=
    @fails_of_undecoded _ [[0xa9] ++ ascii "\"\x7d"] [] (undecided_nil []) (by decide)
  have undecided : Undecided [] [['x']] := undecided_cons.mpr ⟨rfl, undecided_nil _⟩
  refine ⟨fails, loops_of_undecided undecided, fun both => ?_⟩
  obtain ⟨fuel, returned⟩ := both.1 "\x7b\"a\":\"é\"\x7d".toList [(ascii "a", .string [0xc3, 0xa9])]
    splitLetter rfl rfl
  obtain ⟨fuel', failed⟩ := fails
  cases wait_unique returned failed

end VirtueSensing.Wrapper
