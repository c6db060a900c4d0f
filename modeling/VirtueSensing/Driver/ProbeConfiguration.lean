import Mathlib.Data.List.TakeWhile
import VirtueSensing.Jsmn.Capacity
import VirtueSensing.Shared.JsonText

set_option autoImplicit false

/-!
# Configuring the validation of the process list

`ProcessListValidationProbe::Configure`, with every token slot that it reads.
-/

namespace VirtueSensing.Driver

-- `RtlUpperChar`, up to the bytes that are no ASCII.
def upperChar (c : UInt8) : UInt8 := if 0x61 ≤ c ∧ c ≤ 0x7a then c - 0x20 else c

/-- Whether `jsoneq` gives zero. -/
def jsoneq (json : Bytes) (tok : Jsmn.Token) (name : Bytes) : Bool :=
  tok.type = .string ∧ (name.length : Int) = tok.stop - tok.start ∧
    (tok.text json).map upperChar = name.map upperChar

def repeatInterval : Bytes := ascii "repeat-interval"

-- Units of 100 nanoseconds.
def seconds (seconds : UInt32) : Int := seconds.toNat * 10000000

def relative (wait : Int) : Int := -wait

-- The interval with a new number, or without one.
def newInterval (runInterval : Int) : Option UInt32 → Int
  | some interval => relative (seconds interval)
  | none => runInterval

/-- What the kernel's functions do: `RtlAnsiStringToUnicodeString`, which a turn of the loop may find
without memory, and `RtlUnicodeStringToInteger` with the base 0. -/
structure Conversions where
  unicode : Bytes → List UInt16
  refused : Nat → Bytes → Bool
  integer : List UInt16 → Option UInt32

-- What stands where `jsmn_parse` has put nothing: the ends that a slot without a token happens to
-- hold, and the bytes around the string.
structure Surroundings where
  slot : Nat → Int × Int
  around : Int → UInt8

/-- Bytes from the buffer of the string on, as `pbuf` and `value_width` describe them. -/
structure Span where
  start : Int
  width : Nat
  deriving DecidableEq, Repr

structure Configured where
  success : Bool
  runInterval : Int
  slots : List Nat
  values : List Span
  deriving DecidableEq, Repr

def Configured.reading (slots : List Nat) (values : List Span) (o : Configured) : Configured :=
  { o with slots := slots ++ o.slots, values := values ++ o.values }

section Program

variable (c : Conversions) (a : Surroundings) (config : Bytes) (tokens : List Jsmn.Token)

def span (start stop : Int) : Span := ⟨start, ((stop - start) % 0x10000).toNat⟩

def valueSpan (ndx : Nat) : Span :=
  match tokens[ndx]? with
  | some t => span t.start t.stop
  | none => span (a.slot ndx).1 (a.slot ndx).2

def byteAt (i : Int) : UInt8 :=
  if 0 ≤ i then config[i.toNat]?.getD (a.around i) else a.around i

def spanText (s : Span) : Bytes := (List.range s.width).map fun i => byteAt a config (s.start + i)

def converted (text : Bytes) : Option UInt32 := c.integer (c.unicode text)

-- A value that is no number leaves the `__try` block, and the interval as it is.
def applyValue (runInterval : Int) (text : Bytes) : Int := newInterval runInterval (converted c text)

def configureLoop : List Jsmn.Token → Nat → Int → Configured
  | [], _, runInterval => ⟨true, runInterval, [], []⟩
  | tok :: rest, ndx, runInterval =>
    if jsoneq config tok repeatInterval then
      let value := valueSpan a tokens (ndx + 1)
      let text := spanText a config value
      if c.refused ndx text then ⟨false, runInterval, [ndx, ndx + 1], [value]⟩
      else (configureLoop rest (ndx + 1) (applyValue c runInterval text)).reading [ndx, ndx + 1] [value]
    else (configureLoop rest (ndx + 1) runInterval).reading [ndx] []

end Program

def tokenSlots : Nat := 32

/-- `Configure`, from the interval that the probe has. -/
def configure (c : Conversions) (a : Surroundings) (config : Bytes) (runInterval : Int) : Configured :=
  let parsed := Jsmn.parse tokenSlots config
  if parsed.result < 0 then ⟨false, runInterval, [], []⟩
  else if parsed.result < 1 then ⟨false, runInterval, [], []⟩
  else if parsed.tokens.head?.map Jsmn.Token.type ≠ some .object then ⟨false, runInterval, [0], []⟩
  else (configureLoop c a config parsed.tokens parsed.tokens 0 runInterval).reading [0] []

def allTokens (config : Bytes) : List Jsmn.Token := (Jsmn.parse config.length config).tokens

def TokenizerTakes (config : Bytes) : Prop :=
  0 ≤ (Jsmn.parse config.length config).result ∧
    (allTokens config).head?.map Jsmn.Token.type = some .object

/-- What counts as an object: that of the grammar, or what the tokenizer takes for one, which needs no
quotes and no end. -/
inductive Grammar where
  | strict
  | tokenizer
  deriving DecidableEq, Repr

def Grammar.IsObject : Grammar → Bytes → Prop
  | strict, config => ∃ members, JsonText.parse false config = some (.object members)
  | tokenizer, config => TokenizerTakes config

-- A string with a value behind it is a key.
def keyValues (config : Bytes) : List Jsmn.Token → List Jsmn.Token
  | key :: value :: rest =>
    if jsoneq config key repeatInterval ∧ 0 < key.size then value :: keyValues config (value :: rest)
    else keyValues config (value :: rest)
  | [_] | [] => []

section Specification

variable (g : Grammar) (c : Conversions) (config : Bytes)

def keyInteger (value : Jsmn.Token) : Option UInt32 :=
  if value.isOpen then none else converted c (value.text config)

def ValidConfig : Prop :=
  g.IsObject config ∧
    ∀ value ∈ keyValues config (allTokens config), (keyInteger c config value).isSome

def lastKeyInteger : Option UInt32 :=
  ((keyValues config (allTokens config)).filterMap (keyInteger c config)).getLast?

def keyInterval (runInterval : Int) : Int := newInterval runInterval (lastKeyInteger c config)

/-- Slots are read that have a token, the string is taken exactly if it is valid, the interval is then
that of the last key, and one that is refused changes nothing. -/
structure ConfiguresRight (runInterval : Int) (o : Configured) : Prop where
  filled : ∀ slot ∈ o.slots, slot < (Jsmn.parse tokenSlots config).tokens.length
  success : o.success ↔ ValidConfig g c config
  applied : ValidConfig g c config → o.success → o.runInterval = keyInterval c config runInterval
  unchanged : ¬ o.success → o.runInterval = runInterval

end Specification

/-- A string with the name, by the slot of its value and the bytes that this describes. -/
structure NamedValue where
  slot : Nat
  value : Span
  deriving DecidableEq, Repr

section Conditions

variable (g : Grammar) (c : Conversions) (a : Surroundings) (config : Bytes)

def namedValues (tokens : List Jsmn.Token) : List Jsmn.Token → Nat → List NamedValue
  | [], _ => []
  | tok :: rest, ndx =>
    if jsoneq config tok repeatInterval then
      ⟨ndx + 1, valueSpan a tokens (ndx + 1)⟩ :: namedValues tokens rest (ndx + 1)
    else namedValues tokens rest (ndx + 1)

def takenValues : List NamedValue := namedValues a config (allTokens config) (allTokens config) 0

def NamedValue.text (v : NamedValue) : Bytes := spanText a config v.value

def NamedValue.refused (v : NamedValue) : Bool := c.refused (v.slot - 1) (v.text a config)

-- Up to the first one that cannot be made a Unicode string.
def reached : List NamedValue → List NamedValue
  | [] => []
  | v :: rest => if v.refused c a config then [v] else v :: reached rest

-- In front of that one.
def passed (vs : List NamedValue) : List NamedValue := vs.takeWhile fun v => ¬ v.refused c a config

def lastInteger (vs : List NamedValue) : Option UInt32 :=
  (vs.filterMap fun v => converted c (v.text a config)).getLast?

/-- The tokenizer takes the string with 32 tokens at most. -/
def Accepted : Prop := TokenizerTakes config ∧ (allTokens config).length ≤ tokenSlots

/-- Two numbers stand for one interval, where the probe keeps the one it has without a number. -/
def SameInterval (runInterval : Int) (first second : Option UInt32) : Prop :=
  first = second ∨
    (first = none ∧ ∃ n ∈ second, runInterval = relative (seconds n)) ∨
    (second = none ∧ ∃ n ∈ first, runInterval = relative (seconds n))

/-- What is taken for a value has a token. For a valid string no memory is missing, and the last number
behind a string with the name is that of the last key; for another one memory is missing, before any
number other than the interval that there is. -/
structure ValuesFit (runInterval : Int) : Prop where
  filled : ∀ v ∈ reached c a config (takenValues a config), v.slot < (allTokens config).length
  valid : ValidConfig g c config →
    (∀ v ∈ takenValues a config, ¬ v.refused c a config) ∧
      SameInterval runInterval (lastInteger c a config (takenValues a config)) (lastKeyInteger c config)
  invalid : ¬ ValidConfig g c config →
    (∃ v ∈ takenValues a config, v.refused c a config) ∧
      SameInterval runInterval
        (lastInteger c a config (passed c a config (takenValues a config))) none

end Conditions

section Loop

variable {c : Conversions} {a : Surroundings} {config : Bytes} {tokens rest : List Jsmn.Token}

theorem relative_seconds_inj {first second : UInt32}
    (same : relative (seconds first) = relative (seconds second)) : first = second := by
  simp only [relative, seconds] at same
  exact UInt32.toNat_inj.mp (by omega)

theorem sameInterval_iff {runInterval : Int} {first second : Option UInt32} :
    SameInterval runInterval first second ↔
      newInterval runInterval first = newInterval runInterval second := by
  cases first with
  | none =>
    cases second with
    | none => simp [SameInterval]
    | some n => simp [SameInterval, newInterval]
  | some m =>
    cases second with
    | none => simp [SameInterval, newInterval, eq_comm]
    | some n =>
      have inj : newInterval runInterval (some m) = newInterval runInterval (some n) ↔ m = n :=
        ⟨relative_seconds_inj, fun same => same ▸ rfl⟩
      simp [SameInterval, inj]

theorem passed_cons {v : NamedValue} {vs : List NamedValue} (goes : ¬ v.refused c a config) :
    passed c a config (v :: vs) = v :: passed c a config vs :=
  List.takeWhile_cons_of_pos (by simpa using goes)

theorem newInterval_lastInteger {runInterval : Int} {v : NamedValue} {vs : List NamedValue} :
    newInterval runInterval (lastInteger c a config (v :: vs)) =
      newInterval (applyValue c runInterval (v.text a config)) (lastInteger c a config vs) := by
  rw [lastInteger, lastInteger, List.filterMap_cons]
  cases number : converted c (v.text a config) with
  | none => simp only [applyValue, number, newInterval]
  | some n =>
    rw [List.getLast?_cons]
    cases (vs.filterMap fun v => converted c (v.text a config)).getLast? with
    | none => simp only [applyValue, number, newInterval, Option.getD_none]
    | some last => simp only [newInterval, Option.getD_some]

/-- What the loop leaves behind, by the values it takes. -/
structure Ran (c : Conversions) (a : Surroundings) (config : Bytes) (count : Nat)
    (vs : List NamedValue) (runInterval : Int) (o : Configured) : Prop where
  success : o.success ↔ ∀ v ∈ vs, ¬ v.refused c a config
  applied : o.runInterval = newInterval runInterval (lastInteger c a config (passed c a config vs))
  filled : (∀ slot ∈ o.slots, slot < count) ↔ ∀ v ∈ reached c a config vs, v.slot < count
  values : o.values = (reached c a config vs).map NamedValue.value

theorem configureLoop_ran {ndx : Nat} {runInterval : Int} {count : Nat}
    (within : ndx + rest.length ≤ count) :
    Ran c a config count (namedValues a config tokens rest ndx) runInterval
      (configureLoop c a config tokens rest ndx runInterval) := by
  induction rest generalizing ndx runInterval with
  | nil =>
    exact ⟨by simp [configureLoop, namedValues], rfl, by simp [configureLoop, namedValues, reached], rfl⟩
  | cons tok rest ih =>
    rw [List.length_cons] at within
    have here : ndx < count := by omega
    by_cases named : jsoneq config tok repeatInterval
    · simp only [configureLoop, namedValues, if_pos named]
      by_cases refused : c.refused ndx (spanText a config (valueSpan a tokens (ndx + 1)))
      · have stops : NamedValue.refused c a config ⟨ndx + 1, valueSpan a tokens (ndx + 1)⟩ := refused
        rw [if_pos refused]
        refine ⟨by simp [stops], by simp [stops, passed, lastInteger, newInterval], ?_, ?_⟩
        · simp [reached, stops, here]
        · simp [reached, stops]
      · have goes : ¬ NamedValue.refused c a config ⟨ndx + 1, valueSpan a tokens (ndx + 1)⟩ := refused
        rw [if_neg refused]
        obtain ⟨success, applied, filled, values⟩ :=
          @ih (ndx + 1)
            (applyValue c runInterval (spanText a config (valueSpan a tokens (ndx + 1)))) (by omega)
        refine ⟨?_, ?_, ?_, ?_⟩
        · simp [Configured.reading, success, goes]
        · rw [passed_cons goes, newInterval_lastInteger]
          exact applied
        · simp [Configured.reading, reached, goes, here, ← filled]
        · simp [Configured.reading, reached, goes, values]
    · simp only [configureLoop, namedValues, if_neg named]
      obtain ⟨success, applied, filled, values⟩ := @ih (ndx + 1) runInterval (by omega)
      exact ⟨success, applied, by simp [Configured.reading, here, ← filled], values⟩

end Loop

section Runs

variable {g : Grammar} {c : Conversions} {a : Surroundings} {config : Bytes} {runInterval : Int}

theorem accepted_iff : Accepted config ↔ 0 ≤ (Jsmn.parse tokenSlots config).result ∧
    (Jsmn.parse tokenSlots config).tokens.head?.map Jsmn.Token.type = some .object := by
  rw [Accepted, TokenizerTakes, Jsmn.parse_capacity tokenSlots config]
  constructor
  · rintro ⟨⟨result, first⟩, few⟩
    have taken := (Jsmn.parse_capacity tokenSlots config).mpr ⟨result, few⟩
    rw [Jsmn.parse_tokens taken]
    exact ⟨⟨result, few⟩, first⟩
  · rintro ⟨⟨result, few⟩, first⟩
    have taken := (Jsmn.parse_capacity tokenSlots config).mpr ⟨result, few⟩
    rw [Jsmn.parse_tokens taken] at first
    exact ⟨⟨result, first⟩, few⟩

theorem accepted_tokens (accepted : Accepted config) :
    (Jsmn.parse tokenSlots config).tokens = allTokens config :=
  Jsmn.parse_tokens (accepted_iff.mp accepted).1

theorem tokens_pos (accepted : Accepted config) : 0 < (allTokens config).length := by
  obtain ⟨⟨_, object⟩, _⟩ := accepted
  cases tokens : allTokens config with
  | nil => simp [tokens] at object
  | cons first rest => exact Nat.succ_pos _

theorem configure_accepted (accepted : Accepted config) :
    configure c a config runInterval =
      (configureLoop c a config (allTokens config) (allTokens config) 0 runInterval).reading [0] [] := by
  obtain ⟨taken, object⟩ := accepted_iff.mp accepted
  have counted := (Jsmn.parse tokenSlots config).counted
  have some := tokens_pos accepted
  rw [accepted_tokens accepted] at counted object
  rw [configure, if_neg (by omega), if_neg (by omega), accepted_tokens accepted, if_neg (not_not.mpr object)]

theorem configure_refused (refused : ¬ Accepted config) :
    ∃ slots, configure c a config runInterval = ⟨false, runInterval, slots, []⟩ ∧
      ∀ slot ∈ slots, slot < (Jsmn.parse tokenSlots config).tokens.length := by
  rw [accepted_iff, not_and] at refused
  have counted := (Jsmn.parse tokenSlots config).counted
  unfold configure
  by_cases failed : (Jsmn.parse tokenSlots config).result < 0
  · exact ⟨[], if_pos failed, nofun⟩
  by_cases empty : (Jsmn.parse tokenSlots config).result < 1
  · exact ⟨[], (if_neg failed).trans (if_pos empty), nofun⟩
  refine ⟨[0], (if_neg failed).trans ((if_neg empty).trans (if_pos (refused (by omega)))), ?_⟩
  rw [List.forall_mem_singleton]
  omega

theorem configures_accepted (accepted : Accepted config) :
    ConfiguresRight g c config runInterval (configure c a config runInterval) ↔
      ValuesFit g c a config runInterval := by
  have ran : Ran c a config (allTokens config).length (takenValues a config) runInterval _ :=
    configureLoop_ran (Nat.le_of_eq (Nat.zero_add _))
  have slots : (∀ slot ∈ (configure c a config runInterval).slots,
        slot < (Jsmn.parse tokenSlots config).tokens.length) ↔
      ∀ v ∈ reached c a config (takenValues a config), v.slot < (allTokens config).length := by
    rw [configure_accepted accepted, accepted_tokens accepted, ← ran.filled]
    simp [Configured.reading, tokens_pos accepted]
  have success : (configure c a config runInterval).success ↔
      ∀ v ∈ takenValues a config, ¬ v.refused c a config := by
    rw [configure_accepted accepted]
    exact ran.success
  have interval : (configure c a config runInterval).runInterval =
      newInterval runInterval (lastInteger c a config (passed c a config (takenValues a config))) := by
    rw [configure_accepted accepted]
    exact ran.applied
  -- Without a refused value all are applied.
  have all (none : ∀ v ∈ takenValues a config, ¬ v.refused c a config) :
      passed c a config (takenValues a config) = takenValues a config :=
    List.takeWhile_eq_self_iff.mpr fun v member => decide_eq_true (none v member)
  constructor
  · intro right
    refine ⟨slots.mp right.filled, fun valid => ?_, fun invalid => ?_⟩
    · have done := right.success.mpr valid
      have none := success.mp done
      refine ⟨none, sameInterval_iff.mpr ?_⟩
      rw [← all none, ← interval]
      exact right.applied valid done
    · have failed := mt right.success.mp invalid
      refine ⟨?_, sameInterval_iff.mpr (interval ▸ right.unchanged failed)⟩
      by_contra none
      exact failed (success.mpr fun v member refused => none ⟨v, member, refused⟩)
  · intro fit
    refine ⟨slots.mpr fit.filled, ?_, fun valid _ => ?_, fun failed => ?_⟩
    · rw [success]
      refine ⟨fun none => ?_, fun valid => (fit.valid valid).1⟩
      by_contra invalid
      obtain ⟨⟨v, member, refused⟩, -⟩ := fit.invalid invalid
      exact none v member refused
    · obtain ⟨none, same⟩ := fit.valid valid
      rw [interval, all none]
      exact sameInterval_iff.mp same
    · have invalid : ¬ ValidConfig g c config := fun valid => failed (success.mpr (fit.valid valid).1)
      rw [interval]
      exact sameInterval_iff.mp (fit.invalid invalid).2

theorem configure_values (c : Conversions) (a : Surroundings) (config : Bytes) (runInterval : Int) :
    (Accepted config → (configure c a config runInterval).values =
        (reached c a config (takenValues a config)).map NamedValue.value) ∧
      (¬ Accepted config → (configure c a config runInterval).values = []) := by
  constructor
  · intro accepted
    have ran : Ran c a config (allTokens config).length (takenValues a config) runInterval _ :=
      configureLoop_ran (Nat.le_of_eq (Nat.zero_add _))
    rw [configure_accepted accepted]
    exact ran.values
  · intro refused
    obtain ⟨slots, result, -⟩ := @configure_refused c a config runInterval refused
    rw [result]

/-- A configuration is handled right exactly if the tokenizer takes it with the slots there are and what
it gives fits, or it is not taken and not valid. -/
theorem configure_right_iff (g : Grammar) (c : Conversions) (a : Surroundings) (config : Bytes)
    (runInterval : Int) :
    ConfiguresRight g c config runInterval (configure c a config runInterval) ↔
      (Accepted config ∧ ValuesFit g c a config runInterval) ∨
        (¬ Accepted config ∧ ¬ ValidConfig g c config) := by
  by_cases accepted : Accepted config
  · rw [configures_accepted accepted]
    simp [accepted]
  · obtain ⟨slots, result, filled⟩ := @configure_refused c a config runInterval accepted
    rw [result]
    simp only [accepted, false_and, false_or, not_false_eq_true, true_and]
    refine ⟨fun right valid => ?_, fun invalid => ⟨filled, ?_, ?_, fun _ => rfl⟩⟩
    · exact absurd (right.success.mpr valid) Bool.false_ne_true
    · exact iff_of_false Bool.false_ne_true invalid
    · exact fun _ done => absurd done Bool.false_ne_true

end Runs

-- The name is the last token, and the slot behind it is read.
def bareName : Bytes := ascii "\x7b\"repeat-interval\"\x7d"

-- Digits are read, and memory is never missing.
def plainConversions : Conversions where
  unicode := fun text => text.map UInt8.toUInt16
  refused := fun _ _ => false
  integer := fun units =>
    if units ≠ [] ∧ units.all fun u => 48 ≤ u ∧ u ≤ 57 then
      some (units.foldl (fun n u => 10 * n + (u.toUInt32 - 48)) 0)
    else none

-- The slot behind holds the ends of two digits behind the string.
def leftOver : Surroundings where
  slot _ := (20, 22)
  around i := if i = 20 then 0x31 else 0x30

theorem bareName_unfilled :
    configure plainConversions leftOver bareName 0 =
        ⟨true, relative (seconds 10), [0, 0, 1, 2], [⟨20, 2⟩]⟩ ∧
      (Jsmn.parse tokenSlots bareName).tokens.length = 2 ∧
      ∀ g, ¬ ∀ c a config runInterval,
        ConfiguresRight g c config runInterval (configure c a config runInterval) := by
  have run : configure plainConversions leftOver bareName 0 =
      ⟨true, relative (seconds 10), [0, 0, 1, 2], [⟨20, 2⟩]⟩ := by decide
  refine ⟨run, by decide, fun g all => ?_⟩
  have filled := (all plainConversions leftOver bareName 0).filled 2
  rw [run] at filled
  exact absurd (filled (by decide)) (by decide)

end VirtueSensing.Driver
