import Mathlib.Data.List.Basic
import VirtueSensing.Api.Params

set_option autoImplicit false

/-!
# Validation of API requests

The plugs of `ApiServer.ValidationPlug`, which a controller runs in front of its handlers.
-/

namespace VirtueSensing.Api.ValidationPlug

inductive MapKey where
  | atom (name : String)
  | string (name : String)
  deriving DecidableEq, Repr

/-- The parameters of a request. Plug names them by strings: an atom is never a key. -/
structure RequestParams where
  value : MapKey → Option Json
  strings : ∀ name, value (.atom name) = none

def RequestParams.ofStrings (given : String → Option Json) : RequestParams where
  value
    | .string name => given name
    | .atom _ => none
  strings _ := rfl

inductive Assigned (DateTime : Type) where
  | string (s : String)
  | atom (name : String)
  | boolean (b : Bool)
  | dateTime (dt : DateTime)
  deriving DecidableEq, Repr

structure ErrorBody where
  error : Bool
  msg : String
  timestamp : String
  deriving DecidableEq, Repr

structure Conn (DateTime : Type) where
  params : RequestParams
  assigns : String → Option (Assigned DateTime)
  status : Option Nat
  sent : Option (Nat × ErrorBody)
  halted : Bool

inductive DateError where
  | invalidFormat
  | missingOffset
  | invalidTime
  | invalidDate
  | other (name : String)
  deriving DecidableEq, Repr

/-- The calendar, the clock and the case table of Elixir. `fromIso8601` is `none` where
`DateTime.from_iso8601` raises; `lowercase` has the characters outside ASCII. -/
structure Elixir (DateTime : Type) where
  fromIso8601 : Json → Option (Except DateError DateTime)
  utcNow : DateTime
  toString : DateTime → String
  lowercase : Char → List Char

variable {DateTime : Type}

def Elixir.downcaseChar (lib : Elixir DateTime) (c : Char) : List Char :=
  if c.toNat < 128 then [c.toLower] else lib.lowercase c

def Elixir.downcase (lib : Elixir DateTime) (s : String) : String :=
  String.ofList (s.toList.flatMap lib.downcaseChar)

mutual

-- `:unicode.characters_to_binary`; `none` where it fails.
def chardata : Json → Option (List Char)
  | .integer n => if 0 ≤ n ∧ n.toNat.isValidChar then some [Char.ofNat n.toNat] else none
  | .string s => some s.toList
  | .array elements => chardataList elements
  | _ => none

def chardataList : List Json → Option (List Char)
  | [] => some []
  | element :: rest =>
    match chardata element, chardataList rest with
    | some first, some others => some (first ++ others)
    | _, _ => none

end

-- The text of `#{value}`; `none` where `to_string` raises.
def interpolate : Json → Option String
  | .null => some ""
  | .bool b => some (toString b)
  | .integer n => some (toString n)
  | .float text => some text
  | .string s => some s
  | .array elements => (chardataList elements).map String.ofList
  | .object _ => none

def Conn.assign (conn : Conn DateTime) (key : String) (value : Assigned DateTime) : Conn DateTime :=
  { conn with assigns := fun name => if name = key then some value else conn.assigns name }

-- `put_status` and `json` raise on a connection that has its response.
def Conn.putStatus (status : Nat) (conn : Conn DateTime) : Option (Conn DateTime) :=
  if conn.sent = none then some { conn with status := some status } else none

def Conn.json (body : ErrorBody) (conn : Conn DateTime) : Option (Conn DateTime) :=
  if conn.sent = none then some { conn with sent := some (conn.status.getD 200, body) } else none

def Conn.halt (conn : Conn DateTime) : Conn DateTime := { conn with halted := true }

/-- A plug returns the connection for the next one, or raises. -/
abbrev Plug (DateTime : Type) := Conn DateTime → Option (Conn DateTime)

def sendError (lib : Elixir DateTime) (msg : String) : Plug DateTime := fun conn => do
  let conn ← conn.putStatus 400
  conn.json ⟨true, msg, lib.toString lib.utcNow⟩

def reject (lib : Elixir DateTime) (msg : String) : Plug DateTime := fun conn =>
  (sendError lib msg conn).map Conn.halt

def rejectValue (lib : Elixir DateTime) (msg : String) (given : Json) : Plug DateTime := fun conn => do
  let text ← interpolate given
  reject lib (msg ++ " [" ++ text ++ "]") conn

-- A clause that looks the value up, in front of the clause for requests without the parameter.
def lookUp (lib : Elixir DateTime) (parameter assigned : String)
    (meaning : Json → Option (Assigned DateTime)) (invalid : String) (missing : Plug DateTime) :
    Plug DateTime := fun conn =>
  match conn.params.value (.string parameter) with
  | some given =>
    match meaning given with
    | some value => some (conn.assign assigned value)
    | none => rejectValue lib invalid given conn
  | none => missing conn

def oneOf (values : List String) (assigned : String → Assigned DateTime) :
    Json → Option (Assigned DateTime)
  | .string s => if s ∈ values then some (assigned s) else none
  | _ => none

def observationLevels : List String := ["off", "default", "low", "high", "adversarial"]

def validObserveLevel (lib : Elixir DateTime) : Plug DateTime :=
  lookUp lib "level" "observation_level" (oneOf observationLevels .string) "Invalid observation level"
    (reject lib "Missing observation level")

def trustActions : List String := ["validate", "invalidate"]

def validTrustAction (lib : Elixir DateTime) : Plug DateTime :=
  lookUp lib "action" "trust_action" (oneOf trustActions .string) "Invalid trust action"
    (reject lib "Missing trust action")

def validateCommand : Json → Option (Assigned DateTime)
  | .string "canary" => some (.string "canary-validate")
  | .string "cross-validation" => some (.string "cross-validate")
  | _ => none

def validValidateAction (lib : Elixir DateTime) : Plug DateTime :=
  lookUp lib "action" "validate_action" validateCommand "Invalid validate action"
    (reject lib "Missing validate action")

def filterLevels : List String := ["everything", "debug", "info", "warning", "error", "event"]

def filterLevel : Json → Option (Assigned DateTime)
  | .null => some (.atom "everything")
  | given => oneOf filterLevels .atom given

def validLogLevel (lib : Elixir DateTime) : Plug DateTime :=
  lookUp lib "filter_level" "filter_level" filterLevel "Invalid log filter level"
    fun conn => some (conn.assign "filter_level" (.atom "everything"))

-- `String.to_atom` raises on a longer text.
def atomLimit : Nat := 255

def validFollow (lib : Elixir DateTime) : Plug DateTime := fun conn =>
  match conn.params.value (.string "follow") with
  | some (.string follow) =>
    if atomLimit < (lib.downcase follow).length then none
    else if lib.downcase follow = "true" then some (conn.assign "follow_log" (.boolean true))
    else if lib.downcase follow = "false" then some (conn.assign "follow_log" (.boolean false))
    -- The only error branch without a halt.
    else sendError lib ("Invalid value for follow [" ++ follow ++ "]") conn
  | some _ => none
  | none => some (conn.assign "follow_log" (.boolean false))

-- `none` for an error that the `case` has no clause for.
def DateError.msg : DateError → Option String
  | .invalidFormat => some "Invalid format of since parameter"
  | .missingOffset => some "Missing TZ offset in since parameter"
  | .invalidTime => some "Invalid time specified in since parameter"
  | .invalidDate => some "Invalid date specified in since parameter"
  | .other _ => none

def validSince (lib : Elixir DateTime) : Plug DateTime := fun conn =>
  match conn.params.value (.string "since") with
  | some since =>
    match lib.fromIso8601 since with
    | some (.ok dt) => some (conn.assign "since_datetime" (.dateTime dt))
    | some (.error error) => do
      let msg ← error.msg
      rejectValue lib msg since conn
    | none => none
  | none => some (conn.assign "since_datetime" (.dateTime lib.utcNow))

-- `String.downcase` comes in front of the branch for `nil` and raises on it.
def normalised (lib : Elixir DateTime) (key : MapKey) (values : List String)
    (assigned fallback invalid : String) : Plug DateTime := fun conn =>
  match conn.params.value key with
  | some (.string raw) =>
    if lib.downcase raw ∈ values then some (conn.assign assigned (.string (lib.downcase raw)))
    else rejectValue lib invalid (.string (lib.downcase raw)) conn
  | some _ => none
  | none => some (conn.assign assigned (.string fallback))

def sensorOs : List String := ["linux", "windows", "nt", "rump"]

def validComponentOs (lib : Elixir DateTime) : Plug DateTime :=
  normalised lib (.string "os") sensorOs "component_os" "linux" "Invalid component os"

-- The pattern is `%{"context": raw_context}`, whose key is an atom, as in the next plug.
def validComponentContext (lib : Elixir DateTime) : Plug DateTime :=
  normalised lib (.atom "context") ["virtue", "unikernel", "hypervisor"] "component_context" "virtue"
    "Invalid component context"

def validConfigurationLevel (lib : Elixir DateTime) : Plug DateTime :=
  normalised lib (.atom "level") observationLevels "configuration_level" "default"
    "Invalid configuration level"

-- A controller runs its plugs up to the first that halts.
def pipe : List (Plug DateTime) → Plug DateTime
  | [], conn => some conn
  | plug :: rest, conn =>
    match plug conn with
    | some after => if after.halted then some after else pipe rest after
    | none => none

section Errors

variable {lib : Elixir DateTime} {conn after : Conn DateTime} {msg text : String} {given : Json}

def Conn.answered (conn : Conn DateTime) (body : ErrorBody) : Conn DateTime :=
  { conn with status := some 400, sent := some (400, body) }

def errorBody (lib : Elixir DateTime) (msg : String) : ErrorBody :=
  ⟨true, msg, lib.toString lib.utcNow⟩

theorem sendError_unsent (unsent : conn.sent = none) :
    sendError lib msg conn = some (conn.answered (errorBody lib msg)) := by
  simp [sendError, Conn.putStatus, Conn.json, Conn.answered, errorBody, unsent]

theorem reject_unsent (unsent : conn.sent = none) :
    reject lib msg conn = some (conn.answered (errorBody lib msg)).halt := by
  simp [reject, sendError_unsent unsent]

theorem rejectValue_unsent (unsent : conn.sent = none) (shown : interpolate given = some text) :
    rejectValue lib msg given conn =
      some (conn.answered (errorBody lib (msg ++ " [" ++ text ++ "]"))).halt := by
  simp [rejectValue, shown, reject_unsent unsent]

theorem reject_halts (ran : reject lib msg conn = some after) : after.halted = true := by
  obtain ⟨answered, -, rfl⟩ := Option.map_eq_some_iff.mp ran
  rfl

theorem rejectValue_halts (ran : rejectValue lib msg given conn = some after) :
    after.halted = true := by
  obtain ⟨text, -, rejected⟩ := Option.bind_eq_some_iff.mp ran
  exact reject_halts rejected

end Errors

section Documentation

/-- What the documentation of a plug says: the value that a parameter stands for, if it is in the set
of the plug, and the one for a request without the parameter, if there is a default. -/
structure Documentation (DateTime : Type) where
  parameter : String
  assigned : String
  means : Json → Assigned DateTime → Prop
  fallback : Option (Assigned DateTime)

inductive Documentation.Expects (doc : Documentation DateTime) (params : RequestParams) :
    Assigned DateTime → Prop where
  | given {given : Json} {value : Assigned DateTime}
      (present : params.value (.string doc.parameter) = some given) (means : doc.means given value) :
      doc.Expects params value
  | absent {value : Assigned DateTime} (missing : params.value (.string doc.parameter) = none)
      (fallback : doc.fallback = some value) : doc.Expects params value

/-- The connection goes on with the expected value. Where there is none it is answered with an error,
as far as the value is one that the plug can refuse. -/
structure Validates (doc : Documentation DateTime) (refusable : Json → Prop) (plug : Plug DateTime)
    (conn : Conn DateTime) : Prop where
  accepts : ∀ value, doc.Expects conn.params value → plug conn = some (conn.assign doc.assigned value)
  answers : (∀ value, ¬ doc.Expects conn.params value) →
    (∀ given, conn.params.value (.string doc.parameter) = some given → refusable given) →
    ∃ body halted, body.error = true ∧ plug conn = some { conn.answered body with halted := halted }

/-- No connection goes on that the plug has answered. -/
def HaltsAnswered (plug : Plug DateTime) : Prop :=
  ∀ conn after, conn.sent = none → plug conn = some after → after.sent = none ∨ after.halted = true

def Shown (given : Json) : Prop := ∃ text, interpolate given = some text

end Documentation

section Plugs

variable {lib : Elixir DateTime} {conn : Conn DateTime} {parameter assigned invalid : String}
  {meaning : Json → Option (Assigned DateTime)} {missing : Plug DateTime}

def named (values : List String) (assigned : String → Assigned DateTime) (given : Json)
    (value : Assigned DateTime) : Prop :=
  ∃ s ∈ values, given = .string s ∧ value = assigned s

theorem oneOf_eq_some_iff {values : List String} {assigned : String → Assigned DateTime} {given : Json}
    {value : Assigned DateTime} :
    oneOf values assigned given = some value ↔ named values assigned given value := by
  constructor
  · intro found
    cases given with
    | string s =>
      simp only [oneOf, Option.ite_none_right_eq_some, Option.some.injEq] at found
      exact ⟨s, found.1, rfl, found.2.symm⟩
    | _ => simp [oneOf] at found
  · rintro ⟨s, mem, rfl, rfl⟩
    simp [oneOf, mem]

theorem lookUp_accepts {doc : Documentation DateTime} {value : Assigned DateTime}
    (same : ∀ given value, meaning given = some value ↔ doc.means given value)
    (absent : ∀ value, doc.fallback = some value → missing conn = some (conn.assign doc.assigned value))
    (expected : doc.Expects conn.params value) :
    lookUp lib doc.parameter doc.assigned meaning invalid missing conn =
      some (conn.assign doc.assigned value) := by
  unfold lookUp
  cases expected with
  | given present means => simp only [present, (same _ _).mpr means]
  | absent lacking fallback => simpa only [lacking] using absent value fallback

theorem lookUp_answers {doc : Documentation DateTime} (unsent : conn.sent = none)
    (same : ∀ given value, meaning given = some value ↔ doc.means given value)
    (absent : doc.fallback = none → ∃ msg, missing = reject lib msg)
    (unexpected : ∀ value, ¬ doc.Expects conn.params value)
    (shown : ∀ given, conn.params.value (.string doc.parameter) = some given → Shown given) :
    ∃ body halted, body.error = true ∧
      lookUp lib doc.parameter doc.assigned meaning invalid missing conn =
        some { conn.answered body with halted := halted } := by
  unfold lookUp
  cases present : conn.params.value (.string doc.parameter) with
  | some given =>
    have meaningless : meaning given = none :=
      Option.eq_none_iff_forall_ne_some.mpr fun value found =>
        unexpected value (.given present ((same given value).mp found))
    obtain ⟨text, shown⟩ := shown given present
    simp only [meaningless]
    exact ⟨_, true, rfl, rejectValue_unsent unsent shown⟩
  | none =>
    have noDefault : doc.fallback = none :=
      Option.eq_none_iff_forall_ne_some.mpr fun value fallback =>
        unexpected value (.absent present fallback)
    obtain ⟨msg, rfl⟩ := absent noDefault
    exact ⟨_, true, rfl, reject_unsent unsent⟩

theorem lookUp_validates (doc : Documentation DateTime) (unsent : conn.sent = none)
    (same : ∀ given value, meaning given = some value ↔ doc.means given value)
    (default : ∀ value, doc.fallback = some value → missing conn = some (conn.assign doc.assigned value))
    (required : doc.fallback = none → ∃ msg, missing = reject lib msg) :
    Validates doc Shown (lookUp lib doc.parameter doc.assigned meaning invalid missing) conn where
  accepts _ := lookUp_accepts same default
  answers := lookUp_answers unsent same required

theorem lookUp_halts (absent : HaltsAnswered missing) :
    HaltsAnswered (lookUp lib parameter assigned meaning invalid missing) := by
  intro conn after unsent ran
  unfold lookUp at ran
  split at ran
  · split at ran
    · cases ran
      exact .inl unsent
    · exact .inr (rejectValue_halts ran)
  · exact absent conn after unsent ran

theorem reject_haltsAnswered (lib : Elixir DateTime) (msg : String) : HaltsAnswered (reject lib msg) :=
  fun _ _ _ ran => .inr (reject_halts ran)

theorem assign_haltsAnswered (key : String) (value : Assigned DateTime) :
    HaltsAnswered fun conn => some (conn.assign key value) := by
  rintro conn after unsent ran
  cases ran
  exact .inl unsent

def observeLevel : Documentation DateTime :=
  ⟨"level", "observation_level", named observationLevels .string, none⟩

def trustAction : Documentation DateTime :=
  ⟨"action", "trust_action", named trustActions .string, none⟩

/-- The commands that the two actions stand for. -/
def validateAction : Documentation DateTime where
  parameter := "action"
  assigned := "validate_action"
  means given value :=
    given = .string "canary" ∧ value = .string "canary-validate" ∨
      given = .string "cross-validation" ∧ value = .string "cross-validate"
  fallback := none

def logLevel : Documentation DateTime where
  parameter := "filter_level"
  assigned := "filter_level"
  means given value :=
    given = .null ∧ value = .atom "everything" ∨ named filterLevels .atom given value
  fallback := some (.atom "everything")

def follow (lib : Elixir DateTime) : Documentation DateTime where
  parameter := "follow"
  assigned := "follow_log"
  means given value :=
    ∃ s b, given = .string s ∧ lib.downcase s = toString b ∧ value = .boolean b
  fallback := some (.boolean false)

def since (lib : Elixir DateTime) : Documentation DateTime where
  parameter := "since"
  assigned := "since_datetime"
  means given value := ∃ dt, lib.fromIso8601 given = some (.ok dt) ∧ value = .dateTime dt
  fallback := some (.dateTime lib.utcNow)

def componentOs (lib : Elixir DateTime) : Documentation DateTime where
  parameter := "os"
  assigned := "component_os"
  means given value :=
    ∃ s, given = .string s ∧ lib.downcase s ∈ sensorOs ∧ value = .string (lib.downcase s)
  fallback := some (.string "linux")

theorem validateCommand_eq_some_iff (given : Json) (value : Assigned DateTime) :
    validateCommand given = some value ↔ validateAction.means given value := by
  unfold validateCommand validateAction
  split <;> simp_all [eq_comm]

theorem filterLevel_eq_some_iff (given : Json) (value : Assigned DateTime) :
    filterLevel given = some value ↔ logLevel.means given value := by
  cases given with
  | null => simp [filterLevel, logLevel, named, eq_comm]
  | _ => simp [filterLevel, logLevel, oneOf_eq_some_iff]

/-- Strings whose lower case is short enough for an atom. -/
def Atomic (lib : Elixir DateTime) (given : Json) : Prop :=
  ∃ s, given = .string s ∧ (lib.downcase s).length ≤ atomLimit

/-- Values with one of the four errors that have a message. -/
def Misdated (lib : Elixir DateTime) (given : Json) : Prop :=
  Shown given ∧ ∃ error msg, lib.fromIso8601 given = some (.error error) ∧ error.msg = some msg

def Text (given : Json) : Prop := ∃ s, given = .string s

theorem validObserveLevel_validates (lib : Elixir DateTime) (unsent : conn.sent = none) :
    Validates observeLevel Shown (validObserveLevel lib) conn :=
  lookUp_validates observeLevel unsent (fun _ _ => oneOf_eq_some_iff) (by simp [observeLevel])
    fun _ => ⟨_, rfl⟩

theorem validTrustAction_validates (lib : Elixir DateTime) (unsent : conn.sent = none) :
    Validates trustAction Shown (validTrustAction lib) conn :=
  lookUp_validates trustAction unsent (fun _ _ => oneOf_eq_some_iff) (by simp [trustAction])
    fun _ => ⟨_, rfl⟩

theorem validValidateAction_validates (lib : Elixir DateTime) (unsent : conn.sent = none) :
    Validates validateAction Shown (validValidateAction lib) conn :=
  lookUp_validates validateAction unsent validateCommand_eq_some_iff (by simp [validateAction])
    fun _ => ⟨_, rfl⟩

theorem validLogLevel_validates (lib : Elixir DateTime) (unsent : conn.sent = none) :
    Validates logLevel Shown (validLogLevel lib) conn :=
  lookUp_validates logLevel unsent filterLevel_eq_some_iff (by simp [logLevel]) (by simp [logLevel])

theorem validFollow_accepts {value : Assigned DateTime} (expected : (follow lib).Expects conn.params value) :
    validFollow lib conn = some (conn.assign "follow_log" value) := by
  unfold validFollow
  cases expected with
  | given present means =>
    obtain ⟨s, b, rfl, spelled, rfl⟩ := means
    have short : ¬ atomLimit < (lib.downcase s).length := by
      rw [spelled]
      cases b <;> decide
    simp only [follow] at present
    have spellings : toString true = "true" ∧ toString false = "false" := ⟨rfl, rfl⟩
    simp only [present, short, if_false]
    cases b <;> simp [spelled, spellings]
  | absent missing fallback =>
    simp only [follow, Option.some.injEq] at missing fallback
    simp only [missing, ← fallback]

theorem validFollow_refuses {s : String} (unsent : conn.sent = none)
    (present : conn.params.value (.string "follow") = some (.string s))
    (short : (lib.downcase s).length ≤ atomLimit) (neither : ∀ b : Bool, lib.downcase s ≠ toString b) :
    validFollow lib conn =
      some (conn.answered (errorBody lib ("Invalid value for follow [" ++ s ++ "]"))) := by
  have notTrue : lib.downcase s ≠ "true" := neither true
  have notFalse : lib.downcase s ≠ "false" := neither false
  simp only [validFollow, present, Nat.not_lt.mpr short, if_false, notTrue, notFalse]
  exact sendError_unsent unsent

theorem validFollow_validates (lib : Elixir DateTime) (unsent : conn.sent = none) :
    Validates (follow lib) (Atomic lib) (validFollow lib) conn where
  accepts _ := validFollow_accepts
  answers unexpected atomic := by
    cases present : conn.params.value (.string "follow") with
    | some given =>
      obtain ⟨s, rfl, short⟩ := atomic given present
      have neither (b : Bool) : lib.downcase s ≠ toString b := fun spelled =>
        unexpected (.boolean b) (.given present ⟨s, b, rfl, spelled, rfl⟩)
      exact ⟨_, conn.halted, rfl, validFollow_refuses unsent present short neither⟩
    | none => exact absurd (.absent present rfl) (unexpected (.boolean false))

theorem validSince_accepts {value : Assigned DateTime} (expected : (since lib).Expects conn.params value) :
    validSince lib conn = some (conn.assign "since_datetime" value) := by
  unfold validSince
  cases expected with
  | given present means =>
    obtain ⟨dt, dated, rfl⟩ := means
    simp only [since] at present
    simp only [present, dated]
  | absent missing fallback =>
    simp only [since, Option.some.injEq] at missing fallback
    simp only [missing, ← fallback]

theorem validSince_validates (lib : Elixir DateTime) (unsent : conn.sent = none) :
    Validates (since lib) (Misdated lib) (validSince lib) conn where
  accepts _ := validSince_accepts
  answers unexpected misdated := by
    unfold validSince
    cases present : conn.params.value (.string "since") with
    | some given =>
      obtain ⟨⟨text, shown⟩, error, msg, failed, worded⟩ := misdated given present
      simp only [failed, worded]
      exact ⟨_, true, rfl, rejectValue_unsent unsent shown⟩
    | none => exact absurd (.absent present rfl) (unexpected (.dateTime lib.utcNow))

theorem validComponentOs_validates (lib : Elixir DateTime) (unsent : conn.sent = none) :
    Validates (componentOs lib) Text (validComponentOs lib) conn where
  accepts value expected := by
    unfold validComponentOs normalised
    cases expected with
    | given present means =>
      obtain ⟨s, rfl, mem, rfl⟩ := means
      simp only [componentOs] at present
      simp only [present, mem, if_true, componentOs]
    | absent missing fallback =>
      simp only [componentOs, Option.some.injEq] at missing fallback
      simp only [missing, ← fallback, componentOs]
  answers unexpected textual := by
    unfold validComponentOs normalised
    cases present : conn.params.value (.string "os") with
    | some given =>
      obtain ⟨s, rfl⟩ := textual given present
      have outside : lib.downcase s ∉ sensorOs := fun mem =>
        unexpected _ (.given present ⟨s, rfl, mem, rfl⟩)
      simp only [outside, if_false]
      exact ⟨_, true, rfl, rejectValue_unsent unsent rfl⟩
    | none => exact absurd (.absent present rfl) (unexpected (.string "linux"))

theorem normalised_absent {key : MapKey} {values : List String} {fallback : String}
    (missing : conn.params.value key = none) :
    normalised lib key values assigned fallback invalid conn =
      some (conn.assign assigned (.string fallback)) := by
  simp only [normalised, missing]

-- No request has the key that the pattern asks for.
theorem validComponentContext_eq (lib : Elixir DateTime) (conn : Conn DateTime) :
    validComponentContext lib conn = some (conn.assign "component_context" (.string "virtue")) :=
  normalised_absent (conn.params.strings "context")

theorem validConfigurationLevel_eq (lib : Elixir DateTime) (conn : Conn DateTime) :
    validConfigurationLevel lib conn = some (conn.assign "configuration_level" (.string "default")) :=
  normalised_absent (conn.params.strings "level")

theorem downcaseChar_lower {c : Char} (lower : c.isLower) : lib.downcaseChar c = [c] := by
  have bounds : 97 ≤ c.toNat ∧ c.toNat ≤ 122 := by
    change (decide (c.val ≥ 'a'.val) && decide (c.val ≤ 'z'.val)) = true at lower
    simpa [UInt32.le_iff_toNat_le] using lower
  have notUpper : ¬ (c.val ≥ 'A'.val ∧ c.val ≤ 'Z'.val) := by
    simp only [ge_iff_le, UInt32.le_iff_toNat_le, Char.toNat_val, Char.reduceToNat]
    omega
  have small : c.toNat < 128 := by omega
  have same : c.toLower = c := dif_neg notUpper
  rw [Elixir.downcaseChar, if_pos small, same]

theorem downcase_lower {s : String} (lower : ∀ c ∈ s.toList, c.isLower) : lib.downcase s = s := by
  have kept : s.toList.flatMap lib.downcaseChar = s.toList.flatMap fun c => [c] :=
    List.flatMap_congr fun c mem => downcaseChar_lower (lower c mem)
  rw [Elixir.downcase, kept, List.flatMap_singleton', String.ofList_toList]

theorem downcase_sensorOs (lib : Elixir DateTime) : ∀ s ∈ sensorOs, lib.downcase s = s := by
  intro s mem
  apply downcase_lower
  simp only [sensorOs, List.mem_cons, List.not_mem_nil, or_false] at mem
  rcases mem with rfl | rfl | rfl | rfl <;> exact List.all_eq_true.mp rfl

end Plugs

section Halting

variable {lib : Elixir DateTime}

theorem validSince_halts (lib : Elixir DateTime) : HaltsAnswered (validSince lib) := by
  intro conn after unsent ran
  unfold validSince at ran
  split at ran
  · split at ran
    · cases ran
      exact .inl unsent
    · obtain ⟨msg, -, rejected⟩ := Option.bind_eq_some_iff.mp ran
      exact .inr (rejectValue_halts rejected)
    · cases ran
  · cases ran
    exact .inl unsent

theorem normalised_halts (lib : Elixir DateTime) (key : MapKey) (values : List String)
    (assigned fallback invalid : String) :
    HaltsAnswered (normalised lib key values assigned fallback invalid) := by
  intro conn after unsent ran
  unfold normalised at ran
  split at ran
  · split_ifs at ran
    · cases ran
      exact .inl unsent
    · exact .inr (rejectValue_halts ran)
  · cases ran
  · cases ran
    exact .inl unsent

/-- The plugs that halt the connection themselves: all but that for `follow`. -/
def haltingPlugs (lib : Elixir DateTime) : List (Plug DateTime) :=
  [validObserveLevel lib, validTrustAction lib, validValidateAction lib, validLogLevel lib,
    validSince lib, validComponentOs lib, validComponentContext lib, validConfigurationLevel lib]

theorem haltingPlugs_halt (lib : Elixir DateTime) : ∀ plug ∈ haltingPlugs lib, HaltsAnswered plug := by
  simp only [haltingPlugs, List.forall_mem_cons, List.not_mem_nil, false_implies, implies_true, and_true]
  exact ⟨lookUp_halts (reject_haltsAnswered lib _), lookUp_halts (reject_haltsAnswered lib _),
    lookUp_halts (reject_haltsAnswered lib _), lookUp_halts (assign_haltsAnswered _ _),
    validSince_halts lib, normalised_halts lib _ _ _ _ _, normalised_halts lib _ _ _ _ _,
    normalised_halts lib _ _ _ _ _⟩

end Halting

section Requests

/-- What is asked of a plug word for word: the connection is halted exactly if the parameter has a value
outside the set, and goes on with this value or the default. -/
def TakesAsGiven (values : List String) (fallback : Option (Assigned DateTime))
    (parameter assigned : String) (plug : Plug DateTime) (conn : Conn DateTime) : Prop :=
  ∃ after, plug conn = some after ∧
    (after.halted = true ↔ ∃ given, conn.params.value (.string parameter) = some given ∧
      ∀ s ∈ values, given ≠ .string s) ∧
    (after.halted = false → match conn.params.value (.string parameter) with
      | some given => ∃ s, given = .string s ∧ after.assigns assigned = some (.string s)
      | none => fallback.isSome ∧ after.assigns assigned = fallback)

/-- Plugs continue with what the documentation says of the value, or with the default, and answer with
an error otherwise; all that halt do so once they have answered. -/
theorem parameters_validated (lib : Elixir DateTime) (conn : Conn DateTime) (unsent : conn.sent = none) :
    Validates observeLevel Shown (validObserveLevel lib) conn ∧
    Validates trustAction Shown (validTrustAction lib) conn ∧
    Validates validateAction Shown (validValidateAction lib) conn ∧
    Validates logLevel Shown (validLogLevel lib) conn ∧
    Validates (follow lib) (Atomic lib) (validFollow lib) conn ∧
    Validates (since lib) (Misdated lib) (validSince lib) conn ∧
    Validates (componentOs lib) Text (validComponentOs lib) conn ∧
    (∀ s ∈ sensorOs, lib.downcase s = s) ∧
    (conn.params.value (.string "context") = none → validComponentContext lib conn =
      some (conn.assign "component_context" (.string "virtue"))) ∧
    (conn.params.value (.string "level") = none → validConfigurationLevel lib conn =
      some (conn.assign "configuration_level" (.string "default"))) ∧
    ∀ plug ∈ haltingPlugs lib, ∀ after, plug conn = some after →
      after.sent = none ∨ after.halted = true :=
  ⟨validObserveLevel_validates lib unsent, validTrustAction_validates lib unsent,
    validValidateAction_validates lib unsent, validLogLevel_validates lib unsent,
    validFollow_validates lib unsent, validSince_validates lib unsent,
    validComponentOs_validates lib unsent, downcase_sensorOs lib,
    fun _ => validComponentContext_eq lib conn, fun _ => validConfigurationLevel_eq lib conn,
    fun plug mem after => haltingPlugs_halt lib plug mem conn after unsent⟩

def request (given : String → Option Json) : Conn DateTime :=
  ⟨.ofStrings given, fun _ => none, none, none, false⟩

-- Only the times of one day are read, in seconds since its start.
def dayClock : Elixir Nat where
  fromIso8601 given :=
    match given with
    | .string "2018-05-01T00:00:10Z" => some (.ok 10)
    | _ => some (.error .invalidFormat)
  utcNow := 60
  toString _ := "2018-05-01 00:01:00Z"
  lowercase c := [c]

theorem canary_validated :
    validValidateAction dayClock (request fun name => if name = "action" then some (.string "canary") else none) =
      some ((request fun name => if name = "action" then some (.string "canary") else none).assign
        "validate_action" (.string "canary-validate")) :=
  (parameters_validated dayClock (request _) rfl).2.2.1.accepts _ (.given rfl (.inl ⟨rfl, rfl⟩))

-- A level has no default, and a validation is named otherwise in a request than in the command.
theorem canary_renamed :
    ¬ TakesAsGiven ["canary", "cross-validation"] none "action" "validate_action"
      (validValidateAction dayClock)
      (request fun name => if name = "action" then some (.string "canary") else none) ∧
    ¬ TakesAsGiven observationLevels none "level" "observation_level" (validObserveLevel dayClock)
      (request fun _ => none) := by
  constructor
  · rintro ⟨after, ran, -, continues⟩
    obtain rfl := Option.some.inj ran
    obtain ⟨s, given, assigned⟩ := continues rfl
    obtain rfl : "canary" = s := Json.string.inj given
    exact absurd (Assigned.string.inj (Option.some.inj assigned)) (by decide)
  · rintro ⟨after, ran, halts, -⟩
    obtain rfl := Option.some.inj ran
    obtain ⟨given, present, -⟩ := halts.mp rfl
    cases present

end Requests

end VirtueSensing.Api.ValidationPlug
