import VirtueSensing.Api.Sensors

set_option autoImplicit false

/-!
# Selecting sensors

`ApiServer.TargetingUtils.select_sensors_from_targeting` with the query of `ApiServer.Sensor`.
-/

namespace VirtueSensing.Api

def renameKey (targeting : Targeting) (old new : Key) : Targeting :=
  match targeting.lookup old with
  | some value => (new, value) :: targeting.filter fun entry => entry.1 ≠ old ∧ entry.1 ≠ new
  | none => targeting

def keywordTake (keys : List Key) (entries : Targeting) : Targeting :=
  entries.filter fun entry => entry.1 ∈ keys

/-- One equality of a `where`. A value is cast to the type of its column; `nil` raises, and so does a
value that cannot be cast. -/
def columnEquals : Key × Json → Option (Sensor → Bool)
  | (.sensorId, .string st) => some fun sensor => sensor.sensorId = some st
  | (.virtueId, .string st) => some fun sensor => sensor.virtueId = some st
  | (.username, .string st) => some fun sensor => sensor.username = some st
  | (.address, .string st) => some fun sensor => sensor.address = some st
  | (.publicKey, .string st) => some fun sensor => sensor.publicKey = some st
  | (.port, .integer n) => some fun sensor => sensor.port = some n
  | (.port, .string text) =>
    match integerParse text.toList with
    | some (n, []) => some fun sensor => sensor.port = some n
    | _ => none
  | _ => none

def whereAll (entries : Targeting) : Option (Sensor → Bool) :=
  (entries.mapM columnEquals).map fun conditions sensor => conditions.all fun holds => holds sensor

inductive Records where
  | noMatches
  | records (sensors : List (Nat × SensorRow))

def getMany (targeting : Targeting) (sensors : Table SensorRow) : Option Records :=
  (whereAll (keywordTake [.sensorId, .virtueId, .publicKey, .address, .port, .username] targeting)).map
    fun holds =>
      match sensors.select fun row => holds row.toSensor with
      | [] => .noMatches
      | rows => .records rows

def selectSensorsFromTargeting (rawTargeting : Targeting) (sensors : Table SensorRow) :
    Option (List (Nat × SensorRow)) :=
  let targeting := renameKey (renameKey rawTargeting .virtue .virtueId) .sensor .sensorId
  (getMany targeting sensors).map fun
    | .noMatches => []
    | .records rows => rows

-- The column that a selector speaks about. The table has none for the other selectors.
def Selector.column : Selector → Option (Sensor → Option String)
  | .virtue => some Sensor.virtueId
  | .user => some Sensor.username
  | .address => some Sensor.address
  | .sensor => some Sensor.sensorId
  | _ => none

/-- A sensor satisfies a selector; `other` says what a selector without a column means. -/
def Satisfies (other : Selector → Json → Sensor → Prop) (sensor : Sensor) (selector : Selector)
    (value : Json) : Prop :=
  match selector.column with
  | some column => ∃ st, value = .string st ∧ column sensor = some st
  | none => other selector value sensor

def SatisfiesAll (other : Selector → Json → Sensor → Prop) (params : Params)
    (selectors : List Selector) (sensor : Sensor) : Prop :=
  ∀ selector ∈ selectors, ∀ value, params selector = some value →
    Satisfies other sensor selector value

def columned (group : List Selector) : List Selector :=
  group.filter fun selector => selector.column.isSome

theorem mem_columned {selector : Selector} {group : List Selector} :
    selector ∈ columned group ↔ selector ∈ group ∧ selector.column.isSome :=
  List.mem_filter

def Selector.columnKey : Selector → Key
  | .virtue => .virtueId
  | .sensor => .sensorId
  | selector => selector.key

def columnEntries (params : Params) (selectors : List Selector) : Targeting :=
  selectors.filterMap fun selector => (params selector).map fun value => (selector.columnKey, value)

theorem selectSensors_eq (targeting : Targeting) (sensors : Table SensorRow) :
    selectSensorsFromTargeting targeting sensors =
      (whereAll (keywordTake [.sensorId, .virtueId, .publicKey, .address, .port, .username]
        (renameKey (renameKey targeting .virtue .virtueId) .sensor .sensorId))).map
          fun holds => sensors.select fun row => holds row.toSensor := by
  unfold selectSensorsFromTargeting getMany
  rw [Option.map_map]
  congr 1
  funext holds
  cases found : sensors.select fun row => holds row.toSensor <;> simp [found]

theorem keywordTake_group {params : Params} {group : List Selector}
    (wins : winningGroup params = some group) :
    keywordTake [.sensorId, .virtueId, .publicKey, .address, .port, .username]
      (renameKey (renameKey (groupTargeting params group) .virtue .virtueId) .sensor .sensorId) =
    columnEntries params (columned group) := by
  obtain ⟨value, given⟩ : ∃ value : Selector → Json, ∀ selector ∈ group,
      params selector = some (value selector) := by
    refine ⟨fun selector => (params selector).getD .null, fun selector mem => ?_⟩
    obtain ⟨found, present⟩ := winningGroup_present wins mem
    simp [present]
  have listed := winningGroup_mem wins
  simp only [precedence, List.mem_cons, List.not_mem_nil, or_false] at listed
  rcases listed with rfl | rfl | rfl | rfl | rfl | rfl | rfl | rfl | rfl | rfl | rfl
  all_goals
    simp only [List.mem_cons, List.not_mem_nil, or_false, forall_eq_or_imp, forall_eq] at given
    simp only [groupTargeting, columnEntries, columned, Selector.column, Option.isSome, List.filter,
      List.filterMap_cons, List.filterMap_nil, given, Option.map_some]
    rfl

theorem columnEquals_string {selector : Selector} {column : Sensor → Option String}
    (known : selector.column = some column) (st : String) :
    columnEquals (selector.columnKey, .string st) = some fun sensor => decide (column sensor = some st) := by
  cases selector <;> simp_all [Selector.column, Selector.columnKey, Selector.key, columnEquals]

theorem whereAll_columnEntries (other : Selector → Json → Sensor → Prop) {params : Params}
    {selectors : List Selector} (known : ∀ selector ∈ selectors, selector.column.isSome)
    (strings : ∀ selector ∈ selectors, ∃ st, params selector = some (.string st)) :
    ∃ holds, whereAll (columnEntries params selectors) = some holds ∧
      ∀ sensor, holds sensor ↔ SatisfiesAll other params selectors sensor := by
  induction selectors with
  | nil => exact ⟨fun _ => true, rfl, by simp [SatisfiesAll]⟩
  | cons selector rest ih =>
    rw [List.forall_mem_cons] at known strings
    obtain ⟨column, here⟩ := Option.isSome_iff_exists.mp known.1
    obtain ⟨st, value⟩ := strings.1
    obtain ⟨holds, queried, meaning⟩ := ih known.2 strings.2
    obtain ⟨conditions, mapped, rfl⟩ := Option.map_eq_some_iff.mp queried
    refine ⟨fun sensor => decide (column sensor = some st) && conditions.all fun holds => holds sensor,
      ?_, fun sensor => ?_⟩
    · have entry : columnEntries params (selector :: rest) =
          (selector.columnKey, .string st) :: columnEntries params rest := by
        simp [columnEntries, value]
      rw [entry, whereAll, List.mapM_cons, columnEquals_string here, mapped]
      rfl
    · have first : Satisfies other sensor selector (.string st) ↔ column sensor = some st := by
        simp [Satisfies, here]
      simp only [Bool.and_eq_true, decide_eq_true_eq, meaning, SatisfiesAll, List.forall_mem_cons,
        value, Option.some.injEq, forall_eq', first]

def LooseUser (params : Params) (group : List Selector) : Prop :=
  group = [.user] ∧ ∀ st, params .user ≠ some (.string st)

theorem strings_or_loose {params : Params} {targeting : Targeting} {group : List Selector}
    (accepted : Accepted params targeting group) (range : group ≠ [.cidr]) :
    (∀ selector ∈ group, ∃ st, params selector = some (.string st)) ∨ LooseUser params group := by
  rcases accepted.strings with strings | rfl | rfl
  · exact .inl strings
  · by_cases text : ∃ st, params .user = some (.string st)
    · exact .inl (by simpa using text)
    · exact .inr ⟨rfl, not_exists.mp text⟩
  · exact absurd rfl range

section Selected

variable {params : Params} {targeting : Targeting} {group : List Selector}

theorem selectSensors_raises (accepted : Accepted params targeting group)
    (loose : LooseUser params group) (sensors : Table SensorRow) :
    selectSensorsFromTargeting targeting sensors = none := by
  obtain ⟨rfl, noString⟩ := loose
  obtain ⟨value, given⟩ := winningGroup_present accepted.wins (List.mem_singleton_self Selector.user)
  have raises : columnEquals (.username, value) = none := by
    cases value with
    | string st => exact absurd given (noString st)
    | _ => rfl
  rw [selectSensors_eq, accepted.taken, keywordTake_group accepted.wins]
  simp [columned, Selector.column, columnEntries, given, Selector.columnKey, Selector.key, whereAll,
    raises]

theorem selectSensors_columned (other : Selector → Json → Sensor → Prop)
    (accepted : Accepted params targeting group) (strict : ¬ LooseUser params group) :
    ∃ holds : Sensor → Bool, (∀ sensors, selectSensorsFromTargeting targeting sensors =
        some (sensors.select fun row => holds row.toSensor)) ∧
      ∀ sensor, holds sensor ↔ SatisfiesAll other params (columned group) sensor := by
  have strings : ∀ selector ∈ columned group, ∃ st, params selector = some (.string st) := by
    by_cases range : group = [.cidr]
    · simp [range, columned, Selector.column]
    · have all := (strings_or_loose accepted range).resolve_right strict
      exact fun selector mem => all selector (mem_columned.mp mem).1
  obtain ⟨holds, queried, meaning⟩ := whereAll_columnEntries other
    (fun selector mem => (mem_columned.mp mem).2) strings
  refine ⟨holds, fun sensors => ?_, meaning⟩
  rw [selectSensors_eq, accepted.taken, keywordTake_group accepted.wins, queried]
  rfl

theorem selected_iff (other : Selector → Json → Sensor → Prop)
    (accepted : Accepted params targeting group) {sensors : Table SensorRow}
    {entries : List (Nat × SensorRow)}
    (selected : selectSensorsFromTargeting targeting sensors = some entries) (entry : Nat × SensorRow) :
    entry ∈ entries ↔
      entry ∈ sensors.rows ∧ SatisfiesAll other params (columned group) entry.2.toSensor := by
  by_cases loose : LooseUser params group
  · simp [selectSensors_raises accepted loose] at selected
  · obtain ⟨holds, selects, meaning⟩ := selectSensors_columned other accepted loose
    obtain rfl := Option.some.inj ((selects sensors).symm.trans selected)
    rw [Table.mem_select, meaning]

theorem mapM_interpolate (lib : Libraries) {targeting : Targeting}
    (strings : ∀ entry ∈ targeting, ∃ st, entry.2 = .string st) :
    ∃ texts, targeting.mapM (fun entry => lib.interpolate entry.2) = some texts := by
  induction targeting with
  | nil => exact ⟨[], rfl⟩
  | cons entry rest ih =>
    rw [List.forall_mem_cons] at strings
    obtain ⟨st, value⟩ := strings.1
    obtain ⟨texts, printed⟩ := ih strings.2
    exact ⟨st :: texts, by simp [value, lib.interpolate_string, printed]⟩

theorem printed_of_selected (lib : Libraries) (accepted : Accepted params targeting group)
    (range : group ≠ [.cidr]) {sensors : Table SensorRow} {entries : List (Nat × SensorRow)}
    (selected : selectSensorsFromTargeting targeting sensors = some entries) :
    ∃ texts, targeting.mapM (fun entry => lib.interpolate entry.2) = some texts := by
  rcases strings_or_loose accepted range with strings | loose
  · refine mapM_interpolate lib fun entry mem => ?_
    rw [accepted.taken, groupTargeting, List.mem_filterMap] at mem
    obtain ⟨selector, inGroup, made⟩ := mem
    obtain ⟨st, value⟩ := strings selector inGroup
    rw [value] at made
    obtain rfl := Option.some.inj made
    exact ⟨st, rfl⟩
  · rw [selectSensors_raises accepted loose] at selected
    cases selected

end Selected

end VirtueSensing.Api
