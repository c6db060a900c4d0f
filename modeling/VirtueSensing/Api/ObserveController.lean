import VirtueSensing.Api.ActuationOutcomes
import VirtueSensing.Api.Targeting

set_option autoImplicit false

/-!
# The observe controller

A request from its parameters to the sensors that are told.
-/

namespace VirtueSensing.Api

open Actuation (Fleet)

-- The targeting is printed before the selection, and what raises before the loop writes nothing.
def ObserveController.observe (lib : Libraries) (env : Actuation.Surroundings) (level : String)
    (targeting : Targeting) (fleet : Fleet) : Option (Nat × Nat) × Fleet :=
  match targeting.mapM fun entry => lib.interpolate entry.2,
    selectSensorsFromTargeting targeting fleet.sensors with
  | some _, some entries => Actuation.observe env level entries fleet
  | _, _ => (none, fleet)

/-- The sensors of a list are told one after another, up to the end or to the first that raises, and no
other one is told or written. -/
structure Actuates (env : Actuation.Surroundings) (level : String) (fleet : Fleet)
    (entries : List (Nat × SensorRow)) (result : Option (Nat × Nat) × Fleet) : Prop where
  told : ∃ handled, handled <+: entries ∧
    result.2.requests = fleet.requests ++ handled.flatMap (Actuation.asked env level) ∧
    (result.1.isSome → handled = entries)
  spared : ∀ id, id ∉ entries.map Prod.fst → Actuation.reading result.2 id = Actuation.reading fleet id

theorem actuate_ends {env : Actuation.Surroundings} {level : String} {entry : Nat × SensorRow} {fleet left : Fleet}
    {result : Except Unit (Except Actuation.ActuationError Unit)}
    (ran : Actuation.actuate env level entry fleet = (result, left)) :
    (left = fleet ∨ left = Actuation.effect env level entry fleet) ∧
      ∀ outcome, result = .ok outcome → left = Actuation.effect env level entry fleet := by
  by_cases completes : Actuation.Completes env level entry
  · rw [Actuation.actuate_completes completes] at ran
    obtain ⟨rfl, rfl⟩ := Prod.mk.inj ran
    exact ⟨.inr rfl, fun _ _ => rfl⟩
  · obtain ⟨stopped, raised, either⟩ := Actuation.actuate_error completes fleet
    rw [raised] at ran
    obtain ⟨rfl, rfl⟩ := Prod.mk.inj ran
    exact ⟨either, nofun⟩

theorem observe_actuates (env : Actuation.Surroundings) (level : String) (fleet : Fleet)
    (entries : List (Nat × SensorRow)) :
    Actuates env level fleet entries (Actuation.observe env level entries fleet) := by
  obtain ⟨handled, begins, left, whole⟩ :=
    Attempt.each_ends (Actuation.actuate env level) (Actuation.effect env level)
      (fun _ _ _ _ ran => (actuate_ends ran).2 _ rfl) (fun _ _ _ _ ran => (actuate_ends ran).1)
      entries fleet
  have ended : (Actuation.observe env level entries fleet).2 =
      handled.foldl (fun fleet entry => Actuation.effect env level entry fleet) fleet := by
    rw [← left, Actuation.observe]
    split <;> next ran => rw [ran]
  constructor
  · refine ⟨handled, begins, by rw [ended, Actuation.requests_foldl], fun answered => ?_⟩
    unfold Actuation.observe at answered
    split at answered
    · next outcomes after ran => exact whole outcomes (by rw [ran])
    · cases answered
  · intro id absent
    rw [ended]
    refine Attempt.foldl_untouched (Actuation.reading_effect env level) handled fleet fun mem => ?_
    exact absent ((begins.sublist.map Prod.fst).subset mem)

/-- What a request selects and actuates by its winning group. -/
structure SelectsGroup (lib : Libraries) (other : Selector → Json → Sensor → Prop) (params : Params)
    (targeting : Targeting) (group : List Selector) : Prop where
  wins : winningGroup params = some group
  returns : ∀ sensors, (∃ entries, selectSensorsFromTargeting targeting sensors = some entries) ∨
    LooseUser params group
  sound : ∀ sensors entries, selectSensorsFromTargeting targeting sensors = some entries →
    ∀ entry ∈ entries,
      entry ∈ sensors.rows ∧ SatisfiesAll other params (columned group) entry.2.toSensor
  complete : columned group = group → ∀ sensors entries,
    selectSensorsFromTargeting targeting sensors = some entries →
      ∀ entry, entry ∈ entries ↔
        entry ∈ sensors.rows ∧ SatisfiesAll other params group entry.2.toSensor
  actuated : ∀ (env : Actuation.Surroundings) level fleet entries,
    selectSensorsFromTargeting targeting fleet.sensors = some entries →
      Actuates env level fleet entries (ObserveController.observe lib env level targeting fleet)
  answered : group ≠ [.cidr] → ∀ (env : Actuation.Surroundings) level fleet entries,
    selectSensorsFromTargeting targeting fleet.sensors = some entries →
      ((ObserveController.observe lib env level targeting fleet).1.isSome ↔
        ∀ entry ∈ entries, Actuation.Completes env level entry)

theorem observe_answers (env : Actuation.Surroundings) (level : String) (fleet : Fleet)
    (entries : List (Nat × SensorRow)) : (Actuation.observe env level entries fleet).1.isSome ↔
      ∀ entry ∈ entries, Actuation.Completes env level entry := by
  constructor
  · intro answered entry member
    by_contra stuck
    rw [Actuation.observe_raised member stuck] at answered
    exact absurd answered nofun
  · intro completes
    rw [Actuation.observe_completes completes]
    rfl

theorem selectsGroup_of_accepted (lib : Libraries) (other : Selector → Json → Sensor → Prop)
    {params : Params} {targeting : Targeting} {group : List Selector}
    (accepted : Accepted params targeting group) :
    SelectsGroup lib other params targeting group where
  wins := accepted.wins
  returns sensors := by
    by_cases loose : LooseUser params group
    · exact .inr loose
    · obtain ⟨holds, selects, -⟩ := selectSensors_columned other accepted loose
      exact .inl ⟨_, selects sensors⟩
  sound sensors entries selected entry mem := (selected_iff other accepted selected entry).mp mem
  complete known sensors entries selected entry := by
    have exactly := selected_iff other accepted selected entry
    rwa [known] at exactly
  actuated env level fleet entries selected := by
    cases printed : targeting.mapM fun entry => lib.interpolate entry.2 with
    | none =>
      rw [ObserveController.observe, printed]
      exact ⟨⟨[], List.nil_prefix, (List.append_nil _).symm, nofun⟩, fun _ _ => rfl⟩
    | some texts =>
      rw [ObserveController.observe, printed, selected]
      exact observe_actuates env level fleet entries
  answered range env level fleet entries selected := by
    obtain ⟨texts, printed⟩ := printed_of_selected lib accepted range selected
    rw [ObserveController.observe, printed, selected]
    exact observe_answers env level fleet entries

/-- A request selects by its winning group alone, and a request whose winning group has more
selectors selects no other sensors. -/
theorem targeting_selects_winning_group (lib : Libraries)
    (other : Selector → Json → Sensor → Prop) {params : Params} {targeting : Targeting}
    (extracted : extractTargeting lib params = .targeting targeting) :
    ∃ group, SelectsGroup lib other params targeting group ∧
      ∀ params' targeting' group', extractTargeting lib params' = .targeting targeting' →
        winningGroup params' = some group' →
        (∀ selector ∈ group, selector ∈ group' ∧ params' selector = params selector) →
        ∀ sensors entries entries', selectSensorsFromTargeting targeting sensors = some entries →
          selectSensorsFromTargeting targeting' sensors = some entries' →
          ∀ entry ∈ entries', entry ∈ entries := by
  obtain ⟨group, accepted⟩ := extractTargeting_accepted extracted
  refine ⟨group, selectsGroup_of_accepted lib other accepted, ?_⟩
  intro params' targeting' group' extracted' wins' more sensors entries entries' selected selected'
    entry mem
  obtain ⟨group'', accepted'⟩ := extractTargeting_accepted extracted'
  obtain rfl := Option.some.inj (wins'.symm.trans accepted'.wins)
  obtain ⟨inTable, meets⟩ := (selected_iff other accepted' selected' entry).mp mem
  refine (selected_iff other accepted selected entry).mpr ⟨inTable, fun selector known value given => ?_⟩
  obtain ⟨inGroup, column⟩ := mem_columned.mp known
  obtain ⟨inMore, same⟩ := more selector inGroup
  exact meets selector (mem_columned.mpr ⟨inMore, column⟩) value (same.trans given)

/-- The sensors that satisfy every selector of the request, whatever its group. -/
def SelectsExactly (other : Selector → Json → Sensor → Prop) (params : Params)
    (sensors : Table SensorRow) (entries : List (Nat × SensorRow)) : Prop :=
  ∀ entry, entry ∈ entries ↔ entry ∈ sensors.rows ∧
    ∀ selector value, params selector = some value →
      Satisfies other entry.2.toSensor selector value

section Sample

def sampleLibraries : Libraries where
  cidrParse := stringCheck fun st => st = "10.1.0.0/16"
  parseAddress st := st = "10.1.2.3"
  interpolate
    | .string st => some st
    | _ => none
  interpolate_string _ := rfl

def sampleSensor (name user : String) (port : Int) : SensorRow where
  sensorId := some name
  virtueId := some "v1"
  username := some user
  address := some "10.1.2.3"
  port := some port
  publicKey := none
  kafkaTopic := name
  hasCertificates := true
  hasRegistered := true
  componentId := none
  configurationId := none
  lastSyncAt := 0

def sampleSensors : Table SensorRow :=
  (Table.empty.insert (sampleSensor "ps" "alice" 11020)).insert (sampleSensor "lsof" "bob" 11021)

def sensorOnly : Params
  | .sensor => some (.string "ps")
  | _ => none

def virtueAndSensor : Params
  | .virtue => some (.string "v1")
  | selector => sensorOnly selector

theorem targeting_selects_sensor_only : ∃ group,
    SelectsGroup sampleLibraries (fun _ _ _ => True) sensorOnly [(.sensor, .string "ps")] group := by
  obtain ⟨group, selects, -⟩ := targeting_selects_winning_group sampleLibraries (fun _ _ _ => True)
    (show extractTargeting sampleLibraries sensorOnly = .targeting [(.sensor, .string "ps")] from rfl)
  exact ⟨group, selects⟩

theorem sensor_beside_virtue_ignored :
    extractTargeting sampleLibraries sensorOnly = .targeting [(.sensor, .string "ps")] ∧
    selectSensorsFromTargeting [(.sensor, .string "ps")] sampleSensors =
      some [(0, sampleSensor "ps" "alice" 11020)] ∧
    extractTargeting sampleLibraries virtueAndSensor = .targeting [(.virtue, .string "v1")] ∧
    selectSensorsFromTargeting [(.virtue, .string "v1")] sampleSensors = some sampleSensors.rows ∧
    ∀ other, ¬ SelectsExactly other virtueAndSensor sampleSensors sampleSensors.rows := by
  refine ⟨rfl, by decide, rfl, by decide, fun other exactly => ?_⟩
  obtain ⟨-, meets⟩ := (exactly (1, sampleSensor "lsof" "bob" 11021)).mp (by decide)
  obtain ⟨st, text, column⟩ := meets .sensor (.string "ps") rfl
  obtain rfl : "ps" = st := by simpa using text
  exact absurd column (by decide)

end Sample

end VirtueSensing.Api
