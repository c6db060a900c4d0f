import VirtueSensing.Api.Actuation

set_option autoImplicit false

/-!
# Stored and accepted configurations

The row of a sensor is written before the sensor answers and never taken back, so that the two agree
afterwards exactly where the sensor takes what was stored.
-/

namespace VirtueSensing.Api.Actuation

def configurationFor (env : Surroundings) (level : String) (row : SensorRow) : Lookup Configuration :=
  match loadedComponent env row with
  | none => .multipleMatches
  | some componentId => getConfiguration env.store componentId (levelParams level)

def Succeeds (env : Surroundings) (level : String) (entry : Nat × SensorRow) : Bool :=
  match configurationFor env level entry.2 with
  | .found _ _ => env.reaction entry.1 = .answered 200 false
  | _ => false

/-- Every selected sensor has the configuration stored that it last accepted, the answer counts the
sensors that took the level and those that did not, and every sensor with a configuration for the level
was told. -/
structure Consistent (env : Surroundings) (level : String) (entries : List (Nat × SensorRow))
    (result : Option (Nat × Nat) × Fleet) : Prop where
  stored : ∀ entry ∈ entries, ∃ row, result.2.sensors.find entry.1 = some row ∧
    row.configurationId = result.2.accepted entry.1
  reported : result.1 = some (entries.countP (Succeeds env level),
    entries.countP fun entry => !Succeeds env level entry)
  told : ∀ entry ∈ entries, ∀ configurationId configuration,
    configurationFor env level entry.2 = .found configurationId configuration →
    (entry.1, configurationId) ∈ result.2.requests

/-- The sensor is announced; if the level has a configuration, it is saved in a complete row and the
sensor takes it, or answers 404, 500 or with a printable reason where it runs that configuration
already; if the level has none, the sensor runs what is stored. -/
def Fits (env : Surroundings) (level : String) (accepted : Nat → Option Nat)
    (entry : Nat × SensorRow) : Prop :=
  (loadedConfiguration env entry.2).isSome ∧ env.announces entry.1 ∧
    match configurationFor env level entry.2 with
    | .multipleMatches => False
    | .noMatches => entry.2.configurationId = accepted entry.1
    | .found configurationId _ =>
      entry.2.complete ∧ (entry.2.configurationId = some configurationId ∨ env.saves entry.1) ∧
        match env.reaction entry.1 with
        | .answered status errorFlag =>
          if status = 200 then errorFlag = false
          else (status = 404 ∨ status = 500) ∧ accepted entry.1 = some configurationId
        | .lost printable taken => printable ∧ (taken ∨ accepted entry.1 = some configurationId)

-- What one actuation needs to come to an outcome, good or bad.
def Completes (env : Surroundings) (level : String) (entry : Nat × SensorRow) : Prop :=
  (loadedConfiguration env entry.2).isSome ∧ env.announces entry.1 ∧
    match configurationFor env level entry.2 with
    | .multipleMatches => False
    | .noMatches => True
    | .found configurationId _ =>
      entry.2.complete ∧ (entry.2.configurationId = some configurationId ∨ env.saves entry.1) ∧
        match env.reaction entry.1 with
        | .answered status _ => status = 200 ∨ status = 404 ∨ status = 500
        | .lost printable _ => printable

def outcome (env : Surroundings) (level : String) (entry : Nat × SensorRow) :
    Except ActuationError Unit :=
  match configurationFor env level entry.2 with
  | .found _ _ =>
    match env.reaction entry.1 with
    | .answered status _ =>
      if status = 200 then .ok () else if status = 404 then .error .unsupported else .error .status500
    | .lost _ _ => .error .transport
  | _ => .error .noSuchConfiguration

def effect (env : Surroundings) (level : String) (entry : Nat × SensorRow) (fleet : Fleet) : Fleet :=
  match configurationFor env level entry.2 with
  | .found configurationId _ =>
    { sensors :=
        if entry.2.configurationId = some configurationId then fleet.sensors
        else fleet.sensors.update entry.1 fun row => { row with configurationId := some configurationId }
      accepted :=
        if (env.reaction entry.1).accepts then
          Function.update fleet.accepted entry.1 (some configurationId)
        else fleet.accepted
      requests := fleet.requests ++ [(entry.1, configurationId)] }
  | _ => fleet

section Actuate

variable {env : Surroundings} {level : String} {id : Nat} {row : SensorRow} {fleet : Fleet}

theorem configurationFor_loaded {componentId : Nat}
    (loaded : loadedComponent env row = some componentId) :
    configurationFor env level row = getConfiguration env.store componentId (levelParams level) := by
  rw [configurationFor, loaded]

theorem loaded_of_found {answer : Lookup Configuration}
    (found : configurationFor env level row = answer) (single : answer ≠ .multipleMatches) :
    (loadedComponent env row).isSome := by
  cases loaded : loadedComponent env row with
  | none => exact absurd (by rw [← found, configurationFor, loaded]) single
  | some componentId => rfl

theorem announced_iff : announceSensorObservation env id row fleet = (.ok (), fleet) ↔
    (loadedComponent env row).isSome ∧ (loadedConfiguration env row).isSome ∧ env.announces id := by
  unfold announceSensorObservation Attempt.given
  split_ifs with announced
  · simp [announced]
  · simp [announced]

theorem announced_error (silent : ¬ ((loadedComponent env row).isSome ∧
    (loadedConfiguration env row).isSome ∧ env.announces id)) :
    announceSensorObservation env id row fleet = (.error (), fleet) := by
  unfold announceSensorObservation Attempt.given
  rw [if_neg silent]

theorem assignConfiguration_found {configurationId : Nat} {configuration : Configuration}
    (found : configurationFor env level row = .found configurationId configuration)
    (complete : row.complete) (saved : row.configurationId = some configurationId ∨ env.saves id) :
    assignConfiguration env level id row fleet =
      (.ok (some configurationId), { fleet with
        sensors :=
          if row.configurationId = some configurationId then fleet.sensors
          else fleet.sensors.update id fun row => { row with configurationId := some configurationId } }) := by
  obtain ⟨componentId, loaded⟩ := Option.isSome_iff_exists.mp (loaded_of_found found nofun)
  rw [configurationFor_loaded loaded] at found
  unfold assignConfiguration
  rw [loaded]
  dsimp only
  rw [found]
  dsimp only
  rw [if_neg (not_not.mpr complete)]
  by_cases same : row.configurationId = some configurationId
  · rw [if_pos same, if_pos same]
    rfl
  · have written : env.saves id := saved.resolve_left same
    rw [if_neg same, if_neg same]
    apply Attempt.bind_ok
    rw [saveConfiguration, if_pos written]

theorem assignConfiguration_error {configurationId : Nat} {configuration : Configuration}
    (found : configurationFor env level row = .found configurationId configuration)
    (refused : ¬ (row.complete ∧ (row.configurationId = some configurationId ∨ env.saves id))) :
    assignConfiguration env level id row fleet = (.error (), fleet) := by
  obtain ⟨componentId, loaded⟩ := Option.isSome_iff_exists.mp (loaded_of_found found nofun)
  rw [configurationFor_loaded loaded] at found
  unfold assignConfiguration
  rw [loaded]
  dsimp only
  rw [found]
  dsimp only
  by_cases complete : row.complete
  · rw [not_and, not_or] at refused
    obtain ⟨different, unsaved⟩ := refused complete
    rw [if_neg (not_not.mpr complete), if_neg different]
    apply Attempt.bind_error
    rw [saveConfiguration, if_neg unsaved]
  · rw [if_pos complete]
    rfl

theorem assignConfiguration_noMatches (nothing : configurationFor env level row = .noMatches) :
    assignConfiguration env level id row fleet = (.ok none, fleet) := by
  obtain ⟨componentId, loaded⟩ := Option.isSome_iff_exists.mp (loaded_of_found nothing nofun)
  rw [configurationFor_loaded loaded] at nothing
  unfold assignConfiguration
  rw [loaded]
  dsimp only
  rw [nothing]
  rfl

theorem assignConfiguration_multiple (several : configurationFor env level row = .multipleMatches) :
    assignConfiguration env level id row fleet = (.error (), fleet) := by
  unfold assignConfiguration
  cases loaded : loadedComponent env row with
  | none => rfl
  | some componentId =>
    rw [configurationFor_loaded loaded] at several
    dsimp only
    rw [several]
    rfl

def told (env : Surroundings) (id configurationId : Nat) (fleet : Fleet) : Fleet :=
  (sendRequest env id configurationId fleet).2

theorem putSensor_eq (configurationId : Nat) :
    putSensor env id configurationId fleet =
      (match env.reaction id with
        | .answered status _ =>
          if status = 200 then .ok (.ok ()) else if status = 404 then .ok (.error .unsupported)
          else if status = 500 then .ok (.error .status500) else .error ()
        | .lost printable _ => if printable then .ok (.error .transport) else .error (),
        told env id configurationId fleet) := by
  have sent : sendRequest env id configurationId fleet =
    (.ok (env.reaction id), told env id configurationId fleet) := rfl
  unfold putSensor
  rw [Attempt.bind_ok sent]
  cases env.reaction id with
  | lost printable accepted => cases printable <;> rfl
  | answered status errorFlag =>
    by_cases ok : status = 200
    · subst ok
      rfl
    · by_cases missing : status = 404
      · subst missing
        rfl
      · by_cases failed : status = 500
        · subst failed
          rfl
        · simp only [if_neg ok, if_neg missing, if_neg failed]
          rfl

theorem actuate_announced (announced : (loadedComponent env row).isSome ∧
    (loadedConfiguration env row).isSome ∧ env.announces id) :
    actuate env level (id, row) fleet = sensor env level id row fleet :=
  Attempt.bind_ok (announced_iff.mpr announced)

theorem sensor_assigned {configurationId : Nat} {saved : Fleet}
    (assigned : assignConfiguration env level id row fleet = (.ok (some configurationId), saved)) :
    sensor env level id row fleet = putSensor env id configurationId saved :=
  Attempt.bind_ok assigned

theorem actuate_completes {entry : Nat × SensorRow} (completes : Completes env level entry) :
    actuate env level entry fleet = (.ok (outcome env level entry), effect env level entry fleet) := by
  obtain ⟨id, row⟩ := entry
  obtain ⟨configured, announces, rest⟩ := completes
  dsimp only at configured announces rest
  unfold outcome effect
  dsimp only
  split at rest
  · exact rest.elim
  · next nothing =>
    have loaded := loaded_of_found nothing nofun
    rw [actuate_announced ⟨loaded, configured, announces⟩, nothing]
    exact Attempt.bind_ok (assignConfiguration_noMatches nothing)
  · next configurationId configuration found =>
    have loaded := loaded_of_found found nofun
    obtain ⟨complete, saved, answers⟩ := rest
    rw [actuate_announced ⟨loaded, configured, announces⟩,
      sensor_assigned (assignConfiguration_found found complete saved), putSensor_eq, found]
    cases reacts : env.reaction id with
    | answered status errorFlag =>
      rw [reacts] at answers
      rcases answers with rfl | rfl | rfl <;> simp [told, sendRequest, reacts]
    | lost printable taken =>
      rw [reacts] at answers
      simp [told, sendRequest, reacts, answers]

theorem actuate_error {entry : Nat × SensorRow} (stuck : ¬ Completes env level entry) (fleet : Fleet) :
    ∃ left, actuate env level entry fleet = (.error (), left) ∧
      (left = fleet ∨ left = effect env level entry fleet) := by
  obtain ⟨id, row⟩ := entry
  by_cases announced : (loadedComponent env row).isSome ∧ (loadedConfiguration env row).isSome ∧
      env.announces id
  · rw [actuate_announced announced]
    unfold Completes at stuck
    rw [not_and] at stuck
    replace stuck := stuck announced.2.1
    rw [not_and] at stuck
    replace stuck := stuck announced.2.2
    dsimp only at stuck
    split at stuck
    · next several => exact ⟨_, Attempt.bind_error (assignConfiguration_multiple several), .inl rfl⟩
    · exact absurd trivial stuck
    · next configurationId configuration found =>
      by_cases saved : row.complete ∧ (row.configurationId = some configurationId ∨ env.saves id)
      · rw [sensor_assigned (assignConfiguration_found found saved.1 saved.2), putSensor_eq]
        rw [not_and, not_and] at stuck
        have refused := stuck saved.1 saved.2
        refine ⟨_, Prod.ext ?_ rfl, .inr ?_⟩
        · cases reacts : env.reaction id with
          | answered status errorFlag =>
            rw [reacts] at refused
            simp only [not_or] at refused
            simp [refused]
          | lost printable taken =>
            rw [reacts] at refused
            have silent : printable = false := by simpa using refused
            simp [silent]
        · rw [effect, found]
          rfl
      · exact ⟨_, Attempt.bind_error (assignConfiguration_error found saved), .inl rfl⟩
  · exact ⟨_, Attempt.bind_error (announced_error announced), .inl rfl⟩

end Actuate

abbrev Reading := Option (Option Nat) × Option Nat

def reading (fleet : Fleet) (id : Nat) : Reading :=
  ((fleet.sensors.find id).map fun row => row.configurationId, fleet.accepted id)

def changed (env : Surroundings) (level : String) (entry : Nat × SensorRow) (here : Reading) : Reading :=
  match configurationFor env level entry.2 with
  | .found configurationId _ =>
    (if entry.2.configurationId = some configurationId then here.1
      else here.1.map fun _ => some configurationId,
      if (env.reaction entry.1).accepts then some configurationId else here.2)
  | _ => here

def asked (env : Surroundings) (level : String) (entry : Nat × SensorRow) : List (Nat × Nat) :=
  match configurationFor env level entry.2 with
  | .found configurationId _ => [(entry.1, configurationId)]
  | _ => []

theorem reading_effect (env : Surroundings) (level : String) (entry : Nat × SensorRow) (fleet : Fleet)
    (id : Nat) : reading (effect env level entry fleet) id =
      if id = entry.1 then changed env level entry (reading fleet id) else reading fleet id := by
  unfold effect changed
  split
  · next configurationId _ _ =>
    by_cases own : id = entry.1
    · by_cases same : entry.2.configurationId = some configurationId <;>
        by_cases taken : (env.reaction entry.1).accepts = true <;>
          simp [reading, own, same, taken, Table.find_update, Function.comp_def]
    · by_cases same : entry.2.configurationId = some configurationId <;>
        by_cases taken : (env.reaction entry.1).accepts = true <;>
          simp [reading, own, same, taken, Table.find_update]
  · rw [ite_self]

theorem requests_foldl (env : Surroundings) (level : String) (entries : List (Nat × SensorRow))
    (fleet : Fleet) :
    (entries.foldl (fun fleet entry => effect env level entry fleet) fleet).requests =
      fleet.requests ++ entries.flatMap (asked env level) := by
  induction entries generalizing fleet with
  | nil => simp
  | cons entry rest ih =>
    rw [List.foldl_cons, ih, List.flatMap_cons, ← List.append_assoc]
    congr 1
    unfold effect asked
    split <;> simp

section Observe

variable {env : Surroundings} {level : String} {fleet : Fleet} {entry : Nat × SensorRow}

theorem Fits.completes (fits : Fits env level fleet.accepted entry) : Completes env level entry := by
  obtain ⟨configured, announces, rest⟩ := fits
  refine ⟨configured, announces, ?_⟩
  split at rest
  · exact rest
  · trivial
  · obtain ⟨complete, saved, answers⟩ := rest
    refine ⟨complete, saved, ?_⟩
    split at answers
    · split_ifs at answers with ok
      · exact .inl ok
      · exact .inr answers.1
    · exact answers.1

theorem isOk_of_succeeds (succeeds : Succeeds env level entry) : (outcome env level entry).isOk := by
  unfold Succeeds at succeeds
  unfold outcome
  split at succeeds
  · rw [of_decide_eq_true succeeds]
    rfl
  · exact absurd succeeds nofun

theorem fits_iff (completes : Completes env level entry) : Fits env level fleet.accepted entry ↔
    (changed env level entry (some entry.2.configurationId, fleet.accepted entry.1)).1 =
        some (changed env level entry (some entry.2.configurationId, fleet.accepted entry.1)).2 ∧
      Succeeds env level entry = (outcome env level entry).isOk := by
  obtain ⟨configured, announces, rest⟩ := completes
  simp only [Fits, configured, announces, true_and]
  unfold changed Succeeds outcome
  cases found : configurationFor env level entry.2 with
  | multipleMatches =>
    rw [found] at rest
    exact rest.elim
  | noMatches => simp [Except.isOk, Except.toBool]
  | found configurationId configuration =>
    rw [found] at rest
    obtain ⟨complete, saved, answers⟩ := rest
    have stored : (if entry.2.configurationId = some configurationId then some entry.2.configurationId
        else (some entry.2.configurationId).map fun _ => some configurationId) =
        some (some configurationId) := by
      split_ifs with same
      · rw [same]
      · rfl
    simp only [complete, saved, stored, true_and, Option.some.injEq]
    cases reacts : env.reaction entry.1 with
    | answered status errorFlag =>
      rw [reacts] at answers
      rcases answers with rfl | rfl | rfl
      · cases errorFlag <;> simp [Reaction.accepts, Except.isOk, Except.toBool]
      · simp [Reaction.accepts, Except.isOk, Except.toBool, eq_comm]
      · simp [Reaction.accepts, Except.isOk, Except.toBool, eq_comm]
    | lost printable taken =>
      rw [reacts] at answers
      cases taken <;> simp [answers, Reaction.accepts, Except.isOk, Except.toBool, eq_comm]

theorem observe_completes {entries : List (Nat × SensorRow)}
    (completes : ∀ entry ∈ entries, Completes env level entry) :
    observe env level entries fleet =
      (some (entries.countP fun entry => (outcome env level entry).isOk,
        entries.countP fun entry => !(outcome env level entry).isOk),
        entries.foldl (fun fleet entry => effect env level entry fleet) fleet) := by
  have passed : ∀ entry ∈ entries, ∀ fleet, actuate env level entry fleet =
      (.ok (outcome env level entry), effect env level entry fleet) :=
    fun entry member fleet => actuate_completes (completes entry member)
  rw [observe, Attempt.each_ok entries fleet passed]
  simp only [respondSuccess, List.countP_map]
  rfl

theorem observe_raised {entries : List (Nat × SensorRow)} (member : entry ∈ entries)
    (stuck : ¬ Completes env level entry) : (observe env level entries fleet).1 = none := by
  have failed : ∀ fleet, ∃ e left, actuate env level entry fleet = (.error e, left) := by
    intro fleet
    obtain ⟨left, raised, -⟩ := actuate_error stuck fleet
    exact ⟨(), left, raised⟩
  obtain ⟨_, left, ran⟩ := Attempt.each_error entries fleet member failed
  rw [observe, ran]

/-- An observe request leaves the selected sensors consistent exactly when each of them fits. -/
theorem observe_consistent_iff (env : Surroundings) (level : String) (fleet : Fleet)
    (selection : Selection fleet.sensors) :
    Consistent env level selection.entries (observe env level selection.entries fleet) ↔
      ∀ entry ∈ selection.entries, Fits env level fleet.accepted entry := by
  by_cases completes : ∀ entry ∈ selection.entries, Completes env level entry
  · have agreed : ∀ entry ∈ selection.entries,
        reading (selection.entries.foldl (fun fleet entry => effect env level entry fleet) fleet)
          entry.1 = changed env level entry (some entry.2.configurationId, fleet.accepted entry.1) := by
      intro entry member
      rw [Attempt.foldl_own (reading_effect env level) selection.distinct member, reading,
        Table.find_eq_some.mpr (selection.stored entry member)]
      rfl
    have succeeded : ∀ entry ∈ selection.entries, Succeeds env level entry →
        (outcome env level entry).isOk := fun entry _ => isOk_of_succeeds
    have counted := Lists.countP_eq_countP_iff succeeded
    rw [observe_completes completes]
    constructor
    · intro consistent entry member
      rw [fits_iff (completes entry member)]
      obtain ⟨row, found, same⟩ := consistent.stored entry member
      have here := agreed entry member
      simp only [reading, found, Option.map_some, same] at here
      rw [← here]
      have reported := (Prod.mk.inj (Option.some.inj consistent.reported)).1
      exact ⟨rfl, counted.mp reported.symm entry member⟩
    · intro fits
      have each := fun entry member => (fits_iff (completes entry member)).mp (fits entry member)
      constructor
      · intro entry member
        have here := agreed entry member
        have same := (each entry member).1
        rw [← here, reading] at same
        obtain ⟨row, found, same⟩ := Option.map_eq_some_iff.mp same
        exact ⟨row, found, same⟩
      · have failed : selection.entries.countP (fun entry => !Succeeds env level entry) =
            selection.entries.countP fun entry => !(outcome env level entry).isOk :=
          List.countP_congr fun entry member => by rw [(each entry member).2]
        dsimp only
        rw [counted.mpr fun entry member => (each entry member).2, failed]
      · intro entry member configurationId configuration found
        dsimp only
        rw [requests_foldl, List.mem_append, List.mem_flatMap]
        refine .inr ⟨entry, member, ?_⟩
        rw [asked, found]
        exact List.mem_singleton_self _
  · simp only [not_forall] at completes
    obtain ⟨entry, member, stuck⟩ := completes
    constructor
    · intro consistent
      have reported := consistent.reported
      rw [observe_raised member stuck] at reported
      exact absurd reported nofun
    · intro fits
      exact absurd (fits entry member).completes stuck

end Observe

section Sample

def levelConfiguration (level : String) : Configuration :=
  { Configuration.new 0 with level := level }

def actuatedSensor (name : String) (port : Int) : SensorRow where
  sensorId := some name
  virtueId := some "virtue"
  username := some "user"
  address := some "sensor.virtue"
  port := some port
  publicKey := none
  kafkaTopic := name
  hasCertificates := true
  hasRegistered := true
  componentId := some 0
  configurationId := some 0
  lastSyncAt := 0

-- Everything works, but the first sensor answers 503.
def oneUnavailable : Surroundings where
  store := ⟨Table.empty.insert ⟨"ps", "virtue", "linux", ""⟩,
    (Table.empty.insert (levelConfiguration "default")).insert (levelConfiguration "low")⟩
  announces _ := true
  saves _ := true
  reaction
    | 0 => .answered 503 false
    | _ => .answered 200 false

def twoSensors : Fleet where
  sensors := (Table.empty.insert (actuatedSensor "ps" 8080)).insert (actuatedSensor "lsof" 8081)
  accepted _ := some 0
  requests := []

def everySensor : Selection twoSensors.sensors :=
  .of twoSensors.sensors fun _ => true

-- The second sensor is never told.
theorem unavailable_sensor_aborts : ¬ Consistent oneUnavailable "low" everySensor.entries
    (observe oneUnavailable "low" everySensor.entries twoSensors) := by
  intro consistent
  have reported := consistent.reported
  rw [show (observe oneUnavailable "low" everySensor.entries twoSensors).1 = none by
    decide +kernel] at reported
  exact absurd reported nofun

end Sample

end VirtueSensing.Api.Actuation
