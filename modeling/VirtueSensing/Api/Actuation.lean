import VirtueSensing.Api.Sensors

set_option autoImplicit false

/-!
# Actuating sensors

`ApiServer.Actuation` under the observe request. The database row is saved before the sensor is told,
and a raise ends the whole request.
-/

namespace VirtueSensing.Api.Actuation

/-- What a sensor makes of `PUT /actuation`: an answer with a status and the error flag of its body, or
none, with a reason that prints or not, where the sensor may have taken the configuration anyway. -/
inductive Reaction where
  | answered (status : Nat) (errorFlag : Bool)
  | lost (printable accepted : Bool)
  deriving DecidableEq, Repr

def Reaction.accepts : Reaction → Bool
  | .answered status errorFlag => status = 200 && !errorFlag
  | .lost _ accepted => accepted

/-- Everything outside of the sensors table that an actuation meets, for each sensor by its key. -/
structure Surroundings where
  store : Store
  announces : Nat → Bool
  saves : Nat → Bool
  reaction : Nat → Reaction

/-- The sensors table, the configuration that each sensor last accepted, and the requests to sensors,
each with its configuration. -/
structure Fleet where
  sensors : Table SensorRow
  accepted : Nat → Option Nat
  requests : List (Nat × Nat)

/-- The rows that the targeting has selected, in the order of the database. -/
structure Selection (sensors : Table SensorRow) where
  entries : List (Nat × SensorRow)
  distinct : (entries.map Prod.fst).Nodup
  stored : ∀ entry ∈ entries, entry ∈ sensors.rows

def Selection.of (sensors : Table SensorRow) (selects : SensorRow → Bool) : Selection sensors where
  entries := sensors.select selects
  distinct := sensors.distinct.sublist (List.filter_sublist.map _)
  stored _ member := (Table.mem_select.mp member).1

inductive ActuationError where
  | noSuchConfiguration
  | unsupported
  | status500
  | transport
  deriving DecidableEq, Repr

abbrev Steps (α : Type) := Attempt Fleet Unit α

def raise {α : Type} : Steps α := .given (.error ())

def loadedComponent (env : Surroundings) (row : SensorRow) : Option Nat :=
  row.componentId.filter fun id => (env.store.components.find id).isSome

def loadedConfiguration (env : Surroundings) (row : SensorRow) : Option Configuration :=
  row.configurationId.bind env.store.configurations.find

-- The message names the component and the level that the sensor leaves.
def announceSensorObservation (env : Surroundings) (id : Nat) (row : SensorRow) : Steps Unit :=
  .given <|
    if (loadedComponent env row).isSome ∧ (loadedConfiguration env row).isSome ∧ env.announces id then
      .ok ()
    else .error ()

def levelParams (level : String) : ConfigurationParams := ⟨some level, none, none, none, none⟩

def saveConfiguration (env : Surroundings) (id configurationId : Nat) : Steps Unit := fun fleet =>
  if env.saves id then
    (.ok (), { fleet with sensors := fleet.sensors.update id fun row =>
      { row with configurationId := some configurationId } })
  else (.error (), fleet)

/-- `none` is `:no_such_configuration`. A row that is not valid comes back as a changeset, which is
printed, and a relation that does not change writes nothing. -/
def assignConfiguration (env : Surroundings) (level : String) (id : Nat) (row : SensorRow) :
    Steps (Option Nat) :=
  match loadedComponent env row with
  | none => raise
  | some componentId =>
    match getConfiguration env.store componentId (levelParams level) with
    | .multipleMatches => raise
    | .noMatches => pure none
    | .found configurationId _ =>
      if ¬ row.complete then raise
      else if row.configurationId = some configurationId then pure (some configurationId)
      else do
        saveConfiguration env id configurationId
        return some configurationId

def sendRequest (env : Surroundings) (id configurationId : Nat) : Steps Reaction := fun fleet =>
  (.ok (env.reaction id),
    { fleet with
      accepted :=
        if (env.reaction id).accepts then Function.update fleet.accepted id (some configurationId)
        else fleet.accepted
      requests := fleet.requests ++ [(id, configurationId)] })

-- The body of an answer is not looked at, and no clause is for any other status.
def putSensor (env : Surroundings) (id configurationId : Nat) :
    Steps (Except ActuationError Unit) := do
  match ← sendRequest env id configurationId with
  | .answered 200 _ => return .ok ()
  | .answered 404 _ => return .error .unsupported
  | .answered 500 _ => return .error .status500
  | .answered _ _ => raise
  | .lost printable _ => if printable then return .error .transport else raise

def sensor (env : Surroundings) (level : String) (id : Nat) (row : SensorRow) :
    Steps (Except ActuationError Unit) := do
  match ← assignConfiguration env level id row with
  | none => return .error .noSuchConfiguration
  | some configurationId => putSensor env id configurationId

def actuate (env : Surroundings) (level : String) (entry : Nat × SensorRow) :
    Steps (Except ActuationError Unit) := do
  announceSensorObservation env entry.1 entry.2
  sensor env level entry.1 entry.2

def respondSuccess (outcomes : List (Except ActuationError Unit)) : Nat × Nat :=
  (outcomes.countP Except.isOk, outcomes.countP fun outcome => !outcome.isOk)

def observe (env : Surroundings) (level : String) (entries : List (Nat × SensorRow)) (fleet : Fleet) :
    Option (Nat × Nat) × Fleet :=
  match Attempt.each (actuate env level) entries fleet with
  | (.ok outcomes, after) => (some (respondSuccess outcomes), after)
  | (.error (), after) => (none, after)

end VirtueSensing.Api.Actuation
