import VirtueSensing.Api.CertificateController
import VirtueSensing.Api.Components
import VirtueSensing.Api.Extraction
import VirtueSensing.Shared.Attempt
import VirtueSensing.Shared.Bytes

set_option autoImplicit false

/-!
# Registering sensors

The sensors table and the requests of `ApiServer.RegistrationController`. Status 500 is an exception
of the handler.
-/

namespace VirtueSensing.Api

structure Sensor where
  sensorId : Option String
  virtueId : Option String
  username : Option String
  address : Option String
  port : Option Int
  publicKey : Option String
  deriving DecidableEq, Repr

structure SensorRow extends Sensor where
  kafkaTopic : String
  hasCertificates : Bool
  hasRegistered : Bool
  componentId : Option Nat
  configurationId : Option Nat
  lastSyncAt : Nat
  deriving DecidableEq, Repr

structure LinkedChallenge extends AuthChallenge where
  sensorId : Option Nat
  deriving DecidableEq, Repr

structure Registry where
  sensors : Table SensorRow
  challenges : Table LinkedChallenge

/-- `:public_key` and `Base.url_decode64`; the entries of a PEM text without their encryption. -/
structure KeyTools where
  urlDecode64 : String → Option String
  pemDecode : String → List Bytes

-- The client certificate of a connection in its DER form, as `pkix_encode` gives it.
structure SensorConn where
  body : String → Option Json
  clientCertificate : Option Bytes

inductive Response where
  | status (code : Nat)
  | raised
  deriving DecidableEq, Repr

inductive Write where
  | create
  | assignComponent
  | assignConfiguration
  | markRegistered
  | markCertificates
  | link
  deriving DecidableEq, Repr

/-- What a registration meets: the answer of the sensor, the components and configurations at each time
it reads them, the clock, and whether the database and the announcement fail. -/
structure Surroundings where
  atCheck : Store
  ping : HttpAnswer
  atLookup : Store
  atAssignment : Store
  kafkaTopic : String
  clock : Write → Nat
  fails : Write → Bool
  announces : Bool

def decodeKey (tools : KeyTools) : Json → Except Response String
  | .string text =>
    match tools.urlDecode64 text with
    | some key => .ok key
    | none => .error .raised
  | _ => .error .raised

-- A check of strings raises on any other value.
def checked (check : String → Bool) (rejected : Response) : Json → Except Response String
  | .string text => if check text then .ok text else .error rejected
  | _ => .error .raised

-- `is_public_key` has no clause for several entries.
def isPublicKey (tools : KeyTools) (key : String) (rejected : Response) : Except Response Unit :=
  match tools.pemDecode key with
  | [_] => .ok ()
  | [] => .error rejected
  | _ => .error .raised

def matchesClientCertificate (tools : KeyTools) (conn : SensorConn) (key : String)
    (rejected : Response) : Except Response Unit :=
  match conn.clientCertificate, tools.pemDecode key with
  | some certificate, [entry] => if certificate = entry then .ok () else .error rejected
  | _, _ => .error .raised

/-- The checks of `sync` and `deregister`: the sensor id that the request names and its public key. -/
def identify (tools : KeyTools) (conn : SensorConn) (rejected : Response) :
    Except Response (String × String) :=
  match conn.body "sensor", conn.body "public_key" with
  | some sensorId, some encoded => do
    let key ← decodeKey tools encoded
    let sensorId ← checked isSensorId rejected sensorId
    isPublicKey tools key rejected
    matchesClientCertificate tools conn key rejected
    return (sensorId, key)
  | _, _ => .error (.status 400)

def SensorRow.hasKey (key : String) (row : SensorRow) : Bool := row.publicKey = some key

-- `validate_required` over the fields of a row that is there already.
def SensorRow.complete (row : SensorRow) : Bool :=
  row.sensorId.any (!blank ·) && row.virtueId.any (!blank ·) && row.username.any (!blank ·) &&
    row.address.any (!blank ·) && row.port.isSome

/-- The authentication challenges of a sensor go with it. -/
def Registry.deleteSensor (db : Registry) (id : Nat) : Registry where
  sensors := db.sensors.delete id
  challenges := db.challenges.deleteWhere fun challenge => challenge.sensorId = some id

def deregister (tools : KeyTools) (conn : SensorConn) (fails announces : Bool) (db : Registry) :
    Registry × Response :=
  match identify tools conn (.status 400) with
  | .error response => (db, response)
  | .ok (_, key) =>
    match db.sensors.lookup (SensorRow.hasKey key) with
    | .found id _ =>
      if fails then (db, .raised)
      else (db.deleteSensor id, if announces then .status 200 else .raised)
    | _ => (db, .status 400)

def sync (tools : KeyTools) (conn : SensorConn) (fails : Bool) (now : Nat) (db : Registry) :
    Registry × Response :=
  match identify tools conn (.status 410) with
  | .error response => (db, response)
  | .ok (_, key) =>
    match db.sensors.lookup (SensorRow.hasKey key) with
    | .found id row =>
      if row.complete then
        if fails then (db, .raised)
        else
          ({ db with sensors := db.sensors.update id fun row => { row with lastSyncAt := now } },
            .status 200)
      else (db, .status 410)
    | _ => (db, .status 410)

structure SensorParams where
  sensorId : String
  virtueId : String
  username : String
  address : String
  port : Json
  publicKey : String

structure Registration where
  params : SensorParams
  component : ComponentParams

def sensorName (nameVersion : String) : String :=
  String.ofList (['-'].intercalate (nameVersion.toList.splitOn '-').dropLast)

def hasDefaultConfiguration (s : Store) (params : ComponentParams) : Except Response Bool :=
  match getComponent s params with
  | .found componentId _ =>
    match getConfiguration s componentId ⟨none, none, none, none, none⟩ with
    | .found _ _ => .ok true
    | .noMatches => .ok false
    | .multipleMatches => .error .raised
  | _ => .ok false

-- Printing the details of a port that is no port raises.
def checkPort (port : Json) : Except Response Unit :=
  match isSensorPort port with
  | some true => .ok ()
  | _ => .error .raised

def verifyRemoteSensor : HttpAnswer → Except Response Unit
  | .response 200 _ => .ok ()
  | .failed false => .error .raised
  | _ => .error (.status 417)

def checkRegistration (tools : KeyTools) (conn : SensorConn) (env : Surroundings) :
    Except Response Registration :=
  match conn.body "sensor", conn.body "virtue", conn.body "user", conn.body "public_key",
    conn.body "hostname", conn.body "port", conn.body "name", conn.body "os" with
  | some sensor, some virtue, some user, some encoded, some hostname, some port, some name, some os => do
    let key ← decodeKey tools encoded
    let name ← checked (fun _ => true) .raised name
    let sensorId ← checked isSensorId (.status 400) sensor
    let virtueId ← checked isVirtueId (.status 400) virtue
    let address ← checked isHostname (.status 400) hostname
    let username ← checked isUsername (.status 400) user
    isPublicKey tools key (.status 400)
    matchesClientCertificate tools conn key (.status 400)
    checkPort port
    let os ← checked (fun _ => true) .raised os
    let component : ComponentParams := ⟨some (sensorName name), some "virtue", some os, none⟩
    if ← hasDefaultConfiguration env.atCheck component then
      verifyRemoteSensor env.ping
      return ⟨⟨sensorId, virtueId, username, address, port, key⟩, component⟩
    else .error (.status 400)
  | _, _, _, _, _, _, _, _ => .error (.status 400)

/-- How a step of the registration fails: the values that the steps return, or an exception. -/
inductive Failure where
  | noMatches
  | multipleMatches
  | noSuchConfiguration
  | changeset
  | raised
  deriving DecidableEq, Repr

abbrev Steps (α : Type) := Attempt Registry Failure α

def SensorParams.changeset (params : SensorParams) : Option Int := do
  let port ← (← castInteger none params.port)
  if blank params.sensorId ∨ blank params.virtueId ∨ blank params.username ∨ blank params.address ∨
      port ≤ 0 ∨ 65536 ≤ port
  then none
  else some port

-- The column of the public key has no limit.
def textColumn (text : String) : Option String :=
  if '\x00' ∈ text.toList then none else some text

def SensorParams.store (params : SensorParams) (port : Int) (kafkaTopic : String) (now : Nat) :
    Option SensorRow := do
  let publicKey ← textColumn params.publicKey
  return {
    sensorId := some (← varchar params.sensorId)
    virtueId := some (← varchar params.virtueId)
    username := some (← varchar params.username)
    address := some (← varchar params.address)
    port := some port
    publicKey := if publicKey = "" then none else some publicKey
    kafkaTopic := ← varchar kafkaTopic
    hasCertificates := false
    hasRegistered := false
    componentId := none
    configurationId := none
    lastSyncAt := now }

def indexed (sensors : Table SensorRow) (row : SensorRow) : Bool :=
  sensors.taken (fun row => row.sensorId) row || sensors.taken (fun row => row.publicKey) row

def componentStep (env : Surroundings) (r : Registration) : Steps Nat :=
  .given <| match getComponent env.atLookup r.component with
    | .found componentId _ => .ok componentId
    | .noMatches => .error .noMatches
    | .multipleMatches => .error .multipleMatches

def createStep (env : Surroundings) (params : SensorParams) : Steps Nat := fun db =>
  match params.changeset with
  | none => (.error .changeset, db)
  | some port =>
    match params.store port env.kafkaTopic (env.clock .create) with
    | none => (.error .raised, db)
    | some row =>
      if env.fails .create ∨ indexed db.sensors row then (.error .raised, db)
      else (.ok db.sensors.next, { db with sensors := db.sensors.insert row })

def updateStep (env : Surroundings) (write : Write) (id : Nat) (f : SensorRow → SensorRow) :
    Steps Unit := fun db =>
  if env.fails write then (.error .raised, db)
  else (.ok (), { db with sensors := db.sensors.update id f })

def configurationStep (env : Surroundings) (componentId : Nat) : Steps Nat :=
  .given <| match getConfiguration env.atAssignment componentId ⟨none, none, none, none, none⟩ with
    | .found configurationId _ => .ok configurationId
    | .noMatches => .error .noSuchConfiguration
    | .multipleMatches => .error .raised

def challengeStep (key : String) : Steps (Nat × LinkedChallenge) := fun db =>
  match db.challenges.lookup fun challenge => challenge.publicKey = some key with
  | .found id challenge => (.ok (id, challenge), db)
  | .noMatches => (.error .noMatches, db)
  | .multipleMatches => (.error .multipleMatches, db)

-- A challenge that belongs to another sensor may not be given to this one.
def linkStep (env : Surroundings) (sensorId id : Nat) (challenge : LinkedChallenge) : Steps Unit :=
  fun db =>
  if blank challenge.hostname ∨ blank challenge.algo then (.error .changeset, db)
  else if env.fails .link ∨ (challenge.sensorId ≠ none ∧ challenge.sensorId ≠ some sensorId) then
    (.error .raised, db)
  else
    (.ok (), { db with
      challenges := db.challenges.update id fun c => { c with sensorId := some sensorId } })

/-- The `with` of `register`. Reading the content of the configuration cannot fail, for the sensor that
was just updated carries it. -/
def registerSteps (env : Surroundings) (r : Registration) : Steps Unit := do
  let componentId ← componentStep env r
  let id ← createStep env r.params
  updateStep env .assignComponent id fun row => { row with componentId := some componentId }
  let configurationId ← configurationStep env componentId
  updateStep env .assignConfiguration id fun row => { row with configurationId := some configurationId }
  updateStep env .markRegistered id fun row =>
    { row with hasRegistered := true, lastSyncAt := env.clock .markRegistered }
  updateStep env .markCertificates id fun row => { row with hasCertificates := true }
  let (challengeId, challenge) ← challengeStep r.params.publicKey
  linkStep env id challengeId challenge

/-- The `else` of the `with`. Its one clause is for `{:error, changeset}`, and it prints the map of the
errors, which is no text. -/
def registrationError : Failure → Response
  | .changeset => .raised
  | .noMatches | .multipleMatches | .noSuchConfiguration => .raised
  | .raised => .raised

def register (tools : KeyTools) (conn : SensorConn) (env : Surroundings) (db : Registry) :
    Registry × Response :=
  match checkRegistration tools conn env with
  | .error response => (db, response)
  | .ok r =>
    match registerSteps env r db with
    | (.error failure, left) => (left, registrationError failure)
    | (.ok (), left) => (left, if env.announces then .status 200 else .raised)

end VirtueSensing.Api
