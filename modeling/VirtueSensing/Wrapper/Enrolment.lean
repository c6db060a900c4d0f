import VirtueSensing.Api.CertificateRuns
import VirtueSensing.Wrapper.RetryLoop

set_option autoImplicit false

/-!
# Enrolling sensors

Any number of sensor wrappers get their keys from one `CertificateController`, side by side with
whatever other clients ask of it. While a wrapper waits for its certificate it serves the challenge
that came with its private key.
-/

namespace VirtueSensing.Wrapper.Enrolment

open Api (Json ApiState ApiLabel ApiEvent AuthChallenge HttpAnswer Platform certificateMachine
  certificateStep newKeyFields changeset generateChallengeData signedCertificate challengeData verifies
  storedRow storedRows OwnChallenge Issues)
open RetryLoop (RetryingWrapper loopStep)

/-- The two programs and the options of the sensors, by number. `ours` are the names of the hosts on
which no other program listens. -/
structure Network where
  platform : Platform
  dumps : Json → String
  decode_dumps : ∀ url token,
    platform.decode (dumps (challengeData url token)) = some (challengeData url token)
  wrapper : RetryingWrapper
  advertisedHostname : Nat → String
  advertisedPort : Nat → Json
  ours : String → Bool

/-- The body of an answer with status 200. -/
inductive Reply where
  | privateKey (key csr challenge : Json)
  | certificate (publicKey : Option String)

/-- What `get_private_key_and_csr` returned. -/
structure Keys where
  privKey : String
  csr : String
  challenge : Json

/-- A wrapper, the request that it waits for, and the keys whose challenge it serves. -/
structure Sensor where
  loop : RetryLoop.State
  asked : Option Nat
  server : Option Keys

structure State where
  api : ApiState
  sensors : Nat → Sensor
  replies : Nat → Option Reply

def State.initial : State where
  api := ⟨[], 0, fun _ => .idle, 0, []⟩
  sensors _ := ⟨.initial, none, none⟩
  replies _ := none

def State.setSensor (s : State) (id : Nat) (sensor : Sensor) : State :=
  { s with sensors := Function.update s.sensors id sensor }

def csrJson : Option String → Json
  | some csr => .string csr
  | none => .null

def sentPrivateKey (pf : Platform) : HttpAnswer → Option Json
  | .response 200 body => do
    let data ← pf.decode body
    let result ← data.access "result"
    result.access "private_key"
  | _ => none

/-- The answer with status 200 that a step of the API sends, and to which request. -/
def replyTo (pf : Platform) (s : ApiState) : ApiLabel → Option (Nat × Reply)
  | .newKeyAnswered request answer token saved =>
    match s.stages request with
    | .newKey hostname port algo size => do
      let fields ← newKeyFields pf hostname port algo size answer
      let row ← changeset pf fields (pf.encode (generateChallengeData hostname port token)) s.nextRow
      let key ← sentPrivateKey pf answer
      let challenge ← pf.decode row.challenge
      if saved then some (request, .privateKey key (csrJson row.csr) challenge) else none
    | _ => none
  | .signatureAnswered request answer saved =>
    match s.stages request with
    | .signing row _ =>
      match signedCertificate pf answer with
      | some (some key) => if saved then some (request, .certificate (some key)) else none
      | some none => some (request, .certificate row.publicKey)
      | none => none
    | _ => none
  | _ => none

def apiStep (net : Network) (s : State) (label : ApiLabel) : Option State :=
  (certificateStep net.platform s.api label).map fun api =>
    { s with
      api := api
      replies := match replyTo net.platform s.api label with
        | some (request, reply) => Function.update s.replies request (some reply)
        | none => s.replies }

inductive Respondent where
  | sensor (id : Nat)
  | elsewhere (answer : HttpAnswer)

def succeeds : HttpAnswer → Bool
  | .response 200 _ => true
  | _ => false

/-- What the API gets when it asks a host for its challenge. A sensor answers with what it serves, and
on the sensors' own hosts nothing else answers with status 200. -/
def answered (net : Network) (s : State) (hostname : String) : Respondent → Option HttpAnswer
  | .sensor id => (s.sensors id).server.map fun keys => .response 200 (net.dumps keys.challenge)
  | .elsewhere answer => if net.ours hostname ∧ succeeds answer then none else some answer

def privateKeyPayload (net : Network) (id : Nat) (key : String) : Option Json :=
  if key = "hostname" then some (.string (net.advertisedHostname id))
  else if key = "port" then some (net.advertisedPort id)
  else none

def publicKeyPayload (csr : String) (key : String) : Option Json :=
  if key = "certificate_request" then some (.string csr) else none

-- The answers of the API with status 200 come from the API.
def Given : RetryLoop.Label → Bool
  | .main (.privateKey true _ _ _) | .main (.publicKey true _) => false
  | _ => true

-- A step of `main` ends the wait for an answer, and the challenge server is cancelled before `main`
-- looks at the answer for the public key, or with its task group.
def Sensor.moved (sensor : Sensor) (label : RetryLoop.Label) (loop : RetryLoop.State) : Sensor where
  loop := loop
  asked := match label with
    | .main _ => none
    | _ => sensor.asked
  server := match label with
    | .main (.publicKey _ _) | .left _ => none
    | _ => sensor.server

-- The challenge server is spawned where `main` goes on with its keys.
def served (keys : Keys) (loop : RetryLoop.State) : Option Keys :=
  match loop.phase with
  | .main (.getSignedPublicKey _ _) => some keys
  | _ => none

/-- The answer of the API arrives. A public key that is no string cannot be written to its file. -/
def receive (net : Network) (s : State) (id : Nat) (pinned : Bool) : Option State :=
  match (s.sensors id).asked.bind s.replies with
  | some (.privateKey (.string privKey) (.string csr) challenge) =>
    (loopStep net.wrapper (s.sensors id).loop (.main (.privateKey true privKey csr challenge))).map
      fun loop => s.setSensor id ⟨loop, none, served ⟨privKey, csr, challenge⟩ loop⟩
  | some (.certificate (some key)) =>
    (loopStep net.wrapper (s.sensors id).loop (.main (.publicKey pinned key))).map
      fun loop => s.setSensor id ⟨loop, none, none⟩
  | some (.certificate none) =>
    (loopStep net.wrapper (s.sensors id).loop
      (.main (if pinned then .raised .other else .publicKey false ""))).map
      fun loop => s.setSensor id ⟨loop, none, none⟩
  | _ => none

/-- `api` are the steps of the API but for the challenge, with the requests of all other clients. -/
inductive Label where
  | api (label : ApiLabel)
  | challenge (request : Nat) (respondent : Respondent)
  | getPrivateKeyAndCsr (id : Nat)
  | getSignedPublicKey (id : Nat)
  | receive (id : Nat) (pinned : Bool)
  | wrapper (id : Nat) (label : RetryLoop.Label)

def ask (net : Network) (s : State) (id : Nat) (label : ApiLabel) : Option State :=
  if (s.sensors id).asked.isSome then none
  else (apiStep net s label).map fun t =>
    t.setSensor id { s.sensors id with asked := some s.api.nextRequest }

def enrolmentStep (net : Network) (s : State) : Label → Option State
  | .api (.challengeAnswered _ _) => none
  | .api label => apiStep net s label
  | .challenge request respondent =>
    match s.api.stages request with
    | .challenged row _ =>
      (answered net s row.hostname respondent).bind fun answer =>
        apiStep net s (.challengeAnswered request answer)
    | _ => none
  | .getPrivateKeyAndCsr id =>
    match (s.sensors id).loop.phase with
    | .main .getPrivateKeyAndCsr => ask net s id (.privateKeyNew (privateKeyPayload net id))
    | _ => none
  | .getSignedPublicKey id =>
    match (s.sensors id).loop.phase with
    | .main (.getSignedPublicKey _ csr) => ask net s id (.publicKeySigned (publicKeyPayload csr))
    | _ => none
  | .receive id pinned => Enrolment.receive net s id pinned
  | .wrapper id label =>
    if Given label then
      (loopStep net.wrapper (s.sensors id).loop label).map fun loop =>
        s.setSensor id ((s.sensors id).moved label loop)
    else none

def enrolment (net : Network) : Machine State Label where
  initial := .initial
  step := enrolmentStep net

def drawnToken : Label → Option String
  | .api (.newKeyAnswered _ _ token _) => some token
  | _ => none

def drawnTokens (labels : List Label) : List String :=
  labels.filterMap drawnToken

end VirtueSensing.Wrapper.Enrolment
