import Mathlib.Logic.Function.Basic
import VirtueSensing.Api.Params
import VirtueSensing.Shared.Machine

set_option autoImplicit false

/-!
# Issuing certificates

`ApiServer.CertificateController` with the `AuthChallenge` table. Requests run side by side; each
step of one is a call to the database or the answer of another host. An exception ends the request
with status 500.
-/

namespace VirtueSensing.Api

structure AuthChallenge where
  id : Nat
  hostname : String
  port : Int
  algo : String
  size : Int
  challenge : String
  csr : Option String
  publicKey : Option String
  deriving DecidableEq, Repr

def challengeUrl (hostname port : String) : String :=
  "http://" ++ hostname ++ ":" ++ port ++ "/path/to/challenge"

def challengeData (url token : String) : Json :=
  .object fun key =>
    if key = "url" then some (.string url)
    else if key = "token" then some (.string token)
    else if key = "type" then some (.string "http-savior")
    else none

/-- The JSON library, the language's interpolation, Ecto's blank strings and the configuration. -/
structure Platform where
  encode : Json → String
  decode : String → Option Json
  decode_encode : ∀ url token,
    decode (encode (challengeData url token)) = some (challengeData url token)
  printable : Json → Bool
  blank : String → Bool
  sharedSecretDecodes : Bool

def cfsslDefaultAlgo : String := "rsa"
def cfsslDefaultSize : Int := 4096

-- What `HTTPoison` returns. The reason of a failure may be a term that cannot be printed.
inductive HttpAnswer where
  | response (status : Nat) (body : String)
  | failed (printable : Bool)
  deriving DecidableEq, Repr

structure AuthFields where
  hostname : Json
  port : Json
  algo : Json
  size : Json
  csr : Json

def generateChallengeData (hostname : String) (port : Json) (token : String) : Json :=
  challengeData (challengeUrl hostname (interpolatePort port)) token

def changeset (pf : Platform) (fields : AuthFields) (challenge : String) (id : Nat) :
    Option AuthChallenge := do
  let hostname ← castString none fields.hostname
  let port ← castInteger none fields.port
  let algo ← castString (some cfsslDefaultAlgo) fields.algo
  let size ← castInteger (some cfsslDefaultSize) fields.size
  let csr ← castString none fields.csr
  let hostname ← hostname
  let port ← port
  let algo ← algo
  let size ← size
  if pf.blank hostname = false ∧ pf.blank algo = false ∧ 0 < port ∧ port < 65536 then
    some ⟨id, hostname, port, algo, size, challenge, csr, none⟩
  else none

def getByCsr (csr : String) (rows : List AuthChallenge) : List AuthChallenge :=
  rows.filter fun row => row.csr = some csr

inductive Stage where
  | idle
  | newKey (hostname : String) (port algo size : Json)
  | lookup (csr : Json)
  | challenged (row : AuthChallenge) (csr : String)
  | verified (row : AuthChallenge) (csr : String)
  | signing (row : AuthChallenge) (csr : String)

inductive ApiEvent where
  | stored (request : Nat) (row : AuthChallenge)
  | read (request : Nat) (csr : String) (rows : List AuthChallenge)
  | get (request : Nat) (url : String) (answer : HttpAnswer)
  | sign (request : Nat) (hostname csr : String)
  | reply (request : Nat) (status : Nat)
  deriving DecidableEq, Repr

structure ApiState where
  rows : List AuthChallenge
  nextRow : Nat
  stages : Nat → Stage
  nextRequest : Nat
  log : List ApiEvent

namespace ApiState

variable (s : ApiState)

def emit (e : ApiEvent) : ApiState :=
  { s with log := s.log ++ [e] }

def goto (request : Nat) (stage : Stage) : ApiState :=
  { s with stages := Function.update s.stages request stage }

def reply (request status : Nat) : ApiState :=
  (s.goto request .idle).emit (.reply request status)

def insert (request : Nat) (row : AuthChallenge) : ApiState :=
  ({ s with rows := s.rows ++ [row], nextRow := s.nextRow + 1 } : ApiState).emit (.stored request row)

def setPublicKey (id : Nat) (key : String) : ApiState :=
  { s with rows := s.rows.map fun row => if row.id = id then { row with publicKey := some key } else row }

end ApiState

-- `issue_private_key_request` up to the request to CFSSL.
def issuePrivateKeyRequest (pf : Platform) (s : ApiState) (request : Nat)
    (hostname port algo size : Json) : ApiState :=
  if pf.printable hostname ∧ pf.printable port ∧ pf.printable algo ∧ pf.printable size then
    match hostname, isSensorPort port with
    | .string name, some portOk =>
      if isHostname name ∧ portOk then s.goto request (.newKey name port algo size)
      else s.reply request 500
    | _, _ => s.reply request 500
  else s.reply request 500

def privateKeyNew (pf : Platform) (body : String → Option Json) (s : ApiState) : ApiState :=
  let request := s.nextRequest
  let s := { s with nextRequest := request + 1 }
  match body "hostname", body "port" with
  | some hostname, some port =>
    match body "key_algo", body "key_size" with
    | some algo, some size => issuePrivateKeyRequest pf s request hostname port algo size
    | _, _ =>
      issuePrivateKeyRequest pf s request hostname port (.string cfsslDefaultAlgo)
        (.integer cfsslDefaultSize)
  | _, _ => s.reply request 400

-- What `AuthChallenge.create` is given after an answer of CFSSL.
def newKeyFields (pf : Platform) (hostname : String) (port algo size : Json) :
    HttpAnswer → Option AuthFields
  | .response 200 body => do
    let data ← pf.decode body
    let success ← data.access "success"
    let result ← data.access "result"
    let csr ← result.access "certificate_request"
    let privateKey ← result.access "private_key"
    match success with
    | .bool true =>
      if isIodata privateKey then some ⟨.string hostname, port, algo, size, csr⟩ else none
    | _ => none
  | _ => none

/-- The rest of `issue_private_key_request`, with the answer of CFSSL, a random token and whether the
database takes the row, whose private key hash is unique. -/
def newKeyAnswered (pf : Platform) (s : ApiState) (request : Nat) (hostname : String)
    (port algo size : Json) (answer : HttpAnswer) (token : String) (saved : Bool) : ApiState :=
  match newKeyFields pf hostname port algo size answer with
  | some fields =>
    let challenge := pf.encode (generateChallengeData hostname port token)
    match changeset pf fields challenge s.nextRow with
    | some row => if saved then (s.insert request row).reply request 200 else s.reply request 500
    | none => s.reply request 500
  | none => s.reply request 500

def publicKeySigned (body : String → Option Json) (s : ApiState) : ApiState :=
  let request := s.nextRequest
  let s := { s with nextRequest := request + 1 }
  match body "certificate_request" with
  | some csr => s.goto request (.lookup csr)
  | none => s.reply request 400

-- A query with a csr that is no string raises.
def lookedUp (s : ApiState) (request : Nat) (csr : Json) : ApiState :=
  match csr with
  | .string csr =>
    let s' := s.emit (.read request csr (getByCsr csr s.rows))
    match getByCsr csr s.rows with
    | [row] =>
      if row.publicKey = none then s'.goto request (.challenged row csr) else s'.reply request 400
    | _ => s'.reply request 400
  | _ => s.reply request 500

def verifies (pf : Platform) (token : String) : HttpAnswer → Bool
  | .response 200 body =>
    match pf.decode body with
    | some (.object member) =>
      match member "token" with
      | some (.string given) => given = token
      | _ => false
    | _ => false
  | _ => false

-- The reason of a failed request is put into the error text.
def unverifiedStatus : HttpAnswer → Nat
  | .failed false => 500
  | _ => 401

-- `private_key_new` stores strings for the url and the token only.
def verifyHttp01Challenge (pf : Platform) (s : ApiState) (request : Nat) (row : AuthChallenge)
    (csr : String) (answer : HttpAnswer) : ApiState :=
  match pf.decode row.challenge with
  | some (.object member) =>
    match member "url", member "token", member "type" with
    | some (.string url), some (.string token), some _ =>
      let s := s.emit (.get request url answer)
      if verifies pf token answer then s.goto request (.verified row csr)
      else s.reply request (unverifiedStatus answer)
    | _, _, _ => s.reply request 500
  | _ => s.reply request 500

def requestSignature (pf : Platform) (s : ApiState) (request : Nat) (row : AuthChallenge)
    (csr : String) : ApiState :=
  if pf.sharedSecretDecodes then
    (s.emit (.sign request row.hostname csr)).goto request (.signing row csr)
  else s.reply request 500

-- The certificate that CFSSL sent back, `some none` where `AuthChallenge.update` changes nothing.
def signedCertificate (pf : Platform) : HttpAnswer → Option (Option String)
  | .response 200 body => do
    let data ← pf.decode body
    let success ← data.access "success"
    let result ← data.access "result"
    match success with
    | .bool true => (← result.access "certificate") |> castString none
    | _ => none
  | _ => none

def signatureAnswered (pf : Platform) (s : ApiState) (request : Nat) (row : AuthChallenge)
    (answer : HttpAnswer) (saved : Bool) : ApiState :=
  match signedCertificate pf answer with
  | some (some key) =>
    if saved then (s.setPublicKey row.id key).reply request 200 else s.reply request 500
  | some none => s.reply request 200
  | none => s.reply request 500

inductive ApiLabel where
  | privateKeyNew (body : String → Option Json)
  | publicKeySigned (body : String → Option Json)
  | newKeyAnswered (request : Nat) (answer : HttpAnswer) (token : String) (saved : Bool)
  | lookedUp (request : Nat)
  | challengeAnswered (request : Nat) (answer : HttpAnswer)
  | requestSignature (request : Nat)
  | signatureAnswered (request : Nat) (answer : HttpAnswer) (saved : Bool)

def certificateStep (pf : Platform) (s : ApiState) : ApiLabel → Option ApiState
  | .privateKeyNew body => some (privateKeyNew pf body s)
  | .publicKeySigned body => some (publicKeySigned body s)
  | .newKeyAnswered request answer token saved =>
    match s.stages request with
    | .newKey hostname port algo size =>
      some (newKeyAnswered pf s request hostname port algo size answer token saved)
    | _ => none
  | .lookedUp request =>
    match s.stages request with
    | .lookup csr => some (lookedUp s request csr)
    | _ => none
  | .challengeAnswered request answer =>
    match s.stages request with
    | .challenged row csr => some (verifyHttp01Challenge pf s request row csr answer)
    | _ => none
  | .requestSignature request =>
    match s.stages request with
    | .verified row csr => some (requestSignature pf s request row csr)
    | _ => none
  | .signatureAnswered request answer saved =>
    match s.stages request with
    | .signing row _ => some (signatureAnswered pf s request row answer saved)
    | _ => none

def certificateMachine (pf : Platform) : Machine ApiState ApiLabel where
  initial := ⟨[], 0, fun _ => .idle, 0, []⟩
  step := certificateStep pf

end VirtueSensing.Api
