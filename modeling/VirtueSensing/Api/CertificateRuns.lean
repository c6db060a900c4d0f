import VirtueSensing.Api.CertificateController

set_option autoImplicit false

/-!
# Certificates are signed for challenged hosts

Whatever the requests and the remote hosts do, a signing request follows a challenge that the host
of one stored record has answered.
-/

namespace VirtueSensing.Api

def storedRow : ApiEvent → Option AuthChallenge
  | .stored _ row => some row
  | _ => none

def storedRows (log : List ApiEvent) : List AuthChallenge :=
  log.filterMap storedRow

/-- The challenge of a record asks its own host, on a port text that reads as its port. -/
def OwnChallenge (pf : Platform) (row : AuthChallenge) (url token : String) : Prop :=
  ∃ port, url = challengeUrl row.hostname port ∧ DenotesPort port row.port ∧
    row.challenge = pf.encode (challengeData url token)

def Proves (pf : Platform) (token : String) (answer : HttpAnswer) : Prop :=
  ∃ body member, answer = .response 200 body ∧ pf.decode body = some (.object member) ∧
    member "token" = some (.string token)

/-- The request read the only stored record with the csr, before it had a public key; `after` is
what happened since. -/
def ReadOnce (log : List ApiEvent) (request : Nat) (row : AuthChallenge) (csr : String)
    (after : List ApiEvent) : Prop :=
  ∃ before, log = before ++ .read request csr [row] :: after ∧
    getByCsr csr (storedRows before) = [row] ∧ row.csr = some csr ∧ row.publicKey = none

/-- The request asked the host of the record for its token, and got it. -/
def Challenged (pf : Platform) (log : List ApiEvent) (request : Nat) (row : AuthChallenge)
    (csr : String) : Prop :=
  ∃ after url token answer, ReadOnce log request row csr after ∧ OwnChallenge pf row url token ∧
    .get request url answer ∈ after ∧ Proves pf token answer

theorem proves_of_verifies {pf : Platform} {token : String} {answer : HttpAnswer}
    (verified : verifies pf token answer) : Proves pf token answer := by
  unfold verifies at verified
  split at verified
  · next body =>
    split at verified
    · next member decoded =>
      split at verified
      · next given found =>
        obtain rfl : given = token := by simpa using verified
        exact ⟨body, member, rfl, decoded, found⟩
      · simp at verified
    · simp at verified
  · simp at verified

@[simp] theorem storedRows_snoc (log : List ApiEvent) (e : ApiEvent) :
    storedRows (log ++ [e]) = storedRows log ++ (storedRow e).toList := by
  unfold storedRows
  cases stored : storedRow e <;> simp [stored]

theorem ReadOnce.snoc {log after : List ApiEvent} {request : Nat} {row : AuthChallenge}
    {csr : String} (found : ReadOnce log request row csr after) (e : ApiEvent) :
    ReadOnce (log ++ [e]) request row csr (after ++ [e]) := by
  obtain ⟨before, rfl, rest⟩ := found
  exact ⟨before, by simp, rest⟩

theorem Challenged.snoc {pf : Platform} {log : List ApiEvent} {request : Nat} {row : AuthChallenge}
    {csr : String} (asked : Challenged pf log request row csr) (e : ApiEvent) :
    Challenged pf (log ++ [e]) request row csr := by
  obtain ⟨after, url, token, answer, found, own, got, proved⟩ := asked
  exact ⟨after ++ [e], url, token, answer, found.snoc e, own, List.mem_append_left _ got, proved⟩

def unsigned (row : AuthChallenge) : AuthChallenge :=
  { row with publicKey := none }

theorem unsigned_of_none {row : AuthChallenge} (fresh : row.publicKey = none) : unsigned row = row := by
  cases row
  cases fresh
  rfl

theorem getByCsr_map_unsigned (csr : String) (rows : List AuthChallenge) :
    getByCsr csr (rows.map unsigned) = (getByCsr csr rows).map unsigned := by
  unfold getByCsr
  rw [List.filter_map]
  rfl

def HasChallenge (pf : Platform) (row : AuthChallenge) : Prop :=
  ∃ url token, OwnChallenge pf row url token

def StageReached (pf : Platform) (log : List ApiEvent) (request : Nat) : Stage → Prop
  | .challenged row csr => HasChallenge pf row ∧ ∃ after, ReadOnce log request row csr after
  | .verified row csr => Challenged pf log request row csr
  | _ => True

theorem StageReached.snoc {pf : Platform} {log : List ApiEvent} {request : Nat} {stage : Stage}
    (behind : StageReached pf log request stage) (e : ApiEvent) :
    StageReached pf (log ++ [e]) request stage := by
  cases stage with
  | challenged row csr =>
    obtain ⟨own, after, found⟩ := behind
    exact ⟨own, after ++ [e], found.snoc e⟩
  | verified row csr => exact Challenged.snoc behind e
  | _ => trivial

def Signed (pf : Platform) (earlier : List ApiEvent) : ApiEvent → Prop
  | .sign request hostname csr =>
    ∃ row, row.hostname = hostname ∧ Challenged pf earlier request row csr
  | _ => True

structure Issues (pf : Platform) (s : ApiState) : Prop where
  rows : s.rows.map unsigned = storedRows s.log
  challenges : ∀ row ∈ storedRows s.log, HasChallenge pf row
  stages : ∀ request, StageReached pf s.log request (s.stages request)
  signs : ∀ earlier e later, s.log = earlier ++ e :: later → Signed pf earlier e

theorem newKeyFields_host {pf : Platform} {hostname : String} {port algo size : Json}
    {answer : HttpAnswer} {fields : AuthFields}
    (given : newKeyFields pf hostname port algo size answer = some fields) :
    fields.hostname = .string hostname ∧ fields.port = port := by
  unfold newKeyFields at given
  split at given
  · simp only [Option.bind_eq_bind, Option.bind_eq_some_iff] at given
    obtain ⟨data, -, success, -, result, -, csr, -, privateKey, -, taken⟩ := given
    split at taken
    · split_ifs at taken
      obtain rfl := Option.some.inj taken
      exact ⟨rfl, rfl⟩
    · simp at taken
  · simp at given

-- The challenge is made from the parameters before the cast.
theorem changeset_own {pf : Platform} {hostname token : String} {port : Json} {fields : AuthFields}
    {id : Nat} {row : AuthChallenge}
    (given : fields.hostname = .string hostname ∧ fields.port = port)
    (valid : changeset pf fields (pf.encode (generateChallengeData hostname port token)) id = some row) :
    row.publicKey = none ∧ HasChallenge pf row := by
  obtain ⟨sameHost, rfl⟩ := given
  simp only [changeset, sameHost, Option.bind_eq_bind, Option.bind_eq_some_iff] at valid
  obtain ⟨host, castHost, port, castPort, algo, -, size, -, csr, -, h, rfl, p, rfl, a, -, z, -,
    taken⟩ := valid
  split_ifs at taken with checks
  obtain rfl := Option.some.inj taken
  have same : hostname = h := by
    by_cases empty : hostname = ""
    · simp [castString, empty] at castHost
    · simpa [castString, empty] using castHost
  subst same
  exact ⟨rfl, _, token, interpolatePort fields.port, rfl,
    interpolatePort_denotes checks.2.2.1 castPort, rfl⟩

theorem verifyHttp01Challenge_own {pf : Platform} (s : ApiState) (request : Nat)
    {row : AuthChallenge} {csr url token : String} {answer : HttpAnswer}
    (own : OwnChallenge pf row url token) :
    verifyHttp01Challenge pf s request row csr answer =
      if verifies pf token answer then
        (s.emit (.get request url answer)).goto request (.verified row csr)
      else (s.emit (.get request url answer)).reply request (unverifiedStatus answer) := by
  obtain ⟨port, -, -, stored⟩ := own
  have decoded : pf.decode row.challenge = some (challengeData url token) := by
    rw [stored, pf.decode_encode]
  simp [verifyHttp01Challenge, decoded, challengeData]

namespace Issues

variable {pf : Platform} {s : ApiState}

theorem signs_snoc {log : List ApiEvent}
    (signs : ∀ earlier e later, log = earlier ++ e :: later → Signed pf earlier e) {e : ApiEvent}
    (last : Signed pf log e) (earlier : List ApiEvent) (f : ApiEvent) (later : List ApiEvent)
    (split : log ++ [e] = earlier ++ f :: later) : Signed pf earlier f := by
  rcases Lists.snoc_eq_append_cons split with ⟨rfl, rfl⟩ | ⟨shorter, -, split⟩
  · exact last
  · exact signs earlier f shorter split

theorem emit (inv : Issues pf s) {e : ApiEvent} (plain : storedRow e = none)
    (last : Signed pf s.log e) : Issues pf (s.emit e) where
  rows := by simpa [ApiState.emit, plain] using inv.rows
  challenges := by simpa [ApiState.emit, plain] using inv.challenges
  stages request := (inv.stages request).snoc e
  signs := signs_snoc inv.signs last

theorem goto (inv : Issues pf s) {request : Nat} {stage : Stage}
    (behind : StageReached pf s.log request stage) : Issues pf (s.goto request stage) where
  rows := inv.rows
  challenges := inv.challenges
  stages other := by
    by_cases same : other = request
    · subst same
      simpa [ApiState.goto] using behind
    · simpa [ApiState.goto, same] using inv.stages other
  signs := inv.signs

theorem reply (inv : Issues pf s) (request status : Nat) : Issues pf (s.reply request status) :=
  (inv.goto (show StageReached pf s.log request .idle from trivial)).emit rfl trivial

theorem insert (inv : Issues pf s) (request : Nat) {row : AuthChallenge}
    (fresh : row.publicKey = none) (own : HasChallenge pf row) :
    Issues pf (s.insert request row) where
  rows := by simp [ApiState.insert, ApiState.emit, storedRow, inv.rows, unsigned_of_none fresh]
  challenges other mem := by
    rw [ApiState.insert, ApiState.emit, storedRows_snoc, List.mem_append] at mem
    rcases mem with mem | mem
    · exact inv.challenges other mem
    · obtain rfl : other = row := by simpa [storedRow] using mem
      exact own
  stages other := (inv.stages other).snoc _
  signs := signs_snoc inv.signs trivial

theorem setPublicKey (inv : Issues pf s) (id : Nat) (key : String) :
    Issues pf (s.setPublicKey id key) where
  rows := by
    rw [← show _ = storedRows (s.setPublicKey id key).log from inv.rows]
    simp only [ApiState.setPublicKey, List.map_map]
    refine List.map_congr_left fun row _ => ?_
    by_cases same : row.id = id <;> simp [same, unsigned]
  challenges := inv.challenges
  stages := inv.stages
  signs := inv.signs

theorem nextRequest (inv : Issues pf s) (n : Nat) : Issues pf { s with nextRequest := n } :=
  ⟨inv.rows, inv.challenges, inv.stages, inv.signs⟩

theorem issuePrivateKeyRequest (inv : Issues pf s) (request : Nat) (hostname port algo size : Json) :
    Issues pf (Api.issuePrivateKeyRequest pf s request hostname port algo size) := by
  unfold Api.issuePrivateKeyRequest
  split_ifs
  · split
    · split_ifs
      · exact inv.goto trivial
      · exact inv.reply request 500
    · exact inv.reply request 500
  · exact inv.reply request 500

theorem privateKeyNew (inv : Issues pf s) (body : String → Option Json) :
    Issues pf (Api.privateKeyNew pf body s) := by
  have next := inv.nextRequest (s.nextRequest + 1)
  unfold Api.privateKeyNew
  dsimp only
  split
  · split <;> exact next.issuePrivateKeyRequest _ _ _ _ _
  · exact next.reply _ 400

theorem newKeyAnswered (inv : Issues pf s) (request : Nat) (hostname : String)
    (port algo size : Json) (answer : HttpAnswer) (token : String) (saved : Bool) :
    Issues pf (Api.newKeyAnswered pf s request hostname port algo size answer token saved) := by
  unfold Api.newKeyAnswered
  split
  · next fields given =>
    dsimp only
    split
    · next row valid =>
      obtain ⟨fresh, own⟩ := changeset_own (newKeyFields_host given) valid
      split_ifs
      · exact (inv.insert request fresh own).reply request 200
      · exact inv.reply request 500
    · exact inv.reply request 500
  · exact inv.reply request 500

theorem publicKeySigned (inv : Issues pf s) (body : String → Option Json) :
    Issues pf (Api.publicKeySigned body s) := by
  have next := inv.nextRequest (s.nextRequest + 1)
  unfold Api.publicKeySigned
  dsimp only
  split
  · exact next.goto trivial
  · exact next.reply _ 400

theorem readOnce (inv : Issues pf s) (request : Nat) {csr : String} {row : AuthChallenge}
    (only : getByCsr csr s.rows = [row]) (fresh : row.publicKey = none) :
    HasChallenge pf row ∧ ReadOnce (s.log ++ [.read request csr [row]]) request row csr [] := by
  have stored : getByCsr csr (storedRows s.log) = [row] := by
    rw [← inv.rows, getByCsr_map_unsigned, only, List.map_singleton, unsigned_of_none fresh]
  have found : row ∈ getByCsr csr (storedRows s.log) := by simp [stored]
  obtain ⟨mem, same⟩ := List.mem_filter.mp found
  exact ⟨inv.challenges row mem, s.log, rfl, stored, by simpa using same, fresh⟩

theorem lookedUp (inv : Issues pf s) (request : Nat) (csr : Json) :
    Issues pf (Api.lookedUp s request csr) := by
  unfold Api.lookedUp
  split
  · next csr =>
    have read := inv.emit (e := .read request csr (getByCsr csr s.rows)) rfl trivial
    dsimp only
    split
    · next row only =>
      split_ifs with fresh
      · obtain ⟨own, found⟩ := inv.readOnce request only fresh
        refine read.goto ⟨own, [], ?_⟩
        rw [only]
        exact found
      · exact read.reply request 400
    · exact read.reply request 400
  · exact inv.reply request 500

theorem verifyHttp01Challenge (inv : Issues pf s) (request : Nat) (row : AuthChallenge)
    (csr : String) (answer : HttpAnswer) (waits : s.stages request = .challenged row csr) :
    Issues pf (Api.verifyHttp01Challenge pf s request row csr answer) := by
  have behind := inv.stages request
  rw [waits] at behind
  obtain ⟨⟨url, token, own⟩, after, found⟩ := behind
  have asked := inv.emit (e := .get request url answer) rfl trivial
  rw [verifyHttp01Challenge_own s request own]
  split_ifs with verified
  · have read := found.snoc (.get request url answer)
    have answered : Challenged pf (s.emit (.get request url answer)).log request row csr :=
      ⟨_, url, token, answer, read, own, by simp, proves_of_verifies verified⟩
    exact asked.goto answered
  · exact asked.reply request _

theorem requestSignature (inv : Issues pf s) (request : Nat) (row : AuthChallenge) (csr : String)
    (waits : s.stages request = .verified row csr) :
    Issues pf (Api.requestSignature pf s request row csr) := by
  have behind := inv.stages request
  rw [waits] at behind
  unfold Api.requestSignature
  split_ifs
  · have signed : Signed pf s.log (.sign request row.hostname csr) := ⟨row, rfl, behind⟩
    exact (inv.emit rfl signed).goto trivial
  · exact inv.reply request 500

theorem signatureAnswered (inv : Issues pf s) (request : Nat) (row : AuthChallenge)
    (answer : HttpAnswer) (saved : Bool) :
    Issues pf (Api.signatureAnswered pf s request row answer saved) := by
  unfold Api.signatureAnswered
  split
  · split_ifs
    · exact (inv.setPublicKey row.id _).reply request 200
    · exact inv.reply request 500
  · exact inv.reply request 200
  · exact inv.reply request 500

theorem step (inv : Issues pf s) {a : ApiLabel} {t : ApiState}
    (moved : certificateStep pf s a = some t) : Issues pf t := by
  cases a with
  | privateKeyNew body =>
    obtain rfl := Option.some.inj moved
    exact inv.privateKeyNew body
  | publicKeySigned body =>
    obtain rfl := Option.some.inj moved
    exact inv.publicKeySigned body
  | newKeyAnswered request answer token saved =>
    simp only [certificateStep] at moved
    split at moved
    · obtain rfl := Option.some.inj moved
      exact inv.newKeyAnswered request _ _ _ _ answer token saved
    · simp at moved
  | lookedUp request =>
    simp only [certificateStep] at moved
    split at moved
    · obtain rfl := Option.some.inj moved
      exact inv.lookedUp request _
    · simp at moved
  | challengeAnswered request answer =>
    simp only [certificateStep] at moved
    split at moved
    · next row csr waits =>
      obtain rfl := Option.some.inj moved
      exact inv.verifyHttp01Challenge request row csr answer waits
    · simp at moved
  | requestSignature request =>
    simp only [certificateStep] at moved
    split at moved
    · next row csr waits =>
      obtain rfl := Option.some.inj moved
      exact inv.requestSignature request row csr waits
    · simp at moved
  | signatureAnswered request answer saved =>
    simp only [certificateStep] at moved
    split at moved
    · obtain rfl := Option.some.inj moved
      exact inv.signatureAnswered request _ answer saved
    · simp at moved

end Issues

theorem issues_reachable (pf : Platform) {s : ApiState}
    (reached : (certificateMachine pf).Reachable s) : Issues pf s := by
  refine (certificateMachine pf).invariant ?_ (fun s a t _ inv moved => inv.step moved) reached
  exact ⟨rfl, by simp [certificateMachine, storedRows], fun _ => trivial,
    fun earlier e later split => by simp [certificateMachine] at split⟩

/-- Every signing request carries the csr and the host of one record, and the same request has
asked that host for the record's token before. -/
theorem signed_after_challenge (pf : Platform) {s : ApiState}
    (reached : (certificateMachine pf).Reachable s) {earlier later : List ApiEvent} {request : Nat}
    {hostname csr : String} (split : s.log = earlier ++ .sign request hostname csr :: later) :
    ∃ row, row.hostname = hostname ∧ Challenged pf earlier request row csr :=
  (issues_reachable pf reached).signs earlier _ later split

section Sample

def quoted : List Char → List Char
  | [] => ['"']
  | c :: rest => if c = '"' ∨ c = '\\' then '\\' :: c :: quoted rest else c :: quoted rest

def unquoted : List Char → Option (List Char × List Char)
  | [] => none
  | '"' :: rest => some ([], rest)
  | '\\' :: c :: rest => (unquoted rest).map fun read => (c :: read.1, read.2)
  | c :: rest => (unquoted rest).map fun read => (c :: read.1, read.2)

theorem unquoted_quoted (text rest : List Char) :
    unquoted (quoted text ++ rest) = some (text, rest) := by
  induction text with
  | nil => rfl
  | cons c text ih =>
    by_cases special : c = '"' ∨ c = '\\'
    · simp [quoted, special, unquoted, ih]
    · rw [not_or] at special
      rw [quoted, if_neg (by simp [special]), List.cons_append, unquoted, ih]
      · rfl
      · exact special.1
      · exact fun _ _ same => absurd same special.2

def urlStart : List Char := "\x7b\"url\":\"".toList
def tokenStart : List Char := ",\"type\":\"http-savior\",\"token\":\"".toList

def sampleEncode : Json → String
  | .object member =>
    match member "url", member "token" with
    | some (.string url), some (.string token) =>
      String.ofList (urlStart ++ (quoted url.toList ++ (tokenStart ++ (quoted token.toList ++ ['\x7d']))))
    | _, _ => ""
  | _ => ""

def objectOf (members : List (String × Json)) : Json :=
  .object fun key => members.lookup key

def newKeyBody : String :=
  "\x7b\"success\":true,\"result\":\x7b\"certificate_request\":\"csr\",\"private_key\":\"key\"\x7d\x7d"

def tokenBody : String :=
  "\x7b\"token\":\"t0k3n\"\x7d"

def sampleDecode (text : String) : Option Json :=
  if text = newKeyBody then
    some (objectOf [("success", .bool true),
      ("result", objectOf [("certificate_request", .string "csr"), ("private_key", .string "key")])])
  else if text = tokenBody then some (objectOf [("token", .string "t0k3n")])
  else do
    let (url, rest) ← unquoted (text.toList.drop urlStart.length)
    let (token, _) ← unquoted (rest.drop tokenStart.length)
    some (challengeData (String.ofList url) (String.ofList token))

theorem sampleDecode_encode (url token : String) :
    sampleDecode (sampleEncode (challengeData url token)) = some (challengeData url token) := by
  have other : ∀ body : String, body.toList[2]? ≠ some 'u' →
      String.ofList (urlStart ++ (quoted url.toList ++
        (tokenStart ++ (quoted token.toList ++ ['\x7d'])))) ≠ body := by
    rintro body third rfl
    rw [String.toList_ofList, List.getElem?_append_left (by decide)] at third
    exact third (by decide)
  simp only [sampleEncode, challengeData, if_true, if_false, String.reduceEq]
  rw [sampleDecode, if_neg (other _ (by decide)), if_neg (other _ (by decide))]
  simp [unquoted_quoted, challengeData]

def samplePlatform : Platform where
  encode := sampleEncode
  decode := sampleDecode
  decode_encode := sampleDecode_encode
  printable
    | .object _ => false
    | .array _ => false
    | _ => true
  blank s := s.toList.all Char.isWhitespace
  sharedSecretDecodes := true

def sampleRow : AuthChallenge where
  id := 0
  hostname := "sensor.virtue"
  port := 8080
  algo := cfsslDefaultAlgo
  size := cfsslDefaultSize
  challenge := sampleEncode (challengeData "http://sensor.virtue:8080/path/to/challenge" "t0k3n")
  csr := some "csr"
  publicKey := none

def sampleRun : List ApiLabel :=
  [.privateKeyNew fun key => [("hostname", Json.string "sensor.virtue"), ("port", .integer 8080)].lookup key,
    .newKeyAnswered 0 (.response 200 newKeyBody) "t0k3n" true,
    .publicKeySigned fun key => [("certificate_request", Json.string "csr")].lookup key,
    .lookedUp 1, .challengeAnswered 1 (.response 200 tokenBody), .requestSignature 1]

def sampleLog : List ApiEvent :=
  [.stored 0 sampleRow, .reply 0 200, .read 1 "csr" [sampleRow],
    .get 1 "http://sensor.virtue:8080/path/to/challenge" (.response 200 tokenBody)]

theorem signed_after_challenge_once : ∃ row, row.hostname = "sensor.virtue" ∧
    Challenged samplePlatform sampleLog 1 row "csr" := by
  have ran : ((certificateMachine samplePlatform).run sampleRun).map ApiState.log =
      some (sampleLog ++ [.sign 1 "sensor.virtue" "csr"]) := by decide +kernel
  obtain ⟨s, reached, logged⟩ := Option.map_eq_some_iff.mp ran
  exact signed_after_challenge samplePlatform ⟨sampleRun, reached⟩ logged

end Sample

end VirtueSensing.Api
