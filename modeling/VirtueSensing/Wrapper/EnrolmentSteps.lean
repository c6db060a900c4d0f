import VirtueSensing.Wrapper.Enrolment

set_option autoImplicit false

/-!
# What one step of the API does to its request

Everything that the enrolment needs of a step of the `CertificateController`: where the request goes
that it is about, what is logged, and what is sent.
-/

namespace VirtueSensing.Wrapper.Enrolment

open Api (Json ApiState ApiLabel ApiEvent AuthChallenge HttpAnswer Platform Stage certificateStep newKeyFields
  changeset generateChallengeData signedCertificate verifies storedRow storedRows getByCsr)

variable {pf : Platform} {s t : ApiState} {a : ApiLabel}

def opens : ApiLabel → Bool
  | .privateKeyNew _ | .publicKeySigned _ => true
  | _ => false

def acting (s : ApiState) : ApiLabel → Nat
  | .privateKeyNew _ | .publicKeySigned _ => s.nextRequest
  | .newKeyAnswered request _ _ _ | .lookedUp request | .challengeAnswered request _
  | .requestSignature request | .signatureAnswered request _ _ => request

def HasToken (pf : Platform) (row : AuthChallenge) (token : String) : Prop :=
  ∃ member, pf.decode row.challenge = some (.object member) ∧ member "token" = some (.string token)

-- An event that neither stores a record nor asks for a signature.
def Plain : ApiEvent → Prop
  | .stored _ _ | .sign _ _ _ => False
  | _ => True

/-- The stage that a step leaves its request in, and the events of the step. -/
inductive Change (pf : Platform) (s : ApiState) : ApiLabel → Stage → List ApiEvent → Prop
  | keyAsked {body : String → Option Json} {hostname : String} (port algo size : Json)
    (named : body "hostname" = some (.string hostname)) :
    Change pf s (.privateKeyNew body) (.newKey hostname port algo size) []
  | certificateAsked {body : String → Option Json} {csr : Json}
    (named : body "certificate_request" = some csr) : Change pf s (.publicKeySigned body) (.lookup csr) []
  | stored {request : Nat} {hostname : String} {port algo size : Json} {answer : HttpAnswer}
    {token : String} {fields : Api.AuthFields} {row : AuthChallenge}
    (waits : s.stages request = .newKey hostname port algo size)
    (sent : newKeyFields pf hostname port algo size answer = some fields)
    (valid : changeset pf fields (pf.encode (generateChallengeData hostname port token)) s.nextRow =
      some row) :
    Change pf s (.newKeyAnswered request answer token true) .idle
      [.stored request row, .reply request 200]
  | found {request : Nat} {csr : String} {row : AuthChallenge}
    (waits : s.stages request = .lookup (.string csr)) (only : getByCsr csr s.rows = [row]) :
    Change pf s (.lookedUp request) (.challenged row csr) [.read request csr [row]]
  | verified {request : Nat} {csr url token : String} {row : AuthChallenge} {answer : HttpAnswer}
    (waits : s.stages request = .challenged row csr) (stored : HasToken pf row token)
    (proved : verifies pf token answer) :
    Change pf s (.challengeAnswered request answer) (.verified row csr) [.get request url answer]
  | signing {request : Nat} {csr : String} {row : AuthChallenge}
    (waits : s.stages request = .verified row csr) :
    Change pf s (.requestSignature request) (.signing row csr) [.sign request row.hostname csr]
  | closed {a : ApiLabel} {events : List ApiEvent} (plain : ∀ e ∈ events, Plain e) :
    Change pf s a .idle events

structure Moved (pf : Platform) (s : ApiState) (a : ApiLabel) (t : ApiState) (stage : Stage)
    (events : List ApiEvent) : Prop where
  change : Change pf s a stage events
  stages : t.stages = Function.update s.stages (acting s a) stage
  log : t.log = s.log ++ events
  next : t.nextRequest = if opens a then s.nextRequest + 1 else s.nextRequest
  busy : opens a ∨ s.stages (acting s a) ≠ .idle

section Steps

theorem plain_reply {request status : Nat} : ∀ e ∈ [ApiEvent.reply request status], Plain e := by
  simp [Plain]

theorem privateKeyNew_moved (body : String → Option Json) :
    ∃ stage events, Moved pf s (.privateKeyNew body) (Api.privateKeyNew pf body s) stage events := by
  have refused : ∀ status, ∃ stage events, Moved pf s (.privateKeyNew body)
      (({ s with nextRequest := s.nextRequest + 1 } : ApiState).reply s.nextRequest status) stage events :=
    fun status => ⟨.idle, _, .closed plain_reply, rfl, rfl, rfl, .inl rfl⟩
  have issued : ∀ hostname port algo size, body "hostname" = some hostname →
      ∃ stage events, Moved pf s (.privateKeyNew body)
        (Api.issuePrivateKeyRequest pf { s with nextRequest := s.nextRequest + 1 } s.nextRequest
          hostname port algo size) stage events := by
    intro hostname port algo size named
    unfold Api.issuePrivateKeyRequest
    split_ifs
    · split
      · split_ifs
        · exact ⟨_, [], .keyAsked port algo size named, rfl, (List.append_nil _).symm, rfl, .inl rfl⟩
        · exact refused 500
      · exact refused 500
    · exact refused 500
  unfold Api.privateKeyNew
  dsimp only
  split
  · next hostname port named _ =>
    split
    · exact issued hostname _ _ _ named
    · exact issued hostname _ _ _ named
  · exact refused 400

theorem publicKeySigned_moved (body : String → Option Json) :
    ∃ stage events, Moved pf s (.publicKeySigned body) (Api.publicKeySigned body s) stage events := by
  unfold Api.publicKeySigned
  dsimp only
  split
  · next csr named =>
    exact ⟨_, [], .certificateAsked named, rfl, (List.append_nil _).symm, rfl, .inl rfl⟩
  · exact ⟨.idle, _, .closed plain_reply, rfl, rfl, rfl, .inl rfl⟩

theorem newKeyAnswered_moved {request : Nat} {hostname : String} {port algo size : Json}
    (waits : s.stages request = .newKey hostname port algo size) (answer : HttpAnswer) (token : String)
    (saved : Bool) : ∃ stage events, Moved pf s (.newKeyAnswered request answer token saved)
      (Api.newKeyAnswered pf s request hostname port algo size answer token saved) stage events := by
  have busy : s.stages request ≠ .idle := by simp [waits]
  have refused : ∃ stage events, Moved pf s (.newKeyAnswered request answer token saved)
      (s.reply request 500) stage events :=
    ⟨.idle, _, .closed plain_reply, rfl, rfl, rfl, .inr busy⟩
  unfold Api.newKeyAnswered
  split
  · next fields sent =>
    dsimp only
    split
    · next row valid =>
      split_ifs with kept
      · obtain rfl := kept
        refine ⟨.idle, _, .stored waits sent valid, rfl, ?_, rfl, .inr busy⟩
        simp [ApiState.reply, ApiState.emit, ApiState.goto, ApiState.insert]
      · exact refused
    · exact refused
  · exact refused

theorem lookedUp_moved {request : Nat} {csr : Json} (waits : s.stages request = .lookup csr) :
    ∃ stage events, Moved pf s (.lookedUp request) (Api.lookedUp s request csr) stage events := by
  have busy : s.stages request ≠ .idle := by simp [waits]
  unfold Api.lookedUp
  split
  · next csr =>
    have refused : ∃ stage events, Moved pf s (.lookedUp request)
        ((s.emit (.read request csr (getByCsr csr s.rows))).reply request 400) stage events := by
      refine ⟨.idle, [.read request csr (getByCsr csr s.rows), .reply request 400],
        .closed (by simp [Plain]), rfl, ?_, rfl, .inr busy⟩
      simp [ApiState.reply, ApiState.emit, ApiState.goto]
    dsimp only
    split
    · next row only =>
      split_ifs
      · refine ⟨_, [.read request csr [row]], .found waits only, rfl, ?_, rfl, .inr busy⟩
        simp [ApiState.emit, ApiState.goto, only]
      · exact refused
    · exact refused
  · exact ⟨.idle, _, .closed plain_reply, rfl, rfl, rfl, .inr busy⟩

theorem verifyHttp01Challenge_moved {request : Nat} {row : AuthChallenge} {csr : String}
    (waits : s.stages request = .challenged row csr) (answer : HttpAnswer) :
    ∃ stage events, Moved pf s (.challengeAnswered request answer)
      (Api.verifyHttp01Challenge pf s request row csr answer) stage events := by
  have busy : s.stages request ≠ .idle := by simp [waits]
  have refused : ∃ stage events, Moved pf s (.challengeAnswered request answer)
      (s.reply request 500) stage events :=
    ⟨.idle, _, .closed plain_reply, rfl, rfl, rfl, .inr busy⟩
  unfold Api.verifyHttp01Challenge
  split
  · next member stored =>
    split
    · next url token kind _ here _ =>
      dsimp only
      split_ifs with proved
      · exact ⟨_, [.get request url answer], .verified waits ⟨member, stored, here⟩ proved, rfl, rfl, rfl,
          .inr busy⟩
      · refine ⟨.idle, [.get request url answer, .reply request (Api.unverifiedStatus answer)],
          .closed (by simp [Plain]), rfl, ?_, rfl, .inr busy⟩
        simp [ApiState.reply, ApiState.emit, ApiState.goto]
    · exact refused
  · exact refused

theorem requestSignature_moved {request : Nat} {row : AuthChallenge} {csr : String}
    (waits : s.stages request = .verified row csr) : ∃ stage events,
      Moved pf s (.requestSignature request) (Api.requestSignature pf s request row csr) stage events := by
  have busy : s.stages request ≠ .idle := by simp [waits]
  unfold Api.requestSignature
  split_ifs
  · exact ⟨_, [.sign request row.hostname csr], .signing waits, rfl, rfl, rfl, .inr busy⟩
  · exact ⟨.idle, _, .closed plain_reply, rfl, rfl, rfl, .inr busy⟩

theorem signatureAnswered_moved {request : Nat} {row : AuthChallenge} {csr : String}
    (waits : s.stages request = .signing row csr) (answer : HttpAnswer) (saved : Bool) :
    ∃ stage events, Moved pf s (.signatureAnswered request answer saved)
      (Api.signatureAnswered pf s request row answer saved) stage events := by
  have busy : s.stages request ≠ .idle := by simp [waits]
  have refused : ∀ status, ∃ stage events, Moved pf s (.signatureAnswered request answer saved)
      (s.reply request status) stage events :=
    fun status => ⟨.idle, _, .closed plain_reply, rfl, rfl, rfl, .inr busy⟩
  unfold Api.signatureAnswered
  split
  · split_ifs
    · exact ⟨.idle, _, .closed plain_reply, rfl, rfl, rfl, .inr busy⟩
    · exact refused 500
  · exact refused 200
  · exact refused 500

theorem certificateStep_moved (moved : certificateStep pf s a = some t) :
    ∃ stage events, Moved pf s a t stage events := by
  cases a with
  | privateKeyNew body =>
    obtain rfl := Option.some.inj moved
    exact privateKeyNew_moved body
  | publicKeySigned body =>
    obtain rfl := Option.some.inj moved
    exact publicKeySigned_moved body
  | newKeyAnswered request answer token saved =>
    simp only [certificateStep] at moved
    split at moved
    · next waits =>
      obtain rfl := Option.some.inj moved
      exact newKeyAnswered_moved waits answer token saved
    · cases moved
  | lookedUp request =>
    simp only [certificateStep] at moved
    split at moved
    · next waits =>
      obtain rfl := Option.some.inj moved
      exact lookedUp_moved waits
    · cases moved
  | challengeAnswered request answer =>
    simp only [certificateStep] at moved
    split at moved
    · next waits =>
      obtain rfl := Option.some.inj moved
      exact verifyHttp01Challenge_moved waits answer
    · cases moved
  | requestSignature request =>
    simp only [certificateStep] at moved
    split at moved
    · next waits =>
      obtain rfl := Option.some.inj moved
      exact requestSignature_moved waits
    · cases moved
  | signatureAnswered request answer saved =>
    simp only [certificateStep] at moved
    split at moved
    · next waits =>
      obtain rfl := Option.some.inj moved
      exact signatureAnswered_moved waits answer saved
    · cases moved

end Steps

end VirtueSensing.Wrapper.Enrolment
