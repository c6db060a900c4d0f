import VirtueSensing.Api.CertificateRuns

set_option autoImplicit false

/-!
# One certificate for a request

A record is read before its challenge and gets its public key after the answer of CFSSL. What keeps
CFSSL from being asked twice is only that requests for one csr do not meet in between.
-/

namespace VirtueSensing.Api

def signs (csr : String) : ApiEvent → Bool
  | .sign _ _ asked => asked = csr
  | _ => false

def SignedOnce (s : ApiState) : Prop :=
  ∀ csr, s.log.countP (signs csr) ≤ 1

-- The csr of a request that has read its record without a public key, and that record.
def Stage.work : Stage → Option (AuthChallenge × String)
  | .challenged row csr | .verified row csr | .signing row csr => some (row, csr)
  | _ => none

def Stage.signs : Stage → Bool
  | .signing _ _ => true
  | _ => false

def WorksOn (s : ApiState) (request : Nat) (csr : String) : Prop :=
  ∃ row, (s.stages request).work = some (row, csr)

def Stage.asks : Stage → Option String
  | .lookup (.string csr) => some csr
  | _ => none

/-- A request reads its record only while no other works on the csr, and each answer to a signing
request brings a certificate that the database stores. -/
def OneByOne (pf : Platform) (s : ApiState) : ApiLabel → Prop
  | .lookedUp request =>
    ∀ other < s.nextRequest, ∀ work ∈ (s.stages other).work, (s.stages request).asks ≠ some work.2
  | .signatureAnswered _ answer saved => ((signedCertificate pf answer).bind id).isSome ∧ saved
  | _ => True

instance (pf : Platform) (s : ApiState) : DecidablePred (OneByOne pf s)
  | .lookedUp request => inferInstanceAs (Decidable (∀ other < s.nextRequest,
      ∀ work ∈ (s.stages other).work, (s.stages request).asks ≠ some work.2))
  | .signatureAnswered _ answer saved =>
    inferInstanceAs (Decidable (((signedCertificate pf answer).bind id).isSome ∧ saved))
  | .privateKeyNew _ | .publicKeySigned _ | .newKeyAnswered .. | .challengeAnswered ..
  | .requestSignature _ => inferInstanceAs (Decidable True)

structure Guarded (s : ApiState) : Prop where
  idle : ∀ request, s.nextRequest ≤ request → s.stages request = .idle
  stored : ∀ request row csr, (s.stages request).work = some (row, csr) →
    ∃ there ∈ s.rows, there.id = row.id ∧ there.csr = some csr
  alone : ∀ first second csr, WorksOn s first csr → WorksOn s second csr → first = second
  once : SignedOnce s
  unasked : ∀ request csr, WorksOn s request csr → (s.stages request).signs = false →
    s.log.countP (signs csr) = 0
  settled : ∀ csr, s.log.countP (signs csr) ≠ 0 →
    (∃ request row, s.stages request = .signing row csr) ∨
      ∃ row ∈ s.rows, row.csr = some csr ∧ row.publicKey ≠ none

theorem stages_goto {s : ApiState} {request : Nat} {stage : Stage} :
    (s.goto request stage).stages request = stage :=
  Function.update_self ..

theorem stages_goto_of_ne {s : ApiState} {request other : Nat} {stage : Stage}
    (different : other ≠ request) : (s.goto request stage).stages other = s.stages other :=
  Function.update_of_ne different ..

theorem idle_goto {s : ApiState} {request : Nat} {stage : Stage} (known : request < s.nextRequest)
    (idle : ∀ other, s.nextRequest ≤ other → s.stages other = .idle) :
    ∀ other, s.nextRequest ≤ other → (s.goto request stage).stages other = .idle := by
  intro other new
  rw [stages_goto_of_ne (Nat.ne_of_gt (Nat.lt_of_lt_of_le known new))]
  exact idle other new

theorem signing_goto {s : ApiState} {request other : Nat} {stage : Stage} {row : AuthChallenge}
    {csr : String} (waits : (s.stages request).signs = false)
    (signing : s.stages other = .signing row csr) :
    (s.goto request stage).stages other = .signing row csr := by
  have different : other ≠ request := by
    rintro rfl
    rw [signing] at waits
    exact absurd waits nofun
  rw [stages_goto_of_ne different]
  exact signing

namespace Guarded

variable {s : ApiState}

theorem emit (inv : Guarded s) {e : ApiEvent} (plain : ∀ csr, signs csr e = false) :
    Guarded (s.emit e) := by
  have same : ∀ csr, (s.emit e).log.countP (signs csr) = s.log.countP (signs csr) := by
    intro csr
    simp [ApiState.emit, List.countP_append, plain]
  constructor
  · exact inv.idle
  · exact inv.stored
  · exact inv.alone
  · intro csr
    rw [same]
    exact inv.once csr
  · intro request csr works waits
    rw [same]
    exact inv.unasked request csr works waits
  · intro csr asked
    rw [same] at asked
    exact inv.settled csr asked

theorem worksOn_goto {request other : Nat} {stage : Stage} {csr : String}
    (works : WorksOn (s.goto request stage) other csr) :
    (other = request ∧ ∃ row, stage.work = some (row, csr)) ∨ (other ≠ request ∧ WorksOn s other csr) := by
  obtain ⟨row, works⟩ := works
  by_cases same : other = request
  · subst same
    rw [stages_goto] at works
    exact .inl ⟨rfl, row, works⟩
  · rw [stages_goto_of_ne same] at works
    exact .inr ⟨same, row, works⟩

theorem goto (inv : Guarded s) {request : Nat} {stage : Stage}
    (known : request < s.nextRequest) (waits : (s.stages request).signs = false)
    (work : ∀ row csr, stage.work = some (row, csr) → (s.stages request).work = some (row, csr)) :
    Guarded (s.goto request stage) := by
  have worked : ∀ other csr, WorksOn (s.goto request stage) other csr → WorksOn s other csr := by
    intro other csr works
    rcases worksOn_goto works with ⟨rfl, row, works⟩ | ⟨-, works⟩
    · exact ⟨row, work row csr works⟩
    · exact works
  constructor
  · exact idle_goto known inv.idle
  · intro other row csr works
    by_cases same : other = request
    · subst same
      rw [stages_goto] at works
      exact inv.stored other row csr (work row csr works)
    · rw [stages_goto_of_ne same] at works
      exact inv.stored other row csr works
  · exact fun first second csr a b => inv.alone first second csr (worked first csr a)
      (worked second csr b)
  · exact inv.once
  · intro other csr works still
    apply inv.unasked other csr (worked other csr works)
    by_cases same : other = request
    · rw [same]
      exact waits
    · rwa [stages_goto_of_ne same] at still
  · intro csr asked
    rcases inv.settled csr asked with ⟨other, row, signing⟩ | done
    · exact .inl ⟨other, row, signing_goto waits signing⟩
    · exact .inr done

theorem rest (inv : Guarded s) {request : Nat} {stage : Stage} (known : request < s.nextRequest)
    (waits : (s.stages request).signs = false) (free : stage.work = none) :
    Guarded (s.goto request stage) := by
  apply inv.goto known waits
  intro row csr works
  rw [free] at works
  exact absurd works nofun

theorem reply (inv : Guarded s) {request : Nat} (known : request < s.nextRequest)
    (waits : (s.stages request).signs = false) (status : Nat) :
    Guarded (s.reply request status) :=
  (inv.rest known waits rfl).emit fun _ => rfl

theorem nextRequest (inv : Guarded s) : Guarded { s with nextRequest := s.nextRequest + 1 } :=
  ⟨fun request new => inv.idle request (Nat.le_of_succ_le new), inv.stored, inv.alone, inv.once,
    inv.unasked, inv.settled⟩

theorem insert (inv : Guarded s) (request : Nat) (row : AuthChallenge) :
    Guarded (s.insert request row) := by
  have more : Guarded { s with rows := s.rows ++ [row], nextRow := s.nextRow + 1 } := by
    constructor
    · exact inv.idle
    · intro other found csr works
      obtain ⟨there, member, same⟩ := inv.stored other found csr works
      exact ⟨there, List.mem_append_left _ member, same⟩
    · exact inv.alone
    · exact inv.once
    · exact inv.unasked
    · intro csr asked
      rcases inv.settled csr asked with signing | ⟨there, member, same⟩
      · exact .inl signing
      · exact .inr ⟨there, List.mem_append_left _ member, same⟩
  exact more.emit fun _ => rfl

-- The record is read while no other request works on its csr, so no signing request is behind it.
theorem read (inv : Guarded s) {request : Nat} {row : AuthChallenge} {csr : String}
    (known : request < s.nextRequest) (waits : s.stages request = .lookup (.string csr))
    (only : getByCsr csr s.rows = [row]) (fresh : row.publicKey = none)
    (serial : ∀ other, ¬ WorksOn s other csr) :
    Guarded (s.goto request (.challenged row csr)) := by
  have found : ∀ there ∈ s.rows, there.csr = some csr → there = row := by
    intro there member same
    have listed : there ∈ getByCsr csr s.rows := List.mem_filter.mpr ⟨member, by simpa using same⟩
    rw [only] at listed
    exact List.mem_singleton.mp listed
  have unsigned : s.log.countP (signs csr) = 0 := by
    by_contra asked
    rcases inv.settled csr asked with ⟨other, stored, signing⟩ | ⟨there, member, same, signed⟩
    · exact serial other ⟨stored, by rw [signing]; rfl⟩
    · rw [found there member same] at signed
      exact signed fresh
  constructor
  · exact idle_goto known inv.idle
  · intro other there asked works
    by_cases same : other = request
    · subst same
      rw [stages_goto] at works
      obtain ⟨rfl, rfl⟩ : row = there ∧ csr = asked := by simpa [Stage.work] using works
      have listed : row ∈ getByCsr csr s.rows := by simp [only]
      obtain ⟨member, keyed⟩ := List.mem_filter.mp listed
      exact ⟨row, member, rfl, by simpa using keyed⟩
    · rw [stages_goto_of_ne same] at works
      exact inv.stored other there asked works
  · intro first second asked works worksToo
    rcases worksOn_goto works with ⟨rfl, here, new⟩ | ⟨-, old⟩
    · rcases worksOn_goto worksToo with ⟨rfl, -⟩ | ⟨-, other⟩
      · rfl
      · obtain ⟨-, rfl⟩ : row = here ∧ csr = asked := by simpa [Stage.work] using new
        exact absurd other (serial second)
    · rcases worksOn_goto worksToo with ⟨rfl, here, new⟩ | ⟨-, other⟩
      · obtain ⟨-, rfl⟩ : row = here ∧ csr = asked := by simpa [Stage.work] using new
        exact absurd old (serial first)
      · exact inv.alone first second asked old other
  · exact inv.once
  · intro other asked works still
    rcases worksOn_goto works with ⟨rfl, here, works⟩ | ⟨different, works⟩
    · obtain ⟨-, rfl⟩ : row = here ∧ csr = asked := by simpa [Stage.work] using works
      exact unsigned
    · rw [stages_goto_of_ne different] at still
      exact inv.unasked other asked works still
  · intro asked present
    rcases inv.settled asked present with ⟨other, stored, signing⟩ | done
    · exact .inl ⟨other, stored, signing_goto (by rw [waits]; rfl) signing⟩
    · exact .inr done

theorem sign (inv : Guarded s) {request : Nat} {row : AuthChallenge} {csr : String}
    (known : request < s.nextRequest) (waits : s.stages request = .verified row csr)
    (hostname : String) :
    Guarded ((s.emit (.sign request hostname csr)).goto request (.signing row csr)) := by
  have works : WorksOn s request csr := ⟨row, by rw [waits]; rfl⟩
  have unsigned := inv.unasked request csr works (by rw [waits]; rfl)
  have counted : ∀ asked, (s.log ++ [ApiEvent.sign request hostname csr]).countP (signs asked) =
      s.log.countP (signs asked) + if csr = asked then 1 else 0 := by
    intro asked
    simp [List.countP_append, List.countP_cons, signs]
  have kept : ∀ other asked, WorksOn
      ((s.emit (.sign request hostname csr)).goto request (.signing row csr)) other asked →
      WorksOn s other asked := by
    intro other asked works
    rcases worksOn_goto works with ⟨rfl, here, works⟩ | ⟨-, works⟩
    · obtain ⟨-, rfl⟩ : row = here ∧ csr = asked := by simpa [Stage.work] using works
      exact ⟨row, by rw [waits]; rfl⟩
    · exact works
  constructor
  · exact idle_goto known inv.idle
  · intro other there asked works
    by_cases same : other = request
    · subst same
      rw [stages_goto] at works
      exact inv.stored other there asked (by rw [waits]; exact works)
    · rw [stages_goto_of_ne same] at works
      exact inv.stored other there asked works
  · exact fun first second asked a b => inv.alone first second asked (kept first asked a)
      (kept second asked b)
  · intro asked
    show (s.log ++ [ApiEvent.sign request hostname csr]).countP (signs asked) ≤ 1
    rw [counted]
    split_ifs with same
    · rw [← same, unsigned]
    · exact inv.once asked
  · intro other asked works still
    show (s.log ++ [ApiEvent.sign request hostname csr]).countP (signs asked) = 0
    have different : other ≠ request := by
      rintro rfl
      rw [stages_goto] at still
      exact absurd still nofun
    rw [stages_goto_of_ne different] at still
    have before := kept other asked works
    have otherCsr : csr ≠ asked := by
      rintro rfl
      exact different (inv.alone other request csr before ⟨row, by rw [waits]; rfl⟩)
    rw [counted, if_neg otherCsr]
    exact inv.unasked other asked before still
  · intro asked present
    by_cases same : csr = asked
    · subst same
      exact .inl ⟨request, row, stages_goto⟩
    · have before : s.log.countP (signs asked) ≠ 0 := by
        change (s.log ++ [ApiEvent.sign request hostname csr]).countP (signs asked) ≠ 0 at present
        rwa [counted, if_neg same, Nat.add_zero] at present
      rcases inv.settled asked before with ⟨other, stored, signing⟩ | done
      · have still : (s.stages request).signs = false := by rw [waits]; rfl
        exact .inl ⟨other, stored, signing_goto still signing⟩
      · exact .inr done

theorem finish (inv : Guarded s) {request : Nat} {row : AuthChallenge} {csr : String}
    (known : request < s.nextRequest) (waits : s.stages request = .signing row csr) (key : String) :
    Guarded ((s.setPublicKey row.id key).reply request 200) := by
  have kept : ∀ there ∈ s.rows, ∃ after ∈ (s.setPublicKey row.id key).rows,
      after.id = there.id ∧ after.csr = there.csr ∧
        (there.publicKey ≠ none ∨ there.id = row.id → after.publicKey ≠ none) := by
    intro there member
    refine ⟨_, List.mem_map_of_mem member, ?_⟩
    by_cases same : there.id = row.id
    · simp [same]
    · simp [same]
  have worked : ∀ other asked, WorksOn ((s.setPublicKey row.id key).goto request .idle) other asked →
      other ≠ request ∧ WorksOn s other asked := by
    intro other asked works
    rcases worksOn_goto works with ⟨rfl, here, works⟩ | works
    · exact absurd works nofun
    · exact works
  have done : Guarded ((s.setPublicKey row.id key).goto request .idle) := by
    constructor
    · exact idle_goto known inv.idle
    · intro other there asked works
      by_cases same : other = request
      · subst same
        rw [stages_goto] at works
        exact absurd works nofun
      · rw [stages_goto_of_ne same] at works
        obtain ⟨found, member, sameId, sameCsr⟩ := inv.stored other there asked works
        obtain ⟨after, later, idKept, csrKept, -⟩ := kept found member
        exact ⟨after, later, idKept.trans sameId, csrKept.trans sameCsr⟩
    · exact fun first second asked a b => inv.alone first second asked (worked first asked a).2
        (worked second asked b).2
    · exact inv.once
    · intro other asked works still
      obtain ⟨different, before⟩ := worked other asked works
      rw [stages_goto_of_ne different] at still
      exact inv.unasked other asked before still
    · intro asked present
      rcases inv.settled asked present with ⟨other, stored, signing⟩ | ⟨there, member, same, signed⟩
      · by_cases same : other = request
        · subst same
          rw [waits] at signing
          obtain ⟨rfl, rfl⟩ : row = stored ∧ csr = asked := by simpa using signing
          have works : (s.stages other).work = some (row, csr) := by rw [waits]; rfl
          obtain ⟨found, member, sameId, sameCsr⟩ := inv.stored other row csr works
          obtain ⟨after, later, -, csrKept, keyed⟩ := kept found member
          exact .inr ⟨after, later, csrKept.trans sameCsr, keyed (.inr sameId)⟩
        · exact .inl ⟨other, stored, by rw [stages_goto_of_ne same]; exact signing⟩
      · obtain ⟨after, later, -, csrKept, keyed⟩ := kept there member
        exact .inr ⟨after, later, csrKept.trans same, keyed (.inl signed)⟩
  exact done.emit fun _ => rfl

theorem known (inv : Guarded s) (request : Nat) (busy : s.stages request ≠ .idle) :
    request < s.nextRequest := by
  by_contra new
  exact busy (inv.idle request (Nat.le_of_not_lt new))

theorem issuePrivateKeyRequest (inv : Guarded s) (pf : Platform) {request : Nat}
    (known : request < s.nextRequest) (waits : s.stages request = .idle)
    (hostname port algo size : Json) :
    Guarded (Api.issuePrivateKeyRequest pf s request hostname port algo size) := by
  have plain : (s.stages request).signs = false := by rw [waits]; rfl
  unfold Api.issuePrivateKeyRequest
  split_ifs
  · split
    · split_ifs
      · exact inv.rest known plain rfl
      · exact inv.reply known plain 500
    · exact inv.reply known plain 500
  · exact inv.reply known plain 500

theorem privateKeyNew (inv : Guarded s) (pf : Platform) (body : String → Option Json) :
    Guarded (Api.privateKeyNew pf body s) := by
  have waits := inv.idle s.nextRequest (Nat.le_refl _)
  have plain : (s.stages s.nextRequest).signs = false := by rw [waits]; rfl
  have known := Nat.lt_succ_self s.nextRequest
  unfold Api.privateKeyNew
  dsimp only
  split
  · split <;> exact inv.nextRequest.issuePrivateKeyRequest pf known waits _ _ _ _
  · exact inv.nextRequest.reply known plain 400

theorem newKeyAnswered (inv : Guarded s) (pf : Platform) {request : Nat} {hostname : String}
    {port algo size : Json} (waits : s.stages request = .newKey hostname port algo size)
    (answer : HttpAnswer) (token : String) (saved : Bool) :
    Guarded (Api.newKeyAnswered pf s request hostname port algo size answer token saved) := by
  have known := inv.known request (by rw [waits]; exact nofun)
  have plain : (s.stages request).signs = false := by rw [waits]; rfl
  unfold Api.newKeyAnswered
  split
  · dsimp only
    split
    · split_ifs
      · exact (inv.insert request _).reply known plain 200
      · exact inv.reply known plain 500
    · exact inv.reply known plain 500
  · exact inv.reply known plain 500

theorem publicKeySigned (inv : Guarded s) (body : String → Option Json) :
    Guarded (Api.publicKeySigned body s) := by
  have waits := inv.idle s.nextRequest (Nat.le_refl _)
  have plain : (s.stages s.nextRequest).signs = false := by rw [waits]; rfl
  have known := Nat.lt_succ_self s.nextRequest
  unfold Api.publicKeySigned
  dsimp only
  split
  · exact inv.nextRequest.rest known plain rfl
  · exact inv.nextRequest.reply known plain 400

theorem lookedUp (inv : Guarded s) {request : Nat} {csr : Json}
    (waits : s.stages request = .lookup csr)
    (serial : ∀ text other, csr = .string text → ¬ WorksOn s other text) :
    Guarded (Api.lookedUp s request csr) := by
  have known := inv.known request (by rw [waits]; exact nofun)
  have plain : (s.stages request).signs = false := by rw [waits]; rfl
  unfold Api.lookedUp
  split
  · next text =>
    have read : Guarded (s.emit (.read request text (getByCsr text s.rows))) := inv.emit fun _ => rfl
    dsimp only
    split
    · next row only =>
      split_ifs with fresh
      · exact read.read known waits only fresh fun other => serial text other rfl
      · exact read.reply known plain 400
    · exact read.reply known plain 400
  · exact inv.reply known plain 500

theorem verifyHttp01Challenge (inv : Guarded s) (pf : Platform) {request : Nat}
    {row : AuthChallenge} {csr : String} (waits : s.stages request = .challenged row csr)
    (answer : HttpAnswer) :
    Guarded (Api.verifyHttp01Challenge pf s request row csr answer) := by
  have known := inv.known request (by rw [waits]; exact nofun)
  have plain : (s.stages request).signs = false := by rw [waits]; rfl
  unfold Api.verifyHttp01Challenge
  split
  · split
    · next url token _ _ _ _ =>
      have asked : Guarded (s.emit (.get request url answer)) := inv.emit fun _ => rfl
      dsimp only
      split_ifs
      · apply asked.goto known plain
        intro here text works
        show (s.stages request).work = some (here, text)
        rw [waits]
        exact works
      · exact asked.reply known plain _
    · exact inv.reply known plain 500
  · exact inv.reply known plain 500

theorem requestSignature (inv : Guarded s) (pf : Platform) {request : Nat} {row : AuthChallenge}
    {csr : String} (waits : s.stages request = .verified row csr) :
    Guarded (Api.requestSignature pf s request row csr) := by
  have known := inv.known request (by rw [waits]; exact nofun)
  unfold Api.requestSignature
  split_ifs
  · exact inv.sign known waits _
  · exact inv.reply known (by rw [waits]; rfl) 500

theorem signatureAnswered (inv : Guarded s) {pf : Platform} {request : Nat} {row : AuthChallenge}
    {csr : String} (waits : s.stages request = .signing row csr) {answer : HttpAnswer} {saved : Bool}
    (signed : ((signedCertificate pf answer).bind id).isSome) (stored : saved = true) :
    Guarded (Api.signatureAnswered pf s request row answer saved) := by
  have known := inv.known request (by rw [waits]; exact nofun)
  obtain ⟨key, signed⟩ : ∃ key, signedCertificate pf answer = some (some key) := by
    obtain ⟨key, signed⟩ := Option.isSome_iff_exists.mp signed
    exact ⟨key, by simpa [Option.bind_eq_some_iff] using signed⟩
  unfold Api.signatureAnswered
  rw [signed]
  dsimp only
  rw [if_pos stored]
  exact inv.finish known waits key

theorem step (inv : Guarded s) {pf : Platform} {a : ApiLabel} {t : ApiState}
    (moved : certificateStep pf s a = some t) (serial : OneByOne pf s a) : Guarded t := by
  cases a with
  | privateKeyNew body =>
    obtain rfl := Option.some.inj moved
    exact inv.privateKeyNew pf body
  | publicKeySigned body =>
    obtain rfl := Option.some.inj moved
    exact inv.publicKeySigned body
  | newKeyAnswered request answer token saved =>
    simp only [certificateStep] at moved
    split at moved
    · next waits =>
      obtain rfl := Option.some.inj moved
      exact inv.newKeyAnswered pf waits answer token saved
    · simp at moved
  | lookedUp request =>
    simp only [certificateStep] at moved
    split at moved
    · next csr waits =>
      obtain rfl := Option.some.inj moved
      apply inv.lookedUp waits
      rintro text other rfl ⟨row, works⟩
      have known := inv.known other fun idle => by simp [idle, Stage.work] at works
      apply serial other known (row, text) works
      rw [waits]
      rfl
    · simp at moved
  | challengeAnswered request answer =>
    simp only [certificateStep] at moved
    split at moved
    · next waits =>
      obtain rfl := Option.some.inj moved
      exact inv.verifyHttp01Challenge pf waits answer
    · simp at moved
  | requestSignature request =>
    simp only [certificateStep] at moved
    split at moved
    · next waits =>
      obtain rfl := Option.some.inj moved
      exact inv.requestSignature pf waits
    · simp at moved
  | signatureAnswered request answer saved =>
    simp only [certificateStep] at moved
    split at moved
    · next waits =>
      obtain rfl := Option.some.inj moved
      exact inv.signatureAnswered waits serial.1 serial.2
    · simp at moved

end Guarded

theorem guarded_initial (pf : Platform) : Guarded (certificateMachine pf).initial where
  idle _ _ := rfl
  stored _ _ _ works := absurd works nofun
  alone _ _ _ works _ := absurd works.choose_spec nofun
  once _ := Nat.zero_le 1
  unasked _ _ _ _ := rfl
  settled _ asked := absurd rfl asked

/-- While requests for one csr keep apart and every signature is stored, CFSSL is asked at most
once for each csr. -/
theorem signed_once_of_one_by_one (pf : Platform) {labels : List ApiLabel} {s : ApiState}
    (reached : (certificateMachine pf).run labels = some s)
    (serial : (certificateMachine pf).Throughout (OneByOne pf) labels) : SignedOnce s :=
  ((certificateMachine pf).invariant_of_throughout (guarded_initial pf)
    (fun _ _ _ inv moved holds => inv.step moved holds) reached serial).once

section Sample

def certificateBody : String :=
  "\x7b\"success\":true,\"result\":\x7b\"certificate\":\"pem\"\x7d\x7d"

def issuingDecode (text : String) : Option Json :=
  if text = certificateBody then
    some (objectOf [("success", .bool true), ("result", objectOf [("certificate", .string "pem")])])
  else sampleDecode text

theorem issuingDecode_encode (url token : String) :
    issuingDecode (sampleEncode (challengeData url token)) = some (challengeData url token) := by
  have other : sampleEncode (challengeData url token) ≠ certificateBody := by
    intro same
    have third := congrArg (fun text => text.toList[2]?) same
    simp only [sampleEncode, challengeData, if_true, if_false, String.reduceEq] at third
    rw [String.toList_ofList, List.getElem?_append_left (by decide)] at third
    exact absurd third (by decide)
  rw [issuingDecode, if_neg other]
  exact sampleDecode_encode url token

def issuingPlatform : Platform :=
  { samplePlatform with decode := issuingDecode, decode_encode := issuingDecode_encode }

def signRequest : ApiLabel :=
  .publicKeySigned fun key => [("certificate_request", Json.string "csr")].lookup key

-- The second request comes when the certificate is stored, and is refused.
def serialRun : List ApiLabel :=
  sampleRun ++ [.signatureAnswered 1 (.response 200 certificateBody) true, signRequest, .lookedUp 2]

-- The second request reads the record while the first one waits for the host.
def racingRun : List ApiLabel :=
  [.privateKeyNew fun key => [("hostname", Json.string "sensor.virtue"), ("port", .integer 8080)].lookup key,
    .newKeyAnswered 0 (.response 200 newKeyBody) "t0k3n" true, signRequest, signRequest,
    .lookedUp 1, .lookedUp 2, .challengeAnswered 1 (.response 200 tokenBody),
    .challengeAnswered 2 (.response 200 tokenBody), .requestSignature 1, .requestSignature 2]

theorem signed_once_in_serial_run : ∃ s, (certificateMachine issuingPlatform).run serialRun = some s ∧
    s.log.countP (signs "csr") = 1 ∧ SignedOnce s := by
  have ran : ((certificateMachine issuingPlatform).run serialRun).map
      (fun s => s.log.countP (signs "csr")) = some 1 := by decide +kernel
  have serial : (certificateMachine issuingPlatform).Throughout (OneByOne issuingPlatform) serialRun :=
    (certificateMachine issuingPlatform).throughout_of_follows _ (by decide +kernel)
  obtain ⟨s, reached, counted⟩ := Option.map_eq_some_iff.mp ran
  exact ⟨s, reached, counted, signed_once_of_one_by_one issuingPlatform reached serial⟩

theorem signed_twice : ¬ ∀ (pf : Platform) (labels : List ApiLabel) (s : ApiState),
    (certificateMachine pf).run labels = some s → SignedOnce s := by
  intro once
  have ran : ((certificateMachine issuingPlatform).run racingRun).map
      (fun s => s.log.countP (signs "csr")) = some 2 := by decide +kernel
  obtain ⟨s, reached, counted⟩ := Option.map_eq_some_iff.mp ran
  have bound := once issuingPlatform racingRun s reached "csr"
  rw [counted] at bound
  exact absurd bound (by decide)

end Sample

end VirtueSensing.Api
