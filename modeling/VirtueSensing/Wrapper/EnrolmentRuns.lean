import VirtueSensing.Wrapper.EnrolmentSteps

set_option autoImplicit false

/-!
# Runs of the enrolment

What a wrapper holds was stored by the API under the wrapper's own host name, and every certificate is
for keys that one wrapper holds.
-/

namespace VirtueSensing.Wrapper.Enrolment

open Api (Json ApiState ApiLabel ApiEvent AuthChallenge HttpAnswer Platform certificateMachine
  certificateStep newKeyFields changeset generateChallengeData signedCertificate challengeData verifies
  storedRow storedRows getByCsr OwnChallenge Issues unsigned)
open RetryLoop (RetryingWrapper loopStep mainStep)

section Rows

variable {pf : Platform} {row : AuthChallenge}

theorem HasToken.unique {first second : String} (one : HasToken pf row first)
    (other : HasToken pf row second) : first = second := by
  obtain ⟨member, decoded, here⟩ := one
  obtain ⟨member', decoded', here'⟩ := other
  obtain rfl := Json.object.inj (Option.some.inj (decoded.symm.trans decoded'))
  exact Json.string.inj (Option.some.inj (here.symm.trans here'))

theorem own_decoded {url token : String} (own : OwnChallenge pf row url token) :
    pf.decode row.challenge = some (challengeData url token) := by
  obtain ⟨port, -, -, stored⟩ := own
  rw [stored, pf.decode_encode]

theorem own_hasToken {url token : String} (own : OwnChallenge pf row url token) :
    HasToken pf row token :=
  ⟨_, own_decoded own, rfl⟩

theorem changeset_row {fields : Api.AuthFields} {challenge : String} {id : Nat}
    (valid : changeset pf fields challenge id = some row) :
    row.challenge = challenge ∧ ∀ hostname, fields.hostname = .string hostname →
      row.hostname = hostname := by
  simp only [changeset, Option.bind_eq_bind, Option.bind_eq_some_iff] at valid
  obtain ⟨host, castHost, port, castPort, algo, -, size, -, csr, -, h, rfl, p, rfl, a, -, z, -,
    taken⟩ := valid
  split_ifs at taken
  obtain rfl := Option.some.inj taken
  refine ⟨rfl, fun hostname named => ?_⟩
  by_cases empty : hostname = ""
  · simp [named, Api.castString, empty] at castHost
  · simpa [named, Api.castString, empty, eq_comm] using castHost

theorem changeset_hasToken {fields : Api.AuthFields} {hostname token : String} {port : Json} {id : Nat}
    (valid : changeset pf fields (pf.encode (generateChallengeData hostname port token)) id = some row) :
    HasToken pf row token := by
  rw [HasToken, (changeset_row valid).1, generateChallengeData, pf.decode_encode]
  exact ⟨_, rfl, rfl⟩

theorem exists_token {rows : List AuthChallenge} {tokens : List String}
    (paired : List.Forall₂ (HasToken pf) rows tokens) :
    ∀ row ∈ rows, ∃ token ∈ tokens, HasToken pf row token := by
  induction paired with
  | nil => simp
  | cons has _ ih =>
    intro row member
    rcases List.mem_cons.mp member with rfl | later
    · exact ⟨_, List.mem_cons_self, has⟩
    · obtain ⟨token, drawn, has⟩ := ih row later
      exact ⟨token, List.mem_cons_of_mem _ drawn, has⟩

theorem row_unique {rows : List AuthChallenge} {tokens : List String}
    (paired : List.Forall₂ (HasToken pf) rows tokens) (fresh : tokens.Nodup)
    {first second : AuthChallenge} {token : String} (there : first ∈ rows) (here : second ∈ rows)
    (one : HasToken pf first token) (other : HasToken pf second token) : first = second := by
  induction paired with
  | nil => cases there
  | @cons head _ later _ has rest ih =>
    obtain ⟨unused, fresh⟩ := List.nodup_cons.mp fresh
    have clash : ∀ row ∈ later, ∀ token, HasToken pf row token → HasToken pf head token → False := by
      intro row member token hasLater hasHead
      obtain ⟨drawn, listed, same⟩ := exists_token rest row member
      rw [same.unique hasLater, ← has.unique hasHead] at listed
      exact unused listed
    rcases List.mem_cons.mp there with rfl | firstLater <;>
      rcases List.mem_cons.mp here with rfl | secondLater
    · rfl
    · exact (clash second secondLater token other one).elim
    · exact (clash first firstLater token one other).elim
    · exact ih fresh firstLater secondLater

end Rows

section Invariant

/-- A record under the sensor's own host name has the csr and the challenge. -/
def Stored (net : Network) (log : List ApiEvent) (id : Nat) (keys : Keys) : Prop :=
  ∃ row ∈ storedRows log, row.hostname = net.advertisedHostname id ∧ row.csr = some keys.csr ∧
    ∃ url token, OwnChallenge net.platform row url token ∧ keys.challenge = challengeData url token

structure Known (net : Network) (s : State) (id : Nat) (keys : Keys) : Prop where
  stored : Stored net s.api.log id keys
  sent : ∃ request, s.replies request =
    some (.privateKey (.string keys.privKey) (.string keys.csr) keys.challenge)

structure AsksForKey (net : Network) (s : State) (id request : Nat) : Prop where
  known : request < s.api.nextRequest
  hostname : ∀ hostname port algo size, s.api.stages request = .newKey hostname port algo size →
    hostname = net.advertisedHostname id
  reply : ∀ privKey csr challenge, s.replies request =
    some (.privateKey (.string privKey) (.string csr) challenge) → Known net s id ⟨privKey, csr, challenge⟩

/-- How far the API is with a request for the certificate of a csr. -/
def OnItsWay (hostname csr : String) (request : Nat) (log : List ApiEvent) : Api.Stage → Prop
  | .lookup asked => asked = .string csr
  | .challenged row asked | .verified row asked => row.hostname = hostname ∧ asked = csr
  | .signing _ asked => asked = csr ∧ .sign request hostname csr ∈ log
  | _ => True

structure AsksForCertificate (net : Network) (s : State) (id request : Nat) (csr : String) : Prop where
  known : request < s.api.nextRequest
  stage : OnItsWay (net.advertisedHostname id) csr request s.api.log (s.api.stages request)
  reply : ∀ publicKey, s.replies request = some (.certificate publicKey) →
    .sign request (net.advertisedHostname id) csr ∈ s.api.log

/-- The certificate was signed for the csr that came with the private key. -/
def Enrolled (net : Network) (s : State) (id : Nat) (privKey pubKey : String) : Prop :=
  ∃ first second csr challenge,
    s.replies first = some (.privateKey (.string privKey) (.string csr) challenge) ∧
    s.replies second = some (.certificate (some pubKey)) ∧
    .sign second (net.advertisedHostname id) csr ∈ s.api.log

structure SensorSound (net : Network) (s : State) (id : Nat) (sensor : Sensor) : Prop where
  server : ∀ keys, sensor.server = some keys → Known net s id keys
  serving : ∀ privKey csr, sensor.loop.phase = .main (.getSignedPublicKey privKey csr) →
    ∃ challenge, sensor.server = some ⟨privKey, csr, challenge⟩
  asksForKey : ∀ request, sensor.asked = some request →
    sensor.loop.phase = .main .getPrivateKeyAndCsr → AsksForKey net s id request
  asksForCertificate : ∀ request privKey csr, sensor.asked = some request →
    sensor.loop.phase = .main (.getSignedPublicKey privKey csr) → AsksForCertificate net s id request csr
  keys : ∀ privKey pubKey, sensor.loop.phase = .main (.writeKeys privKey pubKey) →
    Enrolled net s id privKey pubKey

/-- A request that is over, and only such a one, has its answer. -/
structure Sound (net : Network) (s : State) : Prop where
  issues : Issues net.platform s.api
  unopened : ∀ request, s.api.nextRequest ≤ request → s.api.stages request = .idle
  answered : ∀ request, s.replies request ≠ none →
    request < s.api.nextRequest ∧ s.api.stages request = .idle
  sensors : ∀ id, SensorSound net s id (s.sensors id)

structure Grows (s t : State) : Prop where
  log : s.api.log <+: t.api.log
  replies : ∀ request reply, s.replies request = some reply → t.replies request = some reply

variable {net : Network} {s t : State} {id request : Nat}

theorem storedRows_grows {first second : List ApiEvent} (grown : first <+: second) :
    storedRows first ⊆ storedRows second := by
  obtain ⟨events, rfl⟩ := grown
  rw [storedRows, storedRows, List.filterMap_append]
  exact List.subset_append_left _ _

theorem Known.mono {keys : Keys} (known : Known net s id keys) (grows : Grows s t) :
    Known net t id keys := by
  obtain ⟨row, member, rest⟩ := known.stored
  obtain ⟨request, sent⟩ := known.sent
  exact ⟨⟨row, storedRows_grows grows.log member, rest⟩, request, grows.replies _ _ sent⟩

theorem Enrolled.mono {privKey pubKey : String} (enrolled : Enrolled net s id privKey pubKey)
    (grows : Grows s t) : Enrolled net t id privKey pubKey := by
  obtain ⟨first, second, csr, challenge, sent, answered, signed⟩ := enrolled
  exact ⟨first, second, csr, challenge, grows.replies _ _ sent, grows.replies _ _ answered,
    grows.log.subset signed⟩

end Invariant

section Replies

variable {pf : Platform} {s : ApiState} {a : ApiLabel} {request : Nat}

theorem replyTo_acting {reply : Reply} (sent : replyTo pf s a = some (request, reply)) :
    request = acting s a := by
  cases a with
  | newKeyAnswered r answer token saved =>
    simp only [replyTo] at sent
    split at sent
    · simp only [Option.bind_eq_bind, Option.bind_eq_some_iff, Option.ite_none_right_eq_some] at sent
      obtain ⟨fields, -, row, -, key, -, challenge, -, -, same⟩ := sent
      exact (Prod.mk.inj (Option.some.inj same)).1.symm
    · cases sent
  | signatureAnswered r answer saved =>
    simp only [replyTo] at sent
    split at sent
    · split at sent
      · obtain ⟨-, same⟩ := Option.ite_none_right_eq_some.mp sent
        exact (Prod.mk.inj (Option.some.inj same)).1.symm
      · exact (Prod.mk.inj (Option.some.inj sent)).1.symm
      · cases sent
    · cases sent
  | _ => cases sent

theorem replyTo_privateKey {key csr challenge : Json}
    (sent : replyTo pf s a = some (request, .privateKey key csr challenge)) :
    ∃ answer token hostname port algo size fields row, a = .newKeyAnswered request answer token true ∧
      s.stages request = .newKey hostname port algo size ∧
      newKeyFields pf hostname port algo size answer = some fields ∧
      changeset pf fields (pf.encode (generateChallengeData hostname port token)) s.nextRow = some row ∧
      csr = csrJson row.csr ∧ pf.decode row.challenge = some challenge := by
  cases a with
  | newKeyAnswered r answer token saved =>
    simp only [replyTo] at sent
    split at sent
    · next hostname port algo size waits =>
      simp only [Option.bind_eq_bind, Option.bind_eq_some_iff, Option.ite_none_right_eq_some] at sent
      obtain ⟨fields, given, row, valid, key', -, challenge', decoded, rfl, same⟩ := sent
      obtain ⟨rfl, body⟩ := Prod.mk.inj (Option.some.inj same)
      obtain ⟨rfl, rfl, rfl⟩ := Reply.privateKey.inj body
      exact ⟨answer, token, hostname, port, algo, size, fields, row, rfl, waits, given, valid, rfl,
        decoded⟩
    · cases sent
  | signatureAnswered r answer saved =>
    simp only [replyTo] at sent
    split at sent
    · split at sent
      · obtain ⟨-, same⟩ := Option.ite_none_right_eq_some.mp sent
        cases (Prod.mk.inj (Option.some.inj same)).2
      · cases (Prod.mk.inj (Option.some.inj sent)).2
      · cases sent
    · cases sent
  | _ => cases sent

theorem replyTo_certificate {publicKey : Option String}
    (sent : replyTo pf s a = some (request, .certificate publicKey)) :
    ∃ row csr, s.stages request = .signing row csr := by
  cases a with
  | newKeyAnswered r answer token saved =>
    simp only [replyTo] at sent
    split at sent
    · simp only [Option.bind_eq_bind, Option.bind_eq_some_iff, Option.ite_none_right_eq_some] at sent
      obtain ⟨fields, -, row, -, key, -, challenge, -, -, same⟩ := sent
      cases (Prod.mk.inj (Option.some.inj same)).2
    · cases sent
  | signatureAnswered r answer saved =>
    have acts : request = r := replyTo_acting sent
    simp only [replyTo] at sent
    split at sent
    · next row csr waits =>
      rw [acts]
      exact ⟨row, csr, waits⟩
    · cases sent
  | _ => cases sent

theorem storedRows_of_sent {answer : HttpAnswer} {token hostname : String} {port algo size : Json}
    {fields : Api.AuthFields} {row : AuthChallenge} {t : ApiState}
    (waits : s.stages request = .newKey hostname port algo size)
    (given : newKeyFields pf hostname port algo size answer = some fields)
    (valid : changeset pf fields (pf.encode (generateChallengeData hostname port token)) s.nextRow =
      some row)
    (moved : certificateStep pf s (.newKeyAnswered request answer token true) = some t) :
    row ∈ storedRows t.log := by
  simp only [certificateStep, waits, Api.newKeyAnswered, given, valid, if_true, Option.some.injEq] at moved
  subst moved
  simp [ApiState.reply, ApiState.emit, ApiState.goto, ApiState.insert, storedRows, storedRow]

end Replies

section ApiSteps

variable {net : Network} {s t : State} {a : ApiLabel} {stage : Api.Stage} {events : List ApiEvent}

theorem apiStep_eq_some (moved : apiStep net s a = some t) :
    certificateStep net.platform s.api a = some t.api ∧ t.sensors = s.sensors ∧
      (t.replies = s.replies ∨ ∃ reply, replyTo net.platform s.api a = some (acting s.api a, reply) ∧
        t.replies = Function.update s.replies (acting s.api a) (some reply)) := by
  obtain ⟨api, stepped, rfl⟩ := Option.map_eq_some_iff.mp moved
  refine ⟨stepped, rfl, ?_⟩
  cases sent : replyTo net.platform s.api a with
  | none => exact .inl rfl
  | some pair =>
    obtain ⟨request, reply⟩ := pair
    obtain rfl := replyTo_acting sent
    exact .inr ⟨reply, rfl, rfl⟩

theorem acting_of_opens {s : ApiState} (new : opens a = true) : acting s a = s.nextRequest := by
  cases a with
  | privateKeyNew | publicKeySigned => rfl
  | _ => cases new

theorem acting_of_lt {request : Nat} (known : request < s.api.nextRequest)
    (same : request = acting s.api a) : opens a = false := by
  rw [← Bool.not_eq_true]
  intro new
  rw [same, acting_of_opens new] at known
  exact absurd known (Nat.lt_irrefl _)

theorem Sound.unanswered (sound : Sound net s)
    (moved : Moved net.platform s.api a t.api stage events) : s.replies (acting s.api a) = none := by
  by_contra answered
  obtain ⟨known, idle⟩ := sound.answered _ answered
  rcases moved.busy with new | busy
  · exact absurd known (acting_of_opens new ▸ Nat.lt_irrefl _)
  · exact busy idle

theorem Sound.grows (sound : Sound net s) (moved : apiStep net s a = some t) : Grows s t := by
  obtain ⟨stepped, -, replies⟩ := apiStep_eq_some moved
  obtain ⟨stage, events, moved⟩ := certificateStep_moved stepped
  refine ⟨moved.log ▸ List.prefix_append _ _, fun request reply sent => ?_⟩
  rcases replies with same | ⟨new, -, set⟩
  · rw [same, sent]
  · have other : request ≠ acting s.api a := by
      rintro rfl
      cases (sound.unanswered moved).symm.trans sent
    rw [set, Function.update_of_ne other, sent]

theorem replies_other (moved : apiStep net s a = some t) {request : Nat}
    (other : request ≠ acting s.api a) : t.replies request = s.replies request := by
  obtain ⟨-, -, same | ⟨new, -, set⟩⟩ := apiStep_eq_some moved
  · rw [same]
  · rw [set, Function.update_of_ne other]

theorem replyTo_of_replies (sound : Sound net s) (moved : apiStep net s a = some t) {reply : Reply}
    (there : t.replies (acting s.api a) = some reply) :
    replyTo net.platform s.api a = some (acting s.api a, reply) := by
  obtain ⟨stepped, -, same | ⟨new, sent, set⟩⟩ := apiStep_eq_some moved
  · obtain ⟨stage, events, moved⟩ := certificateStep_moved stepped
    rw [same, sound.unanswered moved] at there
    cases there
  · rw [set, Function.update_self] at there
    rw [sent, Option.some.inj there]

theorem AsksForKey.apiStep {id request : Nat} (asks : AsksForKey net s id request) (sound : Sound net s)
    (moved : Enrolment.apiStep net s a = some t) : AsksForKey net t id request := by
  obtain ⟨stepped, -, -⟩ := apiStep_eq_some moved
  obtain ⟨stage, events, step⟩ := certificateStep_moved stepped
  have known : request < t.api.nextRequest := by
    rw [step.next]
    split_ifs
    · exact Nat.lt_succ_of_lt asks.known
    · exact asks.known
  by_cases same : request = acting s.api a
  · have old := acting_of_lt asks.known same
    refine ⟨known, fun hostname port algo size waits => ?_, fun privKey csr challenge there => ?_⟩
    · rw [step.stages, same, Function.update_self] at waits
      subst waits
      cases step.change with
      | keyAsked => cases old
    · rw [same] at there
      obtain ⟨answer, token, hostname, port, algo, size, fields, row, made, waits, given, valid, text,
        decoded⟩ := replyTo_privateKey (replyTo_of_replies sound moved there)
      have stored := storedRows_of_sent waits given valid (by rw [← made]; exact stepped)
      obtain rfl := asks.hostname hostname port algo size (same ▸ waits)
      have csrStored : row.csr = some csr := by
        cases held : row.csr with
        | none =>
          rw [held] at text
          cases text
        | some csr' =>
          rw [held] at text
          rw [Json.string.inj text]
      obtain ⟨-, url, token', own⟩ := Api.changeset_own (Api.newKeyFields_host given) valid
      have sameChallenge := Option.some.inj (decoded.symm.trans (own_decoded own))
      exact ⟨⟨row, stored, (changeset_row valid).2 _ (Api.newKeyFields_host given).1, csrStored, url, token',
        own, sameChallenge⟩, _, there⟩
  · refine ⟨known, fun hostname port algo size waits => ?_, fun privKey csr challenge there => ?_⟩
    · rw [step.stages, Function.update_of_ne same] at waits
      exact asks.hostname _ _ _ _ waits
    · rw [replies_other moved same] at there
      exact (asks.reply _ _ _ there).mono (sound.grows moved)

theorem OnItsWay.mono {hostname csr : String} {request : Nat} {log : List ApiEvent} {stage : Api.Stage}
    (way : OnItsWay hostname csr request log stage) {grown : List ApiEvent} (more : log <+: grown) :
    OnItsWay hostname csr request grown stage := by
  cases stage with
  | signing row asked => exact ⟨way.1, more.subset way.2⟩
  | _ => exact way

theorem hostname_of_only (sound : Sound net s) {id : Nat} {keys : Keys} (known : Known net s id keys)
    {row : AuthChallenge} (only : getByCsr keys.csr s.api.rows = [row]) :
    row.hostname = net.advertisedHostname id := by
  obtain ⟨own, stored, hostname, csr, -⟩ := known.stored
  rw [← sound.issues.rows] at stored
  obtain ⟨there, listed, rfl⟩ := List.mem_map.mp stored
  have found : there ∈ getByCsr keys.csr s.api.rows :=
    List.mem_filter.mpr ⟨listed, decide_eq_true csr⟩
  rw [only, List.mem_singleton] at found
  rw [← found]
  exact hostname

theorem Known.asksApiStep {id request : Nat} {keys : Keys} (held : Known net s id keys)
    (asks : AsksForCertificate net s id request keys.csr) (sound : Sound net s)
    (moved : Enrolment.apiStep net s a = some t) : AsksForCertificate net t id request keys.csr := by
  obtain ⟨stepped, -, -⟩ := apiStep_eq_some moved
  obtain ⟨stage, events, step⟩ := certificateStep_moved stepped
  have known : request < t.api.nextRequest := by
    rw [step.next]
    split_ifs
    · exact Nat.lt_succ_of_lt asks.known
    · exact asks.known
  have grown := (sound.grows moved).log
  by_cases same : request = acting s.api a
  · have old := acting_of_lt asks.known same
    have way := asks.stage
    refine ⟨known, ?_, fun publicKey there => ?_⟩
    · rw [step.stages, same, Function.update_self, step.log]
      rw [same] at way
      cases step.change with
      | keyAsked => trivial
      | certificateAsked => cases old
      | stored => trivial
      | found waits only =>
        rw [acting, waits] at way
        obtain rfl := Json.string.inj way
        exact ⟨hostname_of_only sound held only, rfl⟩
      | verified waits =>
        rw [acting, waits] at way
        exact way
      | signing waits =>
        rw [acting, waits] at way
        obtain ⟨hostname, rfl⟩ := way
        exact ⟨rfl, List.mem_append_right _ (List.mem_singleton.mpr (by rw [hostname]; rfl))⟩
      | closed => trivial
    · rw [same] at there
      obtain ⟨row, csr, waits⟩ := replyTo_certificate (replyTo_of_replies sound moved there)
      rw [same, waits] at way
      rw [same]
      exact grown.subset way.2
  · refine ⟨known, ?_, fun publicKey there => ?_⟩
    · rw [step.stages, Function.update_of_ne same]
      exact asks.stage.mono grown
    · rw [replies_other moved same] at there
      exact grown.subset (asks.reply _ there)

theorem SensorSound.apiStep {id : Nat} {sensor : Sensor} (inv : SensorSound net s id sensor)
    (sound : Sound net s) (moved : Enrolment.apiStep net s a = some t) : SensorSound net t id sensor where
  server keys running := (inv.server keys running).mono (sound.grows moved)
  serving := inv.serving
  asksForKey request asked phase := (inv.asksForKey request asked phase).apiStep sound moved
  asksForCertificate request privKey csr asked phase := by
    obtain ⟨challenge, running⟩ := inv.serving privKey csr phase
    have held := inv.server _ running
    exact held.asksApiStep (inv.asksForCertificate request privKey csr asked phase) sound moved
  keys privKey pubKey phase := (inv.keys privKey pubKey phase).mono (sound.grows moved)

theorem Sound.apiStep (sound : Sound net s) (moved : Enrolment.apiStep net s a = some t) : Sound net t := by
  obtain ⟨stepped, sensors, replies⟩ := apiStep_eq_some moved
  obtain ⟨stage, events, step⟩ := certificateStep_moved stepped
  have next : s.api.nextRequest ≤ t.api.nextRequest := by
    rw [step.next]
    split_ifs
    · exact Nat.le_succ _
    · exact Nat.le_refl _
  have acts : acting s.api a < t.api.nextRequest := by
    rw [step.next]
    rcases step.busy with new | busy
    · rw [if_pos new, acting_of_opens new]
      exact Nat.lt_succ_self _
    · have known := lt_of_not_ge fun new => busy (sound.unopened _ new)
      split_ifs
      · exact Nat.lt_succ_of_lt known
      · exact known
  refine ⟨sound.issues.step stepped, fun request new => ?_, fun request answered => ?_, fun id => ?_⟩
  · have other : request ≠ acting s.api a := Nat.ne_of_gt (Nat.lt_of_lt_of_le acts new)
    rw [step.stages, Function.update_of_ne other]
    exact sound.unopened request (Nat.le_trans next new)
  · by_cases same : request = acting s.api a
    · subst same
      obtain ⟨reply, there⟩ := Option.ne_none_iff_exists'.mp answered
      refine ⟨acts, ?_⟩
      rw [step.stages, Function.update_self]
      have sent := replyTo_of_replies sound moved there
      cases step.change with
      | stored | closed => rfl
      | _ => cases sent
    · rw [replies_other moved same] at answered
      obtain ⟨known, idle⟩ := sound.answered request answered
      rw [step.stages, Function.update_of_ne same]
      exact ⟨Nat.lt_of_lt_of_le known next, idle⟩
  · rw [sensors]
    exact (sound.sensors id).apiStep sound moved

end ApiSteps

section SensorSteps

variable {w : RetryingWrapper} {loop next : RetryLoop.State} {label : RetryLoop.Label}
  {stage : RetryLoop.Stage} {answer : RetryLoop.Answer} {net : Network} {s t : State} {id : Nat}
  {sensor : Sensor}

def Reaches (stage : RetryLoop.Stage) (answer : RetryLoop.Answer) : RetryLoop.Phase → Prop
  | .main (.getSignedPublicKey privKey csr) => ∃ challenge, answer = .privateKey true privKey csr challenge
  | .main (.writeKeys privKey pubKey) =>
    (∃ csr, stage = .getSignedPublicKey privKey csr) ∧ answer = .publicKey true pubKey
  | _ => True

theorem mainStep_reaches (moved : mainStep w loop stage answer = some next) :
    Reaches stage answer next.phase := by
  unfold mainStep at moved
  split at moved
  case h_4 success key csr challenge =>
    cases success with
    | false => exact Option.some.inj moved ▸ trivial
    | true =>
      rw [if_pos rfl] at moved
      split at moved
      · exact Option.some.inj moved ▸ ⟨challenge, rfl⟩
      · exact Option.some.inj moved ▸ trivial
  case h_5 privKey csr success pubKey =>
    cases success with
    | false => exact Option.some.inj moved ▸ trivial
    | true => exact Option.some.inj moved ▸ ⟨⟨csr, rfl⟩, rfl⟩
  all_goals
    repeat' split at moved
  all_goals first
    | cases moved
      trivial
    | cases moved

theorem loopStep_phase (moved : loopStep w loop label = some next) :
    (∃ stage answer, label = .main answer ∧ loop.phase = .main stage ∧
        mainStep w loop stage answer = some next) ∨
      (next.phase = loop.phase ∧ ∀ sensor : Sensor, sensor.moved label next =
        ⟨next, sensor.asked, sensor.server⟩) ∨
      ∀ stage, next.phase = .main stage → stage = .waitForSensorApi := by
  cases RetryLoop.loopStep_moves moved with
  | stopRetrying => exact .inr (.inl ⟨rfl, fun _ => rfl⟩)
  | observe => exact .inr (.inl ⟨rfl, fun _ => rfl⟩)
  | done => exact .inr (.inr fun _ phase => by cases phase)
  | again => exact .inr (.inr fun _ phase => (RetryLoop.Phase.main.inj phase).symm)
  | main phase moved => exact .inl ⟨_, _, rfl, phase, moved⟩
  | @left outcome raised phase =>
    refine .inr (.inr fun _ phase => ?_)
    revert phase
    cases raised.elim outcome .error with
    | ok deregistered => exact fun phase => by cases phase
    | error e => cases e <;> exact fun phase => by cases phase
  | slept => exact .inr (.inr fun _ phase => by cases phase)

theorem moved_server {keys : Keys} (running : (sensor.moved label next).server = some keys) :
    sensor.server = some keys := by
  unfold Sensor.moved at running
  dsimp only at running
  split at running
  · cases running
  · cases running
  · exact running

theorem SensorSound.wrapper (inv : SensorSound net s id sensor) (given : Given label)
    (moved : loopStep net.wrapper sensor.loop label = some next) :
    SensorSound net s id (sensor.moved label next) := by
  have server : ∀ keys, (sensor.moved label next).server = some keys → Known net s id keys :=
    fun keys running => inv.server keys (moved_server running)
  rcases loopStep_phase moved with ⟨stage, answer, rfl, -, stepped⟩ | ⟨same, kept⟩ | elsewhere
  · have reaches := mainStep_reaches stepped
    refine ⟨server, fun privKey csr phase => ?_, fun _ asked => ?_, fun _ _ _ asked => ?_,
      fun privKey pubKey phase => ?_⟩
    · have phase : next.phase = .main (.getSignedPublicKey privKey csr) := phase
      rw [phase] at reaches
      obtain ⟨challenge, rfl⟩ := reaches
      cases given
    · cases asked
    · cases asked
    · have phase : next.phase = .main (.writeKeys privKey pubKey) := phase
      rw [phase] at reaches
      obtain ⟨-, rfl⟩ := reaches
      cases given
  · rw [kept]
    exact ⟨inv.server, fun privKey csr phase => inv.serving privKey csr (same ▸ phase),
      fun request asked phase => inv.asksForKey request asked (same ▸ phase),
      fun request privKey csr asked phase => inv.asksForCertificate request privKey csr asked (same ▸ phase),
      fun privKey pubKey phase => inv.keys privKey pubKey (same ▸ phase)⟩
  · refine ⟨server, fun _ _ phase => ?_, fun _ _ phase => ?_, fun _ _ _ _ phase => ?_,
      fun _ _ phase => ?_⟩ <;> cases elsewhere _ phase

theorem setSensor_self : (s.setSensor id sensor).sensors id = sensor :=
  Function.update_self ..

theorem setSensor_of_ne {other : Nat} (different : other ≠ id) :
    (s.setSensor id sensor).sensors other = s.sensors other :=
  Function.update_of_ne different ..

theorem SensorSound.setSensor {other : Nat} (inv : SensorSound net s other sensor) (new : Sensor) :
    SensorSound net (s.setSensor id new) other sensor := by
  have grows : Grows s (s.setSensor id new) := ⟨List.prefix_rfl, fun _ _ sent => sent⟩
  refine ⟨fun keys running => (inv.server keys running).mono grows, inv.serving,
    fun request asked phase => ?_, fun request privKey csr asked phase => ?_,
    fun privKey pubKey phase => (inv.keys privKey pubKey phase).mono grows⟩
  · have asks := inv.asksForKey request asked phase
    exact ⟨asks.known, asks.hostname, fun _ _ _ sent => (asks.reply _ _ _ sent).mono grows⟩
  · have asks := inv.asksForCertificate request privKey csr asked phase
    exact ⟨asks.known, asks.stage, asks.reply⟩

theorem Sound.setSensor (sound : Sound net s) (inv : SensorSound net s id sensor) :
    Sound net (s.setSensor id sensor) := by
  refine ⟨sound.issues, sound.unopened, sound.answered, fun other => ?_⟩
  by_cases same : other = id
  · rw [same, setSensor_self]
    exact inv.setSensor sensor
  · rw [setSensor_of_ne same]
    exact (sound.sensors other).setSensor sensor

theorem SensorSound.rest (keys : ∀ privKey pubKey, loop.phase = .main (.writeKeys privKey pubKey) →
      Enrolled net s id privKey pubKey)
    (away : ∀ privKey csr, loop.phase ≠ .main (.getSignedPublicKey privKey csr)) :
    SensorSound net s id ⟨loop, none, none⟩ where
  server _ running := by cases running
  serving privKey csr phase := absurd phase (away privKey csr)
  asksForKey _ asked := by cases asked
  asksForCertificate _ _ _ asked := by cases asked
  keys := keys

theorem loopStep_main (moved : loopStep w loop (.main answer) = some next) :
    ∃ stage, loop.phase = .main stage ∧ mainStep w loop stage answer = some next := by
  simp only [loopStep] at moved
  split at moved
  · next stage phase => exact ⟨stage, phase, moved⟩
  · cases moved

theorem receive_sound (sound : Sound net s) {pinned : Bool} (moved : receive net s id pinned = some t) :
    Sound net t := by
  have inv := sound.sensors id
  unfold receive at moved
  split at moved
  · next privKey csr challenge arrived =>
    obtain ⟨request, asked, sent⟩ := Option.bind_eq_some_iff.mp arrived
    obtain ⟨next, stepped, rfl⟩ := Option.map_eq_some_iff.mp moved
    obtain ⟨stage, phase, stepped⟩ := loopStep_main stepped
    have reaches := mainStep_reaches stepped
    have waits : stage = .getPrivateKeyAndCsr := by
      cases stage with
      | getPrivateKeyAndCsr => rfl
      | _ => cases stepped
    rw [waits] at phase
    have known := (inv.asksForKey request asked phase).reply privKey csr challenge sent
    refine sound.setSensor ⟨fun keys running => ?_, fun privKey' csr' phase => ?_,
      fun _ asked => ?_, fun _ _ _ asked => ?_, fun privKey' pubKey phase => ?_⟩
    · simp only [served] at running
      split at running
      · obtain rfl := Option.some.inj running
        exact known
      · cases running
    · have phase : next.phase = .main (.getSignedPublicKey privKey' csr') := phase
      rw [phase] at reaches
      obtain ⟨challenge', same⟩ := reaches
      obtain ⟨-, rfl, rfl, -⟩ := RetryLoop.Answer.privateKey.inj same
      exact ⟨challenge, by simp [served, phase]⟩
    · cases asked
    · cases asked
    · have phase : next.phase = .main (.writeKeys privKey' pubKey) := phase
      rw [phase] at reaches
      cases reaches.2
  · next key arrived =>
    obtain ⟨request, asked, sent⟩ := Option.bind_eq_some_iff.mp arrived
    obtain ⟨next, stepped, rfl⟩ := Option.map_eq_some_iff.mp moved
    obtain ⟨stage, phase, stepped⟩ := loopStep_main stepped
    have reaches := mainStep_reaches stepped
    refine sound.setSensor (.rest (fun privKey pubKey there => ?_) fun privKey csr there => ?_)
    · rw [there] at reaches
      obtain ⟨⟨csr, rfl⟩, same⟩ := reaches
      obtain ⟨-, rfl⟩ := RetryLoop.Answer.publicKey.inj same
      obtain ⟨challenge, running⟩ := inv.serving privKey csr phase
      obtain ⟨first, given⟩ := (inv.server _ running).sent
      have signed := (inv.asksForCertificate request privKey csr asked phase).reply _ sent
      exact ⟨first, request, csr, challenge, given, sent, signed⟩
    · rw [there] at reaches
      obtain ⟨challenge, same⟩ := reaches
      cases same
  · obtain ⟨next, stepped, rfl⟩ := Option.map_eq_some_iff.mp moved
    obtain ⟨stage, phase, stepped⟩ := loopStep_main stepped
    have reaches := mainStep_reaches stepped
    have spoiled : ∀ privKey csr challenge pubKey,
        (if pinned then RetryLoop.Answer.raised .other else .publicKey false "") ≠
            .privateKey true privKey csr challenge ∧
          (if pinned then RetryLoop.Answer.raised .other else .publicKey false "") ≠
            .publicKey true pubKey := by
      cases pinned <;> simp
    refine sound.setSensor (.rest (fun privKey pubKey there => ?_) fun privKey csr there => ?_)
    · rw [there] at reaches
      exact absurd reaches.2 (spoiled "" "" .null pubKey).2
    · rw [there] at reaches
      obtain ⟨challenge, same⟩ := reaches
      exact absurd same (spoiled privKey csr challenge "").1
  · cases moved

theorem ask_eq_some {a : ApiLabel} (moved : ask net s id a = some t) :
    ∃ u, apiStep net s a = some u ∧
      t = u.setSensor id { s.sensors id with asked := some s.api.nextRequest } := by
  unfold ask at moved
  split_ifs at moved
  obtain ⟨u, stepped, rfl⟩ := Option.map_eq_some_iff.mp moved
  exact ⟨u, stepped, rfl⟩

theorem replies_new (sound : Sound net s) {a : ApiLabel} (new : opens a = true)
    (moved : apiStep net s a = some t) : t.replies s.api.nextRequest = none := by
  have unsent : s.replies s.api.nextRequest = none := by
    by_contra answered
    exact absurd (sound.answered _ answered).1 (Nat.lt_irrefl _)
  obtain ⟨-, -, same | ⟨reply, sent, -⟩⟩ := apiStep_eq_some moved
  · rw [same, unsent]
  · cases a with
    | privateKeyNew | publicKeySigned => cases sent
    | _ => cases new

theorem askPrivateKey_sound (sound : Sound net s)
    (phase : (s.sensors id).loop.phase = .main .getPrivateKeyAndCsr)
    (moved : ask net s id (.privateKeyNew (privateKeyPayload net id)) = some t) : Sound net t := by
  obtain ⟨u, stepped, rfl⟩ := ask_eq_some moved
  have after := (sound.sensors id).apiStep sound stepped
  refine (sound.apiStep stepped).setSensor ⟨after.server, after.serving, fun request asked _ => ?_,
    fun _ _ _ _ there => ?_, after.keys⟩
  · obtain rfl := Option.some.inj asked
    obtain ⟨certified, -, -⟩ := apiStep_eq_some stepped
    obtain ⟨stage, events, step⟩ := certificateStep_moved certified
    refine ⟨?_, fun hostname port algo size waits => ?_, fun privKey csr challenge sent => ?_⟩
    · rw [step.next, if_pos (show opens _ = true from rfl)]
      exact Nat.lt_succ_self _
    · rw [step.stages, acting, Function.update_self] at waits
      subst waits
      cases step.change with
      | keyAsked _ _ _ named => exact (Json.string.inj (Option.some.inj named)).symm
    · rw [replies_new sound rfl stepped] at sent
      cases sent
  · cases phase.symm.trans there

theorem askPublicKey_sound (sound : Sound net s) {privKey csr : String}
    (phase : (s.sensors id).loop.phase = .main (.getSignedPublicKey privKey csr))
    (moved : ask net s id (.publicKeySigned (publicKeyPayload csr)) = some t) : Sound net t := by
  obtain ⟨u, stepped, rfl⟩ := ask_eq_some moved
  have after := (sound.sensors id).apiStep sound stepped
  refine (sound.apiStep stepped).setSensor ⟨after.server, after.serving, fun _ _ there => ?_,
    fun request privKey' csr' asked there => ?_, after.keys⟩
  · cases phase.symm.trans there
  · obtain rfl := Option.some.inj asked
    cases phase.symm.trans there
    obtain ⟨certified, -, -⟩ := apiStep_eq_some stepped
    obtain ⟨stage, events, step⟩ := certificateStep_moved certified
    refine ⟨?_, ?_, fun publicKey sent => ?_⟩
    · rw [step.next, if_pos (show opens _ = true from rfl)]
      exact Nat.lt_succ_self _
    · rw [step.stages, acting, Function.update_self]
      cases step.change with
      | certificateAsked named => exact (Option.some.inj named).symm
      | closed => trivial
    · rw [replies_new sound rfl stepped] at sent
      cases sent

theorem enrolmentStep_api {a : ApiLabel} (moved : enrolmentStep net s (.api a) = some t) :
    apiStep net s a = some t := by
  cases a with
  | challengeAnswered => cases moved
  | privateKeyNew | publicKeySigned | newKeyAnswered | lookedUp | requestSignature | signatureAnswered =>
    exact moved

theorem Sound.step (sound : Sound net s) {l : Label} (moved : enrolmentStep net s l = some t) :
    Sound net t := by
  cases l with
  | api a =>
    exact sound.apiStep (enrolmentStep_api moved)
  | challenge request respondent =>
    simp only [enrolmentStep] at moved
    split at moved
    · obtain ⟨answer, -, stepped⟩ := Option.bind_eq_some_iff.mp moved
      exact sound.apiStep stepped
    · cases moved
  | getPrivateKeyAndCsr id =>
    simp only [enrolmentStep] at moved
    split at moved
    · next phase => exact askPrivateKey_sound sound phase moved
    · cases moved
  | getSignedPublicKey id =>
    simp only [enrolmentStep] at moved
    split at moved
    · next phase => exact askPublicKey_sound sound phase moved
    · cases moved
  | receive id pinned => exact receive_sound sound moved
  | wrapper id label =>
    obtain ⟨given, moved⟩ := Option.ite_none_right_eq_some.mp moved
    obtain ⟨next, stepped, rfl⟩ := Option.map_eq_some_iff.mp moved
    exact sound.setSensor ((sound.sensors id).wrapper given stepped)

end SensorSteps

theorem sound_reachable {net : Network} {s : State} (reached : (enrolment net).Reachable s) :
    Sound net s := by
  refine (enrolment net).invariant ?_ (fun _ _ _ _ sound moved => sound.step moved) reached
  have unissued : Issues net.platform State.initial.api :=
    ⟨rfl, by simp [State.initial, storedRows], fun _ => trivial, fun earlier e later split => by
      simp [State.initial] at split⟩
  refine ⟨unissued, fun _ _ => rfl, fun _ answered => absurd rfl answered, fun id => ?_⟩
  exact .rest (fun _ _ phase => by cases phase) fun _ _ phase => by cases phase

end VirtueSensing.Wrapper.Enrolment
