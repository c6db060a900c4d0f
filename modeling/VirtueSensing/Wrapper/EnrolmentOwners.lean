import VirtueSensing.Wrapper.EnrolmentRuns

set_option autoImplicit false

/-!
# Certificates belong to the sensors

As long as no random token is drawn twice, a challenge tells the sensors apart: whatever other clients
ask for, a certificate for a sensor's host is made for the keys of a sensor on that host, and only while
this sensor serves their challenge.
-/

namespace VirtueSensing.Wrapper.Enrolment

open Api (Json ApiState ApiLabel ApiEvent AuthChallenge HttpAnswer Platform certificateStep challengeData
  verifies storedRow storedRows OwnChallenge unsigned)

variable {net : Network} {labels : List Label} {s t : State}

section Tokens

theorem storedRows_of_plain {events : List ApiEvent} (plain : ∀ e ∈ events, Plain e) :
    storedRows events = [] := by
  refine List.filterMap_eq_nil_iff.mpr fun e member => ?_
  cases e with
  | stored => exact (plain _ member).elim
  | _ => rfl

theorem storedRows_step {a : ApiLabel} {stage : Api.Stage} {events : List ApiEvent}
    (change : Change net.platform s.api a stage events) :
    ∃ tokens, List.Forall₂ (HasToken net.platform) (storedRows events) tokens ∧
      tokens.Sublist (drawnToken (.api a)).toList := by
  cases change with
  | stored waits sent valid =>
    exact ⟨[_], .cons (changeset_hasToken valid) .nil, .refl _⟩
  | closed plain =>
    rw [storedRows_of_plain plain]
    exact ⟨[], .nil, List.nil_sublist _⟩
  | _ => exact ⟨[], .nil, List.nil_sublist _⟩

/-- The step of the API in a step of the enrolment. -/
inductive ApiPart (net : Network) (s : State) : Label → ApiLabel → Prop
  | free {a : ApiLabel} (other : ∀ request answer, a ≠ .challengeAnswered request answer) :
    ApiPart net s (.api a) a
  | asked {l : Label} {a : ApiLabel} (new : opens a = true) : ApiPart net s l a
  | challenge {request : Nat} {respondent : Respondent} {row : AuthChallenge} {csr : String}
    {answer : HttpAnswer} (waits : s.api.stages request = .challenged row csr)
    (given : answered net s row.hostname respondent = some answer) :
    ApiPart net s (.challenge request respondent) (.challengeAnswered request answer)

theorem enrolmentStep_part {l : Label} (moved : enrolmentStep net s l = some t) :
    t.api = s.api ∨ ∃ a u, apiStep net s a = some u ∧ u.api = t.api ∧ ApiPart net s l a := by
  cases l with
  | api a =>
    refine .inr ⟨a, t, enrolmentStep_api moved, rfl, .free ?_⟩
    rintro request answer rfl
    cases moved
  | challenge request respondent =>
    simp only [enrolmentStep] at moved
    split at moved
    · next waits =>
      obtain ⟨answer, given, stepped⟩ := Option.bind_eq_some_iff.mp moved
      exact .inr ⟨_, t, stepped, rfl, .challenge waits given⟩
    · cases moved
  | getPrivateKeyAndCsr id =>
    simp only [enrolmentStep] at moved
    split at moved
    · obtain ⟨u, stepped, rfl⟩ := ask_eq_some moved
      exact .inr ⟨_, u, stepped, rfl, .asked rfl⟩
    · cases moved
  | getSignedPublicKey id =>
    simp only [enrolmentStep] at moved
    split at moved
    · obtain ⟨u, stepped, rfl⟩ := ask_eq_some moved
      exact .inr ⟨_, u, stepped, rfl, .asked rfl⟩
    · cases moved
  | receive id pinned =>
    left
    simp only [enrolmentStep, Enrolment.receive] at moved
    split at moved
    · obtain ⟨next, -, rfl⟩ := Option.map_eq_some_iff.mp moved
      rfl
    · obtain ⟨next, -, rfl⟩ := Option.map_eq_some_iff.mp moved
      rfl
    · obtain ⟨next, -, rfl⟩ := Option.map_eq_some_iff.mp moved
      rfl
    · cases moved
  | wrapper id label =>
    obtain ⟨-, moved⟩ := Option.ite_none_right_eq_some.mp moved
    obtain ⟨next, -, rfl⟩ := Option.map_eq_some_iff.mp moved
    exact .inl rfl

theorem drawnToken_of_part {l : Label} {a : ApiLabel} (part : ApiPart net s l a) :
    (drawnToken (.api a)).toList.Sublist (drawnToken l).toList := by
  cases part with
  | free => exact .refl _
  | asked new =>
    cases a with
    | privateKeyNew | publicKeySigned => exact List.nil_sublist _
    | _ => cases new
  | challenge => exact .refl _

theorem tokens_drawn (ran : (enrolment net).run labels = some s) :
    ∃ tokens, List.Forall₂ (HasToken net.platform) (storedRows s.api.log) tokens ∧
      tokens.Sublist (drawnTokens labels) := by
  refine (enrolment net).run_induction (motive := fun labels s =>
    ∃ tokens, List.Forall₂ (HasToken net.platform) (storedRows s.api.log) tokens ∧
      tokens.Sublist (drawnTokens labels)) ⟨[], .nil, .refl _⟩ ?_ labels s ran
  intro labels l s t _ ih moved
  obtain ⟨tokens, paired, drawn⟩ := ih
  rw [drawnTokens, List.filterMap_append]
  rcases enrolmentStep_part moved with same | ⟨a, u, stepped, same, part⟩
  · rw [same]
    exact ⟨tokens, paired, drawn.trans (List.sublist_append_left _ _)⟩
  · obtain ⟨certified, -, -⟩ := apiStep_eq_some stepped
    obtain ⟨stage, events, step⟩ := certificateStep_moved certified
    obtain ⟨more, pairedMore, drawnMore⟩ := storedRows_step step.change
    rw [← same, step.log, storedRows, List.filterMap_append]
    refine ⟨tokens ++ more, List.rel_append paired pairedMore, drawn.append ?_⟩
    have here := drawnMore.trans (drawnToken_of_part part)
    cases token : drawnToken l <;> simpa [token] using here

theorem row_of_token (ran : (enrolment net).run labels = some s) (fresh : (drawnTokens labels).Nodup)
    {first second : AuthChallenge} {token : String} (there : first ∈ storedRows s.api.log)
    (here : second ∈ storedRows s.api.log) (one : HasToken net.platform first token)
    (other : HasToken net.platform second token) : first = second := by
  obtain ⟨tokens, paired, drawn⟩ := tokens_drawn ran
  exact row_unique paired (fresh.sublist drawn) there here one other

end Tokens

section Challenges

theorem challenged_row (sound : Sound net s) {request : Nat} {row : AuthChallenge} {csr : String}
    (waits : s.api.stages request = .challenged row csr) :
    row ∈ storedRows s.api.log ∧ row.csr = some csr := by
  have behind := sound.issues.stages request
  rw [waits] at behind
  obtain ⟨-, after, before, split, only, held, -⟩ := behind
  have stored : row ∈ storedRows before := by
    have found : row ∈ Api.getByCsr csr (storedRows before) := by simp [only]
    exact (List.mem_filter.mp found).1
  exact ⟨storedRows_grows ⟨_, split.symm⟩ stored, held⟩

theorem verifies_served {keys : Keys} {url token asked : String}
    (challenge : keys.challenge = challengeData url token) :
    verifies net.platform asked (.response 200 (net.dumps keys.challenge)) ↔ token = asked := by
  have decoded : net.platform.decode (net.dumps keys.challenge) = some (challengeData url token) := by
    rw [challenge, net.decode_dumps]
  simp [verifies, decoded, challengeData]

/-- The record that the keys of a sensor were made with. -/
structure Made (net : Network) (id : Nat) (keys : Keys) (row : AuthChallenge) : Prop where
  hostname : row.hostname = net.advertisedHostname id
  csr : row.csr = some keys.csr
  challenge : net.platform.decode row.challenge = some keys.challenge

/-- What a sensor serves answers the challenge of a record exactly if its keys were made with it. -/
theorem served_verifies_iff (ran : (enrolment net).run labels = some s)
    (fresh : (drawnTokens labels).Nodup) {id : Nat} {row : AuthChallenge} {token : String} {keys : Keys}
    (stored : row ∈ storedRows s.api.log) (has : HasToken net.platform row token)
    (serving : (s.sensors id).server = some keys) :
    verifies net.platform token (.response 200 (net.dumps keys.challenge)) ↔ Made net id keys row := by
  have sound := sound_reachable ⟨labels, ran⟩
  obtain ⟨own, there, hostname, held, url, given, challenge, same⟩ :=
    ((sound.sensors id).server keys serving).stored
  rw [verifies_served same]
  constructor
  · rintro rfl
    obtain rfl := row_of_token ran fresh there stored (own_hasToken challenge) has
    exact ⟨hostname, held, by rw [same, own_decoded challenge]⟩
  · intro made
    have decoded := made.challenge
    rw [same] at decoded
    exact HasToken.unique ⟨_, decoded, rfl⟩ has

/-- The challenge of the request was answered as its record wants it. -/
def Answered (net : Network) (labels : List Label) (request : Nat) (row : AuthChallenge) (csr : String) :
    Prop :=
  ∃ first respondent rest t answer token, labels = first ++ .challenge request respondent :: rest ∧
    (enrolment net).run first = some t ∧ t.api.stages request = .challenged row csr ∧
    answered net t row.hostname respondent = some answer ∧ HasToken net.platform row token ∧
    verifies net.platform token answer

theorem Answered.snoc {request : Nat} {row : AuthChallenge} {csr : String}
    (asked : Answered net labels request row csr) (l : Label) :
    Answered net (labels ++ [l]) request row csr := by
  obtain ⟨first, respondent, rest, t, answer, token, rfl, known⟩ := asked
  exact ⟨first, respondent, rest ++ [l], t, answer, token, by simp, known⟩

structure Verified (net : Network) (labels : List Label) (s : State) : Prop where
  stages : ∀ request row csr, s.api.stages request = .verified row csr →
    Answered net labels request row csr
  signs : ∀ request hostname csr, .sign request hostname csr ∈ s.api.log →
    ∃ row, row.hostname = hostname ∧ Answered net labels request row csr

theorem Verified.step (inv : Verified net labels s) {l : Label} {a : ApiLabel}
    (stepped : apiStep net s a = some t)
    (challenge : ∀ request answer row csr token, a = .challengeAnswered request answer →
      s.api.stages request = .challenged row csr → HasToken net.platform row token →
      verifies net.platform token answer → Answered net (labels ++ [l]) request row csr) :
    Verified net (labels ++ [l]) t := by
  obtain ⟨certified, -, -⟩ := apiStep_eq_some stepped
  obtain ⟨stage, events, step⟩ := certificateStep_moved certified
  refine ⟨fun request row csr waits => ?_, fun request hostname csr signed => ?_⟩
  · by_cases same : request = acting s.api a
    · rw [step.stages, same, Function.update_self] at waits
      subst waits
      cases step.change with
      | verified waits has proved => exact same ▸ challenge _ _ row csr _ rfl waits has proved
    · rw [step.stages, Function.update_of_ne same] at waits
      exact (inv.stages request row csr waits).snoc l
  · rw [step.log, List.mem_append] at signed
    rcases signed with before | new
    · obtain ⟨row, host, asked⟩ := inv.signs request hostname csr before
      exact ⟨row, host, asked.snoc l⟩
    · cases step.change with
      | @signing _ _ row waits =>
        obtain ⟨rfl, rfl, rfl⟩ := ApiEvent.sign.inj (List.mem_singleton.mp new)
        exact ⟨row, rfl, (inv.stages _ row _ waits).snoc l⟩
      | closed plain => exact (plain _ new).elim
      | _ => simp at new

theorem Verified.grow (inv : Verified net labels s) (same : t.api = s.api) (l : Label) :
    Verified net (labels ++ [l]) t := by
  refine ⟨fun request row csr waits => ?_, fun request hostname csr signed => ?_⟩
  · rw [same] at waits
    exact (inv.stages request row csr waits).snoc l
  · rw [same] at signed
    obtain ⟨row, host, asked⟩ := inv.signs request hostname csr signed
    exact ⟨row, host, asked.snoc l⟩

theorem verified_run (ran : (enrolment net).run labels = some s) : Verified net labels s := by
  refine (enrolment net).run_induction (motive := Verified net)
    ⟨fun _ _ _ waits => (by cases waits), fun _ _ _ signed => (by cases signed)⟩ ?_ labels s ran
  intro labels l s t before ih moved
  rcases enrolmentStep_part moved with same | ⟨a, u, stepped, same, part⟩
  · exact ih.grow same l
  · have after : Verified net (labels ++ [l]) u := by
      refine ih.step stepped fun request answer row csr token made waits has proved => ?_
      subst made
      cases part with
      | free other => exact absurd rfl (other _ _)
      | asked new => cases new
      | challenge here given =>
        obtain ⟨rfl, rfl⟩ := Api.Stage.challenged.inj (here.symm.trans waits)
        exact ⟨labels, _, [], s, answer, token, rfl, before, waits, given, has, proved⟩
    exact ⟨fun request row csr waits => after.stages request row csr (same ▸ waits),
      fun request hostname csr signed => after.signs request hostname csr (same ▸ signed)⟩

-- Nothing but the sensor of a record answers for it on the sensors' own hosts.
theorem answered_by_sensor {request : Nat} {row : AuthChallenge} {csr : String}
    (asked : Answered net labels request row csr) (fresh : (drawnTokens labels).Nodup)
    (ours : net.ours row.hostname) :
    ∃ first id rest t keys, labels = first ++ .challenge request (.sensor id) :: rest ∧
      (enrolment net).run first = some t ∧ (t.sensors id).server = some keys ∧ keys.csr = csr ∧
      net.advertisedHostname id = row.hostname := by
  obtain ⟨first, respondent, rest, t, answer, token, rfl, ran, waits, given, has, proved⟩ := asked
  cases respondent with
  | sensor id =>
    obtain ⟨keys, serving, rfl⟩ := Option.map_eq_some_iff.mp given
    obtain ⟨stored, held⟩ := challenged_row (sound_reachable ⟨first, ran⟩) waits
    have drawn : (drawnTokens first).Nodup := by
      rw [drawnTokens, List.filterMap_append] at fresh
      exact fresh.of_append_left
    have made := (served_verifies_iff ran drawn stored has serving).mp proved
    exact ⟨first, id, rest, t, keys, rfl, ran, serving,
      Option.some.inj (made.csr.symm.trans held), made.hostname.symm⟩
  | elsewhere answer' =>
    simp only [answered] at given
    split_ifs at given with blocked
    obtain rfl := Option.some.inj given
    have succeeds : succeeds answer' := by
      unfold verifies at proved
      split at proved
      · rfl
      · cases proved
    exact absurd ⟨ours, succeeds⟩ blocked

end Challenges

/-- Whoever asks for it, a certificate for a host of the sensors is signed for a csr that a sensor on
this host got with its own private key, and the challenge of that request was answered by this sensor
while it served its keys. -/
theorem signed_for_owner (ran : (enrolment net).run labels = some s) (fresh : (drawnTokens labels).Nodup)
    {request : Nat} {hostname csr : String} (signed : .sign request hostname csr ∈ s.api.log)
    (ours : net.ours hostname) :
    ∃ first id rest t keys, labels = first ++ .challenge request (.sensor id) :: rest ∧
      (enrolment net).run first = some t ∧ (t.sensors id).server = some keys ∧ keys.csr = csr ∧
      net.advertisedHostname id = hostname := by
  obtain ⟨row, rfl, asked⟩ := (verified_run ran).signs request hostname csr signed
  exact answered_by_sensor asked fresh ours

theorem stages_reply {api : ApiState} {request status : Nat} :
    (api.reply request status).stages request = .idle :=
  Function.update_self ..

/-- A sensor that is asked for a challenge has the request verified exactly if the request is for the csr
of the keys that the sensor serves, if CFSSL makes no csr twice. -/
theorem verified_iff_served (ran : (enrolment net).run labels = some s)
    (fresh : (drawnTokens labels).Nodup) (distinct : (s.api.rows.filterMap AuthChallenge.csr).Nodup)
    {request id : Nat} {row : AuthChallenge} {csr : String} {keys : Keys}
    (waits : s.api.stages request = .challenged row csr)
    (serving : (s.sensors id).server = some keys) :
    ∃ t, enrolmentStep net s (.challenge request (.sensor id)) = some t ∧
      (t.api.stages request = .verified row csr ↔ keys.csr = csr) := by
  have sound := sound_reachable ⟨labels, ran⟩
  obtain ⟨stored, held⟩ := challenged_row sound waits
  have behind := sound.issues.stages request
  rw [waits] at behind
  obtain ⟨⟨url, token, own⟩, -⟩ := behind
  have own_iff : Made net id keys row ↔ keys.csr = csr := by
    refine ⟨fun made => Option.some.inj (made.csr.symm.trans held), fun same => ?_⟩
    obtain ⟨known, there, hostname, known_csr, url', token', challenge, given⟩ :=
      ((sound.sensors id).server keys serving).stored
    rw [← sound.issues.rows] at there stored
    have unique : ((s.api.rows.map unsigned).filterMap AuthChallenge.csr).Nodup := by
      rw [List.filterMap_map]
      exact distinct
    obtain rfl := Lists.eq_of_nodup_filterMap unique there stored (known_csr.trans (by rw [same])) held
    exact ⟨hostname, known_csr, by rw [given, own_decoded challenge]⟩
  rw [← own_iff, ← served_verifies_iff ran fresh stored (own_hasToken own) serving]
  simp only [enrolmentStep, waits, answered, serving, Option.map_some, Option.bind_some, apiStep,
    certificateStep, Api.verifyHttp01Challenge_own _ _ own]
  refine ⟨_, rfl, ?_⟩
  split_ifs with proved
  · exact iff_of_true (Function.update_self ..) proved
  · refine iff_of_false (fun same => ?_) proved
    cases stages_reply.symm.trans same

/-- A sensor writes only keys that belong together: the certificate is the answer to a request that was
signed for the sensor's host name and for the csr that came with the private key. -/
theorem keys_belong (ran : (enrolment net).run labels = some s) {id : Nat} {privKey pubKey : String}
    (phase : (s.sensors id).loop.phase = .main (.writeKeys privKey pubKey)) :
    Enrolled net s id privKey pubKey :=
  ((sound_reachable ⟨labels, ran⟩).sensors id).keys privKey pubKey phase

section Sample

open Api (sampleDecode sampleEncode sampleDecode_encode samplePlatform objectOf newKeyBody urlStart
  tokenStart quoted)

def certificateBody : String :=
  "\x7b\"success\":true,\"result\":\x7b\"certificate\":\"cert\"\x7d\x7d"

def decodeBody (text : String) : Option Json :=
  if text = certificateBody then
    some (objectOf [("success", .bool true), ("result", objectOf [("certificate", .string "cert")])])
  else sampleDecode text

theorem decodeBody_encode (url token : String) :
    decodeBody (sampleEncode (challengeData url token)) = some (challengeData url token) := by
  have other : sampleEncode (challengeData url token) ≠ certificateBody := by
    intro same
    have third := congrArg (fun text : String => text.toList[2]?) same
    simp only [sampleEncode, challengeData, if_true, if_false, String.reduceEq] at third
    rw [String.toList_ofList, List.getElem?_append_left (by decide)] at third
    exact absurd third (by decide)
  rw [decodeBody, if_neg other, sampleDecode_encode]

def sampleNetwork : Network where
  platform := { samplePlatform with decode := decodeBody, decode_encode := decodeBody_encode }
  dumps := sampleEncode
  decode_dumps := decodeBody_encode
  wrapper := ⟨⟨1, fun _ => none, false⟩, false⟩
  advertisedHostname _ := "sensor.virtue"
  advertisedPort _ := .integer 8080
  ours _ := true

def challengedRun : List Label :=
  [.wrapper 0 .check, .wrapper 0 (.main .sensorApiReady), .wrapper 0 (.main (.rootCa true)),
    .getPrivateKeyAndCsr 0, .api (.newKeyAnswered 0 (.response 200 newKeyBody) "t0k3n" true),
    .receive 0 true, .getSignedPublicKey 0, .api (.lookedUp 1)]

def enrolledRun : List Label :=
  challengedRun ++ [.challenge 1 (.sensor 0), .api (.requestSignature 1),
    .api (.signatureAnswered 1 (.response 200 certificateBody) true), .receive 0 true]

-- What the first sensor writes.
def writtenKeys (s : State) : Option (String × String) :=
  match (s.sensors 0).loop.phase with
  | .main (.writeKeys privKey pubKey) => some (privKey, pubKey)
  | _ => none

theorem enrolledRun_ends : ∃ s, (enrolment sampleNetwork).run enrolledRun = some s ∧
    .sign 1 "sensor.virtue" "csr" ∈ s.api.log ∧
    (s.sensors 0).loop.phase = .main (.writeKeys "key" "cert") := by
  have ran : ((enrolment sampleNetwork).run enrolledRun).map (fun s =>
      (decide (.sign 1 "sensor.virtue" "csr" ∈ s.api.log), writtenKeys s)) =
      some (true, some ("key", "cert")) := by decide +kernel
  obtain ⟨s, reached, seen⟩ := Option.map_eq_some_iff.mp ran
  obtain ⟨signed, written⟩ := Prod.mk.inj seen
  refine ⟨s, reached, of_decide_eq_true signed, ?_⟩
  unfold writtenKeys at written
  split at written
  · next phase =>
    obtain ⟨rfl, rfl⟩ := Prod.mk.inj (Option.some.inj written)
    exact phase
  · cases written

theorem enrolledRun_owner : ∃ first id rest t keys,
    enrolledRun = first ++ .challenge 1 (.sensor id) :: rest ∧
      (enrolment sampleNetwork).run first = some t ∧ (t.sensors id).server = some keys ∧
      keys.csr = "csr" ∧ sampleNetwork.advertisedHostname id = "sensor.virtue" := by
  obtain ⟨s, ran, signed, -⟩ := enrolledRun_ends
  exact signed_for_owner ran (by decide) signed rfl

theorem enrolledRun_keys : ∃ s, (enrolment sampleNetwork).run enrolledRun = some s ∧
    Enrolled sampleNetwork s 0 "key" "cert" := by
  obtain ⟨s, ran, -, phase⟩ := enrolledRun_ends
  exact ⟨s, ran, keys_belong ran phase⟩

-- What the first sensor serves, and whether the request waits for its challenge.
def servedCsr (s : State) : Option (String × Bool) :=
  match (s.sensors 0).server, s.api.stages 1 with
  | some keys, .challenged row csr => some (keys.csr, csr = "csr" && row = Api.sampleRow)
  | _, _ => none

theorem challengedRun_verified : ∃ s t keys, (enrolment sampleNetwork).run challengedRun = some s ∧
    (s.sensors 0).server = some keys ∧
    enrolmentStep sampleNetwork s (.challenge 1 (.sensor 0)) = some t ∧
      (t.api.stages 1 = .verified Api.sampleRow "csr" ↔ keys.csr = "csr") := by
  have ran : ((enrolment sampleNetwork).run challengedRun).map (fun s =>
      (s.api.rows.filterMap AuthChallenge.csr, servedCsr s)) =
      some (["csr"], some ("csr", true)) := by decide +kernel
  obtain ⟨s, reached, seen⟩ := Option.map_eq_some_iff.mp ran
  obtain ⟨csrs, here⟩ := Prod.mk.inj seen
  unfold servedCsr at here
  split at here
  · next keys row csr serving waits =>
    obtain ⟨-, same⟩ := Prod.mk.inj (Option.some.inj here)
    simp only [Bool.and_eq_true, decide_eq_true_eq] at same
    obtain ⟨rfl, rfl⟩ := same
    obtain ⟨t, moved, verified⟩ :=
      verified_iff_served reached (by decide) (by rw [csrs]; decide) waits serving
    exact ⟨s, t, keys, reached, serving, moved, verified⟩
  · cases here

end Sample

end VirtueSensing.Wrapper.Enrolment
