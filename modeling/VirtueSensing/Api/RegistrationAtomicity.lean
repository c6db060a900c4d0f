import VirtueSensing.Api.SensorOwnership

set_option autoImplicit false

/-!
# Registering all or nothing

The steps of a registration write one after another without a transaction, and no failure of one is
answered.
-/

namespace VirtueSensing.Api

/-- A registration that is not answered with 200 leaves the sensors as they were, and a step that fails
is answered with an error. -/
structure Atomic (tools : KeyTools) (conn : SensorConn) (env : Surroundings) (db : Registry) :
    Prop where
  unchanged : (register tools conn env db).2 ≠ .status 200 →
    (register tools conn env db).1.sensors.rows = db.sensors.rows
  answered : ∀ r failure left, checkRegistration tools conn env = .ok r →
    registerSteps env r db = (.error failure, left) →
    ∃ code, (register tools conn env db).2 = .status code ∧ code ≠ 200

/-- One component and one configuration are found for the sensor, its row is valid, fits the columns and
is new under its id and its key, one challenge with the key is found and belongs to no other sensor, and
the database takes every write. -/
def StepsPass (env : Surroundings) (r : Registration) (db : Registry) : Prop :=
  (∃ componentId, (∃ component, getComponent env.atLookup r.component = .found componentId component) ∧
    ∃ configurationId configuration,
      getConfiguration env.atAssignment componentId ⟨none, none, none, none, none⟩ =
        .found configurationId configuration) ∧
  (∃ port row, r.params.changeset = some port ∧
    r.params.store port env.kafkaTopic (env.clock .create) = some row ∧
    indexed db.sensors row = false) ∧
  (∃ id challenge, db.challenges.lookup
      (fun challenge => challenge.publicKey = some r.params.publicKey) = .found id challenge ∧
    blank challenge.hostname = false ∧ blank challenge.algo = false ∧
    (challenge.sensorId = none ∨ challenge.sensorId = some db.sensors.next)) ∧
  ∀ write, env.fails write = false

section Steps

variable {env : Surroundings} {r : Registration} {db left : Registry}

theorem componentStep_ok {componentId : Nat} :
    componentStep env r db = (.ok componentId, left) ↔
      (∃ component, getComponent env.atLookup r.component = .found componentId component) ∧
        db = left := by
  rw [componentStep, Attempt.given]
  cases getComponent env.atLookup r.component <;> simp

theorem configurationStep_ok {componentId configurationId : Nat} :
    configurationStep env componentId db = (.ok configurationId, left) ↔
      (∃ configuration,
        getConfiguration env.atAssignment componentId ⟨none, none, none, none, none⟩ =
          .found configurationId configuration) ∧ db = left := by
  rw [configurationStep, Attempt.given]
  cases getConfiguration env.atAssignment componentId ⟨none, none, none, none, none⟩ <;> simp

theorem createStep_ok {params : SensorParams} {id : Nat} :
    createStep env params db = (.ok id, left) ↔
      ∃ port row, params.changeset = some port ∧
        params.store port env.kafkaTopic (env.clock .create) = some row ∧
        indexed db.sensors row = false ∧ env.fails .create = false ∧ db.sensors.next = id ∧
        { db with sensors := db.sensors.insert row } = left := by
  unfold createStep
  cases params.changeset with
  | none => simp
  | some port =>
    dsimp only
    cases stored : params.store port env.kafkaTopic (env.clock .create) with
    | none => simp [stored]
    | some row =>
      by_cases refused : env.fails .create ∨ indexed db.sensors row
      · simp only [refused, if_true, Prod.mk.injEq, reduceCtorEq, false_and, false_iff]
        rintro ⟨port', row', same, stored', new, writes, -⟩
        obtain rfl := Option.some.inj same
        obtain rfl := Option.some.inj (stored.symm.trans stored')
        simp [new, writes] at refused
      · simp only [not_or, Bool.not_eq_true] at refused
        simp [refused, stored]

theorem updateStep_ok {write : Write} {id : Nat} {f : SensorRow → SensorRow} :
    updateStep env write id f db = (.ok (), left) ↔
      env.fails write = false ∧ { db with sensors := db.sensors.update id f } = left := by
  unfold updateStep
  cases env.fails write <;> simp

theorem challengeStep_ok {key : String} {id : Nat} {challenge : LinkedChallenge} :
    challengeStep key db = (.ok (id, challenge), left) ↔
      db.challenges.lookup (fun challenge => challenge.publicKey = some key) =
        .found id challenge ∧ db = left := by
  unfold challengeStep
  cases db.challenges.lookup fun challenge => challenge.publicKey = some key <;> simp [and_assoc]

theorem linkStep_ok {sensorId id : Nat} {challenge : LinkedChallenge} :
    linkStep env sensorId id challenge db = (.ok (), left) ↔
      blank challenge.hostname = false ∧ blank challenge.algo = false ∧ env.fails .link = false ∧
        (challenge.sensorId = none ∨ challenge.sensorId = some sensorId) ∧
        { db with challenges :=
            db.challenges.update id fun c => { c with sensorId := some sensorId } } = left := by
  unfold linkStep
  by_cases incomplete : blank challenge.hostname ∨ blank challenge.algo
  · rw [if_pos incomplete]
    rcases incomplete with here | here <;> simp [here]
  · rw [if_neg incomplete]
    simp only [not_or, Bool.not_eq_true] at incomplete
    by_cases refused : env.fails .link ∨
        (challenge.sensorId ≠ none ∧ challenge.sensorId ≠ some sensorId)
    · rw [if_pos refused]
      simp only [Prod.mk.injEq, reduceCtorEq, false_and, false_iff, not_and]
      intro _ _ writes own
      rcases refused with fails | other
      · exact absurd fails (by simp [writes])
      · exact absurd own (not_or.mpr other)
    · rw [if_neg refused]
      simp only [not_or, Bool.not_eq_true, not_and_or, not_not] at refused
      simp [incomplete, refused]

theorem registerSteps_ok (passed : registerSteps env r db = (.ok (), left)) :
    StepsPass env r db ∧ left.sensors.rows.length = db.sensors.rows.length + 1 := by
  obtain ⟨componentId, db₁, looked, passed⟩ := Attempt.bind_eq_ok.mp passed
  obtain ⟨component, rfl⟩ := componentStep_ok.mp looked
  obtain ⟨id, db₂, created, passed⟩ := Attempt.bind_eq_ok.mp passed
  obtain ⟨port, row, valid, stored, new, create, rfl, rfl⟩ := createStep_ok.mp created
  obtain ⟨_, db₃, assigned, passed⟩ := Attempt.bind_eq_ok.mp passed
  obtain ⟨assignComponent, rfl⟩ := updateStep_ok.mp assigned
  obtain ⟨configurationId, db₄, looked, passed⟩ := Attempt.bind_eq_ok.mp passed
  obtain ⟨configuration, rfl⟩ := configurationStep_ok.mp looked
  obtain ⟨_, db₅, assigned, passed⟩ := Attempt.bind_eq_ok.mp passed
  obtain ⟨assignConfiguration, rfl⟩ := updateStep_ok.mp assigned
  obtain ⟨_, db₆, marked, passed⟩ := Attempt.bind_eq_ok.mp passed
  obtain ⟨markRegistered, rfl⟩ := updateStep_ok.mp marked
  obtain ⟨_, db₇, marked, passed⟩ := Attempt.bind_eq_ok.mp passed
  obtain ⟨markCertificates, rfl⟩ := updateStep_ok.mp marked
  obtain ⟨⟨challengeId, challenge⟩, db₈, looked, linked⟩ := Attempt.bind_eq_ok.mp passed
  obtain ⟨found, rfl⟩ := challengeStep_ok.mp looked
  obtain ⟨hostname, algo, link, own, rfl⟩ := linkStep_ok.mp linked
  constructor
  · refine ⟨⟨componentId, component, configurationId, configuration⟩, ⟨port, row, valid, stored, new⟩,
      ⟨challengeId, challenge, found, hostname, algo, own⟩, fun write => ?_⟩
    cases write <;> assumption
  · simp only [Table.update, Table.insert, List.length_map, List.length_append, List.length_singleton]

theorem registerSteps_pass (pass : StepsPass env r db) : (registerSteps env r).Passes db := by
  obtain ⟨⟨componentId, component, configurationId, configuration⟩, ⟨port, row, valid, stored, new⟩,
    ⟨challengeId, challenge, found, hostname, algo, own⟩, writes⟩ := pass
  have updated : ∀ (write : Write) (id : Nat) (f : SensorRow → SensorRow) (db : Registry),
      updateStep env write id f db = (.ok (), { db with sensors := db.sensors.update id f }) :=
    fun write id f db => updateStep_ok.mpr ⟨writes write, rfl⟩
  have challenged : ∀ sensors : Table SensorRow, challengeStep r.params.publicKey
      { db with sensors := sensors } = (.ok (challengeId, challenge), { db with sensors := sensors }) :=
    fun sensors => challengeStep_ok.mpr ⟨found, rfl⟩
  apply Attempt.Passes.after (componentStep_ok.mpr ⟨component, rfl⟩)
  apply Attempt.Passes.after
    (createStep_ok.mpr ⟨port, row, valid, stored, new, writes .create, rfl, rfl⟩)
  apply Attempt.Passes.after (updated _ _ _ _)
  apply Attempt.Passes.after (configurationStep_ok.mpr ⟨configuration, rfl⟩)
  apply Attempt.Passes.after (updated _ _ _ _)
  apply Attempt.Passes.after (updated _ _ _ _)
  apply Attempt.Passes.after (updated _ _ _ _)
  apply Attempt.Passes.after (challenged _)
  exact ⟨(), _, linkStep_ok.mpr ⟨hostname, algo, writes _, own, rfl⟩⟩

end Steps

theorem registrationError_raised (failure : Failure) : registrationError failure = .raised := by
  cases failure <;> rfl

/-- A registration is all or nothing exactly when it is turned away by the checks, or all its steps and
the announcement pass. -/
theorem atomic_iff (tools : KeyTools) (conn : SensorConn) (env : Surroundings) (db : Registry) :
    Atomic tools conn env db ↔
      ∀ r, checkRegistration tools conn env = .ok r → StepsPass env r db ∧ env.announces := by
  cases valid : checkRegistration tools conn env with
  | error response =>
    have same : register tools conn env db = (db, response) := by rw [register, valid]
    apply iff_of_true
    · exact ⟨fun _ => by rw [same], fun r failure left passed => absurd (valid.symm.trans passed) nofun⟩
    · exact nofun
  | ok r =>
    cases ran : registerSteps env r db with
    | mk result left =>
      cases result with
      | error failure =>
        have raised : register tools conn env db = (left, .raised) := by
          rw [register, valid]
          simp only [ran, registrationError_raised]
        apply iff_of_false
        · intro atomic
          obtain ⟨code, answered, -⟩ := atomic.answered r failure left valid ran
          rw [raised] at answered
          exact absurd answered nofun
        · intro pass
          obtain ⟨u, other, passed⟩ := registerSteps_pass (pass r rfl).1
          exact absurd (ran.symm.trans passed) nofun
      | ok u =>
        obtain ⟨pass, added⟩ := registerSteps_ok ran
        have answer : register tools conn env db =
            (left, if env.announces then .status 200 else .raised) := by
          rw [register, valid]
          simp only [ran]
        cases announced : env.announces with
        | true =>
          rw [announced, if_pos rfl] at answer
          apply iff_of_true
          · constructor
            · intro failed
              rw [answer] at failed
              exact absurd rfl failed
            · intro other failure rest same stopped
              obtain rfl := Except.ok.inj (valid.symm.trans same)
              exact absurd (ran.symm.trans stopped) nofun
          · rintro other same
            obtain rfl := Except.ok.inj same
            exact ⟨pass, rfl⟩
        | false =>
          rw [announced, if_neg nofun] at answer
          apply iff_of_false
          · intro atomic
            have same := atomic.unchanged (by rw [answer]; exact nofun)
            rw [answer] at same
            rw [same] at added
            exact absurd added.symm (Nat.succ_ne_self _)
          · intro pass
            exact absurd (pass r rfl).2 nofun

section Sample

def psStore : Store where
  components := Table.empty.insert ⟨"ps", "virtue", "linux", ""⟩
  configurations := Table.empty.insert ⟨0, "default", "latest", "\x7b\x7d", "json", ""⟩

def newSensor : SensorConn where
  body name :=
    if name = "sensor" then some (.string "sensor-a")
    else if name = "virtue" then some (.string "virtue")
    else if name = "user" then some (.string "root")
    else if name = "public_key" then some (.string samplePem64)
    else if name = "hostname" then some (.string "host")
    else if name = "port" then some (.integer 11000)
    else if name = "name" then some (.string "ps-1")
    else if name = "os" then some (.string "linux")
    else none
  clientCertificate := some sampleDer

def calm : Surroundings where
  atCheck := psStore
  ping := .response 200 ""
  atLookup := psStore
  atAssignment := psStore
  kafkaTopic := "topic"
  clock _ := 0
  fails _ := false
  announces := true

-- No challenge is stored with the key of the sensor. Its row stays.
theorem unchallenged_row_left : ¬ ∀ tools conn env db, Atomic tools conn env db := by
  intro always
  have atomic := always sampleTools newSensor calm ⟨.empty, .empty⟩
  have same := atomic.unchanged (by decide)
  exact absurd same (by decide)

end Sample

end VirtueSensing.Api
