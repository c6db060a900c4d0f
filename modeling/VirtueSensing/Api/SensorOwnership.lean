import VirtueSensing.Api.Sensors

set_option autoImplicit false

/-!
# Whose rows a request changes

The rows are found by the public key alone. The sensor id that a request names is checked for its form
and then shown to others.
-/

namespace VirtueSensing.Api

inductive SensorRequest where
  | register (conn : SensorConn) (env : Surroundings)
  | sync (conn : SensorConn) (fails : Bool) (now : Nat)
  | deregister (conn : SensorConn) (fails announces : Bool)

def SensorRequest.conn : SensorRequest → SensorConn
  | register conn _ | sync conn _ _ | deregister conn _ _ => conn

def SensorRequest.serve (tools : KeyTools) (db : Registry) : SensorRequest → Registry × Response
  | register conn env => Api.register tools conn env db
  | sync conn fails now => Api.sync tools conn fails now db
  | deregister conn fails announces => Api.deregister tools conn fails announces db

/-- The row has the public key that was sent, which is the key of the client certificate, and the sensor
id that was named. -/
def Owned (tools : KeyTools) (conn : SensorConn) (row : SensorRow) : Prop :=
  ∃ sensorId encoded key entry, conn.body "sensor" = some (.string sensorId) ∧
    conn.body "public_key" = some (.string encoded) ∧ tools.urlDecode64 encoded = some key ∧
    row.publicKey = some key ∧ tools.pemDecode key = [entry] ∧ conn.clientCertificate = some entry ∧
    row.sensorId = some sensorId

-- Every row that is not there any more as it was, is the requester's.
def TouchesOwn (tools : KeyTools) (db : Registry) (request : SensorRequest) : Prop :=
  ∀ entry ∈ db.sensors.rows, entry ∉ (request.serve tools db).1.sensors.rows →
    Owned tools request.conn entry.2

/-- A request that finds a row, and may write, names the sensor id of that row. -/
def NamesFound (tools : KeyTools) (db : Registry) : SensorRequest → Prop
  | .register _ _ => True
  | .sync conn fails now =>
    ∀ sensorId key id row, identify tools conn (.status 410) = .ok (sensorId, key) →
      db.sensors.lookup (SensorRow.hasKey key) = .found id row → row.complete → fails = false →
      row.sensorId = some sensorId ∨ row.lastSyncAt = now
  | .deregister conn fails _ =>
    ∀ sensorId key id row, identify tools conn (.status 400) = .ok (sensorId, key) →
      db.sensors.lookup (SensorRow.hasKey key) = .found id row → fails = false →
      row.sensorId = some sensorId

section Checks

variable {tools : KeyTools} {conn : SensorConn} {rejected : Response} {sensorId key text : String}
  {value : Json}

theorem checked_eq_ok {check : String → Bool} :
    checked check rejected value = .ok text ↔ value = .string text ∧ check text := by
  unfold checked
  cases value with
  | string given =>
    by_cases passed : check given
    · simp only [passed, if_true, Except.ok.injEq, Json.string.injEq]
      constructor
      · rintro rfl
        exact ⟨rfl, passed⟩
      · exact fun same => same.1
    · simp only [passed, Bool.false_eq_true, if_false, Json.string.injEq]
      constructor
      · nofun
      · rintro ⟨rfl, holds⟩
        exact absurd holds passed
  | _ => simp

theorem decodeKey_eq_ok :
    decodeKey tools value = .ok key ↔
      ∃ encoded, value = .string encoded ∧ tools.urlDecode64 encoded = some key := by
  unfold decodeKey
  cases value with
  | string encoded => cases decoded : tools.urlDecode64 encoded <;> simp [decoded]
  | _ => simp

theorem identified (known : identify tools conn rejected = .ok (sensorId, key)) :
    ∃ encoded entry, conn.body "sensor" = some (.string sensorId) ∧
      conn.body "public_key" = some (.string encoded) ∧ tools.urlDecode64 encoded = some key ∧
      tools.pemDecode key = [entry] ∧ conn.clientCertificate = some entry := by
  unfold identify at known
  split at known
  · next named encoded sensor publicKey =>
    obtain ⟨key', decoded, known⟩ := Except.of_bind_ok known
    obtain ⟨sensorId', checkedId, known⟩ := Except.of_bind_ok known
    obtain ⟨_, -, known⟩ := Except.of_bind_ok known
    obtain ⟨_, same, known⟩ := Except.of_bind_ok known
    obtain ⟨rfl, rfl⟩ := Prod.mk.inj (Except.ok.inj known)
    obtain ⟨text, rfl, decodes⟩ := decodeKey_eq_ok.mp decoded
    obtain ⟨rfl, -⟩ := checked_eq_ok.mp checkedId
    unfold matchesClientCertificate at same
    split at same
    · next certificate entry client entries =>
      split_ifs at same with equal
      exact ⟨text, entry, sensor, publicKey, decodes, entries, equal ▸ client⟩
    · exact absurd same nofun
  · exact absurd known nofun

theorem Owned.of_identified {row : SensorRow}
    (known : identify tools conn rejected = .ok (sensorId, key)) (keyed : row.publicKey = some key)
    (named : row.sensorId = some sensorId) : Owned tools conn row := by
  obtain ⟨encoded, entry, sensor, publicKey, decoded, entries, client⟩ := identified known
  exact ⟨sensorId, encoded, key, entry, sensor, publicKey, decoded, keyed, entries, client, named⟩

theorem Owned.named {row : SensorRow} (own : Owned tools conn row)
    (known : identify tools conn rejected = .ok (sensorId, key)) : row.sensorId = some sensorId := by
  obtain ⟨-, -, sensor, -⟩ := identified known
  obtain ⟨named, -, -, -, given, -, -, -, -, -, same⟩ := own
  obtain rfl : named = sensorId := by simpa using given.symm.trans sensor
  exact same

end Checks

section Register

variable {env : Surroundings}

/-- The writes of a registration: one new row, and updates of it that keep what it was registered
with. -/
structure KeptByRegistration (first : Nat) (inv : Registry → Prop) : Prop where
  later : ∀ db, inv db → first ≤ db.sensors.next
  insert : ∀ db row, inv db → indexed db.sensors row = false →
    inv { db with sensors := db.sensors.insert row }
  update : ∀ db id f, inv db → first ≤ id → (∀ row, (f row).toSensor = row.toSensor) →
    inv { db with sensors := db.sensors.update id f }
  link : ∀ db challenges, inv db → inv { db with challenges := challenges }

variable {first : Nat} {inv : Registry → Prop}

theorem createStep_keeps (kept : KeptByRegistration first inv) (params : SensorParams) :
    Attempt.Triple inv (createStep env params) (fun id db => first ≤ id ∧ inv db) inv := by
  intro db holds
  unfold createStep
  split
  · exact ⟨nofun, fun e left same => (Prod.mk.inj same).2 ▸ holds⟩
  · split
    · exact ⟨nofun, fun e left same => (Prod.mk.inj same).2 ▸ holds⟩
    · next row stored =>
      split_ifs with refused
      · exact ⟨nofun, fun e left same => (Prod.mk.inj same).2 ▸ holds⟩
      · refine ⟨fun id left same => ?_, nofun⟩
        obtain ⟨created, rfl⟩ := Prod.mk.inj same
        obtain rfl := Except.ok.inj created
        exact ⟨kept.later db holds, kept.insert db row holds (by simpa using (not_or.mp refused).2)⟩

theorem updateStep_keeps (kept : KeptByRegistration first inv) (write : Write) {id : Nat}
    (new : first ≤ id) (f : SensorRow → SensorRow) (same : ∀ row, (f row).toSensor = row.toSensor) :
    Attempt.Triple inv (updateStep env write id f) (fun _ => inv) inv := by
  intro db holds
  unfold updateStep
  split_ifs
  · exact ⟨nofun, fun e left same => (Prod.mk.inj same).2 ▸ holds⟩
  · refine ⟨fun _ left passed => ?_, nofun⟩
    exact (Prod.mk.inj passed).2 ▸ kept.update db id f holds new same

theorem challengeStep_keeps (key : String) :
    Attempt.Triple inv (challengeStep key) (fun _ => inv) inv := by
  intro db holds
  unfold challengeStep
  split
  · exact ⟨fun _ left same => (Prod.mk.inj same).2 ▸ holds, nofun⟩
  · exact ⟨nofun, fun e left same => (Prod.mk.inj same).2 ▸ holds⟩
  · exact ⟨nofun, fun e left same => (Prod.mk.inj same).2 ▸ holds⟩

theorem linkStep_keeps (kept : KeptByRegistration first inv) (sensorId id : Nat)
    (challenge : LinkedChallenge) :
    Attempt.Triple inv (linkStep env sensorId id challenge) (fun _ => inv) inv := by
  intro db holds
  unfold linkStep
  split_ifs
  · exact ⟨nofun, fun e left same => (Prod.mk.inj same).2 ▸ holds⟩
  · exact ⟨nofun, fun e left same => (Prod.mk.inj same).2 ▸ holds⟩
  · refine ⟨fun _ left same => ?_, nofun⟩
    exact (Prod.mk.inj same).2 ▸ kept.link db _ holds

theorem registerSteps_keep (env : Surroundings) (kept : KeptByRegistration first inv)
    (r : Registration) :
    Attempt.Triple inv (registerSteps env r) (fun _ => inv) inv := by
  apply Attempt.Triple.bind (Attempt.triple_given _)
  intro componentId
  apply Attempt.Triple.bind (createStep_keeps kept r.params)
  intro id db ⟨new, holds⟩
  revert db
  suffices rest : Attempt.Triple inv _ (fun _ => inv) inv from fun db holds => rest db holds
  refine Attempt.Triple.bind (updateStep_keeps kept _ new _ ?_) fun _ => ?_
  · exact fun _ => rfl
  apply Attempt.Triple.bind (Attempt.triple_given _)
  intro configurationId
  refine Attempt.Triple.bind (updateStep_keeps kept _ new _ ?_) fun _ => ?_
  · exact fun _ => rfl
  refine Attempt.Triple.bind (updateStep_keeps kept _ new _ ?_) fun _ => ?_
  · exact fun _ => rfl
  refine Attempt.Triple.bind (updateStep_keeps kept _ new _ ?_) fun _ => ?_
  · exact fun _ => rfl
  apply Attempt.Triple.bind (challengeStep_keeps _)
  intro challenge
  exact linkStep_keeps kept _ _ _

theorem register_keeps (tools : KeyTools) (conn : SensorConn) {db : Registry}
    (kept : KeptByRegistration first inv) (here : inv db) :
    inv (Api.register tools conn env db).1 := by
  unfold Api.register
  split
  · exact here
  · next r valid =>
    have after := registerSteps_keep env kept r db here
    split
    · next failure left stopped => exact after.2 failure left stopped
    · next left passed => exact after.1 () left passed

theorem register_holds (tools : KeyTools) (conn : SensorConn) (db : Registry)
    {entry : Nat × SensorRow} (member : entry ∈ db.sensors.rows) :
    entry ∈ (Api.register tools conn env db).1.sensors.rows := by
  have kept : KeptByRegistration db.sensors.next fun left =>
      db.sensors.next ≤ left.sensors.next ∧ entry ∈ left.sensors.rows := by
    constructor
    · exact fun left holds => holds.1
    · intro left row holds _
      exact ⟨Nat.le_succ_of_le holds.1, Table.mem_insert.mpr (.inl holds.2)⟩
    · intro left id f holds new _
      have old : entry.1 ≠ id := Nat.ne_of_lt (Nat.lt_of_lt_of_le (db.sensors.below entry member) new)
      exact ⟨holds.1, Table.mem_update.mpr ⟨entry.2, holds.2, (if_neg old).symm⟩⟩
    · exact fun left challenges holds => holds
  exact (register_keeps tools conn kept ⟨Nat.le_refl _, member⟩).2

end Register

section Found

variable {tools : KeyTools} {conn : SensorConn} {db : Registry} {rejected : Response}
  {sensorId key : String}

theorem hasKey_lookup {id : Nat} {row : SensorRow}
    (found : db.sensors.lookup (SensorRow.hasKey key) = .found id row) :
    (id, row) ∈ db.sensors.rows ∧ row.publicKey = some key := by
  obtain ⟨member, keyed⟩ := Table.mem_of_lookup found
  exact ⟨member, by simpa [SensorRow.hasKey] using keyed⟩

theorem sync_touches_iff (fails : Bool) (now : Nat) :
    TouchesOwn tools db (.sync conn fails now) ↔ NamesFound tools db (.sync conn fails now) := by
  cases known : identify tools conn (.status 410) with
  | error response =>
    apply iff_of_true
    · intro entry member gone
      simp only [SensorRequest.serve, sync, known] at gone
      exact absurd member gone
    · intro sensorId key id row identified
      rw [known] at identified
      exact absurd identified nofun
  | ok named =>
    obtain ⟨sensorId, key⟩ := named
    constructor
    · intro own sensorId' key' id row same found complete writes
      rw [known] at same
      obtain ⟨rfl, rfl⟩ := Prod.mk.inj (Except.ok.inj same)
      by_cases stamp : row.lastSyncAt = now
      · exact .inr stamp
      · left
        obtain ⟨member, -⟩ := hasKey_lookup found
        have gone : (id, row) ∉ (SensorRequest.serve tools db (.sync conn fails now)).1.sensors.rows := by
          simp only [SensorRequest.serve, sync, known, found, complete, writes, if_true,
            Bool.false_eq_true, if_false]
          intro there
          obtain ⟨before, earlier, changed⟩ := Table.mem_update.mp there
          obtain rfl := (Prod.mk.inj (Table.eq_of_id member earlier rfl)).2
          rw [if_pos rfl] at changed
          exact stamp (congrArg SensorRow.lastSyncAt changed)
        exact (own _ member gone).named known
    · intro names entry member gone
      simp only [SensorRequest.serve, sync, known] at gone
      split at gone
      · next id row found =>
        split_ifs at gone with complete fails
        · exact absurd member gone
        · have here : entry.1 = id := by
            by_contra other
            exact gone (Table.mem_update.mpr ⟨entry.2, member, (if_neg other).symm⟩)
          obtain ⟨there, keyed⟩ := hasKey_lookup found
          obtain rfl := Table.eq_of_id member there here
          rcases names sensorId key _ row known found complete (by simpa using fails) with named | stamp
          · exact Owned.of_identified known keyed named
          · refine absurd (Table.mem_update.mpr ⟨row, there, ?_⟩) gone
            rw [if_pos rfl, ← stamp]
        · exact absurd member gone
      · exact absurd member gone

theorem deregister_touches_iff (fails announces : Bool) :
    TouchesOwn tools db (.deregister conn fails announces) ↔
      NamesFound tools db (.deregister conn fails announces) := by
  cases known : identify tools conn (.status 400) with
  | error response =>
    apply iff_of_true
    · intro entry member gone
      simp only [SensorRequest.serve, deregister, known] at gone
      exact absurd member gone
    · intro sensorId key id row identified
      rw [known] at identified
      exact absurd identified nofun
  | ok named =>
    obtain ⟨sensorId, key⟩ := named
    constructor
    · intro own sensorId' key' id row same found writes
      rw [known] at same
      obtain ⟨rfl, rfl⟩ := Prod.mk.inj (Except.ok.inj same)
      obtain ⟨member, -⟩ := hasKey_lookup found
      have gone : (id, row) ∉
          (SensorRequest.serve tools db (.deregister conn fails announces)).1.sensors.rows := by
        simp only [SensorRequest.serve, deregister, known, found, writes, Bool.false_eq_true,
          if_false]
        intro there
        exact (Table.mem_delete.mp there).2 rfl
      exact (own _ member gone).named known
    · intro names entry member gone
      simp only [SensorRequest.serve, deregister, known] at gone
      split at gone
      · next id row found =>
        by_cases stops : fails
        · rw [if_pos stops] at gone
          exact absurd member gone
        · rw [if_neg stops] at gone
          have here : entry.1 = id := by
            by_contra other
            exact gone (Table.mem_delete.mpr ⟨member, other⟩)
          obtain ⟨there, keyed⟩ := hasKey_lookup found
          obtain rfl := Table.eq_of_id member there here
          exact Owned.of_identified known keyed
            (names sensorId key _ row known found (by simpa using stops))
      · exact absurd member gone

end Found

/-- A request changes or deletes only rows of its own exactly when it is a registration, or the row that
it finds has the sensor id that it names. -/
theorem touches_own_iff (tools : KeyTools) (db : Registry) (request : SensorRequest) :
    TouchesOwn tools db request ↔ NamesFound tools db request := by
  cases request with
  | register conn env =>
    exact iff_of_true (fun entry member gone => absurd (register_holds tools conn db member) gone)
      trivial
  | sync conn fails now => exact sync_touches_iff fails now
  | deregister conn fails announces => exact deregister_touches_iff fails announces

section Sample

def samplePem : String := "-----BEGIN CERTIFICATE-----\nMIIB\n-----END CERTIFICATE-----\n"

def samplePem64 : String :=
  "LS0tLS1CRUdJTiBDRVJUSUZJQ0FURS0tLS0tCk1JSUIKLS0tLS1FTkQgQ0VSVElGSUNBVEUtLS0tLQo="

def sampleDer : Bytes := [0x30, 0x82, 0x01]

def sampleTools : KeyTools where
  urlDecode64 text := if text = samplePem64 then some samplePem else none
  pemDecode text := if text = samplePem then [sampleDer] else []

def storedSensor : SensorRow where
  sensorId := some "sensor-a"
  virtueId := some "virtue"
  username := some "root"
  address := some "host"
  port := some 11000
  publicKey := some samplePem
  kafkaTopic := "topic"
  hasCertificates := true
  hasRegistered := true
  componentId := none
  configurationId := none
  lastSyncAt := 0

def sampleRegistry : Registry := ⟨Table.empty.insert storedSensor, .empty⟩

-- A request with the key of `sensor-a` that names another sensor.
def otherName : SensorConn where
  body name :=
    if name = "sensor" then some (.string "sensor-b")
    else if name = "public_key" then some (.string samplePem64)
    else none
  clientCertificate := some sampleDer

theorem other_sensor_deregistered :
    ¬ ∀ tools db request, TouchesOwn tools db request := by
  intro always
  have own := always sampleTools sampleRegistry (.deregister otherName false true) (0, storedSensor)
    (by simp [sampleRegistry, Table.insert, Table.empty]) (by decide)
  obtain ⟨sensorId, -, -, -, named, -, -, -, -, -, same⟩ := own
  obtain rfl : "sensor-b" = sensorId := by
    simpa [SensorRequest.conn, otherName] using named
  exact absurd same (by decide)

end Sample

end VirtueSensing.Api
