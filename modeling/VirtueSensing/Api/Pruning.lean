import Mathlib.Logic.Function.Basic
import VirtueSensing.Api.RegistrationAtomicity

set_option autoImplicit false

/-!
# Pruning sensors

`ApiServer.DatabaseUtils.prune_old_sensors` beside the requests of the sensors. A job asks once for the
sensors that have not synced for a time, and deletes them one by one from the list it got.
-/

namespace VirtueSensing.Api

-- The limit is in seconds, as the time is.
def Stale (now limit : Nat) (row : SensorRow) : Prop :=
  row.lastSyncAt + limit < now

instance (now limit : Nat) (row : SensorRow) : Decidable (Stale now limit row) :=
  inferInstanceAs (Decidable (row.lastSyncAt + limit < now))

structure PruneJob where
  limit : Nat
  pending : List (Nat × SensorRow)

structure PruneState where
  now : Nat
  db : Registry
  jobs : Nat → PruneJob

inductive PruneLabel where
  | tick (seconds : Nat)
  | request (request : SensorRequest)
  | query (job minutes : Nat)
  | prune (job : Nat) (fails announces : Bool)

def SensorRequest.served (now : Nat) : SensorRequest → SensorRequest
  | register conn env => .register conn { env with clock := fun _ => now }
  | sync conn fails _ => .sync conn fails now
  | deregister conn fails announces => .deregister conn fails announces

def sensorsOlderThan (s : PruneState) (minutes : Nat) : List (Nat × SensorRow) :=
  s.db.sensors.select fun row => Stale s.now (60 * minutes) row

namespace PruneState

variable (s : PruneState)

def setJob (job : Nat) (next : PruneJob) : PruneState :=
  { s with jobs := Function.update s.jobs job next }

/-- The limit of the job, the sensor on its list and the row that its deletion takes: there is none if
the row has gone since, or the database fails. -/
def deletion : PruneLabel → Option (Nat × (Nat × SensorRow) × SensorRow)
  | .prune job fails _ =>
    match (s.jobs job).pending with
    | listed :: _ =>
      if fails then none
      else (s.db.sensors.find listed.1).map fun stored => ((s.jobs job).limit, listed, stored)
    | [] => none
  | _ => none

end PruneState

-- An exception ends the job. The deletion of a row and the announcement of its sensor are one step, so
-- no registration of the same sensor comes between them here.
def pruneOldSensors (s : PruneState) (job : Nat) (fails announces : Bool) : Option PruneState :=
  match (s.jobs job).pending with
  | [] => none
  | listed :: rest =>
    let left : PruneJob := ⟨(s.jobs job).limit, if announces then rest else []⟩
    if (s.deletion (.prune job fails announces)).isSome then
      some (({ s with db := s.db.deleteSensor listed.1 } : PruneState).setJob job left)
    else some (s.setJob job ⟨(s.jobs job).limit, []⟩)

def pruneStep (tools : KeyTools) (s : PruneState) : PruneLabel → Option PruneState
  | .tick seconds => some { s with now := s.now + seconds }
  | .request request => some { s with db := ((request.served s.now).serve tools s.db).1 }
  | .query job minutes =>
    if (s.jobs job).pending = [] then
      some (s.setJob job ⟨60 * minutes, sensorsOlderThan s minutes⟩)
    else none
  | .prune job fails announces => pruneOldSensors s job fails announces

def pruneMachine (tools : KeyTools) (challenges : Table LinkedChallenge) :
    Machine PruneState PruneLabel where
  initial := ⟨0, ⟨.empty, challenges⟩, fun _ => ⟨0, []⟩⟩
  step := pruneStep tools

/-- A step deletes no row that has synced within the limit, and announces no sensor as deregistered that
has such a row. As the sensor is announced in the step of its deletion and sensor ids are single, that
row can only be the deleted one. -/
def SparesLive (s : PruneState) (a : PruneLabel) : Prop :=
  ∀ limit listed stored, s.deletion a = some (limit, listed, stored) →
    Stale s.now limit stored ∧
      ∀ sensorId, listed.2.sensorId = some sensorId →
        ∀ entry ∈ s.db.sensors.rows, entry.2.sensorId = some sensorId → Stale s.now limit entry.2

/-- A step deletes a row only if it has not synced since the job asked, or that sync is older than the
limit again. -/
def Unsynced (s : PruneState) (a : PruneLabel) : Prop :=
  ∀ limit listed stored, s.deletion a = some (limit, listed, stored) →
    stored.lastSyncAt = listed.2.lastSyncAt ∨ Stale s.now limit stored

/-- The sensor ids stay single, keys are not given out again, and a row keeps its sensor id. -/
structure Evolves (before after : Table SensorRow) : Prop where
  unique : after.Unique fun row => row.sensorId
  next : before.next ≤ after.next
  same : ∀ id, ∀ row, (id, row) ∈ after.rows → id < before.next →
    ∃ earlier, (id, earlier) ∈ before.rows ∧ earlier.sensorId = row.sensorId

section Evolves

variable {before after : Table SensorRow}

theorem Evolves.refl (unique : before.Unique fun row => row.sensorId) : Evolves before before :=
  ⟨unique, Nat.le_refl _, fun _ row member _ => ⟨row, member, rfl⟩⟩

theorem Evolves.insert (evolved : Evolves before after) {row : SensorRow}
    (new : indexed after row = false) : Evolves before (after.insert row) where
  unique := by
    rw [Table.unique_insert]
    exact ⟨evolved.unique, (Bool.or_eq_false_iff.mp new).1⟩
  next := Nat.le_succ_of_le evolved.next
  same id stored member early := by
    rcases Table.mem_insert.mp member with member | last
    · exact evolved.same id stored member early
    · obtain ⟨rfl, rfl⟩ := Prod.mk.inj last
      exact absurd early (Nat.not_lt.mpr evolved.next)

theorem Evolves.update (evolved : Evolves before after) {id : Nat} {f : SensorRow → SensorRow}
    (keeps : ∀ row, (f row).toSensor = row.toSensor) : Evolves before (after.update id f) where
  unique := evolved.unique.update fun row _ => congrArg Sensor.sensorId (keeps row)
  next := evolved.next
  same other stored member early := by
    obtain ⟨row, there, changed⟩ := Table.mem_update.mp member
    obtain ⟨earlier, found, same⟩ := evolved.same other row there early
    refine ⟨earlier, found, same.trans ?_⟩
    dsimp only at changed
    rw [changed]
    split
    · rw [keeps row]
    · rfl

theorem Evolves.keep (evolved : Evolves before after) (holds : Nat × SensorRow → Bool) :
    Evolves before (after.keep holds) where
  unique := evolved.unique.keep holds
  next := evolved.next
  same id row member := evolved.same id row (List.mem_of_mem_filter member)

end Evolves

theorem serve_evolves (tools : KeyTools) (request : SensorRequest) {db : Registry}
    (unique : db.sensors.Unique fun row => row.sensorId) :
    Evolves db.sensors (request.serve tools db).1.sensors := by
  have start := Evolves.refl unique
  cases request with
  | register conn env =>
    have kept : KeptByRegistration db.sensors.next fun left => Evolves db.sensors left.sensors := by
      constructor
      · exact fun left evolved => evolved.next
      · exact fun left row evolved new => evolved.insert new
      · exact fun left id f evolved _ keeps => evolved.update keeps
      · exact fun left challenges evolved => evolved
    exact register_keeps tools conn kept start
  | sync conn fails now =>
    simp only [SensorRequest.serve, sync]
    split
    · exact start
    · split
      · split_ifs
        · exact start
        · exact start.update fun _ => rfl
        · exact start
      · exact start
  | deregister conn fails announces =>
    simp only [SensorRequest.serve, deregister]
    split
    · exact start
    · split
      · split
        · exact start
        · exact start.keep _
      · exact start

/-- A sensor on the list of a job was stale when the job asked, and stays so as it is on the list. -/
structure Listed (now limit : Nat) (sensors : Table SensorRow) (listed : Nat × SensorRow) : Prop where
  old : listed.1 < sensors.next
  stale : Stale now limit listed.2
  same : ∀ row, (listed.1, row) ∈ sensors.rows → row.sensorId = listed.2.sensorId

theorem Listed.evolve {now limit : Nat} {before after : Table SensorRow} {listed : Nat × SensorRow}
    (here : Listed now limit before listed) (evolved : Evolves before after) :
    Listed now limit after listed where
  old := Nat.lt_of_lt_of_le here.old evolved.next
  stale := here.stale
  same row member := by
    obtain ⟨earlier, there, same⟩ := evolved.same listed.1 row member here.old
    exact same.symm.trans (here.same earlier there)

structure Tracked (s : PruneState) : Prop where
  unique : s.db.sensors.Unique fun row => row.sensorId
  listed : ∀ job, ∀ listed ∈ (s.jobs job).pending,
    Listed s.now (s.jobs job).limit s.db.sensors listed

namespace Tracked

variable {s : PruneState}

theorem evolve (tracked : Tracked s) {db : Registry} (evolved : Evolves s.db.sensors db.sensors) :
    Tracked { s with db := db } where
  unique := evolved.unique
  listed job listed member := (tracked.listed job listed member).evolve evolved

theorem setJob (tracked : Tracked s) (job : Nat) {next : PruneJob}
    (listed : ∀ listed ∈ next.pending, Listed s.now next.limit s.db.sensors listed) :
    Tracked (s.setJob job next) where
  unique := tracked.unique
  listed other entry member := by
    by_cases same : other = job
    · subst same
      simp only [PruneState.setJob, Function.update_self] at member ⊢
      exact listed entry member
    · simp only [PruneState.setJob, Function.update_of_ne same] at member ⊢
      exact tracked.listed other entry member

theorem prune (tracked : Tracked s) {t : PruneState} {job : Nat} {fails announces : Bool}
    (moved : pruneOldSensors s job fails announces = some t) : Tracked t := by
  unfold pruneOldSensors at moved
  split at moved
  · exact absurd moved nofun
  · next listed rest pending =>
    dsimp only at moved
    split at moved
    · obtain rfl := Option.some.inj moved
      have evolved : Evolves s.db.sensors (s.db.deleteSensor listed.1).sensors :=
        (Evolves.refl tracked.unique).keep _
      apply (tracked.evolve evolved).setJob
      · intro entry member
        have there : entry ∈ (s.jobs job).pending := by
          rw [pending]
          split at member
          · exact List.mem_cons_of_mem _ member
          · exact absurd member List.not_mem_nil
        exact (tracked.listed job entry there).evolve evolved
    · obtain rfl := Option.some.inj moved
      exact tracked.setJob job fun entry member => absurd member List.not_mem_nil

theorem step (tracked : Tracked s) {tools : KeyTools} {a : PruneLabel} {t : PruneState}
    (moved : pruneStep tools s a = some t) : Tracked t := by
  cases a with
  | tick seconds =>
    obtain rfl := Option.some.inj moved
    refine ⟨tracked.unique, fun job listed member => ?_⟩
    have here := tracked.listed job listed member
    exact ⟨here.old, Nat.lt_of_lt_of_le here.stale (Nat.le_add_right _ _), here.same⟩
  | request request =>
    obtain rfl := Option.some.inj moved
    exact tracked.evolve (serve_evolves tools _ tracked.unique)
  | query job minutes =>
    simp only [pruneStep] at moved
    split at moved
    · obtain rfl := Option.some.inj moved
      apply tracked.setJob
      intro entry member
      obtain ⟨stored, stale⟩ : entry ∈ s.db.sensors.rows ∧ Stale s.now (60 * minutes) entry.2 := by
        simpa [sensorsOlderThan, Table.mem_select] using member
      refine ⟨s.db.sensors.below entry stored, stale, fun row there => ?_⟩
      rw [Table.eq_of_id stored there rfl]
    · exact absurd moved nofun
  | prune job fails announces => exact tracked.prune moved

end Tracked

theorem tracked_reachable {tools : KeyTools} {challenges : Table LinkedChallenge} {s : PruneState}
    (reached : (pruneMachine tools challenges).Reachable s) : Tracked s := by
  refine (pruneMachine tools challenges).invariant ?_ (fun s a t _ here moved => here.step moved)
    reached
  exact ⟨Table.unique_empty, fun job listed member => absurd member List.not_mem_nil⟩

theorem deletion_eq_some {s : PruneState} {a : PruneLabel} {limit : Nat} {listed : Nat × SensorRow}
    {stored : SensorRow} (deleted : s.deletion a = some (limit, listed, stored)) :
    ∃ job, listed ∈ (s.jobs job).pending ∧ limit = (s.jobs job).limit ∧
      (listed.1, stored) ∈ s.db.sensors.rows := by
  unfold PruneState.deletion at deleted
  split at deleted
  · next job fails announces =>
    split at deleted
    · next first rest pending =>
      split_ifs at deleted
      obtain ⟨row, found, same⟩ := Option.map_eq_some_iff.mp deleted
      obtain ⟨rfl, rfl, rfl⟩ : (s.jobs job).limit = limit ∧ first = listed ∧ row = stored := by
        simpa using same
      exact ⟨job, by simp [pending], rfl, Table.find_eq_some.mp found⟩
    · exact absurd deleted nofun
  · exact absurd deleted nofun

theorem sparesLive_iff {s : PruneState} (tracked : Tracked s) (a : PruneLabel) :
    SparesLive s a ↔ Unsynced s a := by
  constructor
  · intro spares limit listed stored deleted
    exact .inr (spares limit listed stored deleted).1
  · intro unsynced limit listed stored deleted
    obtain ⟨job, pending, rfl, there⟩ := deletion_eq_some deleted
    have here := tracked.listed job listed pending
    have stale : Stale s.now (s.jobs job).limit stored := by
      rcases unsynced _ listed stored deleted with same | stale
      · rw [Stale, same]
        exact here.stale
      · exact stale
    refine ⟨stale, fun sensorId announced entry member same => ?_⟩
    have named := (here.same stored there).trans announced
    have alone : entry = (listed.1, stored) :=
      tracked.unique entry member (listed.1, stored) there (by simp [same]) (same.trans named.symm)
    rw [alone]
    exact stale

/-- Over any run, no live sensor is deleted or announced as deregistered exactly when each deletion takes
a row that has not synced since its job asked, or not within the limit. -/
theorem spares_live_iff (tools : KeyTools) (challenges : Table LinkedChallenge)
    (labels : List PruneLabel) :
    (pruneMachine tools challenges).Throughout SparesLive labels ↔
      (pruneMachine tools challenges).Throughout Unsynced labels :=
  (pruneMachine tools challenges).throughout_congr
    (fun _ a reached => sparesLive_iff (tracked_reachable reached) a) labels

section Sample

def sampleChallenge : LinkedChallenge where
  id := 0
  hostname := "host"
  port := 11000
  algo := "rsa"
  size := 4096
  challenge := ""
  csr := none
  publicKey := some samplePem
  sensorId := none

def sampleSync : SensorConn where
  body name :=
    if name = "sensor" then some (.string "sensor-a")
    else if name = "public_key" then some (.string samplePem64)
    else none
  clientCertificate := some sampleDer

def syncWhilePruning : List PruneLabel :=
  [.request (.register newSensor calm), .tick 200, .query 0 3, .request (.sync sampleSync false 0)]

-- The job deletes a sensor that has synced in this second.
theorem synced_sensor_pruned :
    ¬ ∀ tools challenges labels, (pruneMachine tools challenges).Throughout SparesLive labels := by
  intro always
  have spares := always sampleTools (Table.empty.insert sampleChallenge)
    (syncWhilePruning ++ [.prune 0 false true]) syncWhilePruning (.prune 0 false true) [] _ rfl rfl
  have stale := (spares _ _ _ rfl).1
  exact absurd stale (by decide)

end Sample

end VirtueSensing.Api
