import Mathlib.Logic.Function.Basic
import VirtueSensing.WinVirtue.SensorIdentity

set_option autoImplicit false

/-!
# The queues of the events

`_update_sensor_info`, `_build_sensor_wrappers` and `_event_stream_pump` of `sensor_winvirtue.py`.
The queues are keyed by the strings of the sensor ids.
-/

namespace VirtueSensing.WinVirtue

open CLayout Driver Integers

-- `dict[key] = value`
def dictSet {β : Type} (dict : List (Text × β)) (key : Text) (value : β) : List (Text × β) :=
  if key ∈ dict.map Prod.fst then
    dict.map fun entry => if entry.1 = key then (key, value) else entry
  else dict ++ [(key, value)]

-- `not sensor.Enabled` is that the string is empty.
def addSensor (sensordict : List (Text × SensorStatus)) (sensor : SensorStatus) :
    List (Text × SensorStatus) :=
  if sensor.enabled = [] then sensordict else dictSet sensordict sensor.sensorName sensor

def updateSensorInfo (sensors : List SensorStatus) : List (Text × SensorStatus) :=
  sensors.foldl addSensor []

-- What was put on each queue, under the id of the sensor.
abbrev SensorQueues := Value → Option (List Event)

def addQueue (sensorqueues : SensorQueues) (entry : Text × SensorStatus) : SensorQueues :=
  Function.update sensorqueues (.text entry.2.sensorId.str) (some [])

def buildSensorWrappers (sensordict : List (Text × SensorStatus)) : SensorQueues :=
  sensordict.foldl addQueue fun _ => none

structure Pump where
  sensorqueues : SensorQueues
  droppedSensorIds : List Value

/-- A packet, and what `_running` is when the pump has its event. -/
structure Arrival where
  packet : Bytes
  running : Bool
  deriving DecidableEq, Repr

def Pump.route (p : Pump) (evt : Event) : Pump :=
  match evt.lookup "sensor_id" with
  | none => p
  | some sensorId =>
    match p.sensorqueues sensorId with
    | none =>
      if sensorId ∈ p.droppedSensorIds then p
      else { p with droppedSensorIds := sensorId :: p.droppedSensorIds }
    | some queue =>
      { p with sensorqueues := Function.update p.sensorqueues sensorId (some (queue ++ [evt])) }

/-- `_event_stream_pump` over `apacket_decode`, which an exception ends. -/
def eventStreamPump (p : Pump) : List Arrival → Pump
  | [] => p
  | arrival :: rest =>
    match packetDecodeHeader arrival.packet with
    | none => p
    | some none => eventStreamPump p rest
    | some (some evt) => if arrival.running then eventStreamPump (p.route evt) rest else p

/-- The packets whose events the pump has while it is running, with these events. -/
def streamed : List Arrival → List (Bytes × Event)
  | [] => []
  | arrival :: rest =>
    match packetDecodeHeader arrival.packet with
    | none => []
    | some none => streamed rest
    | some (some evt) => if arrival.running then (arrival.packet, evt) :: streamed rest else []

def eventsOf (id : Uuid) (arrivals : List Arrival) : List Event :=
  ((streamed arrivals).filter fun pair => Carries pair.1 id).map Prod.snd

def queueKey (id : Uuid) : Value := .text (uuidOf id).str

/-- Each probe has the queue of its own events, and there is no other queue. -/
structure Routed (ids : List Uuid) (arrivals : List Arrival) (queues : SensorQueues) : Prop where
  own : ∀ id ∈ ids, queues (queueKey id) = some (eventsOf id arrivals)
  other : ∀ key, (∀ id ∈ ids, key ≠ queueKey id) → queues key = none

theorem queueKey_inj {id other : Uuid} : queueKey id = queueKey other ↔ id = other := by
  rw [queueKey, queueKey, Value.text.injEq, UUID.str_inj, uuidOf_inj]

theorem route_queue (p : Pump) (evt : Event) (key : Value) :
    (p.route evt).sensorqueues key =
      if evt.lookup "sensor_id" = some key then (p.sensorqueues key).map (· ++ [evt])
      else p.sensorqueues key := by
  unfold Pump.route
  split
  · next unnamed => rw [if_neg (by rw [unnamed]; exact nofun)]
  · next sensorId named =>
    rw [named]
    split
    · next missing =>
      have kept : ∀ q : Pump, q.sensorqueues = p.sensorqueues → q.sensorqueues key =
          if some sensorId = some key then (p.sensorqueues key).map (· ++ [evt])
          else p.sensorqueues key := by
        intro q same
        split
        · next named => rw [same, ← Option.some.inj named, missing, Option.map_none]
        · rw [same]
      split
      · exact kept _ rfl
      · exact kept _ rfl
    · next queue present =>
      split
      · next named =>
        rw [← Option.some.inj named, present]
        exact Function.update_self _ _ _
      · next different =>
        exact Function.update_of_ne (fun same => different (congrArg some same.symm)) _ _

theorem pump_queue (arrivals : List Arrival) (p : Pump) (key : Value) :
    (eventStreamPump p arrivals).sensorqueues key = (p.sensorqueues key).map
      (· ++ ((streamed arrivals).filter fun pair =>
        pair.2.lookup "sensor_id" = some key).map Prod.snd) := by
  induction arrivals generalizing p with
  | nil => simp [eventStreamPump, streamed]
  | cons arrival rest ih =>
    unfold eventStreamPump streamed
    cases packetDecodeHeader arrival.packet with
    | none => simp
    | some decoded =>
      cases decoded with
      | none => exact ih p
      | some evt =>
        cases arrival.running with
        | false => simp
        | true =>
          simp only [if_true, ih, route_queue, List.filter_cons, decide_eq_true_eq]
          split
          · rw [Option.map_map]
            congr 1
            funext queue
            simp
          · rfl

theorem decoded_of_streamed {arrivals : List Arrival} {pair : Bytes × Event}
    (member : pair ∈ streamed arrivals) : packetDecodeHeader pair.1 = some (some pair.2) := by
  induction arrivals with
  | nil => exact absurd member List.not_mem_nil
  | cons arrival rest ih =>
    unfold streamed at member
    split at member
    · exact absurd member List.not_mem_nil
    · exact ih member
    · next evt decoded =>
      split at member
      · rcases List.mem_cons.mp member with rfl | member
        · exact decoded
        · exact ih member
      · exact absurd member List.not_mem_nil

theorem lookup_of_streamed {arrivals : List Arrival} {pair : Bytes × Event}
    (member : pair ∈ streamed arrivals) (id : Uuid) :
    pair.2.lookup "sensor_id" = some (queueKey id) ↔ Carries pair.1 id := by
  obtain ⟨own, carries⟩ := carries_of_event (decoded_of_streamed member)
  have named := lookup_of_carries carries (decoded_of_streamed member)
  rw [named]
  constructor
  · intro same
    obtain rfl := queueKey_inj.mp (Option.some.inj same)
    exact carries
  · intro other
    rw [guidBytes_inj.mp (carries.symm.trans other)]
    rfl

theorem pump_own (arrivals : List Arrival) (p : Pump) (id : Uuid) :
    (eventStreamPump p arrivals).sensorqueues (queueKey id) =
      (p.sensorqueues (queueKey id)).map (· ++ eventsOf id arrivals) := by
  rw [pump_queue, eventsOf]
  have same : ∀ pair ∈ streamed arrivals,
      decide (pair.2.lookup "sensor_id" = some (queueKey id)) = decide (Carries pair.1 id) :=
    fun pair member => decide_eq_decide.mpr (lookup_of_streamed member id)
  rw [List.filter_congr same]

theorem dictSet_new {β : Type} {dict : List (Text × β)} {key : Text} {value : β}
    (new : key ∉ dict.map Prod.fst) : dictSet dict key value = dict ++ [(key, value)] :=
  if_neg new

theorem foldl_dictSet {α β : Type} (key : α → Text) (value : α → β) {xs : List α}
    (distinct : (xs.map key).Nodup) (dict : List (Text × β))
    (new : ∀ x ∈ xs, key x ∉ dict.map Prod.fst) :
    xs.foldl (fun dict x => dictSet dict (key x) (value x)) dict =
      dict ++ xs.map fun x => (key x, value x) := by
  induction xs generalizing dict with
  | nil => exact (List.append_nil dict).symm
  | cons x rest ih =>
    rw [List.map_cons, List.nodup_cons] at distinct
    rw [List.foldl_cons, dictSet_new (new x List.mem_cons_self), ih distinct.2]
    · rw [List.append_assoc]
      rfl
    · intro other member
      rw [List.map_append, List.mem_append, not_or]
      refine ⟨new other (List.mem_cons_of_mem _ member), ?_⟩
      intro same
      have named : key other = key x := List.mem_singleton.mp same
      exact distinct.1 (named ▸ List.mem_map_of_mem member)

theorem updateSensorInfo_eq {sensors : List SensorStatus}
    (names : (sensors.map SensorStatus.sensorName).Nodup)
    (enabled : ∀ sensor ∈ sensors, sensor.enabled ≠ []) :
    updateSensorInfo sensors = sensors.map fun sensor => (sensor.sensorName, sensor) := by
  have set : ∀ dict, ∀ sensor ∈ sensors,
      addSensor dict sensor = dictSet dict sensor.sensorName sensor :=
    fun dict sensor member => if_neg (enabled sensor member)
  rw [updateSensorInfo, List.foldl_ext _ _ [] set]
  exact foldl_dictSet SensorStatus.sensorName id names [] fun _ _ => List.not_mem_nil

theorem buildSensorWrappers_eq (sensordict : List (Text × SensorStatus)) (key : Value) :
    buildSensorWrappers sensordict key =
      if key ∈ sensordict.map fun entry => Value.text entry.2.sensorId.str then some [] else none := by
  have all : ∀ queues : SensorQueues,
      sensordict.foldl addQueue queues key =
        if key ∈ sensordict.map fun entry => Value.text entry.2.sensorId.str then some []
        else queues key := by
    induction sensordict with
    | nil => exact fun _ => rfl
    | cons entry rest ih =>
      intro queues
      rw [List.foldl_cons, ih, List.map_cons]
      by_cases later : key ∈ rest.map fun entry => Value.text entry.2.sensorId.str
      · rw [if_pos later, if_pos (List.mem_cons_of_mem _ later)]
      · rw [if_neg later, addQueue]
        by_cases here : key = .text entry.2.sensorId.str
        · rw [here, if_pos List.mem_cons_self, Function.update_self]
        · rw [if_neg (List.not_mem_cons_of_ne_of_not_mem here later), Function.update_of_ne here]
  exact all fun _ => none

theorem enabled_of_build {msgPkt : Bytes} {sensor : SensorStatus}
    (built : SensorStatus.build msgPkt = some sensor) : sensor.enabled ≠ [] := by
  unfold SensorStatus.build at built
  obtain ⟨slc, -, built⟩ := Option.bind_eq_some_iff.mp built
  obtain ⟨name, -, built⟩ := Option.bind_eq_some_iff.mp built
  obtain ⟨u, -, built⟩ := Option.bind_eq_some_iff.mp built
  obtain ⟨attributes, -, rest⟩ := Option.bind_eq_some_iff.mp built
  obtain rfl := Option.some.inj rest
  simp only
  split <;> decide

theorem enabled_of_enumerated {entries : List ProbeStatus} {sensors : List SensorStatus}
    (enumerated : List.Forall₂ (fun status sensor =>
      SensorStatus.build (statusBytes status) = some sensor) entries sensors) :
    ∀ sensor ∈ sensors, sensor.enabled ≠ [] := by
  intro sensor member
  obtain ⟨ndx, within, rfl⟩ := List.getElem_of_mem member
  exact enabled_of_build (enumerated.get (enumerated.length_eq ▸ within) within)

theorem ids_of_enumerated {entries : List ProbeStatus} {sensors : List SensorStatus}
    (enumerated : List.Forall₂ (fun status sensor =>
      SensorStatus.build (statusBytes status) = some sensor) entries sensors) :
    sensors.map SensorStatus.sensorId = entries.map fun status => uuidOf status.probeId := by
  induction enumerated with
  | nil => rfl
  | cons built _ ih => rw [List.map_cons, List.map_cons, ih, sensorId_of_status built]

/-- The queues hold what the pump has had from each probe. -/
theorem routed_of_enumerated {entries : List ProbeStatus} {sensors : List SensorStatus}
    (enumerated : List.Forall₂ (fun status sensor =>
      SensorStatus.build (statusBytes status) = some sensor) entries sensors)
    (names : (sensors.map SensorStatus.sensorName).Nodup) (arrivals : List Arrival) :
    Routed (entries.map ProbeStatus.probeId) arrivals
      (eventStreamPump ⟨buildSensorWrappers (updateSensorInfo sensors), []⟩ arrivals).sensorqueues := by
  have enabled := enabled_of_enumerated enumerated
  have made : ∀ key, buildSensorWrappers (updateSensorInfo sensors) key =
      if key ∈ (entries.map ProbeStatus.probeId).map queueKey then some [] else none := by
    intro key
    have keys : (sensors.map fun sensor => Value.text sensor.sensorId.str) =
        (entries.map ProbeStatus.probeId).map queueKey := by
      have ids := congrArg (List.map fun u => Value.text (UUID.str u)) (ids_of_enumerated enumerated)
      rw [List.map_map, List.map_map] at ids
      rw [List.map_map]
      exact ids
    rw [updateSensorInfo_eq names enabled, buildSensorWrappers_eq, List.map_map, ← keys]
    rfl
  constructor
  case own =>
    intro id member
    rw [pump_own]
    simp only [made, if_pos (List.mem_map_of_mem member), Option.map_some, List.nil_append]
  case other =>
    intro key different
    have unknown : key ∉ (entries.map ProbeStatus.probeId).map queueKey := by
      intro member
      obtain ⟨id, enumerated, rfl⟩ := List.mem_map.mp member
      exact different id enumerated rfl
    rw [pump_queue]
    simp only [made, if_neg unknown, Option.map_none]

/-- Of a driver that answers an enumeration, every sensor is identified by the GUID of its probe,
and with distinct names and ids each event is on the queue of its probe. -/
theorem sensors_identified (r : Registry) (length : UInt32) (allocated : Bool) (n : Nat)
    (entries : List ProbeStatus) (sensors : List SensorStatus)
    (replied : onEnumerateProbes r length allocated = .success n entries)
    (enumerated : enumerateSensors (replyBytes n entries) = some sensors) :
    List.Forall₂ (fun status sensor => Identified status.probeId sensor) entries sensors ∧
      ((sensors.map SensorStatus.sensorName).Nodup → (sensors.map SensorStatus.sensorId).Nodup →
        ∀ arrivals, Routed (entries.map ProbeStatus.probeId) arrivals
          (eventStreamPump ⟨buildSensorWrappers (updateSensorInfo sensors), []⟩
            arrivals).sensorqueues) := by
  obtain ⟨counted, fits⟩ := length_entries replied
  have each := (enumerateSensors_replyBytes counted fits).mp enumerated
  exact ⟨each.imp fun _ _ => identified_of_build, fun names _ => routed_of_enumerated each names⟩

def sampleProbes : List ProbeObject :=
  [⟨1, ascii "ImageLoad", 0xffeeddccbbaa99887766554433221100, true, 10, 0, 0, 3⟩,
    ⟨2, ascii "ProcessCreate", 0x1, false, 0, 0, 0, 0⟩]

def sampleSensors : List SensorStatus :=
  [⟨⟨0x00112233445566778899aabbccddeeff, by decide⟩, 0, 0, 3, "EnabledAtStart|RealTime".toList,
      "True".toList, "ImageLoad".toList⟩,
    ⟨⟨0x01000000000000000000000000000000, by decide⟩, 0, 0, 0, "NoAttributes".toList,
      "False".toList, "ProcessCreate".toList⟩]

theorem sampleSensors_identified :
    List.Forall₂ (fun status sensor => Identified status.probeId sensor)
        (sampleProbes.map ProbeObject.status) sampleSensors ∧
      ∀ arrivals, Routed [0xffeeddccbbaa99887766554433221100, 0x1] arrivals
        (eventStreamPump ⟨buildSensorWrappers (updateSensorInfo sampleSensors), []⟩
          arrivals).sensorqueues := by
  have both := sensors_identified ⟨2, 2, sampleProbes, sampleProbes⟩ 0x1000 true 2
    (sampleProbes.map ProbeObject.status) sampleSensors (by decide +kernel) (by decide +kernel)
  exact ⟨both.1, both.2 (by decide +kernel) (by decide +kernel)⟩

end VirtueSensing.WinVirtue
