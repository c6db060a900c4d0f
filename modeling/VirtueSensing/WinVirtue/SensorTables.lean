import VirtueSensing.WinVirtue.EventPump

set_option autoImplicit false

/-!
# The tables of the sensors

What `_update_sensor_info` and `_build_sensor_wrappers` put into the empty tables of the service, for an
enumeration of the driver.
-/

namespace VirtueSensing.WinVirtue

open CLayout Driver Integers

-- `str.lower` of an ASCII text
def lower (text : Text) : Text := text.map Char.toLower

-- A `SensorWrapper` is the name that it is made with.
def addWrapper (wrapperdict : List (Text × Text)) (entry : Text × SensorStatus) : List (Text × Text) :=
  dictSet wrapperdict entry.2.sensorId.str (lower entry.1)

structure SensorTables where
  sensordict : List (Text × SensorStatus)
  wrapperdict : List (Text × Text)
  sensorqueues : SensorQueues

/-- Both methods, one after the other; a status that is not decoded raises. -/
def sensorTables (rspBuf : Bytes) : Option SensorTables :=
  (enumerateSensors rspBuf).map fun sensors =>
    let sensordict := updateSensorInfo sensors
    ⟨sensordict, sensordict.foldl addWrapper [], buildSensorWrappers sensordict⟩

-- The name as the service reads it.
def statusName (status : ProbeStatus) : Text :=
  ((status.probeName.take maxSensorNameSz).filter (· ≠ 0)).map fun b => Char.ofNat b.toNat

/-- The name is ASCII, and the attributes are those of `SensorAttributeFlags`. -/
structure Decodes (status : ProbeStatus) : Prop where
  name : ∀ b ∈ status.probeName.take maxSensorNameSz, b < 0x80
  attributes : ¬ (status.attributes.toNat % 2 = 1 ∨ 32 ≤ status.attributes.toNat)

/-- Entries, wrappers and queues are those of the probes with these statuses. -/
structure TablesFor (statuses : List ProbeStatus) (t : SensorTables) : Prop where
  sensors : ∀ name sensorId,
    (∃ sensor, (name, sensor) ∈ t.sensordict ∧ sensor.sensorId = sensorId) ↔
      ∃ status ∈ statuses, statusName status = name ∧ uuidOf status.probeId = sensorId
  wrappers : ∀ key name, (key, name) ∈ t.wrapperdict ↔
    ∃ status ∈ statuses, (uuidOf status.probeId).str = key ∧ lower (statusName status) = name
  queues : ∀ key, (t.sensorqueues key).isSome ↔ ∃ status ∈ statuses, queueKey status.probeId = key

section Statuses

variable {status : ProbeStatus} {sensor : SensorStatus}

theorem mapM_chr {bytes : Bytes} {text : Text} :
    bytes.mapM chr = some text ↔
      (∀ b ∈ bytes, b < 0x80) ∧ text = bytes.map fun b => Char.ofNat b.toNat := by
  induction bytes generalizing text with
  | nil => simp [eq_comm]
  | cons b rest ih =>
    rw [List.mapM_cons, List.forall_mem_cons, List.map_cons]
    by_cases ascii : b < 0x80
    · rw [chr, if_pos ascii]
      simp only [Option.bind_eq_bind, Option.bind_some, Option.bind_eq_some_iff, ih, ascii, true_and]
      constructor
      · rintro ⟨_, ⟨each, rfl⟩, whole⟩
        exact ⟨each, (Option.some.inj whole).symm⟩
      · rintro ⟨each, rfl⟩
        exact ⟨_, ⟨each, rfl⟩, rfl⟩
    · rw [chr, if_neg ascii]
      exact iff_of_false nofun fun both => ascii both.1.1

theorem contents_attributes (status : ProbeStatus) :
    little (contents .probeStatus [.attributes] (statusBytes status)) = status.attributes.toNat := by
  have size : (Record.probeStatus.place [.attributes] (by decide)).size = 2 := by
    decide
  rw [statusBytes, contents_image (apart_status status) (inside_status status)
    (.tail _ (.tail _ (.head _))) (by decide) (by rw [Record.path_put]; decide) (by decide)]
  refine (congrArg (fun size => little (littleEndian size _)) size).trans ?_
  exact little_littleEndian status.attributes.toNat_lt

theorem fromBuffer_name (status : ProbeStatus) :
    fromBuffer (statusBytes status ++ [0]) (field .probeStatus [.sensorName]).offset maxSensorNameSz =
      some ((status.probeName ++ zeroBytes maxSensorNameSz).take maxSensorNameSz) := by
  have offset : (field .probeStatus [.sensorName]).offset = 39 := by decide
  have size : (field .probeStatus [.sensorName]).size = maxSensorNameSz := by decide
  have place : (Record.probeStatus.place [.probeName] (by decide)).size = maxSensorNameSz := by decide
  have name : contents .probeStatus [.sensorName] (statusBytes status) =
      (status.probeName ++ zeroBytes maxSensorNameSz).take maxSensorNameSz := by
    have member : Record.probeStatus.fill [.probeName] status.probeName ∈ statusWrites status :=
      List.mem_of_getLast? rfl
    rw [statusBytes, contents_image (apart_status status) (inside_status status) member (by decide)
      (by rw [Record.path_fill]; decide) (by decide)]
    exact congrArg (fun size => (status.probeName ++ zeroBytes size).take size) place
  have whole := length_statusBytes status
  have cut : load (statusBytes status ++ [0]) 39 maxSensorNameSz =
      load (statusBytes status) 39 maxSensorNameSz := by
    rw [load, load, List.drop_append_of_le_length (by rw [whole]; decide),
      List.take_append_of_le_length (by rw [List.length_drop, whole]; decide)]
  rw [contents, size, offset] at name
  rw [fromBuffer, offset, Int.toNat_natCast, cut, name]
  exact if_pos (by simp [zeroBytes])

theorem filter_name (status : ProbeStatus) :
    ((status.probeName ++ zeroBytes maxSensorNameSz).take maxSensorNameSz).filter (· ≠ 0) =
      (status.probeName.take maxSensorNameSz).filter (· ≠ 0) := by
  rw [List.take_append, List.filter_append, zeroBytes, List.take_replicate]
  simp

theorem build_status (built : SensorStatus.build (statusBytes status) = some sensor) :
    Decodes status ∧ sensor.sensorName = statusName status ∧ sensor.sensorId = uuidOf status.probeId := by
  have id := sensorId_of_status built
  unfold SensorStatus.build at built
  simp only [fromBuffer_name, Option.bind_eq_bind, Option.bind_some, filter_name, contents_attributes] at built
  obtain ⟨name, named, built⟩ := Option.bind_eq_some_iff.mp built
  obtain ⟨u, -, built⟩ := Option.bind_eq_some_iff.mp built
  obtain ⟨attributes, flags, rest⟩ := Option.bind_eq_some_iff.mp built
  obtain ⟨ascii, text⟩ := mapM_chr.mp named
  obtain rfl := Option.some.inj rest
  refine ⟨⟨fun b member => ?_, fun invalid => ?_⟩, text, id⟩
  · by_cases zero : b = 0
    · rw [zero]
      decide
    · exact ascii b (List.mem_filter.mpr ⟨member, decide_eq_true zero⟩)
  · rw [sensorAttributeFlags, if_pos invalid] at flags
    cases flags

theorem build_of_decodes (decodes : Decodes status) :
    ∃ sensor, SensorStatus.build (statusBytes status) = some sensor := by
  obtain ⟨attributes, flags⟩ : ∃ text, sensorAttributeFlags status.attributes.toNat = some text := by
    rw [sensorAttributeFlags, if_neg decodes.attributes]
    split_ifs
    · exact ⟨_, rfl⟩
    · exact ⟨_, rfl⟩
  have named : ((status.probeName.take maxSensorNameSz).filter (· ≠ 0)).mapM chr =
      some (statusName status) :=
    mapM_chr.mpr ⟨fun b member => decodes.name b (List.mem_filter.mp member).1, rfl⟩
  unfold SensorStatus.build
  simp only [fromBuffer_name, Option.bind_eq_bind, Option.bind_some, filter_name, contents_attributes,
    contents_sensorId, ofBytes_guidBytes, named, flags]
  exact ⟨_, rfl⟩

end Statuses

section Tables

variable {entries : List ProbeStatus} {sensors : List SensorStatus} {t : SensorTables}

theorem sensors_of_built (built : List.Forall₂ (fun status sensor =>
      SensorStatus.build (statusBytes status) = some sensor) entries sensors) :
    sensors.map (fun sensor => (sensor.sensorName, sensor.sensorId)) =
      entries.map fun status => (statusName status, uuidOf status.probeId) := by
  induction built with
  | nil => rfl
  | cons here _ ih =>
    obtain ⟨-, name, id⟩ := build_status here
    rw [List.map_cons, List.map_cons, ih, name, id]

theorem exists_built (decodes : ∀ status ∈ entries, Decodes status) :
    ∃ sensors, List.Forall₂ (fun status sensor =>
      SensorStatus.build (statusBytes status) = some sensor) entries sensors := by
  induction entries with
  | nil => exact ⟨[], .nil⟩
  | cons status rest ih =>
    rw [List.forall_mem_cons] at decodes
    obtain ⟨sensor, built⟩ := build_of_decodes decodes.1
    obtain ⟨sensors, others⟩ := ih decodes.2
    exact ⟨sensor :: sensors, .cons built others⟩

theorem decodes_of_built (built : List.Forall₂ (fun status sensor =>
      SensorStatus.build (statusBytes status) = some sensor) entries sensors) :
    ∀ status ∈ entries, Decodes status := by
  induction built with
  | nil => exact nofun
  | cons here _ ih => exact List.forall_mem_cons.mpr ⟨(build_status here).1, ih⟩

theorem exists_sensor_iff (built : List.Forall₂ (fun status sensor =>
      SensorStatus.build (statusBytes status) = some sensor) entries sensors) (p : Text → UUID → Prop) :
    (∃ sensor ∈ sensors, p sensor.sensorName sensor.sensorId) ↔
      ∃ status ∈ entries, p (statusName status) (uuidOf status.probeId) := by
  have pairs := sensors_of_built built
  have first : (∃ sensor ∈ sensors, p sensor.sensorName sensor.sensorId) ↔
      ∃ pair ∈ sensors.map (fun sensor => (sensor.sensorName, sensor.sensorId)), p pair.1 pair.2 := by
    simp
  rw [first, pairs]
  simp

theorem tablesFor_of_built (names : (entries.map statusName).Nodup)
    (ids : (entries.map ProbeStatus.probeId).Nodup)
    (built : List.Forall₂ (fun status sensor =>
      SensorStatus.build (statusBytes status) = some sensor) entries sensors) :
    TablesFor entries ⟨updateSensorInfo sensors, (updateSensorInfo sensors).foldl addWrapper [],
      buildSensorWrappers (updateSensorInfo sensors)⟩ := by
  have pairs := sensors_of_built built
  have dict : updateSensorInfo sensors = sensors.map fun sensor => (sensor.sensorName, sensor) := by
    refine updateSensorInfo_eq ?_ (enabled_of_enumerated built)
    have same := congrArg (List.map Prod.fst) pairs
    simp only [List.map_map, Function.comp_def] at same
    exact same ▸ names
  have keys : ((updateSensorInfo sensors).map fun entry => entry.2.sensorId.str).Nodup := by
    have same := congrArg (List.map fun pair => UUID.str pair.2) pairs
    simp only [List.map_map, Function.comp_def] at same
    have apart := ids.map (f := fun id => (uuidOf id).str) fun _ _ equal =>
      uuidOf_inj.mp (UUID.str_inj.mp equal)
    rw [dict, List.map_map]
    rw [List.map_map] at apart
    exact same ▸ apart
  have wrappers : (updateSensorInfo sensors).foldl addWrapper [] =
      (updateSensorInfo sensors).map fun entry => (entry.2.sensorId.str, lower entry.1) :=
    foldl_dictSet (fun entry : Text × SensorStatus => entry.2.sensorId.str)
      (fun entry => lower entry.1) keys [] fun _ _ => List.not_mem_nil
  constructor
  case sensors =>
    intro name sensorId
    rw [← exists_sensor_iff built fun name' id => name' = name ∧ id = sensorId, dict]
    simp only [List.mem_map, Prod.mk.injEq]
    constructor
    · rintro ⟨_, ⟨sensor, member, rfl, rfl⟩, rfl⟩
      exact ⟨sensor, member, rfl, rfl⟩
    · rintro ⟨sensor, member, rfl, rfl⟩
      exact ⟨sensor, ⟨sensor, member, rfl, rfl⟩, rfl⟩
  case wrappers =>
    intro key name
    rw [← exists_sensor_iff built fun name' id => id.str = key ∧ lower name' = name, wrappers, dict]
    simp [Prod.ext_iff]
  case queues =>
    intro key
    refine Iff.trans ?_ (exists_sensor_iff built fun _ id => Value.text id.str = key)
    simp only [buildSensorWrappers_eq, dict]
    simp

theorem sensorTables_eq_some (few : entries.length < 2 ^ 32) :
    sensorTables (replyBytes entries.length entries) = some t ↔
      ∃ sensors, List.Forall₂ (fun status sensor =>
          SensorStatus.build (statusBytes status) = some sensor) entries sensors ∧
        ⟨updateSensorInfo sensors, (updateSensorInfo sensors).foldl addWrapper [],
          buildSensorWrappers (updateSensorInfo sensors)⟩ = t := by
  rw [sensorTables, Option.map_eq_some_iff]
  simp only [enumerateSensors_replyBytes rfl few]

theorem enabled_of_tables (ids : (entries.map ProbeStatus.probeId).Nodup) (all : TablesFor entries t)
    (some : TablesFor (entries.filter ProbeStatus.enabled) t) : ∀ status ∈ entries, status.enabled := by
  intro status member
  obtain ⟨other, listed, same⟩ :=
    (some.queues (queueKey status.probeId)).mp ((all.queues _).mpr ⟨status, member, rfl⟩)
  obtain ⟨inside, enabled⟩ := List.mem_filter.mp listed
  obtain rfl := List.inj_on_of_nodup_map ids inside member (queueKey_inj.mp same)
  exact enabled

end Tables

/-- The tables are those of the enabled probes exactly if every probe is enabled, and each status is
decoded. -/
theorem tables_enabled_iff (entries : List ProbeStatus) (few : entries.length < 2 ^ 32)
    (names : (entries.map statusName).Nodup) (ids : (entries.map ProbeStatus.probeId).Nodup) :
    (∃ t, sensorTables (replyBytes entries.length entries) = some t ∧
        TablesFor (entries.filter ProbeStatus.enabled) t) ↔
      (∀ status ∈ entries, status.enabled) ∧ ∀ status ∈ entries, Decodes status := by
  constructor
  · rintro ⟨t, made, right⟩
    obtain ⟨sensors, built, rfl⟩ := (sensorTables_eq_some few).mp made
    exact ⟨enabled_of_tables ids (tablesFor_of_built names ids built) right, decodes_of_built built⟩
  · rintro ⟨enabled, decodes⟩
    obtain ⟨sensors, built⟩ := exists_built decodes
    refine ⟨_, (sensorTables_eq_some few).mpr ⟨sensors, built, rfl⟩, ?_⟩
    rw [List.filter_eq_self.mpr enabled]
    exact tablesFor_of_built names ids built

def enabledStatus : ProbeStatus := ⟨0x1, true, 10, 0, 0, 0, ascii "ImageLoad"⟩

def disabledStatus : ProbeStatus := ⟨0x2, false, 2, 0, 0, 0, ascii "ThreadCreate"⟩

theorem enabledStatus_tables :
    ∃ t, sensorTables (replyBytes 1 [enabledStatus]) = some t ∧ TablesFor [enabledStatus] t :=
  (tables_enabled_iff [enabledStatus] (by decide) (by decide) (by decide)).mpr
    ⟨by decide, fun status member => by
      rw [List.mem_singleton.mp member]
      exact ⟨by decide, by decide⟩⟩

-- The text `False` is true.
theorem disabledStatus_listed :
    (∀ t, sensorTables (replyBytes 1 [disabledStatus]) = some t →
      ∃ sensor, (statusName disabledStatus, sensor) ∈ t.sensordict) ∧
    ¬ ∀ entries : List ProbeStatus, (entries.map statusName).Nodup →
      (entries.map ProbeStatus.probeId).Nodup →
      ∃ t, sensorTables (replyBytes entries.length entries) = some t ∧
        TablesFor (entries.filter ProbeStatus.enabled) t := by
  have all {t : SensorTables} (made : sensorTables (replyBytes 1 [disabledStatus]) = some t) :
      TablesFor [disabledStatus] t := by
    obtain ⟨sensors, built, rfl⟩ := (@sensorTables_eq_some [disabledStatus] t (by decide)).mp made
    exact tablesFor_of_built (by decide) (by decide) built
  constructor
  · intro t made
    obtain ⟨sensor, listed, -⟩ := ((all made).sensors _ _).mpr ⟨disabledStatus, List.mem_cons_self, rfl, rfl⟩
    exact ⟨sensor, listed⟩
  · intro right
    obtain ⟨t, made, tables⟩ := right [disabledStatus] (by decide) (by decide)
    have enabled := enabled_of_tables (by decide) (all made) tables disabledStatus List.mem_cons_self
    cases enabled

end VirtueSensing.WinVirtue
