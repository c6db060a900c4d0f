import Mathlib.Data.List.Forall2
import VirtueSensing.Shared.Lists
import VirtueSensing.WinVirtue.EventDecoder

set_option autoImplicit false

/-!
# The identity of a sensor

The sixteen bytes of a probe's GUID on their way through an event, an enumeration and a command:
`SensorStatus.build`, `EnumerateSensors`, `EnableProbe`, `DisableProbe` and `ConfigureSensor` of
`ntfltmgr.py`.
-/

namespace VirtueSensing.WinVirtue

open CLayout Driver Integers

-- A `UUID` of the driver in memory.
def guidBytes (id : Uuid) : Bytes := littleEndian 16 id.toNat

-- The attributes without `SensorAttributeFlags.`, which `build` cuts off.
def sensorAttributeFlags (value : Nat) : Option Text :=
  if value % 2 = 1 ∨ 32 ≤ value then none
  else if value = 0 then some "NoAttributes".toList
  else
    let names := [(4, "DynamicSensor"), (3, "EnabledAtStart"), (2, "Temporal"), (1, "RealTime")]
    some ("|".intercalate ((names.filter fun bit => value.testBit bit.1).map Prod.snd)).toList

structure SensorStatus where
  sensorId : UUID
  lastRunTime : Int
  runInterval : Int
  operationCount : Int
  attributes : Text
  -- `str(bool(...))`
  enabled : Text
  sensorName : Text
  deriving DecidableEq

def SensorStatus.build (msgPkt : Bytes) : Option SensorStatus := do
  let r := Record.probeStatus
  let slc ← fromBuffer (msgPkt ++ [0]) (field r [.sensorName]).offset maxSensorNameSz
  let sensorName ← (slc.filter (· ≠ 0)).mapM chr
  let sensorId ← UUID.ofBytes (contents r [.sensorId, .data] msgPkt)
  let attributes ← sensorAttributeFlags (little (contents r [.attributes] msgPkt))
  return {
    sensorId := sensorId
    lastRunTime := signed (contents r [.lastRunTime] msgPkt)
    runInterval := signed (contents r [.runInterval] msgPkt)
    operationCount := signed (contents r [.operationCount] msgPkt)
    attributes := attributes
    enabled := (if little (contents r [.enabled] msgPkt) ≠ 0 then "True" else "False").toList
    sensorName := sensorName }

def enumerateSensors (rspBuf : Bytes) : Option (List SensorStatus) :=
  let cnt := little (contents .probeStatusHeader [.numberOfEntries] rspBuf)
  let sb := rspBuf.drop Record.probeStatusHeader.user.size ++ [0]
  let length := Record.probeStatus.user.size
  (List.range cnt).mapM fun ndx => (fromBuffer sb (ndx * length) length).bind SensorStatus.build

/-- A `ProbeStatus` as the driver fills it in. -/
def statusWrites (status : ProbeStatus) : List (Assignment .probeStatus) :=
  let r := Record.probeStatus
  [r.put [.probeId] status.probeId.toNat, r.put [.enabled] status.enabled.toNat,
    r.put [.attributes] status.attributes.toNat, r.put [.lastRunTime] status.lastRunTime.toNat,
    r.put [.operationCount] status.operationCount.toNat,
    r.put [.runInterval] status.runInterval.toNat,
    r.fill [.probeName] status.probeName]

def statusBytes (status : ProbeStatus) : Bytes :=
  Record.probeStatus.image (zeroBytes probeStatusSize) (statusWrites status)

-- The reply of `onEnumerateProbes` for the entries of `.success`.
def replyBytes (numberOfEntries : Nat) (entries : List ProbeStatus) : Bytes :=
  littleEndian probeStatusHeaderSize numberOfEntries ++ entries.flatMap statusBytes

def store (path : List FieldName) (bytes : Bytes) : Write :=
  ⟨(field .commandMessage path).offset, bytes⟩

-- `EnableProbe` and `DisableProbe`, up to the number of the command.
def probeCommand (command : Nat) (sensorId : UUID) : Bytes :=
  runWrites (zeroBytes Record.commandMessage.user.size)
    [store [.command] (littleEndian 4 command), store [.dataSz] (littleEndian 8 0),
      store [.sensorId, .data] sensorId.bytes]

def enableProbe (sensorId : UUID) : Bytes := probeCommand 0x1 sensorId

def disableProbe (sensorId : UUID) : Bytes := probeCommand 0x2 sensorId

/-- The length is that of the text, and so many of its bytes are moved. -/
def configureSensor (cfgdata : Text) (sensorId : UUID) : Option Bytes :=
  let length := cfgdata.length
  if length = 0 then none
  else
    some (runWrites (zeroBytes (Record.commandMessage.user.size + length))
      [store [.command] (littleEndian 4 0x6), store [.sensorId, .data] sensorId.bytes,
        store [.dataSz] (littleEndian 8 length),
        store [.data] ((Utf8.encode cfgdata).take length)])

-- A `PROBE_DATA_HEADER` at the front of the packet has the id.
def Carries (packet : Bytes) (id : Uuid) : Prop :=
  load packet (Record.probeDataHeader.place [.probeId] (by decide)).offset 16 = guidBytes id

instance (packet : Bytes) (id : Uuid) : Decidable (Carries packet id) :=
  inferInstanceAs (Decidable (_ = _))

-- A `COMMAND_MESSAGE` is directed towards the probe with the id.
def DirectedTo (cmdBuf : Bytes) (id : Uuid) : Prop :=
  load cmdBuf (Record.commandMessage.place [.probeId] (by decide)).offset 16 = guidBytes id

/-- An enumerated sensor stands for the probe with the id, in events and in commands. -/
structure Identified (id : Uuid) (sensor : SensorStatus) : Prop where
  header : ∀ packet pdh, Carries packet id → getSensorDataHeader packet = some pdh →
    pdh.sensorId = sensor.sensorId.str
  event : ∀ packet evt, Carries packet id → packetDecodeHeader packet = some (some evt) →
    evt.lookup "sensor_id" = some (.text sensor.sensorId.str)
  enable : DirectedTo (enableProbe sensor.sensorId) id
  disable : DirectedTo (disableProbe sensor.sensorId) id
  configure : ∀ cfgdata cmdBuf, configureSensor cfgdata sensor.sensorId = some cmdBuf →
    DirectedTo cmdBuf id

theorem length_guidBytes (id : Uuid) : (guidBytes id).length = 16 := length_littleEndian _ _

theorem guidBytes_inj {id other : Uuid} : guidBytes id = guidBytes other ↔ id = other :=
  (littleEndian_inj id.isLt other.isLt).trans BitVec.toNat_inj

theorem exists_guidBytes {bytes : Bytes} (sized : bytes.length = 16) :
    ∃ id : Uuid, bytes = guidBytes id := by
  have bound : little bytes < 2 ^ 128 := by
    have below := unsigned_lt bytes.reverse
    rw [List.length_reverse, sized] at below
    exact below
  refine ⟨BitVec.ofNat 128 (little bytes), ?_⟩
  have whole := bigEndian_unsigned bytes.reverse
  rw [List.length_reverse, sized] at whole
  rw [guidBytes, BitVec.toNat_ofNat, Nat.mod_eq_of_lt bound, littleEndian, little, whole,
    List.reverse_reverse]

/-- The id that user space makes of a GUID. -/
def uuidOf (id : Uuid) : UUID :=
  ⟨Dissect.unsigned (guidBytes id), by
    have below := unsigned_lt (guidBytes id)
    rwa [length_guidBytes] at below⟩

theorem ofBytes_guidBytes (id : Uuid) : UUID.ofBytes (guidBytes id) = some (uuidOf id) :=
  dif_pos (length_guidBytes id)

theorem bytes_uuidOf (id : Uuid) : (uuidOf id).bytes = guidBytes id := by
  have whole := bigEndian_unsigned (guidBytes id)
  rwa [length_guidBytes] at whole

theorem uuidOf_inj {id other : Uuid} : uuidOf id = uuidOf other ↔ id = other := by
  constructor
  · intro same
    rw [← guidBytes_inj, ← bytes_uuidOf, same, bytes_uuidOf]
  · exact fun same => same ▸ rfl

namespace UUID

theorem ext_int {u v : UUID} (same : u.int = v.int) : u = v := by
  cases u
  cases v
  cases same
  rfl

theorem split_hex (hex : Text) :
    hex.take 8 ++ ((hex.drop 8).take 4 ++ ((hex.drop 12).take 4 ++ ((hex.drop 16).take 4 ++
      hex.drop 20))) = hex := by
  have fourth := List.take_append_drop 4 (hex.drop 16)
  have third := List.take_append_drop 4 (hex.drop 12)
  have second := List.take_append_drop 4 (hex.drop 8)
  rw [List.drop_drop] at fourth third second
  rw [fourth, third, second, List.take_append_drop]

theorem str_inj {u v : UUID} : u.str = v.str ↔ u = v := by
  constructor
  · intro same
    have lengthU : u.hex.length = 32 := length_hexDigits 32 u.int
    have lengthV : v.hex.length = 32 := length_hexDigits 32 v.int
    unfold str at same
    obtain ⟨first, same⟩ := List.append_inj same (by simp [lengthU, lengthV])
    obtain ⟨second, same⟩ := List.append_inj (List.cons.inj same).2 (by simp [lengthU, lengthV])
    obtain ⟨third, same⟩ := List.append_inj (List.cons.inj same).2 (by simp [lengthU, lengthV])
    obtain ⟨fourth, same⟩ := List.append_inj (List.cons.inj same).2 (by simp [lengthU, lengthV])
    have hex : u.hex = v.hex := by
      rw [← split_hex u.hex, ← split_hex v.hex, first, second, third, fourth, (List.cons.inj same).2]
    exact ext_int ((hexDigits_inj u.inRange v.inRange).mp hex)
  · exact fun same => same ▸ rfl

end UUID

example : String.ofList (uuidOf 0xffeeddccbbaa99887766554433221100).str =
    "00112233-4455-6677-8899-aabbccddeeff" := by
  decide

theorem contents_header (packet : Bytes) :
    contents .probeDataHeader [.sensorId, .data] packet =
      load packet (Record.probeDataHeader.place [.probeId] (by decide)).offset 16 := by
  have offset : (field .probeDataHeader [.sensorId, .data]).offset =
      (Record.probeDataHeader.place [.probeId] (by decide)).offset := by decide
  have size : (field .probeDataHeader [.sensorId, .data]).size = 16 := by decide
  rw [contents, offset, size]

theorem contents_of_carries {packet : Bytes} {id : Uuid} (carries : Carries packet id) :
    contents .probeDataHeader [.sensorId, .data] packet = guidBytes id :=
  (contents_header packet).trans carries

theorem lookup_sensorId {type : SensorType} {r : Record} (recorded : type.record = some r) :
    (namedTuple r).lookup "sensor_id" = some .sensorId := by
  cases type <;> first | (cases recorded; rfl) | cases recorded

theorem sensorId_of_header {packet : Bytes} {pdh : SensorDataHeader}
    (read : getSensorDataHeader packet = some pdh) :
    pdh.packet = packet ∧ ∃ u, UUID.ofBytes (contents .probeDataHeader [.sensorId, .data] packet) =
      some u ∧ pdh.sensorId = u.str := by
  unfold getSensorDataHeader at read
  obtain ⟨u, known, read⟩ := Option.bind_eq_some_iff.mp read
  obtain ⟨type, -, rest⟩ := Option.bind_eq_some_iff.mp read
  obtain rfl := Option.some.inj rest
  exact ⟨rfl, u, known, rfl⟩

theorem sensorId_of_event {packet : Bytes} {evt : Event}
    (decoded : packetDecodeHeader packet = some (some evt)) :
    ∃ u, UUID.ofBytes (contents .probeDataHeader [.sensorId, .data] packet) = some u ∧
      evt.lookup "sensor_id" = some (.text u.str) := by
  unfold packetDecodeHeader at decoded
  obtain ⟨pdh, read, decoded⟩ := Option.bind_eq_some_iff.mp decoded
  obtain ⟨same, u, known, -⟩ := sensorId_of_header read
  cases recorded : pdh.sensorType.record with
  | none =>
    rw [recorded] at decoded
    exact absurd (Option.some.inj decoded) nofun
  | some r =>
    rw [recorded] at decoded
    obtain ⟨built, made, whole⟩ := Option.map_eq_some_iff.mp decoded
    obtain rfl := Option.some.inj whole
    obtain ⟨string, -, fields⟩ := Option.bind_eq_some_iff.mp made
    refine ⟨u, known, ?_⟩
    rw [lookup_asdict fields, lookup_sensorId recorded, Option.bind_some, Source.value,
      contents_of_header recorded List.mem_cons_self, same, known]
    rfl

theorem lookup_of_carries {packet : Bytes} {id : Uuid} {evt : Event} (carries : Carries packet id)
    (decoded : packetDecodeHeader packet = some (some evt)) :
    evt.lookup "sensor_id" = some (.text (uuidOf id).str) := by
  obtain ⟨u, known, named⟩ := sensorId_of_event decoded
  rw [contents_of_carries carries, ofBytes_guidBytes] at known
  rw [named, ← Option.some.inj known]

theorem carries_of_event {packet : Bytes} {evt : Event}
    (decoded : packetDecodeHeader packet = some (some evt)) : ∃ id, Carries packet id := by
  obtain ⟨u, known, -⟩ := sensorId_of_event decoded
  have sized : (contents .probeDataHeader [.sensorId, .data] packet).length = 16 := by
    by_contra short
    rw [UUID.ofBytes, dif_neg short] at known
    exact absurd known nofun
  obtain ⟨id, same⟩ := exists_guidBytes sized
  exact ⟨id, (contents_header packet).symm.trans same⟩

theorem size_probeStatus : Record.probeStatus.driver.size = probeStatusSize := by decide

theorem inside_status (status : ProbeStatus) :
    Inside (statusWrites status) (zeroBytes probeStatusSize).length := by
  intro a _
  have stop := a.stop_le rfl
  rw [size_probeStatus] at stop
  rw [zeroBytes, List.length_replicate]
  simpa [Write.Inside, Write.stop, Assignment.write] using stop

theorem length_statusBytes (status : ProbeStatus) :
    (statusBytes status).length = probeStatusSize := by
  rw [statusBytes, length_image (inside_status status), zeroBytes, List.length_replicate]

theorem apart_status (status : ProbeStatus) : Apart (statusWrites status) := by
  change List.Pairwise Unrelated [[.probeId], [.enabled], [.attributes], [.lastRunTime],
    [.operationCount], [.runInterval], [.probeName]]
  decide

theorem contents_sensorId (status : ProbeStatus) :
    contents .probeStatus [.sensorId, .data] (statusBytes status) = guidBytes status.probeId := by
  have size : (Record.probeStatus.place [.probeId] (by decide)).size = 16 := by
    decide
  rw [statusBytes, contents_image (apart_status status) (inside_status status) List.mem_cons_self
    (by decide) (by rw [Record.path_put]; decide) (by decide)]
  exact congrArg (littleEndian · _) size

theorem sensorId_of_status {status : ProbeStatus} {sensor : SensorStatus}
    (built : SensorStatus.build (statusBytes status) = some sensor) :
    sensor.sensorId = uuidOf status.probeId := by
  unfold SensorStatus.build at built
  obtain ⟨slc, -, built⟩ := Option.bind_eq_some_iff.mp built
  obtain ⟨name, -, built⟩ := Option.bind_eq_some_iff.mp built
  obtain ⟨u, known, built⟩ := Option.bind_eq_some_iff.mp built
  obtain ⟨attributes, -, rest⟩ := Option.bind_eq_some_iff.mp built
  obtain rfl := Option.some.inj rest
  rw [contents_sensorId, ofBytes_guidBytes] at known
  exact (Option.some.inj known).symm

theorem length_entries {r : Registry} {length : UInt32} {allocated : Bool} {n : Nat}
    {entries : List ProbeStatus}
    (replied : onEnumerateProbes r length allocated = .success n entries) :
    entries.length = n ∧ n < 2 ^ 32 := by
  simp only [onEnumerateProbes] at replied
  split_ifs at replied
  obtain ⟨rfl, rfl⟩ := Driver.Enumeration.success.inj replied
  refine ⟨?_, r.probeCount.isLt⟩
  rw [List.length_append, List.length_map, List.length_replicate]
  omega

theorem userEntry_replyBytes (n : Nat) (entries : List ProbeStatus) {ndx : Nat}
    (within : ndx < entries.length) :
    fromBuffer ((replyBytes n entries).drop Record.probeStatusHeader.user.size ++ [0])
      (ndx * Record.probeStatus.user.size) Record.probeStatus.user.size =
        some (statusBytes entries[ndx]) := by
  have header : Record.probeStatusHeader.user.size = probeStatusHeaderSize := by decide
  have entry : Record.probeStatus.user.size = probeStatusSize := by decide
  have slice := Lists.flatMap_slice length_statusBytes entries [0] within
  rw [header, entry, replyBytes, List.drop_left' (length_littleEndian _ _), fromBuffer, load,
    Int.toNat_natCast, slice]
  exact if_pos (congrArg Nat.cast (length_statusBytes _))

theorem enumerateSensors_replyBytes {n : Nat} {entries : List ProbeStatus}
    (counted : entries.length = n) (fits : n < 2 ^ 32) {sensors : List SensorStatus} :
    enumerateSensors (replyBytes n entries) = some sensors ↔
      List.Forall₂ (fun status sensor => SensorStatus.build (statusBytes status) = some sensor)
        entries sensors := by
  have cnt : little (contents .probeStatusHeader [.numberOfEntries] (replyBytes n entries)) = n := by
    have offset : (field .probeStatusHeader [.numberOfEntries]).offset = 0 := by decide
    have size : (field .probeStatusHeader [.numberOfEntries]).size = 4 := by decide
    have first : (littleEndian probeStatusHeaderSize n ++ entries.flatMap statusBytes).take
        probeStatusHeaderSize = littleEndian probeStatusHeaderSize n :=
      List.take_left' (length_littleEndian _ _)
    rw [contents, offset, size, load, List.drop_zero, replyBytes]
    exact (congrArg little first).trans (little_littleEndian fits)
  -- The entry that is cut out for an index is the one of the driver.
  have cut {ndx : Nat} (here : ndx < entries.length) : _ := userEntry_replyBytes n entries here
  have sized : (List.range n).length = entries.length := by rw [List.length_range, counted]
  unfold enumerateSensors
  simp only [cnt]
  rw [Lists.mapM_eq_some, List.forall₂_iff_get, List.forall₂_iff_get]
  refine and_congr (by rw [sized]) ⟨fun each ndx here there => ?_, fun each ndx here there => ?_⟩
  · have built := each ndx (sized ▸ here) there
    simp only [List.get_eq_getElem, List.getElem_range] at built
    rwa [cut here, Option.bind_some] at built
  · have inside : ndx < entries.length := sized ▸ here
    simp only [List.get_eq_getElem, List.getElem_range]
    rw [cut inside, Option.bind_some]
    exact each ndx inside there

structure CommandOffsets : Prop where
  command : (field .commandMessage [.command]).offset = 0
  sensorId : (field .commandMessage [.sensorId, .data]).offset = 4
  dataSz : (field .commandMessage [.dataSz]).offset = 24
  data : (field .commandMessage [.data]).offset = 32
  probeId : (Record.commandMessage.place [.probeId] (by decide)).offset = 4
  size : Record.commandMessage.user.size = 40

theorem commandOffsets : CommandOffsets := by
  constructor <;> decide

theorem length_bytes (u : UUID) : u.bytes.length = 16 := Dissect.length_bigEndian _ _

theorem directedTo_of_stored {length : Nat} {before after : List Write} {id : Uuid}
    (inside : ∀ w ∈ before ++ store [.sensorId, .data] (uuidOf id).bytes :: after, w.Inside length)
    (behind : ∀ w ∈ after, 20 ≤ w.offset) :
    DirectedTo (runWrites (zeroBytes length)
      (before ++ store [.sensorId, .data] (uuidOf id).bytes :: after)) id := by
  have offsets := commandOffsets
  have inside : ∀ w ∈ before ++ store [.sensorId, .data] (uuidOf id).bytes :: after,
      w.Inside (zeroBytes length).length := by
    rwa [zeroBytes, List.length_replicate]
  have apart : ∀ w ∈ after, w.Apart (store [.sensorId, .data] (uuidOf id).bytes) := by
    intro w last
    have later := behind w last
    right
    simp only [Write.stop, store, offsets.sensorId, length_bytes]
    exact later
  have stored := load_runWrites inside apart
  rw [bytes_uuidOf] at stored ⊢
  rw [DirectedTo, offsets.probeId, ← offsets.sensorId]
  exact length_guidBytes id ▸ stored

theorem directedTo_probeCommand (command : Nat) (id : Uuid) :
    DirectedTo (probeCommand command (uuidOf id)) id := by
  have offsets := commandOffsets
  refine @directedTo_of_stored _ [_, _] [] id ?_ nofun
  simp [Write.Inside, Write.stop, store, offsets.command, offsets.sensorId, offsets.dataSz,
    offsets.size, length_bytes]

theorem directedTo_configureSensor {cfgdata : Text} {id : Uuid} {cmdBuf : Bytes}
    (made : configureSensor cfgdata (uuidOf id) = some cmdBuf) : DirectedTo cmdBuf id := by
  have offsets := commandOffsets
  unfold configureSensor at made
  by_cases nothing : cfgdata.length = 0
  · rw [if_pos nothing] at made
    exact absurd made nofun
  · rw [if_neg nothing] at made
    obtain rfl := Option.some.inj made
    refine @directedTo_of_stored _ [_] [_, _] id ?_ ?_
    · simp [Write.Inside, Write.stop, store, offsets.command, offsets.sensorId, offsets.dataSz,
        offsets.data, offsets.size, length_bytes]
      omega
    · simp [store, offsets.dataSz, offsets.data]

theorem identified_of_build {status : ProbeStatus} {sensor : SensorStatus}
    (built : SensorStatus.build (statusBytes status) = some sensor) :
    Identified status.probeId sensor := by
  have id := sensorId_of_status built
  constructor
  case header =>
    intro packet pdh carries read
    obtain ⟨-, u, known, same⟩ := sensorId_of_header read
    rw [contents_of_carries carries, ofBytes_guidBytes] at known
    rw [same, id, ← Option.some.inj known]
  case event =>
    intro packet evt carries decoded
    rw [id]
    exact lookup_of_carries carries decoded
  case enable => exact id ▸ directedTo_probeCommand _ _
  case disable => exact id ▸ directedTo_probeCommand _ _
  case configure =>
    intro cfgdata cmdBuf made
    exact directedTo_configureSensor (id ▸ made)

end VirtueSensing.WinVirtue
