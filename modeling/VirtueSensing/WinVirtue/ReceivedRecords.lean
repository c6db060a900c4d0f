import VirtueSensing.Driver.EventRecords
import VirtueSensing.WinVirtue.DecodedStrings

set_option autoImplicit false

/-!
# Records in user space

The message that `FilterGetMessage` takes of a record with a string, and what the decoder reads from
it.
-/

namespace VirtueSensing.WinVirtue

open CLayout Driver Integers

-- `MAXPKTSZ` without the `FILTER_MESSAGE_HEADER`.
def messageRoom : Nat := 0x10000 - 16

/-- What the filter manager makes of a message for a buffer with so much room. -/
structure FilterPort where
  deliver : Nat → Bytes → Option Bytes
  fits : ∀ room message, message.length ≤ room → deliver room message = some message
  exceeds : ∀ room message, room < message.length → deliver room message = none

-- The buffer is clear before, and all of it behind the header is the packet.
def filterGetMessage (port : FilterPort) (record : Bytes) : Option Bytes :=
  (port.deliver messageRoom record).map fun message =>
    message ++ zeroBytes (messageRoom - message.length)

/-- User space finds the header, the length and the string of a record where the driver has them. -/
structure Understood {r : Record} (place : Place r) (type : ProbeType) (sensor : SensorType) :
    Prop where
  number : SensorType.ofNumber type.number = some sensor
  recorded : sensor.record = some r
  sensorType : knows r [.header, .sensorType] ∧ ¬ r.Trailing [.header, .sensorType] ∧
    (r.place [.probeDataHeader, .probeType] place.header.1).size = 2
  dataSz : knows r [.header, .dataSz] ∧ ¬ r.Trailing [.header, .dataSz] ∧
    (r.place [.probeDataHeader, .dataSz] place.header.2.1).size = 2
  sensorId : (field r [.header, .sensorId, .data]).offset +
      (field r [.header, .sensorId, .data]).size ≤ messageRoom ∧
    (field r [.header, .sensorId, .data]).size = 16
  length : knows r [place.length] ∧ [place.length] ∈ counterparts [place.length] ∧
    ¬ r.Trailing [place.length] ∧ (r.place [place.length] place.counts).size = 2
  array : knows r [place.array] ∧ [place.array] ∈ counterparts [place.array] ∧
    (field r [place.array]).offset = place.offset

-- The packet of a record, where the message has room for it.
def received (r : Record) (buffer : Bytes) (writes : List (Assignment r)) : Bytes :=
  r.image (buffer ++ zeroBytes (messageRoom - buffer.length)) writes

section Received

variable {r : Record} {buffer : Bytes} {writes : List (Assignment r)}

theorem length_padded (fits : buffer.length ≤ messageRoom) :
    (buffer ++ zeroBytes (messageRoom - buffer.length)).length = messageRoom := by
  rw [List.length_append, zeroBytes, List.length_replicate]
  omega

theorem inside_padded (inside : Inside writes buffer.length) :
    Inside writes (buffer ++ zeroBytes (messageRoom - buffer.length)).length := by
  intro a member
  rw [List.length_append]
  exact Nat.le_add_right_of_le (inside a member)

theorem filterGetMessage_image (port : FilterPort) (inside : Inside writes buffer.length) :
    filterGetMessage port (r.image buffer writes) =
      if buffer.length ≤ messageRoom then some (received r buffer writes) else none := by
  have length := length_image inside
  unfold filterGetMessage
  split
  · next fits =>
    rw [port.fits _ _ (by omega), Option.map_some, length, ← image_append inside]
    rfl
  · next large =>
    rw [port.exceeds _ _ (by omega), Option.map_none]

end Received

theorem getSensorDataHeader_eq_some {bytes : Bytes} {u : UUID} {sensor : SensorType}
    (id : UUID.ofBytes (contents .probeDataHeader [.sensorId, .data] bytes) = some u)
    (kind : SensorType.ofNumber (little (contents .probeDataHeader [.sensorType] bytes)) =
      some sensor) :
    ∃ pdh, getSensorDataHeader bytes = some pdh ∧ pdh.sensorType = sensor ∧
      pdh.dataSz = little (contents .probeDataHeader [.dataSz] bytes) ∧ pdh.packet = bytes := by
  unfold getSensorDataHeader
  rw [id, Option.bind_eq_bind, Option.bind_some, kind]
  exact ⟨_, rfl, rfl, rfl, rfl⟩

section Reports

variable {r : Record} {place : Place r} {context : Context} {type : ProbeType} {sensor : SensorType}
  {buffer : Bytes} {others : List (Scalar r)} {us : UnicodeString} {count : Nat}

def assignments (place : Place r) (context : Context) (type : ProbeType) (buffer : Bytes)
    (others : List (Scalar r)) (us : UnicodeString) (count : Nat) : List (Assignment r) :=
  reportWrites place (reportScalars place context type buffer.length others count)
    (us.buffer.take count)

def packet (place : Place r) (context : Context) (type : ProbeType) (buffer : Bytes)
    (others : List (Scalar r)) (us : UnicodeString) (count : Nat) : Bytes :=
  received r buffer (assignments place context type buffer others us count)

theorem inside_assignments {total : Nat} (sized : buffer.length = ushortSize total)
    (counted : count ≤ us.maximumLength.toNat) (large : r.driver.size + count ≤ total)
    (small : total < 2 ^ 16 + place.offset + count) :
    Inside (assignments place context type buffer others us count) buffer.length ↔
      total < 2 ^ 16 := by
  have length : (us.buffer.take count).length = count := by
    rw [List.length_take, us.sized]
    exact Nat.min_eq_left counted
  rw [sized]
  exact inside_iff (by rwa [length]) (by rwa [length])

theorem report_received (port : FilterPort) {total : Nat} (sized : buffer.length = ushortSize total)
    (counted : count ≤ us.maximumLength.toNat) (large : r.driver.size + count ≤ total)
    (small : total < 2 ^ 16 + place.offset + count) :
    (Driver.report place context type buffer others us count).bind (filterGetMessage port) =
      if total ≤ messageRoom then some (packet place context type buffer others us count)
      else none := by
  have inside : Inside (assignments place context type buffer others us count) buffer.length ↔
      total < 2 ^ 16 := inside_assignments sized counted large small
  change (if Inside (assignments place context type buffer others us count) buffer.length
    then some (r.image buffer (assignments place context type buffer others us count))
    else none).bind (filterGetMessage port) = _
  by_cases narrow : total < 2 ^ 16
  · have whole : buffer.length = total := sized.trans (Nat.mod_eq_of_lt narrow)
    rw [if_pos (inside.mpr narrow), Option.bind_some, filterGetMessage_image port
      (inside.mpr narrow), whole]
    rfl
  · rw [if_neg (mt inside.mp narrow), if_neg (by unfold messageRoom; omega), Option.bind_none]

/-- What the theorems below assume of a record: it is not longer than a message, no write is outside,
and no field is written twice. -/
structure Sent (place : Place r) (context : Context) (type : ProbeType) (buffer : Bytes)
    (others : List (Scalar r)) (us : UnicodeString) (count : Nat) : Prop where
  distinct : Distinct place (others.map Scalar.path)
  owned : count ≤ us.maximumLength.toNat
  inside : Inside (assignments place context type buffer others us count) buffer.length
  fits : buffer.length ≤ messageRoom

variable (sent : Sent place context type buffer others us count)

namespace Sent

include sent

theorem length_packet : (packet place context type buffer others us count).length = messageRoom := by
  rw [packet, received, length_image (inside_padded sent.inside), length_padded sent.fits]

theorem length_string : (us.buffer.take count).length = count := by
  rw [List.length_take, us.sized]
  exact Nat.min_eq_left sent.owned

theorem stop_le : place.offset + count ≤ buffer.length := by
  have stop := stop_of_inside sent.inside
  rwa [sent.length_string] at stop

theorem little_scalar {s : Scalar r}
    (member : s ∈ reportScalars place context type buffer.length others count)
    {path : List FieldName} (known : knows r path) (counterpart : path ∈ counterparts s.path)
    (inner : ¬ r.Trailing path) (small : s.value < 256 ^ (r.place s.path s.declared).size) :
    little (contents r path (packet place context type buffer others us count)) = s.value :=
  little_put (apart_report sent.distinct) (inside_padded sent.inside)
    (List.mem_append_left _ (List.mem_map_of_mem member)) known counterpart inner small

theorem little_other {path : List FieldName} {value : Nat} {declared : r.declares path}
    (member : r.scalar path value declared ∈ others) (known : knows r path)
    (counterpart : path ∈ counterparts path) (inner : ¬ r.Trailing path)
    (small : value < 256 ^ (r.place path declared).size) :
    little (contents r path (packet place context type buffer others us count)) = value :=
  sent.little_scalar (List.mem_append_left _ (List.mem_append_right _ member)) known counterpart
    inner small

variable (understood : Understood place type sensor)

include understood

theorem sensorId : ∃ u, UUID.ofBytes (contents r [.header, .sensorId, .data]
    (packet place context type buffer others us count)) = some u := by
  obtain ⟨within, sixteen⟩ := understood.sensorId
  refine ⟨_, dif_pos ?_⟩
  rw [contents, length_load, sent.length_packet, sixteen]
  omega

theorem sensorType : SensorType.ofNumber (little (contents r [.header, .sensorType]
    (packet place context type buffer others us count))) = some sensor := by
  obtain ⟨known, inner, two⟩ := understood.sensorType
  have first : r.scalar [.probeDataHeader, .probeType] type.number place.header.1 ∈
      reportScalars place context type buffer.length others count :=
    List.mem_append_left _ (List.mem_append_left _ List.mem_cons_self)
  have small : type.number < 256 ^ 2 := by cases type <;> decide
  have there : [.header, .sensorType] ∈ counterparts [.probeDataHeader, .probeType] := by decide
  rw [sent.little_scalar first known there inner (two.symm ▸ small)]
  exact understood.number

theorem dataSz : little (contents r [.header, .dataSz]
    (packet place context type buffer others us count)) = buffer.length := by
  obtain ⟨known, inner, two⟩ := understood.dataSz
  have second : r.scalar [.probeDataHeader, .dataSz] buffer.length place.header.2.1 ∈
      reportScalars place context type buffer.length others count :=
    List.mem_append_left _ (List.mem_append_left _ (List.mem_cons_of_mem _ List.mem_cons_self))
  have small : buffer.length < 256 ^ 2 := Nat.lt_of_le_of_lt sent.fits (by decide)
  have there : [.header, .dataSz] ∈ counterparts [.probeDataHeader, .dataSz] := by decide
  exact sent.little_scalar second known there inner (two.symm ▸ small)

theorem header : ∃ pdh, getSensorDataHeader (packet place context type buffer others us count) =
      some pdh ∧
    pdh.sensorType = sensor ∧ pdh.dataSz = buffer.length ∧
    pdh.packet = packet place context type buffer others us count := by
  obtain ⟨u, id⟩ := sent.sensorId understood
  have kind := sent.sensorType understood
  have size := sent.dataSz understood
  rw [contents_of_header understood.recorded (by decide)] at id kind size
  obtain ⟨pdh, read, sorted, sized, same⟩ := getSensorDataHeader_eq_some id kind
  exact ⟨pdh, read, sorted, sized.trans size, same⟩

theorem counted_length : little (contents r [place.length]
    (packet place context type buffer others us count)) = count := by
  obtain ⟨known, same, inner, two⟩ := understood.length
  have last : r.scalar [place.length] count place.counts ∈
      reportScalars place context type buffer.length others count :=
    List.mem_append_right _ (List.mem_singleton_self _)
  have small : count < 256 ^ 2 := by
    have bound := us.maximumLength.toNat_lt
    have owned := sent.owned
    omega
  exact sent.little_scalar last known same inner (two.symm ▸ small)

theorem load_string : load (packet place context type buffer others us count)
    (field r [place.array]).offset count = us.buffer.take count := by
  obtain ⟨known, same, -⟩ := understood.array
  have last : r.move place.array (us.buffer.take count) place.holds place.trailing ∈
      assignments place context type buffer others us count :=
    List.mem_append_right _ (List.mem_singleton_self _)
  have loaded := load_image (apart_report sent.distinct) (inside_padded sent.inside) last known
    (by rwa [Record.path_move]) place.trailing
  change load _ _ (us.buffer.take count).length = us.buffer.take count at loaded
  rwa [sent.length_string] at loaded

theorem counted_string (tail : Bytes) :
    counted r place.length place.array
      (packet place context type buffer others us count ++ tail)
      (packet place context type buffer others us count) = some (us.buffer.take count) := by
  have stop := sent.stop_le
  have fits := sent.fits
  have offset := understood.array.2.2
  have front : load (packet place context type buffer others us count ++ tail)
      (field r [place.array]).offset count = us.buffer.take count := by
    rw [← sent.load_string understood, load, load, List.drop_append_of_le_length
      (by rw [sent.length_packet]; omega), List.take_append_of_le_length
      (by rw [List.length_drop, sent.length_packet]; omega)]
  rw [counted, fromBuffer, sent.counted_length understood, Int.toNat_natCast, front,
    sent.length_string, if_pos rfl]

theorem map_decodeString (longer : us.length.toNat ≤ count) {text : Text}
    (plain : Utf16.decode .little us.content = some text) (tail : Bytes) :
    (counted r place.length place.array (packet place context type buffer others us count ++ tail)
      (packet place context type buffer others us count)).map decodeString = some text ↔
        Undamaged (us.buffer.take count) us.content text := by
  have start : us.content <+: us.buffer.take count := List.take_prefix_take_left longer
  rw [sent.counted_string understood, Option.map_some, Option.some_inj]
  exact decodeString_eq_iff start plain

end Sent

/-- The rest of a cleared buffer stays zero behind the string. -/
theorem Sent.load_cleared {size : Nat}
    (sent : Sent place context type (zeroBytes size) others us count) {padding : Nat}
    (within : place.offset + count + padding ≤ size) :
    load (packet place context type (zeroBytes size) others us count) (place.offset + count)
      padding = List.replicate padding 0 := by
  have apart : Apart (assignments place context type (zeroBytes size) others us count) :=
    apart_report sent.distinct
  have behind : ∀ a ∈ assignments place context type (zeroBytes size) others us count,
      (a.write 0).stop ≤ place.offset + count ∨
        place.offset + count + padding ≤ (a.write 0).offset := by
    intro a member
    have stop := stop_le_string apart a member
    rw [sent.length_string] at stop
    exact .inl stop
  rw [packet, received, Record.image, load_runWrites_apart
    (List.forall_mem_map.mpr (inside_padded sent.inside)) (List.forall_mem_map.mpr behind)]
  simp only [load, zeroBytes, List.length_replicate, List.replicate_append_replicate,
    List.drop_replicate, List.take_replicate]
  congr 1
  omega

theorem Sent.fromBuffer_cleared {padding : Nat}
    (sent : Sent place context type (zeroBytes (place.offset + count + padding)) others us count)
    (understood : Understood place type sensor) (tail : Bytes) :
    fromBuffer (packet place context type (zeroBytes (place.offset + count + padding)) others us
      count ++ tail) (field r [place.array]).offset ((count + padding : Nat) : Int) =
        some (us.buffer.take count ++ List.replicate padding 0) := by
  have offset := understood.array.2.2
  have room := sent.fits
  have length := sent.length_packet
  rw [zeroBytes, List.length_replicate] at room
  have front : load (packet place context type (zeroBytes (place.offset + count + padding)) others us
      count ++ tail) place.offset (count + padding) =
        load (packet place context type (zeroBytes (place.offset + count + padding)) others us count)
          place.offset (count + padding) := by
    rw [load, load, List.drop_append_of_le_length (by omega),
      List.take_append_of_le_length (by rw [List.length_drop]; omega)]
  have whole : load (packet place context type (zeroBytes (place.offset + count + padding)) others us
      count) place.offset (count + padding) = us.buffer.take count ++ List.replicate padding 0 := by
    have string := sent.load_string understood
    rw [offset] at string
    rw [load_add, string, sent.load_cleared (Nat.le_refl _)]
  have sized : (us.buffer.take count ++ List.replicate padding (0 : UInt8)).length =
      count + padding := by
    rw [List.length_append, sent.length_string, List.length_replicate]
  rw [fromBuffer, offset, Int.toNat_natCast, front, whole, if_pos (congrArg Nat.cast sized)]

end Reports

end VirtueSensing.WinVirtue
