import VirtueSensing.Driver.CommandBuffers
import VirtueSensing.WinVirtue.SensorIdentity

set_option autoImplicit false

/-!
# The text of a configuration command

What `ConfigureSensor` and `COMMAND_MESSAGE.build` of `ntfltmgr.py` put into a command message, and what
`OnConfigureProbe` finds there.
-/

namespace VirtueSensing.WinVirtue

open CLayout Driver Integers

inductive CtypesObject where
  | array
  | pointer
  | struct
  | union
  deriving DecidableEq, Repr

/-- Whether `c_void_p` takes it for an argument, as `memmove` asks. -/
def CtypesObject.isAddress : CtypesObject → Bool
  | array | pointer => true
  | struct | union => false

inductive PyError where
  | argumentError
  | valueError
  deriving DecidableEq, Repr

/-- `memmove` to the place of the write, for which `target` stands. -/
def memmove (target : CtypesObject) (sb : Bytes) (w : Write) : Except PyError Bytes :=
  if target.isAddress then .ok (w.run sb) else .error .argumentError

/-- `sb[start:stop] = data`, which keeps the length of the array. -/
def setSlice (sb : Bytes) (start stop : Nat) (data : Bytes) : Except PyError Bytes :=
  let stop := min stop sb.length
  if data.length = stop - start then .ok ((Write.mk start data).run sb) else .error .valueError

structure GetCommandMessage where
  command : Nat
  sensorId : Bytes
  dataSz : Nat
  data : Bytes
  deriving DecidableEq, Repr

/-- `COMMAND_MESSAGE.build`, with what stands in front of `sensor_id.bytes` in the call of `memmove`. -/
def CommandMessage.buildTo (target : CtypesObject) (cmd : Nat) (sensorId : UUID) (data : Bytes) :
    Except PyError GetCommandMessage := do
  let r := Record.commandMessage
  let sb := zeroBytes (r.user.size + data.length - 1)
  let sb := (store [.command] (littleEndian 4 cmd)).run sb
  let sb ← memmove target sb (store [.sensorId, .data] sensorId.bytes)
  let sb := (store [.dataSz] (littleEndian 8 data.length)).run sb
  let length := little (contents r [.dataSz] sb)
  let sb ← if 0 < length then setSlice sb (field r [.data]).offset length data else .ok sb
  return ⟨little (contents r [.command] sb), contents r [.sensorId, .data] sb, length, sb⟩

-- `info.contents.sensor_id` is a `_UUID`, which is a union.
def CommandMessage.build (cmd : Nat) (sensorId : UUID) (data : Bytes) : Except PyError GetCommandMessage :=
  buildTo .union cmd sensorId data

def ansiBytes (m : Memory) (s : AnsiString) : Bytes := m.bytesAt s.buffer s.length

/-- `OnConfigureProbe` gets the bytes of the text. -/
def ConfigDelivered (cfgdata : Text) (cmdBuf : Bytes) : Prop :=
  ∀ m : Memory, m.Reads 0 cmdBuf → ∃ probeId configData,
    onCommandMessage .x64 ⟨some m, cmdBuf.length⟩ = .configureProbe probeId configData ∧
      ansiBytes m configData = Utf8.encode cfgdata

/-- The message has the data behind its header, and its size. -/
def CarriesData (data : Bytes) (msg : GetCommandMessage) : Prop :=
  load msg.data (field .commandMessage [.data]).offset msg.dataSz = data

section Building

variable {target : CtypesObject} {cmd : Nat} {sensorId : UUID} {data : Bytes}

-- The slice from the data's offset to its size is never as long as the data.
theorem setSlice_refused {sb : Bytes} {start stop : Nat} (behind : 0 < start) (some : data ≠ [])
    (within : stop ≤ data.length) : setSlice sb start stop data = .error .valueError := by
  have size := List.length_pos_of_ne_nil some
  exact if_neg (by omega)

theorem dataSz_size : (field .commandMessage [.dataSz]).size = 8 := by decide

theorem contents_dataSz {sb : Bytes} (room : 32 ≤ sb.length) (n : Nat) :
    little (contents .commandMessage [.dataSz] ((store [.dataSz] (littleEndian 8 n)).run sb)) =
      n % 256 ^ 8 := by
  have inside : (store [.dataSz] (littleEndian 8 n)).stop ≤ sb.length := by
    simpa [Write.stop, store, commandOffsets.dataSz] using room
  have stored := load_run_same inside
  rw [contents, dataSz_size, ← little_littleEndian_mod]
  exact congrArg little ((length_littleEndian 8 n) ▸ stored)

theorem header_length (size : Nat) (room : 39 ≤ size) :
    ((store [.sensorId, .data] sensorId.bytes).run
      ((store [.command] (littleEndian 4 cmd)).run (zeroBytes size))).length = size := by
  have offsets := commandOffsets
  have inside : ∀ w ∈ [store [.command] (littleEndian 4 cmd), store [.sensorId, .data] sensorId.bytes],
      w.Inside (zeroBytes size).length := by
    simp [Write.Inside, Write.stop, store, offsets.command, offsets.sensorId, zeroBytes, length_bytes]
    omega
  exact (length_runWrites inside).trans List.length_replicate

theorem CommandMessage.buildTo_carries :
    (∃ msg, buildTo target cmd sensorId data = .ok msg ∧ CarriesData data msg) ↔
      target.isAddress ∧ data = [] := by
  have offsets := commandOffsets
  unfold buildTo memmove
  by_cases address : target.isAddress
  · have room : 39 ≤ Record.commandMessage.user.size + data.length - 1 := by
      rw [offsets.size]
      omega
    have header := @header_length cmd sensorId _ room
    have size := contents_dataSz (Nat.le_trans (Nat.le_trans (by decide) room) header.ge) data.length
    simp only [address, if_true, Except.ok_bind, size, true_and]
    by_cases nothing : data = []
    · subst nothing
      exact iff_of_true ⟨_, rfl, rfl⟩ rfl
    · refine iff_of_false ?_ nothing
      rintro ⟨msg, built, carries⟩
      split_ifs at built with positive
      · rw [setSlice_refused (by rw [offsets.data]; omega) nothing (Nat.mod_le _ _)] at built
        cases built
      · -- A size that is a multiple of 2^64 arrives as zero.
        obtain rfl := Except.ok.inj built
        have none : load _ _ (data.length % 256 ^ 8) = data := carries
        have sizes := congrArg List.length none
        rw [length_load] at sizes
        have some := List.length_pos_of_ne_nil nothing
        omega
  · simp [address, Bind.bind, Except.bind]

end Building

section Configuring

variable {cfgdata : Text} {sensorId : UUID} {cmdBuf : Bytes} {m : Memory}

structure ConfigBuffer (cfgdata : Text) (cmdBuf : Bytes) : Prop where
  length : cmdBuf.length = 40 + cfgdata.length
  command : load cmdBuf 0 4 = littleEndian 4 6
  dataSz : load cmdBuf 24 8 = littleEndian 8 cfgdata.length
  data : load cmdBuf 32 cfgdata.length = (Utf8.encode cfgdata).take cfgdata.length

-- The size, the number and the text at their places, in the order of `ConfigureSensor`.
def configWrites (cfgdata : Text) (sensorId : UUID) : List Write :=
  [store [.command] (littleEndian 4 0x6), store [.sensorId, .data] sensorId.bytes,
    store [.dataSz] (littleEndian 8 cfgdata.length),
    store [.data] ((Utf8.encode cfgdata).take cfgdata.length)]

theorem configureSensor_eq (cfgdata : Text) (sensorId : UUID) :
    configureSensor cfgdata sensorId =
      if cfgdata.length = 0 then none
      else some (runWrites (zeroBytes (Record.commandMessage.user.size + cfgdata.length))
        (configWrites cfgdata sensorId)) := rfl

theorem configWrites_inside : ∀ w ∈ configWrites cfgdata sensorId,
    w.Inside (zeroBytes (Record.commandMessage.user.size + cfgdata.length)).length := by
  have offsets := commandOffsets
  simp [configWrites, Write.Inside, Write.stop, store, offsets.command, offsets.sensorId, offsets.dataSz,
    offsets.data, offsets.size, zeroBytes, length_bytes]
  omega

theorem configureSensor_buffer (made : configureSensor cfgdata sensorId = some cmdBuf) :
    ConfigBuffer cfgdata cmdBuf := by
  have offsets := commandOffsets
  have few := (Utf8.length_encode cfgdata).1
  have inside := @configWrites_inside cfgdata sensorId
  rw [configureSensor_eq] at made
  split_ifs at made with nothing
  obtain rfl := Option.some.inj made
  constructor
  case length =>
    have whole := length_runWrites inside
    rwa [zeroBytes, List.length_replicate, offsets.size] at whole
  case command =>
    have stored := @load_runWrites [] _ _ _ inside (by
      simp [Write.Apart, Write.stop, store, offsets.command, offsets.sensorId, offsets.dataSz,
        offsets.data])
    exact stored
  case dataSz =>
    have stored := @load_runWrites [_, _] _ _ _ inside (by
      simp [Write.Apart, Write.stop, store, offsets.dataSz, offsets.data])
    exact stored
  case data =>
    have stored := @load_runWrites [_, _, _] [] _ _ inside
      fun _ member => absurd member List.not_mem_nil
    have size : (store [.data] ((Utf8.encode cfgdata).take cfgdata.length)).bytes.length =
        cfgdata.length := List.length_take_of_le few
    rw [size] at stored
    exact stored

theorem readMember_load {name : FieldName} (reads : m.Reads 0 cmdBuf)
    (inside : (member .x64 name).offset + (member .x64 name).size ≤ cmdBuf.length) :
    readMember .x64 m name = little (load cmdBuf (member .x64 name).offset (member .x64 name).size) :=
  congrArg little (reads.bytesAt inside)

theorem onCommandMessage_config (buffer : ConfigBuffer cfgdata cmdBuf) (reads : m.Reads 0 cmdBuf) :
    ∃ probeId, onCommandMessage .x64 ⟨some m, cmdBuf.length⟩ =
      .configureProbe probeId ⟨ushortSize cfgdata.length, ushortSize cfgdata.length, 32⟩ := by
  have length := buffer.length
  have command : readMember .x64 m .command = 6 := by
    rw [@readMember_load _ _ .command reads (show 0 + 4 ≤ cmdBuf.length by omega)]
    exact (congrArg little buffer.command).trans (by decide)
  have size : ushortSize (readMember .x64 m .dataSz) = ushortSize cfgdata.length := by
    rw [@readMember_load _ _ .dataSz reads (show 24 + 8 ≤ cmdBuf.length by omega)]
    refine (congrArg (fun bytes => ushortSize (little bytes)) buffer.dataSz).trans ?_
    rw [little_littleEndian_mod]
    exact Nat.mod_mod_of_dvd _ (by decide)
  refine ⟨readProbeId .x64 m, ?_⟩
  rw [onCommandMessage_some rfl, command]
  change Dispatch.configureProbe _ ⟨ushortSize (readMember .x64 m .dataSz), _, 32⟩ = _
  rw [size]

theorem configDelivered_iff (buffer : ConfigBuffer cfgdata cmdBuf) :
    ConfigDelivered cfgdata cmdBuf ↔ (∀ c ∈ cfgdata, c.toNat < 128) ∧ FitsUshort cfgdata.length := by
  obtain ⟨few, ascii⟩ := Utf8.length_encode cfgdata
  have length := buffer.length
  have cut : ushortSize cfgdata.length ≤ cfgdata.length := Nat.mod_le _ _
  rw [← ascii, ← ushortSize_eq_iff]
  constructor
  · intro delivered
    have reads := Memory.reads_ofList cmdBuf
    obtain ⟨_, configData, dispatched, bytes⟩ := delivered _ reads
    obtain ⟨_, config⟩ := onCommandMessage_config buffer reads
    obtain ⟨-, rfl⟩ := Dispatch.configureProbe.inj (config.symm.trans dispatched)
    have sizes : ushortSize cfgdata.length = (Utf8.encode cfgdata).length := by
      rw [← bytes]
      exact (Memory.length_bytesAt _ _ _).symm
    omega
  · rintro ⟨same, fits⟩ m reads
    obtain ⟨probeId, config⟩ := onCommandMessage_config buffer reads
    refine ⟨probeId, _, config, ?_⟩
    rw [fits]
    change m.bytesAt 32 cfgdata.length = _
    rw [reads.bytesAt (by omega)]
    exact buffer.data.trans (List.take_of_length_le (Nat.le_of_eq same))

end Configuring

/-- `ConfigureSensor` delivers a text exactly if it is ASCII and its size fits in 16 bits. `build` never
returns a message; with an address of the identifier it would, for no data only. -/
theorem commands_encoded_iff (cfgdata : Text) (sensorId : UUID) (cmd : Nat) (data : Bytes) :
    ((∃ cmdBuf, configureSensor cfgdata sensorId = some cmdBuf ∧ ConfigDelivered cfgdata cmdBuf) ↔
        cfgdata ≠ [] ∧ (∀ c ∈ cfgdata, c.toNat < 128) ∧ FitsUshort cfgdata.length) ∧
    (¬ ∃ msg, CommandMessage.build cmd sensorId data = .ok msg ∧ CarriesData data msg) ∧
    ∀ target,
      (∃ msg, CommandMessage.buildTo target cmd sensorId data = .ok msg ∧ CarriesData data msg) ↔
        target.isAddress ∧ data = [] := by
  refine ⟨⟨?_, ?_⟩, ?_, fun _ => ?_⟩
  · rintro ⟨cmdBuf, made, delivered⟩
    refine ⟨?_, (configDelivered_iff (configureSensor_buffer made)).mp delivered⟩
    rintro rfl
    cases made
  · rintro ⟨some, arrives⟩
    have made := (configureSensor_eq cfgdata sensorId).trans
      (if_neg (mt List.length_eq_zero_iff.mp some))
    exact ⟨_, made, (configDelivered_iff (configureSensor_buffer made)).mpr arrives⟩
  · rintro built
    exact absurd (CommandMessage.buildTo_carries.mp built).1 Bool.false_ne_true
  · exact CommandMessage.buildTo_carries

-- One character of two bytes: its size is that of the text, and only its first byte is moved.
theorem accent_cut :
    (∀ sensorId, ¬ ∃ cmdBuf, configureSensor ['é'] sensorId = some cmdBuf ∧
      ConfigDelivered ['é'] cmdBuf) ∧
    ¬ ∀ (cfgdata : Text) (sensorId : UUID), cfgdata ≠ [] → ∃ cmdBuf,
      configureSensor cfgdata sensorId = some cmdBuf ∧ ConfigDelivered cfgdata cmdBuf := by
  have cut : ∀ sensorId, ¬ ∃ cmdBuf, configureSensor ['é'] sensorId = some cmdBuf ∧
      ConfigDelivered ['é'] cmdBuf := by
    rintro sensorId ⟨cmdBuf, made, delivered⟩
    have ascii := ((configDelivered_iff (configureSensor_buffer made)).mp delivered).1
    exact absurd (ascii 'é' List.mem_cons_self) (by decide)
  exact ⟨cut, fun all => cut ⟨0, by decide⟩ (all ['é'] ⟨0, by decide⟩ nofun)⟩

end VirtueSensing.WinVirtue
