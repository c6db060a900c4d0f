import VirtueSensing.WinVirtue.ReceivedRecords

set_option autoImplicit false

/-!
# The strings of the events

A `UNICODE_STRING` from the callback that reports it to the event that the decoder builds.
-/

namespace VirtueSensing.WinVirtue

open CLayout Driver Integers

/-- An event with a string, as its callback has it. -/
inductive Report where
  | imageLoad (fullImageName : UnicodeString) (imageBase imageSize : UInt64)
  | processCreate (commandLine : UnicodeString)
      (parentProcessId uniqueProcess uniqueThread fileObject : UInt64) (creationStatus : UInt32)
  | createKey (opens : Bool) (completeName : UnicodeString) (rootObject : UInt64)
      (options : UInt32) (securityDescriptor securityQualityOfService : UInt64)
      (desiredAccess grantedAccess : UInt32) (version : UInt64) (wow64Flags attributes : UInt32)
      (checkAccessMode : UInt8)
  | queryValueKey (valueName : UnicodeString) (object : UInt64) (keyValueInformationClass : UInt32)
  | renameKey (newName : UnicodeString) (object : UInt64)
  | deleteValueKey (valueName : UnicodeString) (object : UInt64)
  | setValueKey (valueName : UnicodeString) (object : UInt64) (type : UInt32)

namespace Report

def record (context : Context) : Report → Option Bytes
  | imageLoad name base size => imageLoadNotificationRoutine context name base size
  | processCreate line parent process thread file status =>
    processNotifyCallbackEx context line parent process thread file status
  | createKey opens name root options security quality desired granted version flags attributes
      mode =>
    regNtPreCreateKeyExCallback context opens name root options security quality desired granted
      version flags attributes mode
  | queryValueKey name object information =>
    regNtPreQueryValueKeyCallback context name object information
  | renameKey name object => regNtPreRenameKeyCallback context name object
  | deleteValueKey name object => regNtPreDeleteValueKeyCallback context name object
  | setValueKey name object type => regNtPreSetValueKeyCallback context name object type

def string : Report → UnicodeString
  | imageLoad name .. | processCreate name .. | createKey _ name .. | queryValueKey name ..
  | renameKey name .. | deleteValueKey name .. | setValueKey name .. => name

def element : Report → String
  | imageLoad .. => "FullImageName"
  | processCreate .. => "CommandLine"
  | createKey .. => "CompleteName"
  | renameKey .. => "NewName"
  | queryValueKey .. | deleteValueKey .. | setValueKey .. => "ValueName"

def event (port : FilterPort) (context : Context) (report : Report) : Option Event := do
  let record ← report.record context
  let packet ← filterGetMessage port record
  (← packetDecodeHeader packet)

/-- The event has the string of the report, decoded from its `Length` bytes. -/
def Carried (port : FilterPort) (context : Context) (report : Report) : Prop :=
  ∃ evt text, report.event port context = some evt ∧
    evt.lookup report.element = some (.text text) ∧
    Utf16.decode .little report.string.content = some text

-- The size of the record with the bytes that are copied, before it is rounded.
def size : Report → Nat
  | imageLoad name .. => Record.loadedImageInfo.driver.size + name.length.toNat
  | processCreate line .. => Record.processCreateInfo.driver.size + line.length.toNat
  | createKey _ name .. => Record.regCreateKeyInfo.driver.size + name.length.toNat
  | queryValueKey name .. => Record.regQueryValueKeyInfo.driver.size + name.maximumLength.toNat
  | renameKey name .. => Record.regRenameKeyInfo.driver.size + name.maximumLength.toNat
  | deleteValueKey name .. => Record.regDeleteValueKeyInfo.driver.size + name.maximumLength.toNat
  | setValueKey name .. => Record.regSetValueKeyInfo.driver.size + name.maximumLength.toNat

/-- The decoder keeps the string, and has names for the other values. -/
def Kept (text : Text) : Report → Prop
  | imageLoad .. => ∀ c ∈ text, c.toNat < 0x80
  | processCreate .. => False
  | createKey _ name _ _ _ _ _ _ _ _ _ checkAccessMode =>
    ¬ Utf16.Marked name.content ∧ checkAccessMode.toNat < kprocessorMode.length
  | queryValueKey name _ information =>
    Undamaged name.buffer name.content text ∧ information.toNat < keyValueInformationClass.length
  | renameKey name .. | deleteValueKey name .. | setValueKey name .. =>
    Undamaged name.buffer name.content text

/-- The message has room for the record, and the string is one that is kept. -/
def CarriedWhen (report : Report) : Prop :=
  ∃ text, Utf16.decode .little report.string.content = some text ∧ report.size ≤ messageRoom ∧
    report.Kept text

end Report

section Reports

variable {r : Record} {place : Place r} {context : Context} {type : ProbeType} {sensor : SensorType}
  {buffer : Bytes} {others : List (Scalar r)} {us : UnicodeString} {count : Nat}

def enumeration : Source → Option (List String × List FieldName)
  | .name names path => some (names, path)
  | _ => none

def enumerations (r : Record) : List (List String × List FieldName) :=
  (namedTuple r).filterMap fun element => enumeration element.2

-- The values of the record have names in their enumerations.
def Named (r : Record) (packet : Bytes) : Prop :=
  ∀ e ∈ enumerations r, little (contents r e.2 packet) < e.1.length

theorem value_isSome_iff {packet : Bytes} {string : Text}
    (id : ∃ u, UUID.ofBytes (contents r [.header, .sensorId, .data] packet) = some u)
    (kind : SensorType.ofNumber (little (contents r [.header, .sensorType] packet)) = some sensor)
    (source : Source) : (∃ v, source.value r packet string = some v) ↔
      ∀ e, enumeration source = some e → little (contents r e.2 packet) < e.1.length := by
  cases source with
  | name names path =>
    simp only [Source.value, enumName, Option.map_eq_some_iff]
    constructor
    · rintro ⟨v, name, found, -⟩ e ⟨⟩
      exact (List.getElem?_eq_some_iff.mp found).1
    · intro small
      exact ⟨_, _, List.getElem?_eq_getElem (small _ rfl), rfl⟩
  | sensorId =>
    obtain ⟨u, known⟩ := id
    exact ⟨fun _ => nofun, fun _ => ⟨_, Option.map_eq_some_iff.mpr ⟨u, known, rfl⟩⟩⟩
  | sensorType => exact ⟨fun _ => nofun, fun _ => ⟨_, Option.map_eq_some_iff.mpr ⟨_, kind, rfl⟩⟩⟩
  | unsigned | signed | unsignedHex | longLongHex | unsignedLongLongHex | nameOrNumber
  | decodedString => exact ⟨fun _ => nofun, fun _ => ⟨_, rfl⟩⟩

theorem lookup_build {pdh : SensorDataHeader} {text : Text} {key : String}
    (id : ∃ u, UUID.ofBytes (contents r [.header, .sensorId, .data] pdh.packet) = some u)
    (kind : SensorType.ofNumber (little (contents r [.header, .sensorType] pdh.packet)) =
      some sensor)
    (decoded : (namedTuple r).lookup key = some .decodedString) :
    (∃ evt, build r pdh = some evt ∧ evt.lookup key = some (.text text)) ↔
      buildString r pdh = some text ∧ Named r pdh.packet := by
  have named (string : Text) : Named r pdh.packet ↔
      ∃ evt, asdict (Source.value r pdh.packet string) (namedTuple r) = some evt := by
    rw [asdict_isSome]
    constructor
    · intro named element member
      refine (value_isSome_iff id kind element.2).mpr fun e listed => ?_
      exact named e (List.mem_filterMap.mpr ⟨element, member, listed⟩)
    · intro values e member
      obtain ⟨element, there, listed⟩ := List.mem_filterMap.mp member
      exact (value_isSome_iff id kind element.2).mp (values element there) e listed
  unfold build
  constructor
  · rintro ⟨evt, made, found⟩
    obtain ⟨string, built, elements⟩ := Option.bind_eq_some_iff.mp made
    rw [lookup_asdict elements, decoded] at found
    obtain rfl := Value.text.inj (Option.some.inj found)
    exact ⟨built, (named string).mpr ⟨evt, elements⟩⟩
  · rintro ⟨built, names⟩
    obtain ⟨evt, elements⟩ := (named text).mp names
    refine ⟨evt, Option.bind_eq_some_iff.mpr ⟨text, built, elements⟩, ?_⟩
    rw [lookup_asdict elements, decoded]
    rfl

theorem packetDecodeHeader_eq (sent : Sent place context type buffer others us count)
    (understood : Understood place type sensor) : ∃ pdh,
      packetDecodeHeader (packet place context type buffer others us count) =
        (build r pdh).map some ∧
      pdh.dataSz = buffer.length ∧ pdh.packet = packet place context type buffer others us count := by
  obtain ⟨pdh, read, rfl, size, same⟩ := sent.header understood
  refine ⟨pdh, ?_, size, same⟩
  unfold packetDecodeHeader
  rw [read, Option.bind_eq_bind, Option.bind_some, understood.recorded]

theorem Report.carried_iff {report : Report} (port : FilterPort) {total : Nat}
    (reported : report.record context =
      Driver.report place context type buffer others report.string count)
    (sized : buffer.length = ushortSize total) (counted : count ≤ report.string.maximumLength.toNat)
    (large : r.driver.size + count ≤ total) (small : total < 2 ^ 16 + place.offset + count)
    (distinct : Distinct place (others.map Scalar.path)) (understood : Understood place type sensor)
    (decoded : (namedTuple r).lookup report.element = some .decodedString)
    (rounded : total ≤ messageRoom ↔ report.size ≤ messageRoom)
    (kept : Sent place context type buffer others report.string count → buffer.length = total →
      ∀ pdh text, pdh.dataSz = total →
        pdh.packet = packet place context type buffer others report.string count →
        Utf16.decode .little report.string.content = some text →
        (buildString r pdh = some text ∧ Named r pdh.packet ↔ report.Kept text)) :
    report.Carried port context ↔ report.CarriedWhen := by
  have arrival : (Driver.report place context type buffer others report.string count).bind
      (filterGetMessage port) =
        if total ≤ messageRoom then
          some (packet place context type buffer others report.string count)
        else none := report_received port sized counted large small
  have event : report.event port context =
      if total ≤ messageRoom then
        (packetDecodeHeader (packet place context type buffer others report.string count)).bind id
      else none := by
    change ((report.record context).bind fun record => (filterGetMessage port record).bind
      fun packet => (packetDecodeHeader packet).bind id) = _
    rw [← Option.bind_assoc, reported, arrival]
    split
    · rfl
    · rfl
  unfold Report.Carried Report.CarriedWhen
  rw [event, ← rounded]
  by_cases fits : total ≤ messageRoom
  · have narrow : total < 2 ^ 16 := Nat.lt_of_le_of_lt fits (by decide)
    have whole : buffer.length = total := sized.trans (Nat.mod_eq_of_lt narrow)
    have sent : Sent place context type buffer others report.string count :=
      ⟨distinct, counted, (inside_assignments sized counted large small).mpr narrow, whole ▸ fits⟩
    obtain ⟨pdh, header, size, same⟩ := packetDecodeHeader_eq sent understood
    have lookup (text : Text) : (∃ evt, build r pdh = some evt ∧
        evt.lookup report.element = some (.text text)) ↔
          buildString r pdh = some text ∧ Named r pdh.packet :=
      lookup_build (same ▸ sent.sensorId understood) (same ▸ sent.sensorType understood) decoded
    have joined : ((build r pdh).map some).bind id = build r pdh := by
      cases build r pdh <;> rfl
    rw [if_pos fits, header, joined]
    constructor
    · rintro ⟨evt, text, made, found, plain⟩
      have read := (lookup text).mp ⟨evt, made, found⟩
      exact ⟨text, plain, fits, (kept sent whole pdh text (size.trans whole) same plain).mp read⟩
    · rintro ⟨text, plain, -, holds⟩
      have read := (kept sent whole pdh text (size.trans whole) same plain).mpr holds
      obtain ⟨evt, made, found⟩ := (lookup text).mpr read
      exact ⟨evt, text, made, found, plain⟩
  · rw [if_neg fits]
    constructor
    · rintro ⟨evt, -, made, -⟩
      exact absurd made nofun
    · rintro ⟨-, -, fits', -⟩
      exact absurd fits' fits

end Reports

theorem understood_fullImageName : Understood Place.fullImageName .imageLoad .imageLoad := by
  constructor <;> decide

theorem understood_commandLine :
    Understood Place.commandLine .processCreate .processCreate := by
  constructor <;> decide

theorem understood_completeName (opens : Bool) :
    Understood Place.completeName
      (if opens then .regOpenKeyInformation else .regCreateKeyInformation)
      (if opens then .regOpenKeyInfo else .regCreateKeyInfo) := by
  cases opens <;> constructor <;> decide

theorem understood_queriedValueName :
    Understood Place.queriedValueName .regQueryValueKeyInformation .regQueryValueKeyInfo := by
  constructor <;> decide

theorem understood_newName :
    Understood Place.newName .regRenameKeyInformation .regRenameKeyInfo := by
  constructor <;> decide

theorem understood_deletedValueName :
    Understood Place.deletedValueName .regDeleteValueKeyInformation .regDeleteValueKeyInfo := by
  constructor <;> decide

theorem understood_setValueName :
    Understood Place.setValueName .regSetValueKeyInformation .regSetValueKeyInfo := by
  constructor <;> decide

theorem size_le (r : Record) : r.driver.size ≤ 300 := by
  cases r <;> decide

theorem alignUp_le_iff (n : Nat) : alignUp n 0x10 ≤ messageRoom ↔ n ≤ messageRoom := by
  unfold alignUp messageRoom
  omega

namespace Report

theorem carried_value_iff {r : Record} {place : Place r} {context : Context} {type : ProbeType}
    {sensor : SensorType} {others : List (Scalar r)} {report : Report} (port : FilterPort)
    (reported : report.record context = Driver.report place context type
      (context.allocate (ushortSize (r.driver.size + report.string.maximumLength.toNat))) others
      report.string report.string.maximumLength.toNat)
    (sized : report.size = r.driver.size + report.string.maximumLength.toNat)
    (distinct : Distinct place (others.map Scalar.path)) (understood : Understood place type sensor)
    (decoded : (namedTuple r).lookup report.element = some .decodedString)
    (built : ∀ pdh, buildString r pdh =
      (counted r place.length place.array (pdh.packet ++ [0]) pdh.packet).map decodeString)
    (named : ∀ {buffer} text, Sent place context type buffer others report.string
        report.string.maximumLength.toNat →
      (Undamaged report.string.buffer report.string.content text ∧ Named r (packet place context type
        buffer others report.string report.string.maximumLength.toNat) ↔ report.Kept text)) :
    report.Carried port context ↔ report.CarriedWhen := by
  have modest := size_le r
  refine carried_iff port reported (Context.length_allocate _ _) (Nat.le_refl _) (Nat.le_refl _) ?_
    distinct understood decoded ?_ ?_
  · omega
  · rw [sized]
  · intro sent _ pdh text _ same plain
    have read := sent.map_decodeString understood report.string.within plain [0]
    rw [List.take_of_length_le (Nat.le_of_eq report.string.sized)] at read
    rw [built, same, read, named text sent]

variable (port : FilterPort) (context : Context)

theorem carried_imageLoad (name : UnicodeString) (base size : UInt64) :
    (imageLoad name base size).Carried port context ↔ (imageLoad name base size).CarriedWhen := by
  have distinct : Distinct Place.fullImageName [[.imageBase], [.imageSize]] := by decide
  have modest := size_le .loadedImageInfo
  have below : alignUp (Record.loadedImageInfo.driver.size + name.length.toNat) 0x10 <
      Record.loadedImageInfo.driver.size + name.length.toNat + 0x10 := alignUp_lt (by decide) _
  refine carried_iff port rfl List.length_replicate name.within (le_alignUp (by decide) _) ?_
    distinct understood_fullImageName rfl (alignUp_le_iff _) ?_
  · omega
  · intro sent _ pdh text _ same plain
    have named : Named .loadedImageInfo pdh.packet := nofun
    rw [and_iff_left named]
    change (counted _ Place.fullImageName.length Place.fullImageName.array (pdh.packet ++ [0])
      pdh.packet).bind (fun slc => (everySecond slc).mapM chr) = some text ↔ _
    rw [same, sent.counted_string understood_fullImageName, Option.bind_some]
    exact mapM_chr_iff plain

-- The decoder takes all of the record from the string on, and the end of a record is cleared.
theorem carried_processCreate (line : UnicodeString)
    (parent process thread file : UInt64) (status : UInt32) :
    (processCreate line parent process thread file status).Carried port context ↔
      (processCreate line parent process thread file status).CarriedWhen := by
  have distinct : Distinct Place.commandLine [[.parentProcessId],
      [.creatingThreadId, .uniqueProcess], [.creatingThreadId, .uniqueThread], [.fileObject],
      [.creationStatus]] := by decide
  have modest := size_le .processCreateInfo
  have above : Record.processCreateInfo.driver.size + line.length.toNat ≤
      alignUp (Record.processCreateInfo.driver.size + line.length.toNat) 0x10 :=
    le_alignUp (by decide) _
  have below : alignUp (Record.processCreateInfo.driver.size + line.length.toNat) 0x10 <
      Record.processCreateInfo.driver.size + line.length.toNat + 0x10 := alignUp_lt (by decide) _
  have behind : Place.commandLine.offset < Record.processCreateInfo.driver.size := by decide
  refine carried_iff port rfl List.length_replicate line.within above ?_ distinct
    understood_commandLine rfl (alignUp_le_iff _) ?_
  · omega
  · intro sent whole pdh text size same plain
    refine iff_of_false ?_ id
    rintro ⟨built, -⟩
    obtain ⟨padding, padded, rounded⟩ : ∃ padding, 0 < padding ∧
        alignUp (Record.processCreateInfo.driver.size + line.length.toNat) 0x10 =
          Place.commandLine.offset + line.length.toNat + padding := by
      obtain ⟨padding, rounded⟩ := Nat.exists_eq_add_of_lt (Nat.lt_of_lt_of_le
        (Nat.add_lt_add_right behind line.length.toNat) above)
      exact ⟨padding + 1, Nat.succ_pos _, rounded⟩
    have cleared : ushortSize (alignUp (Record.processCreateInfo.driver.size +
        line.length.toNat) 0x10) = Place.commandLine.offset + line.length.toNat + padding := by
      rw [zeroBytes, List.length_replicate] at whole
      exact whole.trans rounded
    rw [cleared] at sent same
    change (fromBuffer (pdh.packet ++ [0]) (field .processCreateInfo [.commandLine]).offset
      ((pdh.dataSz : Int) - ((field .processCreateInfo [.commandLine]).offset : Nat))).map
        decodeString = some text at built
    have slice : (pdh.dataSz : Int) - ((field .processCreateInfo [.commandLine]).offset : Nat) =
        ((line.length.toNat + padding : Nat) : Int) := by
      have place : (field .processCreateInfo [.commandLine]).offset = Place.commandLine.offset :=
        understood_commandLine.array.2.2
      rw [size, rounded, place]
      omega
    have read := sent.fromBuffer_cleared understood_commandLine [0]
    change fromBuffer _ (field .processCreateInfo [.commandLine]).offset _ = _ at read
    rw [slice, same, read] at built
    have restored := (decodeString_eq_iff (List.prefix_append _ _) plain).mp (Option.some.inj built)
    exact not_undamaged_padded plain padded restored

theorem carried_createKey (opens : Bool) (name : UnicodeString) (root : UInt64)
    (options : UInt32) (security quality : UInt64) (desired granted : UInt32) (version : UInt64)
    (flags attributes : UInt32) (mode : UInt8) :
    (createKey opens name root options security quality desired granted version flags attributes
      mode).Carried port context ↔
      (createKey opens name root options security quality desired granted version flags attributes
        mode).CarriedWhen := by
  have distinct : Distinct Place.completeName [[.rootObject], [.options], [.securityDescriptor],
      [.securityQualityOfService], [.desiredAccess], [.grantedAccess], [.version], [.wow64Flags],
      [.attributes], [.checkAccessMode]] := by decide
  have modest := size_le .regCreateKeyInfo
  have one : (Record.regCreateKeyInfo.place [.checkAccessMode] (by decide)).size = 1 := by
    decide
  have only : enumerations .regCreateKeyInfo = [(kprocessorMode, [.checkAccessMode])] := rfl
  refine carried_iff port rfl (Context.length_allocate _ _) name.within (Nat.le_refl _) ?_ distinct
    (understood_completeName opens) rfl Iff.rfl ?_
  · omega
  · intro sent _ pdh text _ same plain
    have read := sent.map_decodeString (understood_completeName opens) (Nat.le_refl _) plain []
    rw [List.append_nil, ← same] at read
    have value : little (contents .regCreateKeyInfo [.checkAccessMode] pdh.packet) = mode.toNat := by
      rw [same]
      exact sent.little_other (List.mem_of_getLast? rfl) (by decide) (by decide)
        (by decide) (one.symm ▸ mode.toNat_lt)
    have named : Named .regCreateKeyInfo pdh.packet ↔ mode.toNat < kprocessorMode.length := by
      rw [Named, only, List.forall_mem_singleton, value]
    rw [named]
    exact and_congr_left' (read.trans (undamaged_self plain))

theorem carried_queryValueKey (name : UnicodeString) (object : UInt64) (information : UInt32) :
    (queryValueKey name object information).Carried port context ↔
      (queryValueKey name object information).CarriedWhen := by
  have distinct : Distinct Place.queriedValueName
      [[.notifyClass], [.object], [.keyValueInformationClass]] := by decide
  have first : (Record.regQueryValueKeyInfo.place [.notifyClass] (by decide)).size = 4 := by
    decide
  have second : (Record.regQueryValueKeyInfo.place [.keyValueInformationClass]
      (by decide)).size = 4 := by decide
  have both : enumerations .regQueryValueKeyInfo = [(regNotifyClass, [.notifyClass]),
      (keyValueInformationClass, [.keyValueInformationClass])] := rfl
  refine carried_value_iff port rfl rfl distinct understood_queriedValueName rfl (fun _ => rfl) ?_
  intro buffer text sent
  have notify := sent.little_other List.mem_cons_self (by decide) (by decide)
    (by decide) (first.symm ▸ (by decide : preQueryValueKey < 256 ^ 4))
  have value := sent.little_other (List.mem_of_getLast? rfl) (by decide)
    (by decide) (by decide) (second.symm ▸ information.toNat_lt)
  refine and_congr_right' ?_
  rw [Named, both, List.forall_mem_cons, List.forall_mem_singleton, notify, value]
  exact and_iff_right (by decide)

theorem carried_renameKey (name : UnicodeString) (object : UInt64) :
    (renameKey name object).Carried port context ↔ (renameKey name object).CarriedWhen := by
  have distinct : Distinct Place.newName [[.object]] := by decide
  refine carried_value_iff port rfl rfl distinct understood_newName rfl (fun _ => rfl) ?_
  exact fun _ _ => and_iff_left nofun

theorem carried_deleteValueKey (name : UnicodeString) (object : UInt64) :
    (deleteValueKey name object).Carried port context ↔
      (deleteValueKey name object).CarriedWhen := by
  have distinct : Distinct Place.deletedValueName [[.object]] := by decide
  refine carried_value_iff port rfl rfl distinct understood_deletedValueName rfl (fun _ => rfl) ?_
  exact fun _ _ => and_iff_left nofun

theorem carried_setValueKey (name : UnicodeString) (object : UInt64) (type : UInt32) :
    (setValueKey name object type).Carried port context ↔
      (setValueKey name object type).CarriedWhen := by
  have distinct : Distinct Place.setValueName [[.object], [.type]] := by decide
  refine carried_value_iff port rfl rfl distinct understood_setValueName rfl (fun _ => rfl) ?_
  exact fun _ _ => and_iff_left nofun

end Report

theorem string_carried_iff (port : FilterPort) (context : Context) (report : Report) :
    report.Carried port context ↔ report.CarriedWhen := by
  cases report with
  | imageLoad => exact Report.carried_imageLoad ..
  | processCreate => exact Report.carried_processCreate ..
  | createKey => exact Report.carried_createKey ..
  | queryValueKey => exact Report.carried_queryValueKey ..
  | renameKey => exact Report.carried_renameKey ..
  | deleteValueKey => exact Report.carried_deleteValueKey ..
  | setValueKey => exact Report.carried_setValueKey ..

def FilterPort.copying : FilterPort where
  deliver room message := if message.length ≤ room then some message else none
  fits _ _ small := if_pos small
  exceeds _ _ large := if_neg (Nat.not_le_of_lt large)

def sampleContext : Context where
  probeId := 1
  currentGmt := 2
  flink := 3
  blink := 4
  processId := 5
  eProcess := 6
  heap := fun _ => 0

def sampleLine : UnicodeString where
  length := 2
  maximumLength := 2
  buffer := [0x61, 0]
  within := by decide
  sized := rfl

def sampleCreate : Report := .processCreate sampleLine 4 5 6 7 0

theorem sampleLine_padded :
    Utf16.decode .little sampleLine.content = some ['a'] ∧
      ((sampleCreate.event .copying sampleContext).bind fun evt => evt.lookup "CommandLine") =
        some (.text ('a' :: List.replicate 4 (Char.ofNat 0))) ∧
      ¬ sampleCreate.Carried .copying sampleContext := by
  refine ⟨by decide, by decide +kernel, ?_⟩
  rw [sampleCreate, Report.carried_processCreate]
  exact fun ⟨_, _, _, kept⟩ => kept

-- A new name without bytes behind it is kept.
example : (Report.renameKey sampleLine 1).CarriedWhen :=
  ⟨['a'], by decide, by decide, .inl ⟨rfl, by decide⟩⟩

end VirtueSensing.WinVirtue
