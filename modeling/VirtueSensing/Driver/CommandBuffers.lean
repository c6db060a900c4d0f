import VirtueSensing.Driver.EventRecords
import VirtueSensing.Driver.ProbeConfiguration
import VirtueSensing.Shared.Memory

set_option autoImplicit false

/-!
# Command buffers

What `OnCommandMessage` of `WVUCommsManager` and the handlers behind it read of the buffer that user
space hands to the filter.
-/

namespace VirtueSensing.Driver

open CLayout Integers

inductive Platform where
  | x64
  | win32
  deriving DecidableEq, Repr

def Platform.sizeT : Platform → Layout FieldName
  | .x64 => quad
  | .win32 => long

def commandMessage (p : Platform) : Layout FieldName :=
  struct [(.command, long), (.probeId, Windows.uuid), (.dataSz, p.sizeT), (.data, array byte 1)]

example : commandMessage .x64 = Record.driver .commandMessage := rfl

structure Access where
  offset : Int
  size : Nat
  deriving DecidableEq, Repr

def Access.Inside (length : Nat) (a : Access) : Prop :=
  a.size = 0 ∨ 0 ≤ a.offset ∧ a.offset + a.size ≤ length

instance (length : Nat) (a : Access) : Decidable (a.Inside length) :=
  inferInstanceAs (Decidable (_ ∨ _ ∧ _))

structure Member where
  offset : Nat
  size : Nat

def Member.access (m : Member) : Access := ⟨m.offset, m.size⟩

def member (p : Platform) (name : FieldName) : Member :=
  match (commandMessage p).fields.find? fun f => f.path = [name] with
  | some f => ⟨f.offset, f.size⟩
  | none => ⟨0, 0⟩

def readMember (p : Platform) (m : Memory) (name : FieldName) : Nat :=
  little ((List.range (member p name).size).map fun i => m ((member p name).offset + i))

def readProbeId (p : Platform) (m : Memory) : Uuid := BitVec.ofNat 128 (readMember p m .probeId)

-- The address is that of a byte of the buffer.
structure AnsiString where
  length : Nat
  maximumLength : Nat
  buffer : Nat
  deriving DecidableEq, Repr

-- `{ (USHORT)pCmdMsg->DataSz, (USHORT)pCmdMsg->DataSz, (PCHAR)&pCmdMsg->Data[0] }`.
def ansiData (p : Platform) (m : Memory) : AnsiString :=
  ⟨ushortSize (readMember p m .dataSz), ushortSize (readMember p m .dataSz), (member p .data).offset⟩

inductive WvuCommand where
  | echo
  | enableProbe
  | disableProbe
  | enableUnload
  | disableUnload
  | enumerateProbes
  | configureProbe
  | oneShotKill
  deriving DecidableEq, Repr

def wvuCommand : Nat → Option WvuCommand
  | 0 => some .echo
  | 1 => some .enableProbe
  | 2 => some .disableProbe
  | 3 => some .enableUnload
  | 4 => some .disableUnload
  | 5 => some .enumerateProbes
  | 6 => some .configureProbe
  | 7 => some .oneShotKill
  | _ => none

/-- The case of `OnCommandMessage`, with what its handler gets out of the message. -/
inductive Dispatch where
  | invalidParameter
  | nullDereference
  | unloadStateChange (command : WvuCommand)
  | protectionStateChange (command : StateCommand) (probeId : Uuid)
  | enumerateProbes
  | configureProbe (probeId : Uuid) (configData : AnsiString)
  | oneShotKill (pidData : AnsiString)
  | echo
  | invalidMessage
  deriving DecidableEq, Repr

/-- The memory from the pointer on, unless that is null, and the length that came with it. -/
structure CommandBuffer where
  memory : Option Memory
  length : Nat

def switchCommand (p : Platform) (m : Memory) : Option WvuCommand → Dispatch
  | some .enableUnload => .unloadStateChange .enableUnload
  | some .disableUnload => .unloadStateChange .disableUnload
  | some .enableProbe => .protectionStateChange .enableProbe (readProbeId p m)
  | some .disableProbe => .protectionStateChange .disableProbe (readProbeId p m)
  | some .enumerateProbes => .enumerateProbes
  | some .configureProbe => .configureProbe (readProbeId p m) (ansiData p m)
  | some .oneShotKill => .oneShotKill (ansiData p m)
  | some .echo => .echo
  | none => .invalidMessage

def onCommandMessage (p : Platform) (b : CommandBuffer) : Dispatch :=
  if b.length = 0 ∧ b.memory = none then .invalidParameter
  else
    match b.memory with
    | none => .nullDereference
    | some m => switchCommand p m (wvuCommand (readMember p m .command))

/-- What is left of a call of the filter manager. -/
def wvuCommandMessageNotify (p : Platform) (b : CommandBuffer) : Option Dispatch :=
  if b.length = 0 ∨ b.memory = none then none else some (onCommandMessage p b)

/-- What a command finds: the registered probes, the conversions of the system, what the slots for
tokens hold before, and the memory in front of the buffer. -/
structure Circumstances where
  probes : List Listed
  conversions : Conversions
  slot : Nat → Int × Int
  front : Int → UInt8

def AnsiString.access (s : AnsiString) : Access := ⟨s.buffer, s.length⟩

def AnsiString.bytes (s : AnsiString) (m : Memory) : Bytes :=
  (List.range s.length).map fun i => m (s.buffer + i)

namespace Circumstances

variable (e : Circumstances) (m : Memory) (s : AnsiString)

-- The probes whose `Configure` `OnConfigureProbe` calls.
def configured (id : Uuid) : List Listed :=
  if id = zeroGuid then e.probes else (e.probes.find? fun l => l.probeId = id).toList

def surroundings : Surroundings where
  slot := e.slot
  around i := if 0 ≤ s.buffer + i then m (s.buffer + i).toNat else e.front (s.buffer + i)

def reachedValues : List NamedValue :=
  reached e.conversions (e.surroundings m s) (s.bytes m)
    (takenValues (e.surroundings m s) (s.bytes m))

-- The other classes leave their string unread.
def configureValues (l : Listed) : List Span :=
  match l.probe.cls with
  | .processListValidation => (configure e.conversions (e.surroundings m s) (s.bytes m) 0).values
  | _ => []

end Circumstances

def Span.access (s : AnsiString) (v : Span) : Access := ⟨s.buffer + v.start, v.width⟩

namespace Dispatch

def data : Dispatch → Option AnsiString
  | configureProbe _ s => some s
  | oneShotKill s => some s
  | _ => none

-- `jsmn_parse` and `jsoneq`, or `Mitigate`, may read all of a string; `Configure` reads values too.
def accesses (p : Platform) (e : Circumstances) (m : Memory) : Dispatch → List Access
  | invalidParameter => []
  | nullDereference => []
  | protectionStateChange _ _ => [(member p .command).access, (member p .probeId).access]
  | configureProbe id s =>
    [(member p .command).access, (member p .dataSz).access, (member p .probeId).access, s.access] ++
      (e.configured id).flatMap fun l => (e.configureValues m s l).map (Span.access s)
  | oneShotKill s => [(member p .command).access, (member p .dataSz).access, s.access]
  | unloadStateChange _ | enumerateProbes | echo | invalidMessage => [(member p .command).access]

/-- All that is read lies in the buffer, and a string has the size that the message tells, with so
many bytes in the buffer. -/
structure Bounded (p : Platform) (e : Circumstances) (b : CommandBuffer) (d : Dispatch) : Prop where
  present : d ≠ nullDereference
  reads : ∀ m ∈ b.memory, ∀ a ∈ d.accesses p e m, a.Inside b.length
  string : ∀ s ∈ d.data, ∀ m ∈ b.memory,
    s.length = readMember p m .dataSz ∧ s.buffer + readMember p m .dataSz ≤ b.length

end Dispatch

def FitsUshort (size : Nat) : Prop := size < 2 ^ 16

def DataFits (p : Platform) (m : Memory) (length : Nat) : Prop :=
  FitsUshort (readMember p m .dataSz) ∧ (member p .data).offset + readMember p m .dataSz ≤ length

/-- Where a probe takes the string for an object, what is taken for the value of a name lies in the
buffer, as far as the conversions go. A value that is not closed, and a slot without a token, need not
lie in the string. -/
def ValuesInside (p : Platform) (e : Circumstances) (m : Memory) (length : Nat) : Prop :=
  (∃ l ∈ e.configured (readProbeId p m), l.probe.cls = .processListValidation) →
    Accepted ((ansiData p m).bytes m) →
      ∀ v ∈ e.reachedValues m (ansiData p m), (v.value.access (ansiData p m)).Inside length

/-- The length covers what the command needs: its number, the identifier of its probe, or the whole
header with the data, whose size fits in 16 bits. -/
def CommandFits (p : Platform) (e : Circumstances) (m : Memory) (length : Nat) :
    Option WvuCommand → Prop
  | some .enableProbe => 20 ≤ length
  | some .disableProbe => 20 ≤ length
  | some .configureProbe => DataFits p m length ∧ ValuesInside p e m length
  | some .oneShotKill => DataFits p m length
  | _ => 4 ≤ length

section Members

variable (p : Platform)

theorem member_command : member p .command = ⟨0, 4⟩ := by
  cases p <;> rfl

theorem member_probeId : member p .probeId = ⟨4, 16⟩ := by
  cases p <;> rfl

theorem dataSz_stop : (member p .dataSz).offset + (member p .dataSz).size = (member p .data).offset := by
  cases p <;> rfl

theorem data_offset : 20 ≤ (member p .data).offset := by
  cases p <;> decide

end Members

section Bounds

variable {p : Platform} {e : Circumstances} {b : CommandBuffer} {m : Memory}

theorem ushortSize_eq_iff {size : Nat} : ushortSize size = size ↔ FitsUshort size := by
  have below := Nat.mod_lt size (show 0 < 2 ^ 16 by decide)
  exact ⟨fun same => same ▸ below, Nat.mod_eq_of_lt⟩

theorem command_bounded (memory : b.memory = some m) {d : Dispatch} (present : d ≠ .nullDereference)
    (bare : d.data = none) (reads : d.accesses p e m = [(member p .command).access]) :
    d.Bounded p e b ↔ 4 ≤ b.length := by
  have inside : (∀ a ∈ d.accesses p e m, a.Inside b.length) ↔ 4 ≤ b.length := by
    rw [reads, List.forall_mem_singleton, member_command]
    simp only [Access.Inside, Member.access]
    omega
  rw [← inside]
  refine ⟨fun bounded => bounded.reads m memory, fun reads => ⟨present, fun m' here => ?_, bare ▸ nofun⟩⟩
  obtain rfl := Option.some.inj (memory.symm.trans here)
  exact reads

theorem protection_bounded (memory : b.memory = some m) (command : StateCommand) (id : Uuid) :
    (Dispatch.protectionStateChange command id).Bounded p e b ↔ 20 ≤ b.length := by
  have inside : (∀ a ∈ [(member p .command).access, (member p .probeId).access],
      a.Inside b.length) ↔ 20 ≤ b.length := by
    rw [List.forall_mem_cons, List.forall_mem_singleton, member_command, member_probeId]
    simp only [Access.Inside, Member.access]
    omega
  rw [← inside]
  refine ⟨fun bounded => bounded.reads m memory, fun reads => ⟨nofun, fun m' _ => ?_, nofun⟩⟩
  exact reads

theorem header_inside (fits : (member p .data).offset + readMember p m .dataSz ≤ b.length) :
    (member p .command).access.Inside b.length ∧ (member p .dataSz).access.Inside b.length ∧
      (member p .probeId).access.Inside b.length := by
  have stop := dataSz_stop p
  have far := data_offset p
  rw [member_command, member_probeId]
  simp only [Access.Inside, Member.access]
  omega

theorem data_inside (fits : DataFits p m b.length) : (ansiData p m).access.Inside b.length := by
  have same := ushortSize_eq_iff.mpr fits.1
  have room := fits.2
  simp only [Access.Inside, AnsiString.access, ansiData, same]
  omega

theorem data_bounded {d : Dispatch} {more : List Access} (memory : b.memory = some m)
    (present : d ≠ .nullDereference) (data : d.data = some (ansiData p m))
    (reads : ∀ a, a ∈ d.accesses p e m → a ∈ [(member p .command).access, (member p .dataSz).access,
      (member p .probeId).access, (ansiData p m).access] ++ more)
    (values : ∀ a ∈ more, a ∈ d.accesses p e m) :
    d.Bounded p e b ↔ DataFits p m b.length ∧ ∀ a ∈ more, a.Inside b.length := by
  constructor
  · intro bounded
    have string := bounded.string _ data m memory
    exact ⟨⟨ushortSize_eq_iff.mp string.1, string.2⟩,
      fun a here => bounded.reads m memory a (values a here)⟩
  · rintro ⟨fits, inside⟩
    refine ⟨present, fun m' here a member => ?_, fun s string m' here => ?_⟩
    · obtain rfl := Option.some.inj (memory.symm.trans here)
      obtain ⟨command, size, probe⟩ := header_inside fits.2
      have each := List.forall_mem_cons.mpr ⟨command, List.forall_mem_cons.mpr
        ⟨size, List.forall_mem_cons.mpr ⟨probe, List.forall_mem_singleton.mpr (data_inside fits)⟩⟩⟩
      rcases List.mem_append.mp (reads a member) with header | value
      · exact each a header
      · exact inside a value
    · obtain rfl := Option.some.inj (data.symm.trans string)
      obtain rfl := Option.some.inj (memory.symm.trans here)
      exact ⟨ushortSize_eq_iff.mpr fits.1, fits.2⟩

theorem valuesInside_iff {length : Nat} :
    (∀ a ∈ (e.configured (readProbeId p m)).flatMap fun l =>
        (e.configureValues m (ansiData p m) l).map (Span.access (ansiData p m)), a.Inside length) ↔
      ValuesInside p e m length := by
  obtain ⟨taken, refused⟩ := configure_values e.conversions (e.surroundings m (ansiData p m))
    ((ansiData p m).bytes m) 0
  constructor
  · rintro all ⟨l, given, validation⟩ accepted v member
    refine all _ (List.mem_flatMap.mpr ⟨l, given, List.mem_map.mpr ⟨v.value, ?_, rfl⟩⟩)
    simp only [Circumstances.configureValues, validation, taken accepted]
    exact List.mem_map_of_mem member
  · intro inside a member
    obtain ⟨l, given, member⟩ := List.mem_flatMap.mp member
    obtain ⟨value, read, rfl⟩ := List.mem_map.mp member
    cases cls : l.probe.cls with
    | processListValidation =>
      simp only [Circumstances.configureValues, cls] at read
      by_cases accepted : Accepted ((ansiData p m).bytes m)
      · rw [taken accepted] at read
        obtain ⟨v, here, rfl⟩ := List.mem_map.mp read
        exact inside ⟨l, given, cls⟩ accepted v here
      · rw [refused accepted] at read
        cases read
    | imageLoad | registryModification | processCreate | threadCreate =>
      simp only [Circumstances.configureValues, cls] at read
      cases read

theorem switchCommand_bounded (memory : b.memory = some m) (command : Option WvuCommand) :
    (switchCommand p m command).Bounded p e b ↔ CommandFits p e m b.length command := by
  rcases command with _ | command
  · exact command_bounded memory nofun rfl rfl
  · cases command with
    | echo => exact command_bounded memory nofun rfl rfl
    | enableProbe => exact protection_bounded memory _ _
    | disableProbe => exact protection_bounded memory _ _
    | enableUnload => exact command_bounded memory nofun rfl rfl
    | disableUnload => exact command_bounded memory nofun rfl rfl
    | enumerateProbes => exact command_bounded memory nofun rfl rfl
    | configureProbe =>
      rw [CommandFits, ← valuesInside_iff]
      exact data_bounded memory nofun rfl (fun _ here => here)
        fun a value => List.mem_append_right _ value
    | oneShotKill =>
      have reads : ∀ a, a ∈ (switchCommand p m (some .oneShotKill)).accesses p e m →
          a ∈ [(member p .command).access, (member p .dataSz).access, (member p .probeId).access,
            (ansiData p m).access] ++ [] := by
        intro a here
        simp only [switchCommand, Dispatch.accesses, List.mem_cons, List.append_nil] at here ⊢
        tauto
      have bounded : (switchCommand p m (some .oneShotKill)).Bounded p e b ↔ _ :=
        data_bounded memory nofun rfl reads nofun
      exact bounded.trans (and_iff_left nofun)

theorem onCommandMessage_some (memory : b.memory = some m) :
    onCommandMessage p b = switchCommand p m (wvuCommand (readMember p m .command)) := by
  obtain ⟨_, length⟩ := b
  obtain rfl := memory
  exact if_neg fun both => nomatch both.2

end Bounds

/-- A command stays in its buffer exactly if the length covers what it needs, or there is nothing at
all. The filter manager's entry refuses a null pointer and a length of zero each. -/
theorem command_bounded_iff (p : Platform) (e : Circumstances) (b : CommandBuffer) :
    ((onCommandMessage p b).Bounded p e b ↔
        (b.memory = none ∧ b.length = 0) ∨
          ∃ m ∈ b.memory, CommandFits p e m b.length (wvuCommand (readMember p m .command))) ∧
      ((∀ d ∈ wvuCommandMessageNotify p b, d.Bounded p e b) ↔
        b.memory = none ∨ b.length = 0 ∨
          ∃ m ∈ b.memory, CommandFits p e m b.length (wvuCommand (readMember p m .command))) := by
  obtain ⟨memory, length⟩ := b
  cases memory with
  | none =>
    constructor
    · by_cases empty : length = 0
      · subst empty
        exact iff_of_true ⟨nofun, nofun, nofun⟩ (.inl ⟨rfl, rfl⟩)
      · have null : onCommandMessage p ⟨none, length⟩ = .nullDereference :=
          if_neg fun both => empty both.1
        refine iff_of_false (fun bounded => bounded.present null) ?_
        rintro (⟨-, zero⟩ | ⟨m, here, -⟩)
        · exact empty zero
        · cases here
    · have refused : wvuCommandMessageNotify p ⟨none, length⟩ = none := if_pos (.inr rfl)
      rw [refused]
      exact iff_of_true nofun (.inl rfl)
  | some m =>
    have fits : (onCommandMessage p ⟨some m, length⟩).Bounded p e ⟨some m, length⟩ ↔
        CommandFits p e m length (wvuCommand (readMember p m .command)) := by
      rw [onCommandMessage_some rfl]
      exact switchCommand_bounded rfl _
    constructor
    · rw [fits]
      simp
    · by_cases empty : length = 0
      · have refused : wvuCommandMessageNotify p ⟨some m, length⟩ = none := if_pos (.inl empty)
        rw [refused]
        exact iff_of_true nofun (.inr (.inl empty))
      · have taken : wvuCommandMessageNotify p ⟨some m, length⟩ =
            some (onCommandMessage p ⟨some m, length⟩) := by
          refine if_neg ?_
          rintro (zero | null)
          · exact empty zero
          · cases null
        rw [taken]
        simp [fits, empty]

-- The probe that validates the process list is the only one.
def validationOnly : Circumstances where
  probes := [⟨1, ⟨.processListValidation, true, false, 0⟩, true⟩]
  conversions := plainConversions
  slot _ := (0, 0)
  front _ := 0

-- A configuration of 100 bytes, in a buffer that ends with its first one.
def shortCommand : CommandBuffer where
  memory := some fun i => if i = 0 then 6 else if i = 24 then 100 else 0
  length := 33

-- A whole configuration, whose value is an object without an end.
def openConfig : Bytes := ascii "\x7b\"repeat-interval\":\x7b"

def openCommand : CommandBuffer where
  memory := some fun i =>
    if i = 0 then 6 else if i = 24 then 20 else if i < 32 then 0 else openConfig.getD (i - 32) 0
  length := 52

theorem shortCommand_unbounded :
    onCommandMessage .x64 shortCommand = .configureProbe 0 ⟨100, 100, 32⟩ ∧
      onCommandMessage .x64 openCommand = .configureProbe 0 ⟨20, 20, 32⟩ ∧
      ⟨51, 65516⟩ ∈ (onCommandMessage .x64 openCommand).accesses .x64 validationOnly
        (openCommand.memory.getD fun _ => 0) ∧
      ¬ ∀ p e b, (onCommandMessage p b).Bounded p e b := by
  refine ⟨by decide, by decide, by decide, fun all => ?_⟩
  have inside := (all .x64 validationOnly shortCommand).reads _ rfl ⟨32, 100⟩ (by decide)
  exact absurd inside (by decide)

end VirtueSensing.Driver
