import Mathlib.Algebra.BigOperators.Group.List.Basic
import Mathlib.Algebra.GroupWithZero.Nat
import Mathlib.Data.List.Induction
import VirtueSensing.Kernel.Records
import VirtueSensing.Kernel.RequestSteps
import VirtueSensing.Shared.Lists
import VirtueSensing.Shared.Locks

set_option autoImplicit false

/-!
# Discovery

`build_discovery_buffer` of `controller-common.c` writes the names and uuids of all sensors into
one buffer, and `process_discovery_request` of `jsonl-parse.c` prints that buffer into a smaller
one.
-/

namespace VirtueSensing.Kernel

inductive SpinLock where
  | sessionsLock
  -- `sl` of a session and `lock` of a sensor.
  | session (id : Nat)
  | sensor
  deriving DecidableEq, Repr

def connectionMaxHeader : Nat := 0x400

def hexDigit (n : UInt8) : UInt8 :=
  if n < 10 then 48 + n else 87 + n

-- The sixteen bytes of an uuid under `%pUb`.
def printUuid (uuid : Bytes) : Bytes :=
  (List.range 16).flatMap fun i =>
    (if i ∈ [4, 6, 8, 10] then ascii "-" else []) ++
      [hexDigit (uuid.getD i 0 / 16), hexDigit (uuid.getD i 0 % 16)]

@[simp] theorem length_printUuid (uuid : Bytes) : (printUuid uuid).length = uuidStringLen := rfl

/-- The buffer up to its cursor; `lastEntry` is where the entry before ended. -/
structure DiscoveryBuffer where
  text : Bytes
  lastEntry : Nat
  remaining : Int
  count : Nat
  deriving DecidableEq, Repr

def Sensor.entry (s : Sensor) : Bytes :=
  ascii "[\"" ++ s.name.cString ++ ascii "\", \"" ++ printUuid s.uuid ++ ascii "\"]"

namespace DiscoveryBuffer

def start (len : Nat) : DiscoveryBuffer :=
  ⟨ascii "[", 0, len - 2, 0⟩

def fits (d : DiscoveryBuffer) (s : Sensor) : Bool :=
  (s.name.cString.length + uuidStringLen + 1 + 10 : Int) < d.remaining - 1

-- What fits leaves room for the bound of `strncpy`, which so copies the whole name.
def add (d : DiscoveryBuffer) (s : Sensor) : DiscoveryBuffer :=
  let text := d.text ++ (if 0 < d.count then ascii ", " else []) ++ s.entry
  ⟨text, text.length, d.remaining - (text.length - d.lastEntry), d.count + 1⟩

-- `none` for the jump to `err_exit`.
def addAll : List Sensor → DiscoveryBuffer → Option DiscoveryBuffer
  | [], d => some d
  | s :: rest, d => if d.fits s then addAll rest (d.add s) else none

def close (d : DiscoveryBuffer) : Bytes :=
  if 2 < d.remaining then d.text ++ ascii "]" else d.text

end DiscoveryBuffer

def buildDiscoveryBuffer (allocates : Bool) (sensors : List Sensor) (l : Locks SpinLock) :
    Except Int Bytes × Locks SpinLock :=
  if ¬ allocates then (.error enomem, l)
  else
    let l := l.rcuReadLock
    match (DiscoveryBuffer.start connectionMaxReply).addAll sensors with
    | none => (.error enomem, l)
    | some d => (.ok d.close, l.rcuReadUnlock)

/-- What one sensor adds to the buffer, with the separator before or the bracket behind it. -/
def Sensor.entryLength (s : Sensor) : Nat := s.name.cString.length + 46

def entriesLength (sensors : List Sensor) : Nat :=
  (sensors.map Sensor.entryLength).sum

theorem length_entry (s : Sensor) : s.entry.length + 2 = s.entryLength := by
  simp [Sensor.entry, Sensor.entryLength, ascii, uuidStringLen]

def discoveryText (sensors : List Sensor) : Bytes :=
  ascii "[" ++ (ascii ", ").intercalate (sensors.map Sensor.entry) ++ ascii "]"

def HasRoom (sensors : List Sensor) : Prop :=
  ∀ before s, before ++ [s] <+: sensors →
    s.entryLength + 1 + (entriesLength before - 1) < connectionMaxReply - 3

theorem hasRoom_snoc (sensors : List Sensor) (s : Sensor) :
    HasRoom (sensors ++ [s]) ↔
      HasRoom sensors ∧
        s.entryLength + 1 + (entriesLength sensors - 1) < connectionMaxReply - 3 := by
  constructor
  · intro room
    exact ⟨fun before t first => room before t (first.trans (List.prefix_append _ _)),
      room sensors s (List.prefix_refl _)⟩
  · rintro ⟨room, last⟩ before t first
    rcases List.prefix_concat_iff.mp first with same | shorter
    · obtain ⟨rfl, single⟩ := List.append_inj' same rfl
      obtain rfl := List.singleton_inj.mp single
      exact last
    · exact room before t shorter

namespace DiscoveryBuffer

theorem addAll_snoc (sensors : List Sensor) (s : Sensor) (d : DiscoveryBuffer) :
    addAll (sensors ++ [s]) d =
      (addAll sensors d).bind fun e => if e.fits s then some (e.add s) else none := by
  induction sensors generalizing d with
  | nil => simp [addAll]
  | cons t rest ih =>
    by_cases fits : d.fits t
    · simp [addAll, fits, ih]
    · simp [addAll, fits]

/-- The buffer while it is filled: its entries, and how much of it the code takes for used. -/
structure Filled (sensors : List Sensor) (d : DiscoveryBuffer) : Prop where
  text : d.text = ascii "[" ++ (ascii ", ").intercalate (sensors.map Sensor.entry)
  lastEntry : d.lastEntry = if sensors = [] then 0 else d.text.length
  remaining : d.remaining = connectionMaxReply - 2 - d.lastEntry
  count : d.count = sensors.length
  used : d.lastEntry = entriesLength sensors - 1

theorem filled_start : Filled [] (start connectionMaxReply) := by
  constructor <;> rfl

theorem Filled.fits_iff {sensors : List Sensor} {d : DiscoveryBuffer} (filled : Filled sensors d)
    (s : Sensor) :
    d.fits s ↔ s.entryLength + 1 + (entriesLength sensors - 1) < connectionMaxReply - 3 := by
  have used := filled.used
  have remaining := filled.remaining
  rw [fits, decide_eq_true_iff]
  simp only [Sensor.entryLength, connectionMaxReply, uuidStringLen] at remaining ⊢
  omega

theorem Filled.add {sensors : List Sensor} {d : DiscoveryBuffer} (filled : Filled sensors d)
    (s : Sensor) : Filled (sensors ++ [s]) (d.add s) := by
  have text : (d.add s).text =
      ascii "[" ++ (ascii ", ").intercalate ((sensors ++ [s]).map Sensor.entry) := by
    rw [List.map_append, List.map_singleton, Lists.intercalate_snoc]
    cases sensors with
    | nil => simp [DiscoveryBuffer.add, filled.text, filled.count]
    | cons t rest => simp [DiscoveryBuffer.add, filled.text, filled.count]
  refine ⟨text, by simp [DiscoveryBuffer.add], ?_, by simp [DiscoveryBuffer.add, filled.count], ?_⟩
  · have remaining := filled.remaining
    simp only [DiscoveryBuffer.add]
    omega
  · have size := length_entry s
    have used := filled.used
    have before := filled.lastEntry
    cases sensors with
    | nil =>
      have bracket : d.text.length = 1 := by simp [filled.text, ascii]
      simp [DiscoveryBuffer.add, filled.count, entriesLength, bracket, ← size, Nat.add_comm]
    | cons t rest =>
      have first : 2 ≤ t.entryLength := by simp [Sensor.entryLength]
      simp only [DiscoveryBuffer.add, filled.count, entriesLength, List.map_append, List.map_cons,
        List.sum_append, List.sum_cons, List.length_append, List.length_cons, reduceCtorEq,
        if_false] at used before ⊢
      simp [ascii]
      omega

theorem addAll_start (sensors : List Sensor) :
    (∃ d, addAll sensors (start connectionMaxReply) = some d ∧ HasRoom sensors ∧
      Filled sensors d) ∨
    (addAll sensors (start connectionMaxReply) = none ∧ ¬ HasRoom sensors) := by
  induction sensors using List.reverseRecOn with
  | nil => exact .inl ⟨_, rfl, fun before s first => by simp at first, filled_start⟩
  | append_singleton sensors s ih =>
    rw [addAll_snoc, hasRoom_snoc]
    rcases ih with ⟨d, added, room, filled⟩ | ⟨stopped, full⟩
    · simp only [added, Option.bind_some, ← filled.fits_iff s]
      by_cases fits : d.fits s
      · exact .inl ⟨d.add s, if_pos fits, ⟨room, fits⟩, filled.add s⟩
      · exact .inr ⟨if_neg fits, fun both => fits both.2⟩
    · exact .inr ⟨by simp [stopped], fun both => full both.1⟩

end DiscoveryBuffer

instance (sensors : List Sensor) : Decidable (HasRoom sensors) :=
  decidable_of_iff ((DiscoveryBuffer.start connectionMaxReply).addAll sensors).isSome (by
    rcases DiscoveryBuffer.addAll_start sensors with ⟨d, added, room, -⟩ | ⟨stopped, full⟩
    · simp [added, room]
    · simp [stopped, full])

-- What fits leaves room for the bracket that closes the list.
theorem DiscoveryBuffer.Filled.bracket {sensors : List Sensor} {d : DiscoveryBuffer}
    (filled : Filled sensors d) (room : HasRoom sensors) : 2 < d.remaining := by
  have used := filled.used
  have remaining := filled.remaining
  cases sensors using List.reverseRecOn with
  | nil => simp_all [entriesLength, connectionMaxReply]
  | append_singleton before s =>
    have last := ((hasRoom_snoc before s).mp room).2
    simp only [entriesLength, List.map_append, List.sum_append, List.map_singleton,
      List.sum_singleton, connectionMaxReply] at used last remaining
    omega

theorem buildDiscoveryBuffer_of_hasRoom {sensors : List Sensor} (room : HasRoom sensors)
    (l : Locks SpinLock) : buildDiscoveryBuffer true sensors l = (.ok (discoveryText sensors), l) := by
  rcases DiscoveryBuffer.addAll_start sensors with ⟨d, added, -, filled⟩ | ⟨-, full⟩
  · simp [buildDiscoveryBuffer, added, DiscoveryBuffer.close, filled.bracket room, filled.text,
      discoveryText]
  · exact absurd room full

theorem buildDiscoveryBuffer_of_not_hasRoom {sensors : List Sensor} (full : ¬ HasRoom sensors)
    (l : Locks SpinLock) :
    buildDiscoveryBuffer true sensors l = (.error enomem, l.rcuReadLock) := by
  rcases DiscoveryBuffer.addAll_start sensors with ⟨d, -, room, -⟩ | ⟨stopped, -⟩
  · exact absurd room full
  · simp [buildDiscoveryBuffer, stopped]

theorem buildDiscoveryBuffer_eq_ok {allocates : Bool} {sensors : List Sensor} {l : Locks SpinLock}
    {ids : Bytes} (built : (buildDiscoveryBuffer allocates sensors l).1 = .ok ids) :
    allocates = true ∧ HasRoom sensors := by
  cases allocates with
  | false => simp [buildDiscoveryBuffer] at built
  | true =>
    refine ⟨rfl, ?_⟩
    by_contra full
    simp [buildDiscoveryBuffer_of_not_hasRoom full] at built

structure DiscoveryAllocation where
  reply : Bool
  buffer : Bool
  line : Bool
  deriving DecidableEq, Repr

-- What `%s` prints stops at a zero byte.
def discoveryReply (nonce ids : Bytes) : Bytes :=
  replyHeader ++ quoted nonce.cString ++ ascii ", \"discovery\", " ++ ids ++ ascii "]\x7d\n"

-- The answer is the same on every path, and so is the end of the session.
def processDiscoveryRequest (env : Environment) (alloc : DiscoveryAllocation) (call : Call)
    (k : State) : Int × State :=
  let k :=
    if alloc.reply then
      match (buildDiscoveryBuffer alloc.buffer k.sensors Locks.none).1 with
      | .error _ => k
      | .ok ids =>
        if alloc.line then
          let line := scnprintf (connectionMaxHeader - 1)
            (discoveryReply (printedNonce env call.session.nonce) ids)
          if env.socketWrite call.message.socket line < 0 then k
          else { k with written := k.written ++ [(call.message.socket, line)] }
        else k
    else k
  (complete, k.freeSession call.session)

def Environment.withDiscovery (env : Environment) (alloc : DiscoveryAllocation) : Environment :=
  { env with discoveryRequest := processDiscoveryRequest env alloc }

theorem length_discoveryText (sensors : List Sensor) :
    (discoveryText sensors).length = max 2 (entriesLength sensors) := by
  have joined : sensors ≠ [] →
      ((ascii ", ").intercalate (sensors.map Sensor.entry)).length + 2 = entriesLength sensors := by
    induction sensors with
    | nil => simp
    | cons s rest ih =>
      have size := length_entry s
      intro _
      by_cases alone : rest = []
      · simp [alone, entriesLength, size]
      · have later := ih alone
        rw [List.map_cons, List.intercalate_cons_of_ne_nil (by simpa using alone)]
        simp only [entriesLength, List.map_cons, List.sum_cons, List.length_append] at later ⊢
        have separator : (ascii ", ").length = 2 := rfl
        omega
  cases sensors with
  | nil => rfl
  | cons s rest =>
    have size := joined (by simp)
    have bracket : (ascii "[").length = 1 ∧ (ascii "]").length = 1 := ⟨rfl, rfl⟩
    simp only [discoveryText, List.length_append]
    omega

def discoveryLength (nonce : Bytes) (sensors : List Sensor) : Nat :=
  63 + nonce.cString.length + max 2 (entriesLength sensors)

theorem length_discoveryReply (nonce : Bytes) (sensors : List Sensor) :
    (discoveryReply nonce (discoveryText sensors)).length = discoveryLength nonce sensors := by
  have header : replyHeader.length = 43 := rfl
  have middle : (ascii ", \"discovery\", ").length = 15 := rfl
  have brackets : (ascii "]\x7d\n").length = 3 ∧ (ascii "\"").length = 1 := ⟨rfl, rfl⟩
  simp only [discoveryReply, quoted, List.length_append, length_discoveryText, discoveryLength]
  omega

/-- The reply names every sensor and is closed: nothing of it was cut off. -/
structure DiscoveryComplete (nonce : Bytes) (sensors : List Sensor) (line : Bytes) : Prop where
  entries : ∀ s ∈ sensors, s.entry <:+: line
  closed : ascii "]]\x7d\n" <:+ line
  whole : line = discoveryReply nonce (discoveryText sensors)

theorem discoveryReply_complete (nonce : Bytes) (sensors : List Sensor) :
    DiscoveryComplete nonce sensors (discoveryReply nonce (discoveryText sensors)) := by
  refine ⟨fun s member => ?_, ?_, rfl⟩
  · have here : s.entry <:+: (ascii ", ").intercalate (sensors.map Sensor.entry) :=
      Lists.infix_intercalate (List.mem_map_of_mem member)
    have inText : s.entry <:+: discoveryText sensors :=
      here.trans ⟨ascii "[", ascii "]", rfl⟩
    exact inText.trans
      ⟨replyHeader ++ quoted nonce.cString ++ ascii ", \"discovery\", ", ascii "]\x7d\n", rfl⟩
  · exact ⟨replyHeader ++ quoted nonce.cString ++ ascii ", \"discovery\", " ++ ascii "[" ++
      (ascii ", ").intercalate (sensors.map Sensor.entry), by simp [discoveryReply, discoveryText, ascii]⟩

theorem scnprintf_complete_iff (nonce : Bytes) (sensors : List Sensor) :
    DiscoveryComplete nonce sensors
        (scnprintf (connectionMaxHeader - 1) (discoveryReply nonce (discoveryText sensors))) ↔
      discoveryLength nonce sensors ≤ 1022 := by
  rw [← length_discoveryReply]
  constructor
  · intro complete
    have size := congrArg List.length complete.whole
    simp only [scnprintf, connectionMaxHeader, List.length_take] at size
    omega
  · intro short
    have whole : scnprintf (connectionMaxHeader - 1) (discoveryReply nonce (discoveryText sensors)) =
        discoveryReply nonce (discoveryText sensors) := List.take_of_length_le short
    rw [whole]
    exact discoveryReply_complete nonce sensors

theorem State.newSession_written (k : State) (m : Message) :
    (k.newSession m).2.written = k.written := by
  simp only [State.newSession, State.garbageCollectSession]
  split <;> rfl

theorem processDiscoveryRequest_written (env : Environment) (alloc : DiscoveryAllocation)
    (call : Call) (k : State) (allocated : alloc = ⟨true, true, true⟩) (room : HasRoom k.sensors)
    (sent : ∀ reply, 0 ≤ env.socketWrite call.message.socket reply) :
    (processDiscoveryRequest env alloc call k).2.written =
      k.written ++ [(call.message.socket, scnprintf (connectionMaxHeader - 1)
        (discoveryReply (printedNonce env call.session.nonce) (discoveryText k.sensors)))] := by
  subst allocated
  simp only [processDiscoveryRequest, if_true, buildDiscoveryBuffer_of_hasRoom room]
  rw [if_neg (Int.not_lt.mpr (sent _))]
  rfl

theorem discovery_written {env : Environment} {alloc : DiscoveryAllocation} {socket : Nat}
    {line : Bytes} {k : State} {call : Call}
    (called : (parseJsonMessage (env.withDiscovery alloc) socket line k).called = some call)
    (command : call.command = .discovery) (allocated : alloc = ⟨true, true, true⟩)
    (room : HasRoom k.sensors) (sent : ∀ reply, 0 ≤ env.socketWrite socket reply) :
    (parseJsonMessage (env.withDiscovery alloc) socket line k).state.written =
      k.written ++ [(socket, scnprintf (connectionMaxHeader - 1)
        (discoveryReply (printedNonce env call.session.nonce) (discoveryText k.sensors)))] := by
  have handled := parseJsonMessage_handled (env.withDiscovery alloc) socket line k
  revert handled called
  generalize parseJsonMessage (env.withDiscovery alloc) socket line k = out
  intro called handled
  cases handled with
  | rejected ccode => simp at called
  | linked ccode nonce reply => simp at called
  | opened ccode nonce request => simp at called
  | called ccode nonce request c word =>
    obtain rfl := Option.some.inj called
    obtain rfl : c = .discovery := command
    have sensors : (Message.entry ((env.withDiscovery alloc).message socket line) k).sensors =
        k.sensors := k.newSession_sensors _
    have written : (Message.entry ((env.withDiscovery alloc).message socket line) k).written =
        k.written := k.newSession_written _
    have answered := processDiscoveryRequest_written env alloc
      (Message.call ((env.withDiscovery alloc).message socket line) k .discovery)
      (Message.entry ((env.withDiscovery alloc).message socket line) k)
      allocated (by rwa [sensors]) sent
    rw [sensors, written] at answered
    exact answered

/-- A discovery request is answered in full exactly when the answer fits the header buffer. -/
theorem discovery_complete_iff (env : Environment) (alloc : DiscoveryAllocation) (socket : Nat)
    (line : Bytes) (k : State) (call : Call)
    (called : (parseJsonMessage (env.withDiscovery alloc) socket line k).called = some call)
    (command : call.command = .discovery) (allocated : alloc.reply = true ∧ alloc.line = true)
    (l : Locks SpinLock) (ids : Bytes)
    (built : (buildDiscoveryBuffer alloc.buffer k.sensors l).1 = .ok ids)
    (sent : ∀ reply, 0 ≤ env.socketWrite socket reply) :
    ∃ reply, (parseJsonMessage (env.withDiscovery alloc) socket line k).state.written =
        k.written ++ [(socket, reply)] ∧
      (DiscoveryComplete (printedNonce env call.session.nonce) k.sensors reply ↔
        discoveryLength (printedNonce env call.session.nonce) k.sensors ≤ 1022) := by
  obtain ⟨buffer, room⟩ := buildDiscoveryBuffer_eq_ok built
  exact ⟨_, discovery_written called command (by cases alloc; simp_all) room sent,
    scnprintf_complete_iff _ k.sensors⟩

def discoveryLine : Bytes := psRequest (ascii "discovery")

def allAllocated : DiscoveryAllocation := ⟨true, true, true⟩

-- As many sensors as the list holds, all with the name of the ps sensor.
def registered (n : Nat) : State :=
  ⟨[], 0, (List.range n).map fun i => { kernelPs with uuid := List.replicate 16 i.toUInt8 }, []⟩

def discoveryOutcome (n : Nat) : Outcome :=
  parseJsonMessage (localEnvironment.withDiscovery allAllocated) 0 discoveryLine (registered n)

def discoveryCall (n : Nat) : Call :=
  Message.call ((localEnvironment.withDiscovery allAllocated).message 0 discoveryLine)
    (registered n) .discovery

theorem discovery_complete_two :
    ∃ reply, (discoveryOutcome 2).state.written = [(0, reply)] ∧
      DiscoveryComplete (ascii "n1") (registered 2).sensors reply := by
  have called : (discoveryOutcome 2).called = some (discoveryCall 2) := by decide +kernel
  have nonce : (discoveryCall 2).session.nonce = ascii "n1" := by decide +kernel
  have room : HasRoom (registered 2).sensors := by decide +kernel
  obtain ⟨reply, written, complete⟩ := discovery_complete_iff localEnvironment allAllocated 0
    discoveryLine (registered 2) (discoveryCall 2) called rfl ⟨rfl, rfl⟩ Locks.none _
    (congrArg Prod.fst (buildDiscoveryBuffer_of_hasRoom room Locks.none))
    (fun reply => Int.natCast_nonneg _)
  rw [nonce] at complete
  exact ⟨reply, written, complete.mpr (by decide +kernel)⟩

-- Eighteen sensors fill less than a third of the buffer that is built.
theorem discovery_reply_cut :
    (buildDiscoveryBuffer true (registered 18).sensors Locks.none).1 =
      .ok (discoveryText (registered 18).sensors) ∧
    (discoveryOutcome 18).called = some (discoveryCall 18) ∧
    (discoveryCall 18).command = .discovery ∧
    ∃ reply, (discoveryOutcome 18).state.written = [(0, reply)] ∧
      ¬ DiscoveryComplete (ascii "n1") (registered 18).sensors reply := by
  have room : HasRoom (registered 18).sensors := by decide +kernel
  have called : (discoveryOutcome 18).called = some (discoveryCall 18) := by decide +kernel
  have nonce : printedNonce localEnvironment (discoveryCall 18).session.nonce = ascii "n1" := by
    decide +kernel
  have written := discovery_written called rfl rfl room fun _ => Int.natCast_nonneg _
  refine ⟨congrArg Prod.fst (buildDiscoveryBuffer_of_hasRoom room Locks.none), called, rfl,
    _, written, ?_⟩
  rw [nonce, scnprintf_complete_iff]
  decide +kernel

end VirtueSensing.Kernel
