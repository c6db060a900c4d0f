import VirtueSensing.Kernel.SensorLookup
import VirtueSensing.Relay.Controller
import VirtueSensing.Relay.Requests
import VirtueSensing.Relay.RoundTrip

set_option autoImplicit false

/-!
# The polls of the relay

What the controller answers when the relay asks one of its sensors for the records, and what the relay
reads of it, whatever else the controller has done before.
-/

namespace VirtueSensing.Relay

open JsonText Kernel

section Texts

theorem mem_printUuid {uuid : Bytes} {b : UInt8} (member : b ∈ printUuid uuid) :
    b = 45 ∨ ∃ n < 16, b = hexDigit n := by
  obtain ⟨i, -, inside⟩ := List.mem_flatMap.mp member
  rcases List.mem_append.mp inside with dash | digits
  · split at dash
    · exact .inl (by simpa [ascii] using dash)
    · simp at dash
  · simp only [List.mem_cons, List.not_mem_nil, or_false] at digits
    rcases digits with rfl | rfl
    · exact .inr ⟨_, (halves_lt _).1, rfl⟩
    · exact .inr ⟨_, (halves_lt _).2, rfl⟩

theorem hexDigit_plain {n : UInt8} (small : n < 16) :
    isPlainAscii (hexDigit n) ∧ toLower (hexDigit n) = hexDigit n := by
  have each : ∀ m < 16, isPlainAscii (hexDigit (UInt8.ofNat m)) ∧
      toLower (hexDigit (UInt8.ofNat m)) = hexDigit (UInt8.ofNat m) := by decide
  have here := each n.toNat (UInt8.lt_iff_toNat_lt.mp small)
  rwa [UInt8.ofNat_toNat] at here

theorem plain_printUuid (uuid : Bytes) : ∀ b ∈ printUuid uuid, isPlainAscii b := by
  intro b member
  rcases mem_printUuid member with rfl | ⟨n, small, rfl⟩
  · decide
  · exact (hexDigit_plain small).1

theorem toLower_printUuid (uuid : Bytes) : (printUuid uuid).map toLower = printUuid uuid := by
  conv_rhs => rw [← List.map_id (printUuid uuid)]
  apply List.map_congr_left
  intro b member
  rcases mem_printUuid member with rfl | ⟨n, small, rfl⟩
  · decide
  · exact (hexDigit_plain small).2

theorem HexNonce.plain {nonce : Bytes} (hex : HexNonce nonce) : ∀ b ∈ nonce, isPlainAscii b := by
  intro b member
  have digit := hex.digits b member
  simp only [isPlainAscii, JsonText.quote, JsonText.backslash]
  grind

theorem length_dumpsString {text : Bytes} (plain : ∀ b ∈ text, isPlainAscii b) :
    (dumpsString text).length = text.length + 2 := by
  rw [dumpsString, escapeText_plain plain]
  simp

theorem withinLimits_requestLine {nonce sensor : Bytes} (hex : HexNonce nonce) (c : Command)
    (plain : ∀ b ∈ sensor, isPlainAscii b)
    (sized : 0 < sensor.length ∧ sensor.length ≤ uuidStringLen) :
    WithinLimits (requestLine nonce c.word sensor) nonce c.word sensor [] := by
  have word : (∀ b ∈ c.word, isPlainAscii b) ∧ 0 < c.word.length ∧ c.word.length < 20 := by
    cases c <;> decide
  have length := hex.length
  have small : uuidStringLen = 36 := rfl
  refine ⟨?_, by decide, by rw [length]; decide, ⟨word.2.1, ?_⟩, sized.1, ?_⟩
  · simp only [requestLine, List.length_append, length_dumpsString hex.plain, length_dumpsString word.1,
      length_dumpsString plain]
    have texts : (ascii "\x7b\"Virtue-protocol-version\": 0.1, \"request\": [").length = 45 ∧
        (ascii ", ").length = 2 ∧ (ascii "]\x7d\n").length = 3 := ⟨rfl, rfl, rfl⟩
    have limit : maxLineLen = 4096 := rfl
    omega
  · have limit : maxCmdSize = 128 := rfl
    omega
  · have limit : maxNameSize = 128 := rfl
    omega

end Texts

section Polls

variable {u : Uuids} {start : Arrays} {m : KernelModule} {r : Request}

/-- Two sensors of sixteen bytes each, which differ. -/
structure Uuids.Distinct (u : Uuids) : Prop where
  lsof : u.lsof.length = 16
  ps : u.ps.length = 16
  apart : u.lsof ≠ u.ps

theorem Loaded.two (loaded : Loaded u start m) : ∃ s t, m.kernel.sensors = [s, t] ∧
    s.name = ascii "Kernel LSOF Sensor" ∧ s.uuid = u.lsof ∧ t.name = ascii "Kernel PS Sensor" ∧
    t.uuid = u.ps := by
  have same := loaded.sensors
  simp only [identities, registered, List.map_cons, List.map_nil] at same
  obtain ⟨s, rest, sensors, first, others⟩ := List.map_eq_cons_iff.mp same
  obtain ⟨t, rest, rfl, second, none⟩ := List.map_eq_cons_iff.mp others
  obtain rfl := List.map_eq_nil_iff.mp none
  obtain ⟨name, uuid⟩ := Prod.mk.inj first
  obtain ⟨otherName, otherUuid⟩ := Prod.mk.inj second
  exact ⟨s, t, sensors, name, uuid, otherName, otherUuid⟩

theorem Loaded.found (loaded : Loaded u start m) (distinct : u.Distinct) {i : Nat} {s : Sensor}
    (there : (registered u)[i]? = some s) :
    getSensor (printUuid s.uuid) m.kernel.sensors = .ok i := by
  obtain ⟨first, second, sensors, name, uuid, otherName, otherUuid⟩ := loaded.two
  have listed : m.kernel.sensors[i]?.map Sensor.uuid = some s.uuid := by
    rw [sensors]
    rcases i with _ | _ | i
    · cases there
      simp [uuid]
    · cases there
      simp [otherUuid]
    · simp [registered] at there
  obtain ⟨t, here, own⟩ := Option.map_eq_some_iff.mp listed
  have text : ∀ s ∈ m.kernel.sensors, 0 ∉ s.name := by
    rw [sensors]
    simp only [List.forall_mem_cons, name, otherName]
    exact ⟨by decide, by decide, by simp⟩
  have visible : 0 ∉ printUuid s.uuid := by
    intro member
    have plain := plain_printUuid s.uuid 0 member
    simp [isPlainAscii] at plain
  rw [← sensorFound_eq text, (printUuid s.uuid).cString_eq_self visible]
  refine @sensorFound_uuid (printUuid s.uuid) m.kernel.sensors ?_ ?_ i t here ?_
  · rw [sensors]
    simp [uuid, otherUuid, distinct.lsof, distinct.ps]
  · rw [sensors]
    simp [uuid, otherUuid, distinct.apart]
  · rw [toLower_printUuid, own]

structure Request.Succeeds (r : Request) : Prop where
  records : ∀ i, r.records.records i ∧ r.records.reply i
  socketWrite : ∀ socket line, 0 ≤ r.socketWrite socket line

theorem sentTo_own {socket : Nat} {k after : State} {sent : List (Nat × Bytes)}
    (written : after.written = k.written ++ sent) (own : ∀ w ∈ sent, w.1 = socket) :
    sentTo socket k after = sent.flatMap Prod.snd := by
  rw [sentTo, written, List.drop_left, List.filter_eq_self.mpr fun w member => decide_eq_true (own w member)]

theorem sentTo_other {socket other : Nat} {k after : State} (answered : Answered other k after)
    (apart : other ≠ socket) : sentTo socket k after = [] := by
  obtain ⟨sent, written, own⟩ := answered.written
  have none : sent.filter (fun w => w.1 = socket) = [] := by
    rw [List.filter_eq_nil_iff]
    intro w member
    simp [own w member, apart]
  rw [sentTo, written, List.drop_left, none, List.flatMap_nil]

theorem receive_eq {socket : Nat} {line : Bytes} {out : Outcome} {call : Call} {arrays : Arrays}
    (parsed : parseJsonMessage (r.environment u m.arrays) socket line m.kernel = out)
    (called : out.called = some call) (probed : m.probe u r call = some arrays) :
    m.receive u socket line r = some (out.ccode, ⟨out.state, arrays, r.nonce :: m.drawn⟩) := by
  unfold KernelModule.receive
  rw [parsed]
  simp only [called, probed, Option.map_some]

theorem finish_complete (k : State) (opened : Option Session) (called : Option Call) :
    finish ⟨complete, k, opened, called⟩ = ⟨0, k, opened, called⟩ := rfl

section Entering

variable {nonce sensor : Bytes} (hex : HexNonce nonce) {socket : Nat}

theorem isText_plain {nonce cmd sensor : Bytes} (nonces : ∀ b ∈ nonce, isPlainAscii b)
    (word : ∀ b ∈ cmd, isPlainAscii b) (plain : ∀ b ∈ sensor, isPlainAscii b) :
    Jsmn.IsText (requestLine nonce cmd sensor) (requestValue nonce cmd sensor []) := by
  have text := isText_requestLine nonce cmd sensor
  rwa [escapeText_plain nonces, escapeText_plain word, escapeText_plain plain] at text

theorem printedNonce_hex (env : Environment) (hex : HexNonce nonce) : printedNonce env nonce = nonce := by
  rw [printedNonce, hex.length]
  rfl

/-- The line has come to the handler of its command. The session is new, and nothing was sent yet. -/
structure Entered (env : Environment) (k : State) (socket : Nat) (line nonce sensor : Bytes)
    (c : Command) (call : Call) (entry : State) : Prop where
  handled : ∃ opened, parseJsonMessage env socket line k =
    finish ⟨(env.run call entry).1, (env.run call entry).2, opened, some call⟩
  command : call.command = c
  sender : call.message.socket = socket
  own : call.session.socket = socket
  asks : call.session.nonce = nonce
  named : call.session.sensorName = sensor
  unsent : call.session.replies = []
  sensors : entry.sensors = k.sensors
  before : entry.written = k.written

include hex in
theorem entered_requestLine {env : Environment} (jsmn : env.jsmnParse = Jsmn.parse maxTokens) (c : Command)
    (plain : ∀ b ∈ sensor, isPlainAscii b) (sized : 0 < sensor.length ∧ sensor.length ≤ uuidStringLen)
    (socket : Nat) (k : State) :
    ∃ call entry, Entered env k socket (requestLine nonce c.word sensor) nonce sensor c call entry := by
  have text : Jsmn.IsText (requestLine nonce c.word sensor) (requestValue nonce c.word sensor []) :=
    isText_plain hex.plain (by cases c <;> decide) plain
  have limits := withinLimits_requestLine hex c plain sized
  generalize requestLine nonce c.word sensor = line at text limits ⊢
  obtain ⟨handled, nonceText, -, sensorText⟩ := @text_handled env line nonce c.word sensor [] socket jsmn
    text limits c (indexCommand_word c) k
  exact ⟨_, _, ⟨_, handled⟩, rfl, rfl, rfl, nonceText, (sensorNameOf_eq _).trans sensorText, rfl,
    k.newSession_sensors _, k.newSession_written _⟩

end Entering

section Requests

variable (loaded : Loaded u start m) (distinct : u.Distinct) (succeeds : r.Succeeds) {nonce : Bytes}
  (hex : HexNonce nonce) {i : Nat} {s : Sensor} (there : (registered u)[i]? = some s)
  (fresh : r.nonce ∉ m.drawn)
  (room : ((r.source u i).run r.nonce).length < (m.arrays.get (r.source u i)).size)
  (turns : ((r.source u i).run r.nonce).length < r.turns)

-- The records of a run, under the indices that they are asked for.
def Request.entries (u : Uuids) (r : Request) (i : Nat) : List (RecordSource.Entry (r.source u i)) :=
  (r.source u i).entriesFrom 0 ((r.source u i).run r.nonce)

include loaded distinct succeeds there fresh room turns in
theorem recordsRequest_run {call : Call} {k : State} (sensors : k.sensors = m.kernel.sensors)
    (named : call.session.sensorName = printUuid s.uuid) (unsent : call.session.replies = []) :
    ∃ data, r.recordsRequest u m.arrays call k = some (complete,
      (k.send call.session.socket ((r.source u i).lines (printedNonce r.calls call.session.nonce) r.nonce
        (r.entries u i) true)).freeSession call.session, m.arrays.set (r.source u i) data) := by
  have found : getSensor call.session.sensorName k.sensors = .ok i := by
    rw [named, sensors]
    exact loaded.found distinct there
  have asked : r.asked u call k = r.source u i := by
    rw [Request.asked, found]
  have other (j : Nat) : (r.source u i).clearOf ((m.arrays.get (r.source u i)).slot j) = flexArrayFree ∨
      (r.source u i).nonceOf ((m.arrays.get (r.source u i)).slot j) ≠ r.nonce :=
    (loaded.marked (r.source u i) j).imp id fun member same => fresh (same ▸ member)
  have nonzero : r.nonce ≠ 0 := fun zero => fresh (zero ▸ loaded.zero)
  obtain ⟨data, ran⟩ := @processRecordsRequest_run (r.source u i) r.calls r.records r.turns r.nonce call
    (m.arrays.get (r.source u i)) k ⟨i, found⟩ succeeds.records (fun line => succeeds.socketWrite _ line)
    unsent nonzero room other turns
  refine ⟨data, ?_⟩
  rw [Request.recordsRequest, asked]
  dsimp only
  rw [ran]
  rfl

include loaded distinct succeeds hex there fresh room turns in
theorem receive_records (socket : Nat) : ∃ after,
    m.receive u socket (requestLine nonce Command.records.word (printUuid s.uuid)) r = some (0, after) ∧
      sentTo socket m.kernel after.kernel =
        streamOf ((r.source u i).lines nonce r.nonce (r.entries u i) true) := by
  obtain ⟨call, entry, entered⟩ := @entered_requestLine nonce (printUuid s.uuid) hex
    (r.environment u m.arrays) rfl .records (plain_printUuid s.uuid)
    ⟨by rw [length_printUuid]; decide, Nat.le_of_eq (length_printUuid s.uuid)⟩ socket m.kernel
  obtain ⟨data, ran⟩ := recordsRequest_run loaded distinct succeeds there fresh room turns
    entered.sensors entered.named entered.unsent
  obtain ⟨stored, probed⟩ := @recordsRequest_run u start m r loaded distinct succeeds i s there fresh
    room turns call m.kernel rfl entered.named entered.unsent
  rw [entered.asks, entered.own, printedNonce_hex _ hex] at ran
  have run : (r.environment u m.arrays).run call entry = (complete,
      (entry.send socket ((r.source u i).lines nonce r.nonce (r.entries u i) true)).freeSession
        call.session) := by
    unfold Environment.run
    rw [entered.command]
    show (r.environment u m.arrays).recordsRequest call entry = _
    simp only [Request.environment, ran]
  have arrays : m.probe u r call = some (m.arrays.set (r.source u i) stored) := by
    unfold KernelModule.probe
    rw [entered.command]
    show (r.recordsRequest u m.arrays call m.kernel).map _ = _
    rw [probed]
    rfl
  obtain ⟨opened, handled⟩ := entered.handled
  rw [run, finish_complete] at handled
  refine ⟨_, receive_eq handled rfl arrays, ?_⟩
  have written : ((entry.send socket ((r.source u i).lines nonce r.nonce (r.entries u i)
      true)).freeSession call.session).written = m.kernel.written ++
        ((r.source u i).lines nonce r.nonce (r.entries u i) true).map
          fun line => (socket, line ++ [0]) := by
    rw [← entered.before]
    rfl
  rw [sentTo_own written (by simp), List.flatMap_def, List.map_map, streamOf]
  rfl

theorem entries_typed {size : Nat} (small : size ≤ 2 ^ 31)
    (inside : ((r.source u i).run r.nonce).length < size) (typed : (r.source u i).TypedTasks) :
    ∀ e ∈ r.entries u i, e.Typed := by
  intro e member
  obtain ⟨j, short, rfl⟩ := List.mem_mapIdx.mp member
  exact ⟨by dsimp only; omega, (r.source u i).run_typed typed (List.getElem_mem short)⟩

end Requests

end Polls

end VirtueSensing.Relay
