import VirtueSensing.Kernel.Discovery
import VirtueSensing.Kernel.PsSensor
import VirtueSensing.Shared.Machine

set_option autoImplicit false

/-!
# Sessions per socket

Messages arrive on any number of sockets, one after the other. `garbage_collect_session` ends at
most one session before a new one is opened, and not every handler ends the session of its request.
-/

namespace VirtueSensing.Kernel

variable {σ : Type}

/-- A line on a socket, and what the calls made for it will find. -/
structure Arrival (σ : Type) where
  socket : Nat
  line : Bytes
  allocates : Bool
  discovery : DiscoveryAllocation
  records : Allocation
  turns : Nat
  nonce : UInt64
  data : σ
  socketWrite : Nat → Bytes → Int
  behindNonce : Bytes

def Arrival.calls (a : Arrival σ) : Environment where
  jsmnParse := Jsmn.parse maxTokens
  allocates := a.allocates
  socketWrite := a.socketWrite
  behindNonce := a.behindNonce
  discoveryRequest := fun _ k => (0, k)
  recordsRequest := fun _ k => (0, k)

def Arrival.recordsRequest (message : SensorMessage σ) (a : Arrival σ) (call : Call) (k : State) :
    Option (Int × State × σ) :=
  processRecordsRequest a.calls message a.records a.turns a.nonce call a.data k

-- A records request whose loop needs more turns has not changed the sessions yet.
def Arrival.environment (message : SensorMessage σ) (a : Arrival σ) : Environment :=
  { a.calls with
    discoveryRequest := processDiscoveryRequest a.calls a.discovery
    recordsRequest := fun call k =>
      match a.recordsRequest message call k with
      | some (ccode, k, _) => (ccode, k)
      | none => (0, k) }

structure Controller where
  kernel : State
  -- For each socket the session opened for its latest request.
  latest : Nat → Option Nat

def Controller.receive (message : SensorMessage σ) (c : Controller) (a : Arrival σ) : Controller :=
  let out := parseJsonMessage (a.environment message) a.socket a.line c.kernel
  { kernel := out.state
    latest :=
      match out.opened with
      | some s => Function.update c.latest a.socket (some s.id)
      | none => c.latest }

def sessionMachine (message : SensorMessage σ) (sensors : List Sensor) :
    Machine Controller (Arrival σ) where
  initial := ⟨⟨[], 0, sensors, []⟩, fun _ => none⟩
  step c a := some (c.receive message a)

theorem writeSessionReplies_sessions (env : Environment) (s : Session) (k : State) :
    (writeSessionReplies env s k).2.sessions = k.sessions ∧
      (writeSessionReplies env s k).2.nextSession = k.nextSession := by
  have written (lines : List Bytes) (k : State) :
      (writeSessionReplies.go env s lines k).2.sessions = k.sessions ∧
        (writeSessionReplies.go env s lines k).2.nextSession = k.nextSession := by
    induction lines generalizing k with
    | nil => exact ⟨rfl, rfl⟩
    | cons line rest ih =>
      unfold writeSessionReplies.go
      dsimp only
      split
      · exact ⟨rfl, rfl⟩
      · exact ih _
  unfold writeSessionReplies
  split
  · exact ⟨rfl, rfl⟩
  · exact written s.replies k

/-- A handler opens no session and ends none but, where `ends` says so, that of its call. -/
structure KeepsOthers (ends : Bool) (call : Call) (before after : State) : Prop where
  sessions : after.sessions =
    if ends then (before.freeSession call.session).sessions else before.sessions
  next : after.nextSession = before.nextSession

theorem KeepsOthers.refl (call : Call) (k : State) : KeepsOthers false call k k :=
  ⟨rfl, rfl⟩

theorem KeepsOthers.written (env : Environment) {call : Call} {before k : State} {s : Session}
    (same : s.id = call.session.id) (sessions : k.sessions = before.sessions)
    (next : k.nextSession = before.nextSession) :
    KeepsOthers true call before ((writeSessionReplies env s k).2.freeSession s) := by
  obtain ⟨kept, count⟩ := writeSessionReplies_sessions env s k
  refine ⟨?_, count.trans next⟩
  simp only [State.freeSession, kept, sessions, same, if_true]

-- A sensor that is not found leaves the session open.
def findsSensor (call : Call) (k : State) : Bool :=
  match getSensor call.session.sensorName k.sensors with
  | .error _ => false
  | .ok i => k.sensors[i]?.isSome

theorem processStateRequest_keepsOthers (env : Environment) (call : Call) (k : State) :
    KeepsOthers (findsSensor call k) call k (processStateRequest env call k).2 := by
  unfold processStateRequest findsSensor
  cases getSensor call.session.sensorName k.sensors with
  | error ccode => exact .refl call k
  | ok i =>
    cases found : k.sensors[i]? with
    | none => simpa [found] using KeepsOthers.refl call k
    | some sensor =>
      simp only [found, Option.isSome_some]
      by_cases allocates : env.allocates
      · rw [if_pos allocates]
        exact .written env rfl rfl rfl
      · rw [if_neg allocates]
        exact ⟨rfl, rfl⟩

theorem processDiscoveryRequest_keepsOthers (env : Environment) (alloc : DiscoveryAllocation)
    (call : Call) (k : State) :
    KeepsOthers true call k (processDiscoveryRequest env alloc call k).2 := by
  unfold processDiscoveryRequest
  dsimp only
  split
  · split
    · exact ⟨rfl, rfl⟩
    · split
      · split
        · exact ⟨rfl, rfl⟩
        · exact ⟨rfl, rfl⟩
      · exact ⟨rfl, rfl⟩
  · exact ⟨rfl, rfl⟩

def recordsEnd (call : Call) (k : State) : Bool :=
  match getSensor call.session.sensorName k.sensors with
  | .error _ => false
  | .ok _ => true

theorem processRecordsRequest_keepsOthers {env : Environment} {message : SensorMessage σ}
    {alloc : Allocation} {turns : Nat} {nonce : UInt64} {call : Call} {data : σ} {k : State}
    {result : Int × State × σ}
    (ended : processRecordsRequest env message alloc turns nonce call data k = some result) :
    KeepsOthers (recordsEnd call k) call k result.2.1 := by
  unfold processRecordsRequest at ended
  unfold recordsEnd
  cases sensor : getSensor call.session.sensorName k.sensors with
  | error ccode =>
    simp only [sensor, Option.some.injEq] at ended
    subst ended
    exact .refl call k
  | ok i =>
    simp only [sensor] at ended
    obtain ⟨s, -, linked⟩ := Option.bind_eq_some_iff.mp ended
    obtain rfl := Option.some.inj linked
    exact .written env rfl rfl rfl

-- Whether the handler of a call gets to `free_session`.
def Arrival.endsSession (message : SensorMessage σ) (a : Arrival σ) (call : Call) (k : State) : Bool :=
  match cmdTable call.command with
  | .jsmnCmd => false
  | .discoveryRequest => true
  | .stateRequest => findsSensor call k
  | .recordsRequest => (a.recordsRequest message call k).isSome && recordsEnd call k

theorem Arrival.run_keepsOthers (message : SensorMessage σ) (a : Arrival σ) (call : Call) (k : State) :
    KeepsOthers (a.endsSession message call k) call k ((a.environment message).run call k).2 := by
  unfold Environment.run Arrival.endsSession
  cases cmdTable call.command with
  | jsmnCmd => exact .refl call k
  | discoveryRequest => exact processDiscoveryRequest_keepsOthers a.calls a.discovery call k
  | stateRequest => exact processStateRequest_keepsOthers (a.environment message) call k
  | recordsRequest =>
    simp only [Arrival.environment]
    cases ended : a.recordsRequest message call k with
    | none => exact .refl call k
    | some result => simpa using processRecordsRequest_keepsOthers ended

/-- Every session is the latest of its socket, and sessions are numbered apart. -/
structure Tracked (k : State) (latest : Nat → Option Nat) : Prop where
  fresh : ∀ s ∈ k.sessions, s.id < k.nextSession
  distinct : (k.sessions.map Session.id).Nodup
  latest : ∀ s ∈ k.sessions, latest s.socket = some s.id

namespace Tracked

variable {k : State} {latest : Nat → Option Nat} (tracked : Tracked k latest)
include tracked

theorem of_sublist {after : State} (sessions : after.sessions.Sublist k.sessions)
    (next : after.nextSession = k.nextSession) : Tracked after latest := by
  refine ⟨fun s member => ?_, tracked.distinct.sublist (sessions.map Session.id), fun s member => ?_⟩
  · rw [next]
    exact tracked.fresh s (sessions.subset member)
  · exact tracked.latest s (sessions.subset member)

theorem freeSession (s : Session) : Tracked (k.freeSession s) latest :=
  tracked.of_sublist List.filter_sublist rfl

theorem keepsOthers {ends : Bool} {call : Call} {after : State}
    (keeps : KeepsOthers ends call k after) : Tracked after latest := by
  cases ends with
  | false => exact tracked.of_sublist (by rw [keeps.sessions]; rfl) keeps.next
  | true => exact (tracked.freeSession call.session).of_sublist (by rw [keeps.sessions]; rfl) keeps.next

theorem linkReply (m : Message) : Tracked (k.linkReply m) latest := by
  have linked : ∀ s ∈ (k.linkReply m).sessions, ∃ t ∈ k.sessions, s.id = t.id ∧ s.socket = t.socket := by
    intro s member
    obtain ⟨t, inside, rfl⟩ := List.mem_map.mp member
    refine ⟨t, inside, ?_⟩
    split <;> exact ⟨rfl, rfl⟩
  refine ⟨fun s member => ?_, ?_, fun s member => ?_⟩
  · obtain ⟨t, inside, id, -⟩ := linked s member
    rw [id]
    exact tracked.fresh t inside
  · have ids : (k.linkReply m).sessions.map Session.id = k.sessions.map Session.id := by
      simp only [State.linkReply, List.map_map]
      apply List.map_congr_left
      intro t inside
      simp only [Function.comp_apply]
      split <;> rfl
    rw [ids]
    exact tracked.distinct
  · obtain ⟨t, inside, id, socket⟩ := linked s member
    rw [id, socket]
    exact tracked.latest t inside

theorem garbageCollectSession (socket : Nat) : Tracked (k.garbageCollectSession socket) latest := by
  unfold State.garbageCollectSession
  split
  · exact tracked
  · exact tracked.freeSession _

-- Removing the first session of a socket is enough, since there is no second one.
theorem garbageCollectSession_socket {socket : Nat} {s : Session}
    (member : s ∈ (k.garbageCollectSession socket).sessions) : s.socket ≠ socket := by
  unfold State.garbageCollectSession at member
  cases found : k.sessions.find? fun t => t.socket = socket with
  | none =>
    simp only [found] at member
    simpa using List.find?_eq_none.mp found s member
  | some t =>
    simp only [found, State.freeSession, List.mem_filter, decide_eq_true_eq] at member
    intro same
    have first : t.socket = socket := by simpa using List.find?_some found
    have here := tracked.latest s member.1
    have there := tracked.latest t (List.mem_of_find?_eq_some found)
    rw [same, ← first, there] at here
    exact member.2 (Option.some.inj here).symm

theorem newSession (m : Message) :
    Tracked (k.newSession m).2
      (Function.update latest m.socket (some (k.newSession m).1.id)) := by
  have collected := tracked.garbageCollectSession m.socket
  refine ⟨fun s member => ?_, ?_, fun s member => ?_⟩
  · rcases List.mem_cons.mp member with rfl | older
    · exact Nat.lt_succ_self _
    · exact Nat.lt_succ_of_lt (collected.fresh s older)
  · refine List.nodup_cons.mpr ⟨fun member => ?_, collected.distinct⟩
    obtain ⟨t, inside, same⟩ := List.mem_map.mp member
    exact absurd (collected.fresh t inside) (by rw [same]; exact Nat.lt_irrefl _)
  · rcases List.mem_cons.mp member with rfl | older
    · exact Function.update_self ..
    · rw [Function.update_of_ne (tracked.garbageCollectSession_socket older)]
      exact collected.latest s older

theorem entry (m : Message) :
    Tracked (m.entry k) (Function.update latest m.socket (some (k.newSession m).1.id)) := by
  have opened := tracked.newSession m
  have sameParts : ∀ t ∈ (k.newSession m).2.sessions,
      (if t.id = ((k.newSession m).1.fill m).id then (k.newSession m).1.fill m else t).id = t.id ∧
      (if t.id = ((k.newSession m).1.fill m).id then (k.newSession m).1.fill m else t).socket =
        t.socket := by
    intro t inside
    by_cases same : t.id = ((k.newSession m).1.fill m).id
    · rw [if_pos same]
      refine ⟨same.symm, ?_⟩
      rcases List.mem_cons.mp inside with rfl | older
      · rfl
      · have number := (tracked.garbageCollectSession m.socket).fresh t older
        exact absurd number (by rw [same]; exact Nat.lt_irrefl _)
    · rw [if_neg same]
      exact ⟨rfl, rfl⟩
  refine ⟨fun s member => ?_, ?_, fun s member => ?_⟩
  · obtain ⟨t, inside, rfl⟩ := List.mem_map.mp member
    rw [(sameParts t inside).1]
    exact opened.fresh t inside
  · have ids : (m.entry k).sessions.map Session.id = (k.newSession m).2.sessions.map Session.id := by
      simp only [Message.entry, State.update, List.map_map]
      exact List.map_congr_left fun t inside => (sameParts t inside).1
    rw [ids]
    exact opened.distinct
  · obtain ⟨t, inside, rfl⟩ := List.mem_map.mp member
    rw [(sameParts t inside).1, (sameParts t inside).2]
    exact opened.latest t inside

theorem one_per_socket (socket : Nat) :
    (k.sessions.filter fun s => s.socket = socket).length ≤ 1 := by
  have distinct : ((k.sessions.filter fun s => s.socket = socket).map Session.id).Nodup :=
    tracked.distinct.sublist (List.filter_sublist.map Session.id)
  have same : ∀ s ∈ k.sessions.filter fun s => s.socket = socket, latest socket = some s.id := by
    intro s member
    obtain ⟨inside, here⟩ := List.mem_filter.mp member
    rw [← of_decide_eq_true here]
    exact tracked.latest s inside
  generalize (k.sessions.filter fun s => s.socket = socket) = listed at distinct same
  cases listed with
  | nil => exact Nat.zero_le _
  | cons s rest =>
    cases rest with
    | nil => exact Nat.le_refl _
    | cons t rest =>
      have first := same s (by simp)
      have second := same t (by simp)
      simp [Option.some.inj (first.symm.trans second)] at distinct

end Tracked

/-- What each way to handle a line keeps holds of the state behind the line. -/
theorem Controller.receive_cases (message : SensorMessage σ) (c : Controller) (a : Arrival σ)
    {motive : State → (Nat → Option Nat) → Prop} (rejected : motive c.kernel c.latest)
    (linked : ∀ m : Message, motive (c.kernel.linkReply m) c.latest)
    (opened : ∀ m : Message, m.socket = a.socket → m.hasNonce → motive (c.kernel.newSession m).2
      (Function.update c.latest a.socket (some (c.kernel.newSession m).1.id)))
    (called : ∀ (m : Message) (command : Command), m.socket = a.socket → m.hasNonce →
      motive ((a.environment message).run (m.call c.kernel command) (m.entry c.kernel)).2
        (Function.update c.latest a.socket (some (c.kernel.newSession m).1.id))) :
    motive (c.receive message a).kernel (c.receive message a).latest := by
  have handled := parseJsonMessage_handled (a.environment message) a.socket a.line c.kernel
  unfold Controller.receive
  revert handled
  generalize parseJsonMessage (a.environment message) a.socket a.line c.kernel = out
  intro handled
  cases handled with
  | rejected ccode => exact rejected
  | linked ccode nonce reply => exact linked _
  | opened ccode nonce request => exact opened _ rfl nonce
  | called ccode nonce request command word => exact called _ command rfl nonce

/-- What every line keeps holds after a run. -/
theorem Controller.run_keeps (message : SensorMessage σ) (sensors : List Sensor)
    {motive : Controller → Prop} (start : motive (sessionMachine message sensors).initial)
    (receive : ∀ (c : Controller) (a : Arrival σ), motive c → motive (c.receive message a))
    {arrivals : List (Arrival σ)} {c : Controller}
    (reached : (sessionMachine message sensors).run arrivals = some c) : motive c := by
  refine (sessionMachine message sensors).invariant start ?_ ⟨arrivals, reached⟩
  intro s a t _ holds moved
  obtain rfl := Option.some.inj moved
  exact receive s a holds

theorem receive_tracked (message : SensorMessage σ) {c : Controller}
    (tracked : Tracked c.kernel c.latest) (a : Arrival σ) :
    Tracked (c.receive message a).kernel (c.receive message a).latest := by
  apply c.receive_cases message a
  · exact tracked
  · exact fun m => tracked.linkReply m
  · exact fun m socket _ => socket ▸ tracked.newSession m
  · exact fun m command socket _ =>
      (socket ▸ tracked.entry m).keepsOthers (a.run_keepsOthers message _ _)

/-- Of any socket there is at most one session, and it is that of the latest request that opened
one. -/
theorem session_latest_of_socket (message : SensorMessage σ) (sensors : List Sensor)
    (arrivals : List (Arrival σ)) (c : Controller)
    (reached : (sessionMachine message sensors).run arrivals = some c) (socket : Nat) :
    (c.kernel.sessions.filter fun s => s.socket = socket).length ≤ 1 ∧
    ∀ s ∈ c.kernel.sessions, s.socket = socket → c.latest socket = some s.id := by
  have tracked : Tracked c.kernel c.latest := by
    refine Controller.run_keeps message sensors (motive := fun c => Tracked c.kernel c.latest) ?_
      (fun s a tracked => receive_tracked message tracked a) reached
    constructor <;> simp [sessionMachine]
  refine ⟨tracked.one_per_socket socket, ?_⟩
  rintro s member rfl
  exact tracked.latest s member

def psDevice : PsSensor := ⟨ascii "kernel-ps", ascii "00000000-0000-0000-0000-000000000000"⟩

-- A connect request on a socket, which leaves its session open.
def connectArrival (socket : Nat) : Arrival (FlexArray PsData) where
  socket := socket
  line := psRequest (ascii "connect")
  allocates := true
  discovery := ⟨true, true, true⟩
  records := ⟨fun _ => true, fun _ => true⟩
  turns := 0
  nonce := 7
  data := ⟨0, fun _ => .free⟩
  socketWrite := fun _ line => line.length
  behindNonce := []

theorem session_latest_of_two_sockets :
    ∃ c, (sessionMachine (psMessage psDevice []) [kernelPs]).run
        [connectArrival 0, connectArrival 1, connectArrival 0] = some c ∧
      c.kernel.sessions.map (fun s => (s.socket, s.id)) = [(0, 2), (1, 1)] ∧
      (c.kernel.sessions.filter fun s => s.socket = 0).length ≤ 1 := by
  refine ⟨_, rfl, by decide +kernel, ?_⟩
  exact (session_latest_of_socket (psMessage psDevice []) [kernelPs]
    [connectArrival 0, connectArrival 1, connectArrival 0] _ rfl 0).1

end VirtueSensing.Kernel
