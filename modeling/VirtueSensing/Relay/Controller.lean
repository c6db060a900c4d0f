import VirtueSensing.Kernel.HandlerEffects
import VirtueSensing.Kernel.RunRecords
import VirtueSensing.Shared.Machine

set_option autoImplicit false

/-!
# The controller and its two sensors

The probes of the sensors run from time to time and store into the arrays that requests for records
read, under the lock that such a request holds too. Lines come from any number of sockets, and each is
handled before the next one: a reply that the thread of another connection links into an open session
would be written with it, to the other socket.
-/

namespace VirtueSensing.Relay

open Kernel

structure Uuids where
  lsof : Bytes
  ps : Bytes
  deriving DecidableEq, Repr

-- What `kcontrol_init` links, the sensor that it makes last in front.
def registered (u : Uuids) : List Sensor :=
  [⟨ascii "Kernel LSOF Sensor", u.lsof, Command.default.code, 1, 1⟩,
    ⟨ascii "Kernel PS Sensor", u.ps, Command.default.code, 1, 1⟩]

structure Arrays where
  ps : FlexArray PsData
  lsof : FlexArray LsofData

namespace Arrays

-- `flex_array_prealloc` with `__GFP_ZERO`.
def zeroed (ps lsof : Nat) : Arrays :=
  ⟨⟨ps, fun _ => ⟨0, 0, 0, 0, List.replicate (taskCommLen + 1) 0⟩⟩,
    ⟨lsof, fun _ => ⟨0, 0, 0, 0, 0, 0, 0, some ⟨[], by decide⟩⟩⟩⟩

def get (a : Arrays) : (p : RecordSource) → FlexArray p.Element
  | .ps _ _ => a.ps
  | .lsof _ _ _ => a.lsof

def set (a : Arrays) : (p : RecordSource) → FlexArray p.Element → Arrays
  | .ps _ _, data => { a with ps := data }
  | .lsof _ _ _, data => { a with lsof := data }

end Arrays

structure KernelModule where
  kernel : State
  arrays : Arrays
  -- The numbers drawn so far. Elements that no run has stored yet have the number zero.
  drawn : List UInt64

structure Request where
  allocates : Bool
  discovery : DiscoveryAllocation
  records : Allocation
  turns : Nat
  nonce : UInt64
  socketWrite : Nat → Bytes → Int
  behindNonce : Bytes
  tasks : List Task
  files : List FilesTask
  stray : Bytes

namespace Request

variable (u : Uuids) (r : Request)

def source : Nat → RecordSource
  | 0 => .lsof u.lsof r.files r.stray
  | _ => .ps u.ps r.tasks

def calls : Environment where
  jsmnParse := Jsmn.parse maxTokens
  allocates := r.allocates
  socketWrite := r.socketWrite
  behindNonce := r.behindNonce
  discoveryRequest := fun _ k => (0, k)
  recordsRequest := fun _ k => (0, k)

-- Without a sensor it does not matter which one is asked.
def asked (call : Call) (k : State) : RecordSource :=
  match getSensor call.session.sensorName k.sensors with
  | .ok i => r.source u i
  | .error _ => r.source u 0

-- `none` for a loop that needs more turns.
def recordsRequest (a : Arrays) (call : Call) (k : State) : Option (Int × State × Arrays) :=
  let p := r.asked u call k
  (processRecordsRequest r.calls p.message r.records r.turns r.nonce call (a.get p) k).map
    fun (ccode, k, data) => (ccode, k, a.set p data)

def environment (a : Arrays) : Environment :=
  { r.calls with
    discoveryRequest := processDiscoveryRequest r.calls r.discovery
    recordsRequest := fun call k =>
      match r.recordsRequest u a call k with
      | some (ccode, k, _) => (ccode, k)
      | none => (0, k) }

end Request

-- The arrays behind a call; its handler finds the sensors as they were before its session was opened.
def KernelModule.probe (u : Uuids) (m : KernelModule) (r : Request) (call : Call) : Option Arrays :=
  match cmdTable call.command with
  | .recordsRequest => (r.recordsRequest u m.arrays call m.kernel).map fun out => out.2.2
  | .jsmnCmd | .discoveryRequest | .stateRequest => some m.arrays

def KernelModule.receive (u : Uuids) (m : KernelModule) (socket : Nat) (line : Bytes) (r : Request) :
    Option (Int × KernelModule) :=
  let out := parseJsonMessage (r.environment u m.arrays) socket line m.kernel
  let arrays := match out.called with
    | some call => m.probe u r call
    | none => some m.arrays
  arrays.map fun arrays => (out.ccode, ⟨out.state, arrays, r.nonce :: m.drawn⟩)

inductive Event where
  -- The probes run on their own too, and store into the same arrays.
  | psProbe (nonce : UInt64) (tasks : List Task)
  | lsofProbe (nonce : UInt64) (files : List FilesTask)
  | line (socket : Nat) (line : Bytes) (r : Request)

def KernelModule.step (u : Uuids) (m : KernelModule) : Event → Option KernelModule
  | .psProbe nonce tasks =>
    let ps := (kernelPsUnlocked nonce tasks 0 m.arrays.ps).2
    some { m with arrays := { m.arrays with ps }, drawn := nonce :: m.drawn }
  | .lsofProbe nonce files =>
    let lsof := (kernelLsofUnlocked nonce files m.arrays.lsof).2
    some { m with arrays := { m.arrays with lsof }, drawn := nonce :: m.drawn }
  | .line socket line r => (m.receive u socket line r).map Prod.snd

/-- What an event may make the controller write: an answer to the line, on its own socket. -/
def Event.Sends : Event → List (Nat × Bytes) → Prop
  | .psProbe _ _, sent | .lsofProbe _ _, sent => sent = []
  | .line socket _ _, sent => ∀ w ∈ sent, w.1 = socket

def controllerMachine (u : Uuids) (psSize lsofSize : Nat) : Machine KernelModule Event where
  initial := ⟨⟨[], 0, registered u, []⟩, .zeroed psSize lsofSize, [0]⟩
  step := KernelModule.step u

-- The bytes that the controller wrote to a socket since an earlier state.
def sentTo (socket : Nat) (before after : State) : Bytes :=
  ((after.written.drop before.written.length).filter fun w => w.1 = socket).flatMap Prod.snd

/-- The sensors are those of the module, and the arrays hold elements of known runs only. -/
structure Loaded (u : Uuids) (start : Arrays) (m : KernelModule) : Prop where
  sensors : identities m.kernel.sensors = identities (registered u)
  marked : ∀ p : RecordSource, p.Marked m.drawn (m.arrays.get p)
  sizes : ∀ p, (m.arrays.get p).size = (start.get p).size
  zero : 0 ∈ m.drawn

namespace Arrays

variable (a : Arrays) (p q : RecordSource) (data : FlexArray p.Element) {start : Arrays}

theorem get_set_marked {drawn : List UInt64} (marked : p.Marked drawn data)
    (others : ∀ q : RecordSource, q.Marked drawn (a.get q)) : q.Marked drawn ((a.set p data).get q) := by
  cases p with
  | ps uuid tasks =>
    cases q with
    | ps uuid' tasks' => exact marked
    | lsof uuid' files stray => exact others (.lsof uuid' files stray)
  | lsof uuid files stray =>
    cases q with
    | ps uuid' tasks' => exact others (.ps uuid' tasks')
    | lsof uuid' files' stray' => exact marked

theorem get_set_size (size : data.size = (start.get p).size)
    (others : ∀ q, (a.get q).size = (start.get q).size) :
    ((a.set p data).get q).size = (start.get q).size := by
  cases p with
  | ps uuid tasks =>
    cases q with
    | ps uuid' tasks' => exact size
    | lsof uuid' files stray => exact others (.lsof uuid' files stray)
  | lsof uuid files stray =>
    cases q with
    | ps uuid' tasks' => exact others (.ps uuid' tasks')
    | lsof uuid' files' stray' => exact size

end Arrays

section Invariant

variable {u : Uuids} {start : Arrays} {m : KernelModule} {r : Request}

theorem answers_environment (u : Uuids) (r : Request) (a : Arrays) : (r.environment u a).Answers := by
  refine ⟨fun call k => answered_discovery r.calls r.discovery, fun call k => ?_⟩
  simp only [Request.environment]
  cases ran : r.recordsRequest u a call k with
  | none => exact .refl _ k
  | some out =>
    obtain ⟨⟨ccode, k', data⟩, handled, rfl⟩ := Option.map_eq_some_iff.mp ran
    exact answered_records r.calls handled

theorem recordsRequest_arrays {call : Call} {k : State} {out : Int × State × Arrays}
    (ran : r.recordsRequest u m.arrays call k = some out) (loaded : Loaded u start m) :
    (∀ p : RecordSource, p.Marked (r.nonce :: m.drawn) (out.2.2.get p)) ∧
      ∀ p, (out.2.2.get p).size = (start.get p).size := by
  unfold Request.recordsRequest at ran
  obtain ⟨⟨ccode, k', data⟩, handled, rfl⟩ := Option.map_eq_some_iff.mp ran
  have before (q : RecordSource) : q.Marked (r.nonce :: m.drawn) (m.arrays.get q) :=
    (loaded.marked q).mono (List.subset_cons_self _ _)
  obtain ⟨marked, size⟩ :=
    processRecordsRequest_marked (before (r.asked u call k)) List.mem_cons_self handled
  exact ⟨fun q => m.arrays.get_set_marked _ q data marked before,
    fun q => m.arrays.get_set_size _ q data (size.trans (loaded.sizes _)) loaded.sizes⟩

theorem Loaded.receive (loaded : Loaded u start m) {socket : Nat} {line : Bytes} {ccode : Int}
    {after : KernelModule} (received : m.receive u socket line r = some (ccode, after)) :
    Loaded u start after ∧ Answered socket m.kernel after.kernel := by
  unfold KernelModule.receive at received
  have answered := parseJsonMessage_answered (answers_environment u r m.arrays) socket line m.kernel
  revert received answered
  generalize parseJsonMessage (r.environment u m.arrays) socket line m.kernel = out
  intro received answered
  dsimp only at received
  obtain ⟨arrays, probed, same⟩ := Option.map_eq_some_iff.mp received
  obtain ⟨rfl, rfl⟩ := Prod.mk.inj same
  have kept : (∀ p : RecordSource, p.Marked (r.nonce :: m.drawn) (m.arrays.get p)) ∧
      ∀ p, (m.arrays.get p).size = (start.get p).size :=
    ⟨fun p => (loaded.marked p).mono (List.subset_cons_self _ _), loaded.sizes⟩
  have stored : (∀ p : RecordSource, p.Marked (r.nonce :: m.drawn) (arrays.get p)) ∧
      ∀ p, (arrays.get p).size = (start.get p).size := by
    split at probed
    · unfold KernelModule.probe at probed
      split at probed
      · obtain ⟨out, ran, rfl⟩ := Option.map_eq_some_iff.mp probed
        exact recordsRequest_arrays ran loaded
      · obtain rfl := Option.some.inj probed
        exact kept
      · obtain rfl := Option.some.inj probed
        exact kept
      · obtain rfl := Option.some.inj probed
        exact kept
    · obtain rfl := Option.some.inj probed
      exact kept
  exact ⟨⟨answered.identities.trans loaded.sensors, stored.1, stored.2,
    List.mem_cons_of_mem _ loaded.zero⟩, answered⟩

theorem Loaded.step (loaded : Loaded u start m) {e : Event} {after : KernelModule}
    (moved : m.step u e = some after) : Loaded u start after := by
  have grown (nonce : UInt64) (p : RecordSource) : p.Marked (nonce :: m.drawn) (m.arrays.get p) :=
    (loaded.marked p).mono (List.subset_cons_self _ _)
  cases e with
  | psProbe nonce tasks =>
    obtain rfl := Option.some.inj moved
    refine ⟨loaded.sensors, fun p => ?_, fun p => ?_, List.mem_cons_of_mem _ loaded.zero⟩
    · cases p with
      | ps uuid all =>
        exact (@RecordSource.marked_kernelPs _ uuid all tasks nonce 0 m.arrays.ps List.mem_cons_self
          (grown nonce (.ps uuid all))).1
      | lsof uuid all stray => exact grown nonce (.lsof uuid all stray)
    · cases p with
      | ps uuid all =>
        exact (@RecordSource.marked_kernelPs _ uuid all tasks nonce 0 m.arrays.ps List.mem_cons_self
          (grown nonce (.ps uuid all))).2.trans (loaded.sizes (.ps uuid all))
      | lsof uuid all stray => exact loaded.sizes (.lsof uuid all stray)
  | lsofProbe nonce files =>
    obtain rfl := Option.some.inj moved
    refine ⟨loaded.sensors, fun p => ?_, fun p => ?_, List.mem_cons_of_mem _ loaded.zero⟩
    · cases p with
      | ps uuid all => exact grown nonce (.ps uuid all)
      | lsof uuid all stray =>
        exact @RecordSource.marked_kernelLsof _ uuid stray all files nonce 0 m.arrays.lsof
          List.mem_cons_self (grown nonce (.lsof uuid all stray))
    · cases p with
      | ps uuid all => exact loaded.sizes (.ps uuid all)
      | lsof uuid all stray =>
        exact (size_lsofForEachPidUnlocked nonce files 0 m.arrays.lsof).trans
          (loaded.sizes (.lsof uuid all stray))
  | line socket line r =>
    obtain ⟨⟨ccode, state⟩, received, rfl⟩ := Option.map_eq_some_iff.mp moved
    exact (loaded.receive received).1

theorem loaded_reachable {psSize lsofSize : Nat}
    (reached : (controllerMachine u psSize lsofSize).Reachable m) :
    Loaded u (.zeroed psSize lsofSize) m := by
  refine Machine.invariant _ ⟨rfl, fun p i => .inr ?_, fun p => rfl, List.mem_cons_self⟩
    (fun s e t _ loaded moved => loaded.step moved) reached
  cases p with
  | ps uuid tasks => exact List.mem_cons_self
  | lsof uuid tasks stray => exact List.mem_cons_self

theorem step_sends (loaded : Loaded u start m) {e : Event} {after : KernelModule}
    (moved : m.step u e = some after) :
    ∃ sent, e.Sends sent ∧ after.kernel.written = m.kernel.written ++ sent := by
  cases e with
  | psProbe nonce tasks =>
    obtain rfl := Option.some.inj moved
    exact ⟨[], rfl, (List.append_nil _).symm⟩
  | lsofProbe nonce files =>
    obtain rfl := Option.some.inj moved
    exact ⟨[], rfl, (List.append_nil _).symm⟩
  | line socket line r =>
    obtain ⟨⟨ccode, state⟩, received, rfl⟩ := Option.map_eq_some_iff.mp moved
    obtain ⟨sent, written, own⟩ := (loaded.receive received).2.written
    exact ⟨sent, own, written⟩

end Invariant

def twoUuids : Uuids := ⟨List.replicate 16 0, List.replicate 16 1⟩

def bashRequest : Request where
  allocates := true
  discovery := ⟨true, true, true⟩
  records := ⟨fun _ => true, fun _ => true⟩
  turns := 3
  nonce := 7
  socketWrite := fun _ line => line.length
  behindNonce := []
  tasks := [⟨ascii "bash", 9, 1000⟩]
  files := []
  stray := []

def discoveryLine : Bytes :=
  ascii "\x7bVirtue-protocol-version: 0.1, request: [n1, discovery, *]\x7d\n"

end VirtueSensing.Relay
