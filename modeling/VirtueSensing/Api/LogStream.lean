import VirtueSensing.Api.ValidationPlug
import VirtueSensing.Shared.Machine
import VirtueSensing.Shared.Mailbox

set_option autoImplicit false

/-!
# Log streams

The streams of `ApiServer.StreamController`: for each topic a task reads the log of the topic and
forwards the messages that meet the filter level. A gather task writes what it is sent to the client.
-/

namespace VirtueSensing.Api.LogStream

def logLevelSets : List (String × List String) :=
  [("everything", ["everything", "debug", "info", "warning", "error", "event"]),
    ("debug", ["debug", "info", "warning", "error", "event"]),
    ("info", ["info", "warning", "error", "event"]),
    ("warning", ["warning", "error", "event"]),
    ("error", ["error", "event"]),
    ("event", ["event"])]

def getLogLevelSet (level : String) : Option (List String) := logLevelSets.lookup level

/-- What a stream takes from its connection: the values that the plugs in front of it have assigned,
and whether it subscribes to sensors that register later. -/
structure Options where
  filterLevel : String
  known : getLogLevelSet filterLevel ≠ none
  followLog : Bool
  autoSubscribeAll : Bool

def Options.levelSet (options : Options) : List String := (getLogLevelSet options.filterLevel).getD []

/-- What `Poison.decode` makes of the value of a message. `raised` is also an answer that meets neither
`{:ok, _}` nor `{:error, _}`, as the one for a text that ends too early. -/
inductive Decoding where
  | ok (json : Json)
  | error
  | raised

/-- The JSON of the Poison package, and the values that `IO.puts` takes. -/
structure Poison (Value : Type) where
  decode : Value → Decoding
  encode : Json → String
  printable : Value → Bool

/-- The broker and its client in Elixir, neither of which is in the repository: a broker changes with what
its producers do. The calls are `none` where they raise; `offset` asks for the date of the stream, and
`stream` has the message at an offset, if there is one. -/
structure KafkaEx (Value : Type) where
  Broker : Type
  Activity : Type
  moved : Broker → Activity → Broker
  topicFound : Broker → Json → Option Bool
  offset : Broker → Json → Option (List (List (List Nat)))
  stream : Broker → Json → Nat → Option (Option Value)

/-- A topic is a log: it only grows, an offset is one in it, and a stream of it has its messages in order. -/
structure KafkaEx.Ordered {Value : Type} (kafka : KafkaEx Value) (log : kafka.Broker → Json → List Value) :
    Prop where
  grows : ∀ broker activity topic, log broker topic <+: log (kafka.moved broker activity) topic
  offset : ∀ broker topic responses, kafka.offset broker topic = some responses →
    ∀ response ∈ responses, ∀ partition ∈ response, ∀ n ∈ partition, n ≤ (log broker topic).length
  stream : ∀ broker topic n answer, kafka.stream broker topic n = some answer → answer = (log broker topic)[n]?

section Messages

variable {Value : Type} (lib : Poison Value) (options : Options)

inductive Read where
  | forwarded (msg : Json)
  | elided
  | raised

def isMember (levels : List String) : Json → Bool
  | .string level => levels.contains level
  | _ => false

-- `Map.has_key?` raises on a decoded value that is no map.
def filterMessage (value : Value) : Read :=
  match lib.decode value with
  | .error => .elided
  | .ok (.object member) =>
    match member "level" with
    | some level => if isMember options.levelSet level then .forwarded (.object member) else .elided
    | none => .elided
  | .ok _ | .raised => .raised

def Read.message : Read → Option Json
  | .forwarded msg => some msg
  | _ => none

def passing (values : List Value) : List Json := values.filterMap fun value => (filterMessage lib options value).message

inductive Message where
  | ok (msg : Json)
  | noSuchTopic (topic : Json)

def Message.json : Message → Option Json
  | .ok msg => some msg
  | .noSuchTopic _ => none

def noSuchTopicBody : Json :=
  .object fun name =>
    if name = "error" then some (.bool true)
    else if name = "message" then some (.string "No such topic")
    else none

def Message.chunk : Message → String
  | .ok msg => lib.encode msg ++ "\n"
  | .noSuchTopic _ => lib.encode noSuchTopicBody ++ "\n"

end Messages

-- `get_topic_offset`; none of its clauses takes the offsets of another number of partitions.
def getTopicOffset : List (List (List Nat)) → Option Nat
  | [[n]] :: _ => some n
  | [[]] :: _ => some 0
  | [] => some 0
  | _ => none

/-- Where a `stream_task` is in the log of its topic: the offset that it has begun at, and the one that
it reads next. -/
inductive Phase where
  | starting
  | reading (offset next : Nat)
  | ended (offset next : Nat)
  | noSuchTopic
  deriving DecidableEq

structure StreamTask where
  topic : Json
  phase : Phase

inductive Status where
  | streaming
  | disconnected
  | returned
  | crashed
  deriving DecidableEq

/-- A stream and the broker it reads. The sender of a message is the number of its task; it is not
part of the message. -/
structure Stream {Value : Type} (kafka : KafkaEx Value) where
  broker : kafka.Broker
  tasks : List StreamTask
  mailbox : Mailbox Nat Message
  written : List (Nat × Message)
  status : Status

-- An announcement is `none` where the stream of the C2 topic raises.
inductive Event {Value : Type} (kafka : KafkaEx Value) where
  | published (activity : kafka.Activity)
  | opened (task : Nat)
  | read (task : Nat)
  | gathered (accepted : Bool)
  | announced (msg : Option Value)
  | shutDown

section Stepping

variable {Value : Type} {kafka : KafkaEx Value} (lib : Poison Value) (options : Options)

/-- The chunks that the client has, each with its task. -/
def Stream.response (s : Stream kafka) : List (Nat × String) :=
  s.written.map fun entry => (entry.1, entry.2.chunk lib)

def Stream.setPhase (s : Stream kafka) (task : Nat) (t : StreamTask) (phase : Phase) : Stream kafka :=
  { s with tasks := s.tasks.set task { t with phase := phase } }

def Stream.send (s : Stream kafka) (task : Nat) (msg : Message) : Stream kafka :=
  { s with mailbox := s.mailbox.put task msg }

-- A task that raises takes the linked processes of the stream with it.
def Stream.crash (s : Stream kafka) : Stream kafka := { s with status := .crashed }

def openTopic (s : Stream kafka) (task : Nat) : Option (Stream kafka) := do
  let t ← s.tasks[task]?
  if t.phase = .starting then
    match kafka.topicFound s.broker t.topic with
    | none => some s.crash
    | some false => some ((s.setPhase task t .noSuchTopic).send task (.noSuchTopic t.topic))
    | some true =>
      match (kafka.offset s.broker t.topic).bind getTopicOffset with
      | none => some s.crash
      | some offset => some (s.setPhase task t (.reading offset offset))
  else none

def readMessage (s : Stream kafka) (task : Nat) : Option (Stream kafka) := do
  let t ← s.tasks[task]?
  match t.phase with
  | .reading offset next =>
    match kafka.stream s.broker t.topic next with
    | none => some s.crash
    | some none => if options.followLog then none else some (s.setPhase task t (.ended offset next))
    | some (some value) =>
      match filterMessage lib options value with
      | .forwarded msg => some ((s.setPhase task t (.reading offset (next + 1))).send task (.ok msg))
      | .elided => some (s.setPhase task t (.reading offset (next + 1)))
      | .raised => some s.crash
  | _ => none

/-- `stream_gather` with the answer of `chunk`, which it ignores for a topic that does not exist. -/
def streamGather (s : Stream kafka) (accepted : Bool) : Option (Stream kafka) := do
  let (entry, mailbox) ← s.mailbox.take
  let written := if accepted then s.written ++ [entry] else s.written
  match entry.2 with
  | .ok _ => some { s with mailbox, written, status := if accepted then .streaming else .disconnected }
  | .noSuchTopic _ => some { s with mailbox, written }

-- The topic of a registration; `nil` where it has none.
def registeredTopic (member : String → Option Json) : Option Json :=
  match member "action" with
  | some (.string action) => if action = "sensor-registration" then some ((member "topic").getD .null) else none
  | _ => none

def gatherNewStreams (s : Stream kafka) : Option Value → Stream kafka
  | none => s.crash
  | some value =>
    if lib.printable value then
      match lib.decode value with
      | .error => s
      | .ok (.object member) =>
        match registeredTopic member with
        | none => s
        | some topic =>
          match ValidationPlug.interpolate topic with
          | none => s.crash
          | some _ => { s with tasks := s.tasks ++ [⟨topic, .starting⟩] }
      | .ok _ | .raised => s.crash
    else s.crash

def act (s : Stream kafka) : Event kafka → Option (Stream kafka)
  | .published activity => some { s with broker := kafka.moved s.broker activity }
  | .opened task => openTopic s task
  | .read task => readMessage lib options s task
  | .gathered accepted => if s.status = .streaming then streamGather s accepted else none
  | .announced msg => if options.autoSubscribeAll then some (gatherNewStreams lib s msg) else none
  | .shutDown => if s.status = .disconnected then some { s with status := .returned } else none

def Stream.alive (s : Stream kafka) : Bool := s.status = .streaming || s.status = .disconnected

variable (kafka) in
def spawnStream (broker : kafka.Broker) (topics : List String) : Machine (Stream kafka) (Event kafka) where
  initial := ⟨broker, topics.map fun topic => ⟨.string topic, .starting⟩, .empty, [], .streaming⟩
  step s event := if s.alive then act lib options s event else none

end Stepping

section Sample

def sampleObject (level : String) : Json := .object fun name => if name = "level" then some (.string level) else none

def sampleDecode : String → Decoding
  | "\x7b\"level\":\"info\"\x7d" => .ok (sampleObject "info")
  | "\x7b\"level\":\"debug\"\x7d" => .ok (sampleObject "debug")
  | "[]" => .ok (.array [])
  | "" => .raised
  | _ => .error

def sampleEncode : Json → String
  | .object member =>
    match member "level" with
    | some (.string "info") => "\x7b\"level\":\"info\"\x7d"
    | some (.string "debug") => "\x7b\"level\":\"debug\"\x7d"
    | _ => "\x7b\"message\":\"No such topic\",\"error\":true\x7d"
  | _ => "[]"

def samplePoison : Poison String := ⟨sampleDecode, sampleEncode, fun _ => true⟩

def sampleOptions : Options := ⟨"info", by decide, false, false⟩

abbrev SampleBroker := String → Option (List String)

def sampleLog (broker : SampleBroker) : Json → List String
  | .string topic => (broker topic).getD []
  | _ => []

-- A broker whose producers append to its topics, and whose client raises on what is no name of a topic.
def sampleKafka : KafkaEx String where
  Broker := SampleBroker
  Activity := String × String
  moved broker activity name :=
    if name = activity.1 then some ((broker name).getD [] ++ [activity.2]) else broker name
  topicFound broker
    | .string topic => some (broker topic).isSome
    | _ => none
  offset _
    | .string _ => some [[[0]]]
    | _ => none
  stream broker topic n :=
    match topic with
    | .string _ => some (sampleLog broker topic)[n]?
    | _ => none

def sampleBroker (topic : String) : Option (List String) :=
  if topic = "ps" then some ["\x7b\"level\":\"debug\"\x7d", "\x7b\"level\":\"info\"\x7d", "not JSON"] else none

abbrev sampleMachine : Machine (Stream sampleKafka) (Event sampleKafka) :=
  spawnStream sampleKafka samplePoison sampleOptions sampleBroker ["lsof", "ps"]

def sampleEvents : List (Event sampleKafka) :=
  [.opened 1, .read 1, .opened 0, .read 1, .gathered true, .gathered true, .read 1, .read 1]

end Sample

end VirtueSensing.Api.LogStream
