import VirtueSensing.Api.LogStreamDelivery

set_option autoImplicit false

/-!
# From a sensor to a client

The sensing methods of a sensor put messages into the queue of its wrapper, `log_drain` hands them to its
Kafka producer for the topic of the sensor, and a log stream of the API reads the topic.
-/

namespace VirtueSensing.Wrapper

open Api (Json)
open Api.LogStream

/-- The producer of the Kafka package, which is not in the repository. `send` only hands a record over, and
is `none` where it raises; what becomes of the record are activities of the broker. `strEncode` is the
serializer. -/
structure KafkaProducer {Value : Type} (kafka : KafkaEx Value) where
  strEncode : String → Value
  send : kafka.Broker → String → String → Option kafka.Broker

/-- No request for a topic has to be repeated, and nobody else writes to it: the records that its producer
still holds go to its log one after the other, each of them once. -/
structure KafkaProducer.InOrder {Value : Type} {kafka : KafkaEx Value} (producer : KafkaProducer kafka)
    (log : kafka.Broker → Json → List Value) (held : kafka.Broker → String → List Value) (topic : String) :
    Prop where
  send : ∀ broker name message after, producer.send broker name message = some after →
    log after = log broker ∧
      held after topic = held broker topic ++ if name = topic then [producer.strEncode message] else []
  moved : ∀ broker activity, ∃ written,
    log (kafka.moved broker activity) (.string topic) = log broker (.string topic) ++ written ∧
      held broker topic = written ++ held (kafka.moved broker activity) topic

/-- Sensors under their topics, which the API draws at random, and a stream. -/
structure Deployment (Value : Type) where
  kafka : KafkaEx Value
  producer : KafkaProducer kafka
  sensorTopic : Nat → String
  distinct : Function.Injective sensorTopic
  lib : Poison Value
  options : Options
  broker : kafka.Broker
  topics : List String

/-- The queues `log_messages` of the sensors, whose senders are the sensing methods, and the sensors whose
`log_drain` has ended. -/
structure Delivery {Value : Type} (kafka : KafkaEx Value) where
  logMessages : Nat → Mailbox Nat String
  ended : Nat → Bool
  stream : Stream kafka

inductive DeliveryEvent {Value : Type} (kafka : KafkaEx Value) where
  | put (sensor method : Nat) (message : String)
  | drained (sensor : Nat)
  | cancelled (sensor : Nat)
  | streamed (event : Event kafka)

section Stepping

variable {Value : Type} {kafka : KafkaEx Value}

def Delivery.setQueue (s : Delivery kafka) (sensor : Nat) (queue : Mailbox Nat String) : Delivery kafka :=
  { s with logMessages := fun other => if other = sensor then queue else s.logMessages other }

def Delivery.endDrain (s : Delivery kafka) (sensor : Nat) : Delivery kafka :=
  { s with ended := fun other => if other = sensor then true else s.ended other }

def Delivery.setBroker (s : Delivery kafka) (broker : kafka.Broker) : Delivery kafka :=
  { s with stream := { s.stream with broker } }

-- One turn of `log_drain`: nothing is awaited between the queue and the producer. A producer that raises
-- ends it, with the message that it was given.
def logDrain (producer : KafkaProducer kafka) (topic : String) (s : Delivery kafka) (sensor : Nat) :
    Option (Delivery kafka) := do
  let (entry, queue) ← (s.logMessages sensor).take
  match producer.send s.stream.broker topic entry.2 with
  | none => some ((s.setQueue sensor queue).endDrain sensor)
  | some broker => some ((s.setQueue sensor queue).setBroker broker)

variable (d : Deployment Value)

-- The broker works on when the stream is over.
def deliveryMachine : Machine (Delivery d.kafka) (DeliveryEvent d.kafka) where
  initial := ⟨fun _ => .empty, fun _ => false, (spawnStream d.kafka d.lib d.options d.broker d.topics).initial⟩
  step s
    | .put sensor method message => some (s.setQueue sensor ((s.logMessages sensor).put method message))
    | .drained sensor => if s.ended sensor then none else logDrain d.producer (d.sensorTopic sensor) s sensor
    | .cancelled sensor => some (s.endDrain sensor)
    | .streamed (.published activity) => some (s.setBroker (d.kafka.moved s.stream.broker activity))
    | .streamed event =>
      if s.stream.alive then (act d.lib d.options s.stream event).map fun stream => { s with stream } else none

end Stepping

section Delivery

variable {Value : Type} (d : Deployment Value) (log : d.kafka.Broker → Json → List Value)
  (held : d.kafka.Broker → String → List Value)

def Deployment.values (entries : List (Nat × String)) : List Value :=
  entries.map fun entry => d.producer.strEncode entry.2

/-- The log of a sensor's topic, as it was and with all that the sensor has logged since. -/
def Delivery.logged (s : Delivery d.kafka) (sensor : Nat) : List Value :=
  log d.broker (.string (d.sensorTopic sensor)) ++ held d.broker (d.sensorTopic sensor) ++
    d.values ((s.logMessages sensor).taken ++ (s.logMessages sensor).queued)

def Delivery.topicLog (s : Delivery d.kafka) (sensor : Nat) : List Value :=
  log s.stream.broker (.string (d.sensorTopic sensor))

def Delivery.buffered (s : Delivery d.kafka) (sensor : Nat) : List Value :=
  held s.stream.broker (d.sensorTopic sensor)

structure Delivered (s : Delivery d.kafka) : Prop where
  sound : Sound d.lib d.options log s.stream
  drained : ∀ sensor, ∃ dropped, log d.broker (.string (d.sensorTopic sensor)) ++
      held d.broker (d.sensorTopic sensor) ++ d.values (s.logMessages sensor).taken =
    s.topicLog d log sensor ++ s.buffered d held sensor ++ dropped ∧ (s.ended sensor = false → dropped = [])

variable {d log held} {s s' : Delivery d.kafka} {sensor other : Nat} {queue : Mailbox Nat String}

theorem setQueue_self : (s.setQueue sensor queue).logMessages sensor = queue := if_pos rfl

theorem setQueue_other (different : other ≠ sensor) :
    (s.setQueue sensor queue).logMessages other = s.logMessages other := if_neg different

theorem values_append (first rest : List (Nat × String)) : d.values (first ++ rest) = d.values first ++ d.values rest :=
  List.map_append

namespace Delivered

theorem put (delivered : Delivered d log held s) (sensor method : Nat) (message : String) :
    Delivered d log held (s.setQueue sensor ((s.logMessages sensor).put method message)) where
  sound := delivered.sound
  drained other := by
    have queued := delivered.drained other
    by_cases same : other = sensor
    · subst same
      rw [setQueue_self]
      exact queued
    · rw [setQueue_other same]
      exact queued

theorem endDrain (delivered : Delivered d log held s) (sensor : Nat) : Delivered d log held (s.endDrain sensor) where
  sound := delivered.sound
  drained other := by
    obtain ⟨dropped, split, none⟩ := delivered.drained other
    refine ⟨dropped, split, fun running => none ?_⟩
    unfold Delivery.endDrain at running
    dsimp only at running
    split_ifs at running
    exact running

theorem published (delivered : Delivered d log held s) (ordered : d.kafka.Ordered log)
    (inOrder : ∀ sensor, d.producer.InOrder log held (d.sensorTopic sensor)) (activity : d.kafka.Activity) :
    Delivered d log held (s.setBroker (d.kafka.moved s.stream.broker activity)) where
  sound := delivered.sound.moveBroker (ordered.grows s.stream.broker activity)
  drained sensor := by
    obtain ⟨dropped, split, none⟩ := delivered.drained sensor
    obtain ⟨written, logged, holds⟩ := (inOrder sensor).moved s.stream.broker activity
    refine ⟨dropped, split.trans ?_, none⟩
    show log s.stream.broker (.string (d.sensorTopic sensor)) ++ held s.stream.broker (d.sensorTopic sensor) ++
      dropped = log (d.kafka.moved s.stream.broker activity) (.string (d.sensorTopic sensor)) ++
        held (d.kafka.moved s.stream.broker activity) (d.sensorTopic sensor) ++ dropped
    rw [logged, holds, List.append_assoc (log _ _) written]

theorem sent (delivered : Delivered d log held s) (inOrder : ∀ sensor, d.producer.InOrder log held (d.sensorTopic sensor))
    (running : s.ended sensor = false) {entry : Nat × String} {broker : d.kafka.Broker}
    (took : (s.logMessages sensor).take = some (entry, queue))
    (sends : d.producer.send s.stream.broker (d.sensorTopic sensor) entry.2 = some broker) :
    Delivered d log held ((s.setQueue sensor queue).setBroker broker) := by
  have same : log broker = log s.stream.broker := ((inOrder sensor).send _ _ _ _ sends).1
  refine ⟨delivered.sound.moveBroker fun topic => same ▸ List.prefix_refl _, fun other => ?_⟩
  have holds := ((inOrder other).send _ _ _ _ sends).2
  obtain ⟨dropped, split, none⟩ := delivered.drained other
  show ∃ dropped, _ ++ d.values ((s.setQueue sensor queue).logMessages other).taken =
    log broker (.string (d.sensorTopic other)) ++ held broker (d.sensorTopic other) ++ dropped ∧ _
  rw [same, holds]
  by_cases mine : other = sensor
  · subst mine
    obtain rfl := none running
    refine ⟨[], ?_, fun _ => rfl⟩
    rw [setQueue_self, (Mailbox.take_eq_some took).2, values_append, ← List.append_assoc, split, if_pos rfl]
    simp [Deployment.values, Delivery.topicLog, Delivery.buffered]
  · rw [setQueue_other mine, if_neg fun equal => mine (d.distinct equal).symm, List.append_nil]
    exact ⟨dropped, split, none⟩

theorem refused (delivered : Delivered d log held s) (running : s.ended sensor = false) {entry : Nat × String}
    (took : (s.logMessages sensor).take = some (entry, queue)) :
    Delivered d log held ((s.setQueue sensor queue).endDrain sensor) where
  sound := delivered.sound
  drained other := by
    obtain ⟨dropped, split, none⟩ := delivered.drained other
    show ∃ dropped, _ ++ d.values ((s.setQueue sensor queue).logMessages other).taken = _ ∧
      ((if other = sensor then true else s.ended other) = false → _)
    by_cases mine : other = sensor
    · subst mine
      obtain rfl := none running
      refine ⟨d.values [entry], ?_, by simp⟩
      rw [setQueue_self, (Mailbox.take_eq_some took).2, values_append, ← List.append_assoc, split, List.append_nil]
      rfl
    · rw [setQueue_other mine, if_neg mine]
      exact ⟨dropped, split, none⟩

theorem streamed (delivered : Delivered d log held s) (ordered : d.kafka.Ordered log) {event : Event d.kafka}
    {stream : Stream d.kafka} (other : ∀ activity, event ≠ .published activity)
    (ran : act d.lib d.options s.stream event = some stream) : Delivered d log held { s with stream } where
  sound := delivered.sound.act ordered ran
  drained sensor := by
    have same := act_broker other ran
    have before := delivered.drained sensor
    unfold Delivery.topicLog Delivery.buffered at before ⊢
    rw [same]
    exact before

theorem logged (delivered : Delivered d log held s) (sensor : Nat) : ∃ later,
    s.logged d log held sensor = s.topicLog d log sensor ++ later ∧
      (s.ended sensor = false → later = s.buffered d held sensor ++ d.values (s.logMessages sensor).queued) := by
  obtain ⟨dropped, split, none⟩ := delivered.drained sensor
  refine ⟨s.buffered d held sensor ++ dropped ++ d.values (s.logMessages sensor).queued, ?_, fun running => ?_⟩
  · rw [Delivery.logged, values_append, ← List.append_assoc, split]
    simp only [List.append_assoc]
  · rw [none running, List.append_nil]

end Delivered

theorem reachable_delivered (ordered : d.kafka.Ordered log) (inOrder : ∀ sensor, d.producer.InOrder log held (d.sensorTopic sensor))
    (reached : (deliveryMachine d).Reachable s) : Delivered d log held s := by
  refine Machine.invariant _ ?_ (fun s event s' _ delivered moved => ?_) reached
  · refine ⟨initial_sound d.lib d.options log d.broker d.topics, fun sensor => ⟨[], ?_, fun _ => rfl⟩⟩
    rw [List.append_nil]
    exact List.append_nil _
  · cases event with
    | put sensor method message =>
      obtain rfl := Option.some.inj moved
      exact delivered.put sensor method message
    | drained sensor =>
      obtain ⟨notEnded, ran⟩ := Option.ite_none_left_eq_some.mp moved
      have running : s.ended sensor = false := by simpa using notEnded
      obtain ⟨⟨entry, queue⟩, took, ran⟩ := Option.bind_eq_some_iff.mp ran
      dsimp only at ran
      split at ran
      · obtain rfl := Option.some.inj ran
        exact delivered.refused running took
      · next broker sends =>
        obtain rfl := Option.some.inj ran
        exact delivered.sent inOrder running took sends
    | cancelled sensor =>
      obtain rfl := Option.some.inj moved
      exact delivered.endDrain sensor
    | streamed event =>
      cases event with
      | published activity =>
        obtain rfl := Option.some.inj moved
        exact delivered.published ordered inOrder activity
      | opened | read | gathered | announced | shutDown =>
        obtain ⟨stream, acted, rfl⟩ := Option.map_eq_some_iff.mp (Option.ite_none_right_eq_some.mp moved).2
        exact delivered.streamed ordered (by rintro activity ⟨⟩) acted

variable (d log held) in
/-- Nothing is on its way from a sensor to a task that reads its topic. -/
structure Arrived (s : Delivery d.kafka) (sensor task next : Nat) : Prop where
  streaming : s.stream.status = .streaming
  running : s.ended sensor = false
  drained : (s.logMessages sensor).queued = []
  flushed : s.buffered d held sensor = []
  read : next = (s.topicLog d log sensor).length
  gathered : s.stream.waiting task = []

/-- A client that streams the topic of a sensor has, from the offset on at which its task has begun, what
passes its filter of all that the sensing methods have logged: in their order, each once, up to some
point, and all of it once nothing is on its way. -/
theorem client_receives_logged (ordered : d.kafka.Ordered log) (inOrder : ∀ sensor, d.producer.InOrder log held (d.sensorTopic sensor))
    (reached : (deliveryMachine d).Reachable s) {sensor task offset next : Nat}
    (there : s.stream.tasks[task]? = some ⟨.string (d.sensorTopic sensor), .reading offset next⟩) :
    ∃ rest, s.stream.received task ++ rest = passing d.lib d.options ((s.logged d log held sensor).drop offset) ∧
      (Arrived d log held s sensor task next → rest = []) := by
  have delivered := reachable_delivered ordered inOrder reached
  obtain ⟨lost, accounts, all⟩ := delivered.sound.accounted
  obtain ⟨le, below⟩ := delivered.sound.within _ (List.mem_of_getElem? there)
  obtain ⟨later, logged, onTheWay⟩ := delivered.logged sensor
  have here : s.stream.received task ++ Mailbox.of task lost ++ s.stream.waiting task =
      passing d.lib d.options (((s.topicLog d log sensor).take next).drop offset) := by
    rw [all, there]
    rfl
  have split : (s.logged d log held sensor).drop offset = ((s.topicLog d log sensor).take next).drop offset ++
      ((s.topicLog d log sensor).drop next ++ later) := by
    have length : ((s.topicLog d log sensor).take next).length = next := List.length_take_of_le below
    have inside : offset ≤ (s.topicLog d log sensor).length := le.trans below
    rw [logged, ← List.append_assoc, ← List.drop_append_of_le_length (by rw [length]; exact le),
      List.take_append_drop, List.drop_append_of_le_length inside]
  refine ⟨Mailbox.of task lost ++ s.stream.waiting task ++
    passing d.lib d.options ((s.topicLog d log sensor).drop next ++ later), ?_, ?_⟩
  · rw [split, passing_append (List.drop offset _), ← here]
    simp only [List.append_assoc]
  · rintro ⟨streaming, running, drained, flushed, read, gathered⟩
    rw [streaming] at accounts
    obtain rfl : lost = [] := accounts
    rw [onTheWay running, gathered, drained, flushed, read, List.drop_length]
    rfl

end Delivery

section Sample

-- The broker of the streams with the records that producers hold for it.
structure BufferedBroker where
  topics : SampleBroker
  held : String → List String

def bufferedLog (broker : BufferedBroker) : Json → List String := sampleLog broker.topics

-- The one activity: the first record that is held for a topic is written to its log.
def bufferedKafka : KafkaEx String where
  Broker := BufferedBroker
  Activity := String
  moved broker topic :=
    match broker.held topic with
    | [] => broker
    | record :: records => ⟨sampleKafka.moved broker.topics (topic, record),
      fun name => if name = topic then records else broker.held name⟩
  topicFound broker := sampleKafka.topicFound broker.topics
  offset broker := sampleKafka.offset broker.topics
  stream broker := sampleKafka.stream broker.topics

def bufferedProducer : KafkaProducer bufferedKafka where
  strEncode := id
  send broker topic message := some { broker with
    held := fun name => if name = topic then broker.held name ++ [message] else broker.held name }

theorem bufferedKafka_ordered : bufferedKafka.Ordered bufferedLog where
  grows broker activity topic := by
    show bufferedLog broker topic <+: bufferedLog (bufferedKafka.moved broker activity) topic
    simp only [bufferedKafka]
    split
    · exact List.prefix_refl _
    · exact sampleKafka_ordered.grows broker.topics (activity, _) topic
  offset broker := sampleKafka_ordered.offset broker.topics
  stream broker := sampleKafka_ordered.stream broker.topics

theorem bufferedProducer_inOrder (topic : String) :
    bufferedProducer.InOrder bufferedLog BufferedBroker.held topic where
  send broker name message after sends := by
    obtain rfl := Option.some.inj sends
    refine ⟨rfl, ?_⟩
    by_cases same : name = topic
    · simp [bufferedProducer, same]
    · simp [same, Ne.symm same]
  moved broker activity := by
    simp only [bufferedKafka]
    split
    · exact ⟨[], by simp, rfl⟩
    · next record records holds =>
      by_cases same : topic = activity
      · subst same
        exact ⟨[record], by simp [bufferedLog, sampleLog, sampleKafka], by simp [holds]⟩
      · exact ⟨[], by simp [bufferedLog, sampleLog, sampleKafka, same], by simp [same]⟩

def sampleTopic (sensor : Nat) : String := String.ofList (List.replicate (sensor + 1) 's')

theorem sampleTopic_injective : Function.Injective sampleTopic := by
  intro a b same
  have lengths := congrArg String.length same
  simpa [sampleTopic] using lengths

def sampleDeployment : Deployment String where
  kafka := bufferedKafka
  producer := bufferedProducer
  sensorTopic := sampleTopic
  distinct := sampleTopic_injective
  lib := samplePoison
  options := sampleOptions
  broker := ⟨fun topic => if topic = "s" then some [] else none, fun _ => []⟩
  topics := ["s"]

def sampleDelivery : List (DeliveryEvent bufferedKafka) :=
  [.put 0 0 "\x7b\"level\":\"info\"\x7d", .put 1 0 "\x7b\"level\":\"debug\"\x7d", .streamed (.opened 0),
    .drained 1, .drained 0, .streamed (.published "s"), .streamed (.read 0), .streamed (.gathered true)]

theorem sample_receives_logged : ∃ s, (deliveryMachine sampleDeployment).run sampleDelivery = some s ∧
    s.stream.received 0 = [sampleObject "info"] ∧
    ∃ rest, s.stream.received 0 ++ rest =
        passing samplePoison sampleOptions ((s.logged sampleDeployment bufferedLog BufferedBroker.held 0).drop 0) ∧
      (Arrived sampleDeployment bufferedLog BufferedBroker.held s 0 0 1 → rest = []) := by
  obtain ⟨s, ran, received, there⟩ : ∃ s, (deliveryMachine sampleDeployment).run sampleDelivery = some s ∧
      s.stream.received 0 = [sampleObject "info"] ∧
      s.stream.tasks[0]? = some ⟨.string (sampleTopic 0), .reading 0 1⟩ := ⟨_, rfl, rfl, rfl⟩
  have reached : (deliveryMachine sampleDeployment).Reachable s := ⟨sampleDelivery, ran⟩
  have atTopic : s.stream.tasks[0]? = some ⟨.string (sampleDeployment.sensorTopic 0), .reading 0 1⟩ := there
  exact ⟨s, ran, received,
    client_receives_logged bufferedKafka_ordered (fun sensor => bufferedProducer_inOrder _) reached atTopic⟩

end Sample

end VirtueSensing.Wrapper
