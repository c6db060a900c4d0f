import VirtueSensing.Api.LogStream

set_option autoImplicit false

/-!
# What a log stream delivers

Every interleaving of the tasks, the gather task, the broker and the client: what the client has of each
topic, what ends a stream, and what does not.
-/

namespace VirtueSensing.Api.LogStream

section Delivery

variable {Value : Type} {kafka : KafkaEx Value} (lib : Poison Value) (options : Options)
  (log : kafka.Broker → Json → List Value)

def Phase.Within (length : Nat) : Phase → Prop
  | .reading offset next | .ended offset next => offset ≤ next ∧ next ≤ length
  | _ => True

def Stream.readValues (s : Stream kafka) (t : StreamTask) : List Value :=
  match t.phase with
  | .reading offset next | .ended offset next => ((log s.broker t.topic).take next).drop offset
  | _ => []

def sentBy (s : Stream kafka) (t : StreamTask) : List Message :=
  match t.phase with
  | .noSuchTopic => [.noSuchTopic t.topic]
  | _ => (passing lib options (s.readValues log t)).map .ok

def jsons (entries : List (Nat × Message)) : List (Nat × Json) :=
  entries.filterMap fun entry => entry.2.json.map fun msg => (entry.1, msg)

-- The one message that is lost is the one that tells of a client that is gone.
def Status.Accounts (lost : List (Nat × Json)) : Status → Prop
  | .streaming => lost = []
  | .disconnected | .returned => lost.length = 1
  | .crashed => lost.length ≤ 1

structure Sound (s : Stream kafka) : Prop where
  within : ∀ t ∈ s.tasks, t.phase.Within (log s.broker t.topic).length
  sent : ∀ task, s.mailbox.sent task = (s.tasks[task]?.map (sentBy lib options log s)).getD []
  wrote : s.written.Sublist s.mailbox.taken
  account : ∃ lost, jsons s.mailbox.taken = jsons s.written ++ lost ∧ s.status.Accounts lost

def Stream.received (s : Stream kafka) (task : Nat) : List Json := Mailbox.of task (jsons s.written)

def Stream.waiting (s : Stream kafka) (task : Nat) : List Json := Mailbox.of task (jsons s.mailbox.queued)

variable {lib options log} {s s' : Stream kafka} {task : Nat} {t : StreamTask}

theorem jsons_append (first rest : List (Nat × Message)) : jsons (first ++ rest) = jsons first ++ jsons rest :=
  List.filterMap_append

theorem of_jsons (task : Nat) (entries : List (Nat × Message)) :
    Mailbox.of task (jsons entries) = (Mailbox.of task entries).filterMap Message.json := by
  unfold jsons Mailbox.of
  rw [List.filterMap_filterMap, List.filterMap_filterMap]
  congr 1
  funext entry
  obtain ⟨owner, msg⟩ := entry
  cases msg <;> by_cases mine : owner = task <;> simp [Message.json, mine]

theorem sentBy_json (s : Stream kafka) (t : StreamTask) :
    (sentBy lib options log s t).filterMap Message.json = passing lib options (s.readValues log t) := by
  have plain (msgs : List Json) : (msgs.map Message.ok).filterMap Message.json = msgs := by
    induction msgs with
    | nil => rfl
    | cons msg rest ih => simp only [List.map_cons, List.filterMap_cons, Message.json, ih]
  unfold sentBy Stream.readValues
  cases t.phase with
  | noSuchTopic => rfl
  | starting | reading | ended => exact plain _

theorem readValues_succ {offset next : Nat} {topic : Json} {value : Value} (le : offset ≤ next)
    (here : (log s.broker topic)[next]? = some value) :
    s.readValues log ⟨topic, .reading offset (next + 1)⟩ =
      s.readValues log ⟨topic, .reading offset next⟩ ++ [value] := by
  obtain ⟨below, -⟩ := List.getElem?_eq_some_iff.mp here
  have length : ((log s.broker topic).take next).length = next := List.length_take_of_le (Nat.le_of_lt below)
  show ((log s.broker topic).take (next + 1)).drop offset = ((log s.broker topic).take next).drop offset ++ [value]
  rw [List.take_add_one, here, List.drop_append_of_le_length (by rw [length]; exact le)]
  rfl

theorem readValues_begin (s : Stream kafka) (topic : Json) (offset : Nat) :
    s.readValues log ⟨topic, .reading offset offset⟩ = [] := by
  show ((log s.broker topic).take offset).drop offset = []
  exact List.drop_eq_nil_of_le (List.length_take_le _ _)

theorem passing_append (first rest : List Value) :
    passing lib options (first ++ rest) = passing lib options first ++ passing lib options rest :=
  List.filterMap_append

theorem passing_snoc (values : List Value) (value : Value) :
    passing lib options (values ++ [value]) =
      passing lib options values ++ (filterMessage lib options value).message.toList := by
  rw [passing, List.filterMap_append]
  cases found : (filterMessage lib options value).message <;> simp [passing, found]

theorem KafkaEx.Ordered.within (ordered : kafka.Ordered log) {broker : kafka.Broker} {topic : Json} {offset : Nat}
    (found : (kafka.offset broker topic).bind getTopicOffset = some offset) :
    offset ≤ (log broker topic).length := by
  obtain ⟨responses, answered, found⟩ := Option.bind_eq_some_iff.mp found
  have inside := ordered.offset broker topic responses answered
  unfold getTopicOffset at found
  split at found
  · obtain rfl := Option.some.inj found
    exact inside _ List.mem_cons_self _ List.mem_cons_self _ List.mem_cons_self
  · obtain rfl := Option.some.inj found
    exact Nat.zero_le _
  · obtain rfl := Option.some.inj found
    exact Nat.zero_le _
  · cases found

theorem openTopic_broker (ran : openTopic s task = some s') : s'.broker = s.broker := by
  obtain ⟨t, -, ran⟩ := Option.bind_eq_some_iff.mp ran
  split_ifs at ran
  split at ran
  · obtain rfl := Option.some.inj ran
    rfl
  · obtain rfl := Option.some.inj ran
    rfl
  · split at ran <;>
    · obtain rfl := Option.some.inj ran
      rfl

theorem readMessage_broker (ran : readMessage lib options s task = some s') : s'.broker = s.broker := by
  obtain ⟨t, -, ran⟩ := Option.bind_eq_some_iff.mp ran
  split at ran
  · split at ran
    · obtain rfl := Option.some.inj ran
      rfl
    · split_ifs at ran
      obtain rfl := Option.some.inj ran
      rfl
    · split at ran <;>
      · obtain rfl := Option.some.inj ran
        rfl
  · cases ran

theorem streamGather_broker {accepted : Bool} (ran : streamGather s accepted = some s') : s'.broker = s.broker := by
  obtain ⟨⟨⟨owner, msg⟩, mailbox⟩, -, ran⟩ := Option.bind_eq_some_iff.mp ran
  cases msg with
  | ok | noSuchTopic =>
    obtain rfl := Option.some.inj ran
    rfl

theorem gatherNewStreams_cases (s : Stream kafka) (msg : Option Value) :
    gatherNewStreams lib s msg = s ∨ gatherNewStreams lib s msg = s.crash ∨
      ∃ topic, gatherNewStreams lib s msg = { s with tasks := s.tasks ++ [⟨topic, .starting⟩] } := by
  unfold gatherNewStreams
  split
  · exact .inr (.inl rfl)
  · split_ifs
    · split
      · exact .inl rfl
      · split
        · exact .inl rfl
        · split
          · exact .inr (.inl rfl)
          · exact .inr (.inr ⟨_, rfl⟩)
      · exact .inr (.inl rfl)
      · exact .inr (.inl rfl)
    · exact .inr (.inl rfl)

theorem gatherNewStreams_broker (s : Stream kafka) (msg : Option Value) :
    (gatherNewStreams lib s msg).broker = s.broker := by
  rcases gatherNewStreams_cases s msg with same | crashed | ⟨topic, more⟩
  · rw [same]
  · rw [crashed]
    rfl
  · rw [more]

theorem act_broker {event : Event kafka} (other : ∀ activity, event ≠ .published activity)
    (ran : act lib options s event = some s') : s'.broker = s.broker := by
  cases event with
  | published activity => exact absurd rfl (other activity)
  | opened task => exact openTopic_broker ran
  | read task => exact readMessage_broker ran
  | gathered accepted => exact streamGather_broker (Option.ite_none_right_eq_some.mp ran).2
  | announced msg =>
    obtain rfl := Option.some.inj (Option.ite_none_right_eq_some.mp ran).2
    exact gatherNewStreams_broker s msg
  | shutDown =>
    obtain rfl := Option.some.inj (Option.ite_none_right_eq_some.mp ran).2
    rfl

namespace Sound

theorem move (sound : Sound lib options log s) (there : s.tasks[task]? = some t) {phase : Phase}
    (within : phase.Within (log s.broker t.topic).length) {mailbox : Mailbox Nat Message} {msgs : List Message}
    (mail : ∀ other, mailbox.sent other = s.mailbox.sent other ++ if other = task then msgs else [])
    (taken : mailbox.taken = s.mailbox.taken)
    (sends : sentBy lib options log s { t with phase := phase } = sentBy lib options log s t ++ msgs) :
    Sound lib options log { s.setPhase task t phase with mailbox := mailbox } where
  within := by
    intro u member
    rcases List.mem_or_eq_of_mem_set member with before | rfl
    · exact sound.within u before
    · exact within
  sent := by
    intro other
    rw [mail, sound.sent]
    show _ = ((s.tasks.set task { t with phase := phase })[other]?.map (sentBy lib options log s)).getD []
    by_cases same : other = task
    · subst same
      obtain ⟨below, -⟩ := List.getElem?_eq_some_iff.mp there
      rw [if_pos rfl, List.getElem?_set_self below, there]
      exact sends.symm
    · rw [if_neg same, List.append_nil, List.getElem?_set_ne (Ne.symm same)]
  wrote := by
    rw [taken]
    exact sound.wrote
  account := by
    rw [taken]
    exact sound.account

theorem crash (sound : Sound lib options log s) : Sound lib options log s.crash where
  within := sound.within
  sent := sound.sent
  wrote := sound.wrote
  account := by
    obtain ⟨lost, split, accounts⟩ := sound.account
    refine ⟨lost, split, ?_⟩
    cases found : s.status with
    | streaming =>
      rw [found] at accounts
      exact accounts ▸ Nat.zero_le 1
    | disconnected | returned =>
      rw [found] at accounts
      exact Nat.le_of_eq accounts
    | crashed =>
      rw [found] at accounts
      exact accounts

theorem moveSending (sound : Sound lib options log s) (there : s.tasks[task]? = some t) {phase : Phase} {msg : Message}
    (within : phase.Within (log s.broker t.topic).length)
    (sends : sentBy lib options log s { t with phase := phase } = sentBy lib options log s t ++ [msg]) :
    Sound lib options log ((s.setPhase task t phase).send task msg) := by
  refine sound.move there within (fun other => ?_) rfl sends
  show (s.mailbox.put task msg).sent other = _
  by_cases same : other = task
  · rw [if_pos same, same, Mailbox.sent_put_self]
  · rw [if_neg same, Mailbox.sent_put_other (Ne.symm same), List.append_nil]

theorem moveQuiet (sound : Sound lib options log s) (there : s.tasks[task]? = some t) {phase : Phase}
    (within : phase.Within (log s.broker t.topic).length)
    (same : sentBy lib options log s { t with phase := phase } = sentBy lib options log s t) :
    Sound lib options log (s.setPhase task t phase) :=
  sound.move there within (by simp) rfl (same.trans (List.append_nil _).symm)

theorem moveBroker (sound : Sound lib options log s) {broker : kafka.Broker}
    (grown : ∀ topic, log s.broker topic <+: log broker topic) : Sound lib options log { s with broker } := by
  have unread (t : StreamTask) (member : t ∈ s.tasks) :
      sentBy lib options log { s with broker } t = sentBy lib options log s t := by
    have bounds := sound.within t member
    obtain ⟨more, longer⟩ := grown t.topic
    have values : Stream.readValues log { s with broker } t = s.readValues log t := by
      unfold Stream.readValues
      cases found : t.phase with
      | starting | noSuchTopic => rfl
      | reading offset next | ended offset next =>
        rw [found] at bounds
        simp only [← longer, List.take_append_of_le_length bounds.2]
    unfold sentBy
    rw [values]
  refine ⟨?_, ?_, sound.wrote, sound.account⟩
  · intro t member
    have bounds := sound.within t member
    have length := (grown t.topic).length_le
    cases found : t.phase with
    | starting | noSuchTopic => trivial
    | reading offset next | ended offset next =>
      rw [found] at bounds
      exact ⟨bounds.1, bounds.2.trans length⟩
  · intro other
    rw [sound.sent]
    cases there : s.tasks[other]? with
    | none => rfl
    | some t => exact (unread t (List.mem_of_getElem? there)).symm

theorem openTopic (sound : Sound lib options log s) (ordered : kafka.Ordered log)
    (ran : openTopic s task = some s') : Sound lib options log s' := by
  obtain ⟨⟨topic, phase⟩, there, ran⟩ := Option.bind_eq_some_iff.mp ran
  split_ifs at ran with starting
  obtain rfl : phase = .starting := starting
  dsimp only at ran
  split at ran
  · obtain rfl := Option.some.inj ran
    exact sound.crash
  · obtain rfl := Option.some.inj ran
    have within : Phase.noSuchTopic.Within (log s.broker topic).length := trivial
    exact sound.moveSending there within rfl
  · split at ran
    · obtain rfl := Option.some.inj ran
      exact sound.crash
    · next offset found =>
      obtain rfl := Option.some.inj ran
      have within : (Phase.reading offset offset).Within (log s.broker topic).length :=
        ⟨Nat.le_refl _, ordered.within found⟩
      refine sound.moveQuiet there within ?_
      simp only [sentBy, readValues_begin]
      rfl

theorem readMessage (sound : Sound lib options log s) (ordered : kafka.Ordered log)
    (ran : readMessage lib options s task = some s') : Sound lib options log s' := by
  obtain ⟨⟨topic, phase⟩, there, ran⟩ := Option.bind_eq_some_iff.mp ran
  have bounds := sound.within _ (List.mem_of_getElem? there)
  cases phase with
  | starting | ended | noSuchTopic => cases ran
  | reading offset next =>
    dsimp only at ran
    split at ran
    · obtain rfl := Option.some.inj ran
      exact sound.crash
    · split_ifs at ran
      obtain rfl := Option.some.inj ran
      have within : (Phase.ended offset next).Within (log s.broker topic).length := bounds
      exact sound.moveQuiet there within rfl
    · next value answered =>
      have here : (log s.broker topic)[next]? = some value := (ordered.stream _ _ _ _ answered).symm
      have further : sentBy lib options log s ⟨topic, .reading offset (next + 1)⟩ =
          sentBy lib options log s ⟨topic, .reading offset next⟩ ++
            (filterMessage lib options value).message.toList.map .ok := by
        simp only [sentBy, readValues_succ bounds.1 here, passing_snoc, List.map_append]
      obtain ⟨below, -⟩ := List.getElem?_eq_some_iff.mp here
      have within : (Phase.reading offset (next + 1)).Within (log s.broker topic).length :=
        ⟨Nat.le_succ_of_le bounds.1, below⟩
      split at ran
      · next msg found =>
        obtain rfl := Option.some.inj ran
        rw [found] at further
        exact sound.moveSending there within further
      · next found =>
        obtain rfl := Option.some.inj ran
        rw [found] at further
        exact sound.moveQuiet there within (further.trans (List.append_nil _))
      · obtain rfl := Option.some.inj ran
        exact sound.crash

theorem streamGather (sound : Sound lib options log s) (streaming : s.status = .streaming) {accepted : Bool}
    (ran : streamGather s accepted = some s') : Sound lib options log s' := by
  obtain ⟨⟨⟨owner, msg⟩, mailbox⟩, took, ran⟩ := Option.bind_eq_some_iff.mp ran
  have mail (other : Nat) : mailbox.sent other = s.mailbox.sent other := Mailbox.sent_take took other
  have kept (other : Nat) := (mail other).trans (sound.sent other)
  have taken := (Mailbox.take_eq_some took).2
  obtain ⟨lost, split, accounts⟩ := sound.account
  rw [streaming] at accounts
  obtain rfl : lost = [] := accounts
  have before : jsons s.mailbox.taken = jsons s.written := split.trans (List.append_nil _)
  have wrote : (s.written ++ [(owner, msg)]).Sublist mailbox.taken := taken ▸ sound.wrote.append_right _
  have skipped : s.written.Sublist mailbox.taken := (List.sublist_append_left _ _).trans wrote
  cases msg with
  | ok msg =>
    obtain rfl := Option.some.inj ran
    have more : jsons mailbox.taken = jsons s.written ++ [(owner, msg)] := by
      rw [taken, jsons_append, before]
      rfl
    cases accepted with
    | true =>
      refine ⟨sound.within, kept, wrote, [], ?_, rfl⟩
      show jsons mailbox.taken = jsons (s.written ++ [(owner, .ok msg)]) ++ []
      rw [more, jsons_append, List.append_nil]
      rfl
    | false => exact ⟨sound.within, kept, skipped, [(owner, msg)], more, rfl⟩
  | noSuchTopic topic =>
    obtain rfl := Option.some.inj ran
    have same : jsons mailbox.taken = jsons s.written := by
      rw [taken, jsons_append, before]
      exact List.append_nil _
    cases accepted with
    | true =>
      refine ⟨sound.within, kept, wrote, [], ?_, streaming ▸ rfl⟩
      show jsons mailbox.taken = jsons (s.written ++ [(owner, .noSuchTopic topic)]) ++ []
      rw [same, jsons_append, List.append_nil]
      exact (List.append_nil _).symm
    | false => exact ⟨sound.within, kept, skipped, [], same.trans (List.append_nil _).symm, streaming ▸ rfl⟩

theorem subscribe (sound : Sound lib options log s) (topic : Json) :
    Sound lib options log { s with tasks := s.tasks ++ [⟨topic, .starting⟩] } where
  within := by
    intro t member
    rcases List.mem_append.mp member with before | new
    · exact sound.within t before
    · obtain rfl := List.mem_singleton.mp new
      trivial
  sent := by
    intro other
    show s.mailbox.sent other = ((s.tasks ++ [⟨topic, .starting⟩])[other]?.map (sentBy lib options log s)).getD []
    rw [sound.sent]
    rcases Nat.lt_trichotomy other s.tasks.length with before | rfl | after
    · rw [List.getElem?_append_left before]
    · rw [List.getElem?_concat_length, List.getElem?_eq_none (Nat.le_refl _)]
      rfl
    · rw [List.getElem?_eq_none (Nat.le_of_lt after), List.getElem?_eq_none (by simpa using Nat.succ_le_of_lt after)]
  wrote := sound.wrote
  account := sound.account

theorem gatherNewStreams (sound : Sound lib options log s) (msg : Option Value) :
    Sound lib options log (gatherNewStreams lib s msg) := by
  rcases gatherNewStreams_cases s msg with same | crashed | ⟨topic, more⟩
  · rw [same]
    exact sound
  · rw [crashed]
    exact sound.crash
  · rw [more]
    exact sound.subscribe topic

theorem act (sound : Sound lib options log s) (ordered : kafka.Ordered log) {event : Event kafka}
    (moved : act lib options s event = some s') : Sound lib options log s' := by
  cases event with
  | published activity =>
    obtain rfl := Option.some.inj moved
    exact sound.moveBroker (ordered.grows s.broker activity)
  | opened task => exact sound.openTopic ordered moved
  | read task => exact sound.readMessage ordered moved
  | gathered accepted =>
    obtain ⟨streaming, ran⟩ := Option.ite_none_right_eq_some.mp moved
    exact sound.streamGather streaming ran
  | announced msg =>
    obtain rfl := Option.some.inj (Option.ite_none_right_eq_some.mp moved).2
    exact sound.gatherNewStreams msg
  | shutDown =>
    obtain ⟨gone, ran⟩ := Option.ite_none_right_eq_some.mp moved
    obtain rfl := Option.some.inj ran
    have account := sound.account
    rw [gone] at account
    exact ⟨sound.within, sound.sent, sound.wrote, account⟩

end Sound

variable (lib options log) in
theorem initial_sound (broker : kafka.Broker) (topics : List String) :
    Sound lib options log (spawnStream kafka lib options broker topics).initial := by
  refine ⟨?_, fun task => ?_, List.Sublist.refl _, [], rfl, rfl⟩
  · intro t member
    obtain ⟨topic, -, rfl⟩ := List.mem_map.mp member
    trivial
  · show [] = (((topics.map fun topic => (⟨.string topic, .starting⟩ : StreamTask))[task]?).map
      (sentBy lib options log (spawnStream kafka lib options broker topics).initial)).getD []
    rw [List.getElem?_map]
    cases topics[task]? <;> rfl

theorem reachable_sound (ordered : kafka.Ordered log) {broker : kafka.Broker} {topics : List String}
    (reached : (spawnStream kafka lib options broker topics).Reachable s) : Sound lib options log s :=
  Machine.invariant _ (initial_sound lib options log broker topics)
    (fun _ _ _ _ sound moved => sound.act ordered (Option.ite_none_right_eq_some.mp moved).2) reached

theorem Sound.accounted (sound : Sound lib options log s) :
    ∃ lost, s.status.Accounts lost ∧ ∀ task,
      s.received task ++ Mailbox.of task lost ++ s.waiting task =
        (s.tasks[task]?.map fun t => passing lib options (s.readValues log t)).getD [] := by
  obtain ⟨lost, split, accounts⟩ := sound.account
  refine ⟨lost, accounts, fun task => ?_⟩
  have all : (s.mailbox.sent task).filterMap Message.json =
      (s.tasks[task]?.map fun t => passing lib options (s.readValues log t)).getD [] := by
    rw [sound.sent]
    cases s.tasks[task]? with
    | none => rfl
    | some t => exact sentBy_json s t
  rw [Stream.received, ← Mailbox.of_append, ← split, Stream.waiting, of_jsons, of_jsons, ← List.filterMap_append,
    ← Mailbox.sent_eq]
  exact all

theorem Sound.response (sound : Sound lib options log s) {task : Nat} {t : StreamTask} (there : s.tasks[task]? = some t)
    (known : t.phase ≠ .noSuchTopic) :
    Mailbox.of task (s.response lib) = (s.received task).map fun msg => lib.encode msg ++ "\n" := by
  have plain : ∀ msg ∈ Mailbox.of task s.written, ∃ json, msg = .ok json := by
    intro msg member
    have taken : msg ∈ Mailbox.of task s.mailbox.taken := (sound.wrote.filterMap _).subset member
    have sent : msg ∈ s.mailbox.sent task := (Mailbox.taken_prefix s.mailbox task).subset taken
    rw [sound.sent, there] at sent
    have passed : msg ∈ (passing lib options (s.readValues log t)).map .ok := by
      unfold sentBy at sent
      cases found : t.phase with
      | noSuchTopic => exact absurd found known
      | starting | reading | ended => simpa [found] using sent
    obtain ⟨json, -, rfl⟩ := List.mem_map.mp passed
    exact ⟨json, rfl⟩
  have chunks : Mailbox.of task (s.response lib) = (Mailbox.of task s.written).map (Message.chunk lib) := by
    unfold Mailbox.of Stream.response
    rw [List.filterMap_map, List.map_filterMap]
    congr 1
    funext entry
    by_cases mine : entry.1 = task <;> simp [mine]
  rw [chunks, Stream.received, of_jsons]
  generalize Mailbox.of task s.written = msgs at plain
  induction msgs with
  | nil => rfl
  | cons msg rest ih =>
    obtain ⟨⟨json, rfl⟩, others⟩ := List.forall_mem_cons.mp plain
    rw [List.map_cons, ih others]
    rfl

/-- The client has, of each task, what passes of the part of the log that the task has read, in its
order. What is missing waits for the gather task, but for the one message that shows a client gone. -/
theorem stream_delivers (ordered : kafka.Ordered log) {broker : kafka.Broker} {topics : List String}
    (reached : (spawnStream kafka lib options broker topics).Reachable s) :
    ∃ lost, s.status.Accounts lost ∧ ∀ task,
      s.received task ++ Mailbox.of task lost ++ s.waiting task =
        (s.tasks[task]?.map fun t => passing lib options (s.readValues log t)).getD [] ∧
      ∀ t, s.tasks[task]? = some t → t.phase ≠ .noSuchTopic →
        Mailbox.of task (s.response lib) = (s.received task).map fun msg => lib.encode msg ++ "\n" := by
  have sound := reachable_sound ordered reached
  obtain ⟨lost, accounts, all⟩ := sound.accounted
  exact ⟨lost, accounts, fun task => ⟨all task, fun t there => sound.response there⟩⟩

theorem sampleKafka_ordered : sampleKafka.Ordered sampleLog where
  grows broker activity topic := by
    cases topic with
    | string topic =>
      by_cases same : topic = activity.1
      · exact ⟨[activity.2], by simp [sampleLog, sampleKafka, same]⟩
      · exact ⟨[], by simp [sampleLog, sampleKafka, same]⟩
    | _ => exact List.prefix_refl _
  offset broker topic responses answered := by
    cases topic with
    | string topic =>
      obtain rfl := Option.some.inj answered
      simp
    | _ => cases answered
  stream broker topic n answer answered := by
    cases topic with
    | string topic => exact (Option.some.inj answered).symm
    | _ => cases answered

theorem sample_delivers : ∃ s, sampleMachine.run sampleEvents = some s ∧ s.received 1 = [sampleObject "info"] ∧
    ∃ lost, s.status.Accounts lost ∧ ∀ task,
      s.received task ++ Mailbox.of task lost ++ s.waiting task =
        (s.tasks[task]?.map fun t => passing samplePoison sampleOptions (s.readValues sampleLog t)).getD [] ∧
      ∀ t, s.tasks[task]? = some t → t.phase ≠ .noSuchTopic →
        Mailbox.of task (s.response samplePoison) =
          (s.received task).map fun msg => samplePoison.encode msg ++ "\n" := by
  obtain ⟨s, ran, received⟩ : ∃ s, sampleMachine.run sampleEvents = some s ∧
      s.received 1 = [sampleObject "info"] := ⟨_, rfl, rfl⟩
  exact ⟨s, ran, received, stream_delivers sampleKafka_ordered ⟨sampleEvents, ran⟩⟩

end Delivery

section Survival

variable {Value : Type} {kafka : KafkaEx Value} (lib : Poison Value) {options : Options} {s s' : Stream kafka}
  {event : Event kafka}

/-- The value is no JSON, as far as Poison says so, or it is a map. -/
def Poison.IsMap (value : Value) : Prop :=
  lib.decode value = .error ∨ ∃ member, lib.decode value = .ok (.object member)

/-- An announcement that can be printed and is a map, with the topic, if it is of a registration. -/
def Poison.Announces (value : Value) : Prop :=
  lib.printable value = true ∧ lib.IsMap value ∧ ∀ member topic, lib.decode value = .ok (.object member) →
    registeredTopic member = some topic → ValidationPlug.interpolate topic ≠ none

def KafkaEx.Opens (kafka : KafkaEx Value) (broker : kafka.Broker) (topic : Json) : Prop :=
  kafka.topicFound broker topic = some false ∨
    kafka.topicFound broker topic = some true ∧ (kafka.offset broker topic).bind getTopicOffset ≠ none

/-- The client of the broker answers at this event, and what is read at it can be told apart. -/
def Readable (s : Stream kafka) : Event kafka → Prop
  | .opened task => ∀ t, s.tasks[task]? = some t → kafka.Opens s.broker t.topic
  | .read task => ∀ t offset next, s.tasks[task]? = some t → t.phase = .reading offset next →
    ∃ answer, kafka.stream s.broker t.topic next = some answer ∧ ∀ value ∈ answer, lib.IsMap value
  | .announced msg => ∃ value, msg = some value ∧ lib.Announces value
  | _ => True

variable {lib}

theorem filterMessage_raised_iff {value : Value} :
    filterMessage lib options value = .raised ↔ ¬ lib.IsMap value := by
  unfold filterMessage Poison.IsMap
  cases decoded : lib.decode value with
  | error | raised => simp
  | ok json =>
    cases json with
    | object member =>
      refine iff_of_false ?_ (not_not.mpr (.inr ⟨member, rfl⟩))
      dsimp only
      split
      · split_ifs <;> exact nofun
      · exact nofun
    | _ => simp

theorem isMap_of_filterMessage {value : Value} (passed : filterMessage lib options value ≠ .raised) :
    lib.IsMap value :=
  not_not.mp (mt filterMessage_raised_iff.mpr passed)

theorem openTopic_crashes_iff {task : Nat} (up : s.status ≠ .crashed) (ran : openTopic s task = some s') :
    s'.status ≠ .crashed ↔ Readable lib s (.opened task) := by
  obtain ⟨t, there, ran⟩ := Option.bind_eq_some_iff.mp ran
  have only : Readable lib s (.opened task) ↔ kafka.Opens s.broker t.topic :=
    ⟨fun readable => readable t there, fun opens u here => Option.some.inj (there.symm.trans here) ▸ opens⟩
  rw [only, KafkaEx.Opens]
  split_ifs at ran
  split at ran
  · next found =>
    obtain rfl := Option.some.inj ran
    exact iff_of_false (fun running => running rfl) (by simp [found])
  · next found =>
    obtain rfl := Option.some.inj ran
    exact iff_of_true up (.inl found)
  · next found =>
    split at ran
    · next offset =>
      obtain rfl := Option.some.inj ran
      exact iff_of_false (fun running => running rfl) (by simp [found, offset])
    · next offset known =>
      obtain rfl := Option.some.inj ran
      exact iff_of_true up (.inr ⟨found, by simp [known]⟩)

theorem readMessage_crashes_iff {task : Nat} (up : s.status ≠ .crashed)
    (ran : readMessage lib options s task = some s') : s'.status ≠ .crashed ↔ Readable lib s (.read task) := by
  obtain ⟨t, there, ran⟩ := Option.bind_eq_some_iff.mp ran
  split at ran
  · next offset next phase =>
    have only : Readable lib s (.read task) ↔
        ∃ answer, kafka.stream s.broker t.topic next = some answer ∧ ∀ value ∈ answer, lib.IsMap value := by
      refine ⟨fun readable => readable t offset next there phase, fun readable u offset' next' here phase' => ?_⟩
      obtain rfl := Option.some.inj (there.symm.trans here)
      obtain ⟨-, rfl⟩ := Phase.reading.inj (phase.symm.trans phase')
      exact readable
    rw [only]
    split at ran
    · next raised =>
      obtain rfl := Option.some.inj ran
      exact iff_of_false (fun running => running rfl) (by simp [raised])
    · next atEnd =>
      split_ifs at ran
      obtain rfl := Option.some.inj ran
      exact iff_of_true up ⟨none, atEnd, nofun⟩
    · next value here =>
      have single : (∃ answer, kafka.stream s.broker t.topic next = some answer ∧
          ∀ value ∈ answer, lib.IsMap value) ↔ lib.IsMap value := by
        simp [here]
      rw [single]
      split at ran
      · next msg found =>
        obtain rfl := Option.some.inj ran
        exact iff_of_true up (isMap_of_filterMessage (by rw [found]; exact nofun))
      · next found =>
        obtain rfl := Option.some.inj ran
        exact iff_of_true up (isMap_of_filterMessage (by rw [found]; exact nofun))
      · next found =>
        obtain rfl := Option.some.inj ran
        exact iff_of_false (fun running => running rfl) (filterMessage_raised_iff.mp found)
  · cases ran

theorem streamGather_status {accepted : Bool} (up : s.status = .streaming)
    (ran : streamGather s accepted = some s') : s'.status ≠ .crashed := by
  obtain ⟨⟨⟨owner, msg⟩, mailbox⟩, -, ran⟩ := Option.bind_eq_some_iff.mp ran
  cases msg with
  | ok msg =>
    obtain rfl := Option.some.inj ran
    cases accepted <;> exact nofun
  | noSuchTopic topic =>
    obtain rfl := Option.some.inj ran
    show s.status ≠ .crashed
    rw [up]
    exact nofun

theorem gatherNewStreams_crashes_iff {msg : Option Value} (up : s.status ≠ .crashed) :
    (gatherNewStreams lib s msg).status ≠ .crashed ↔ ∃ value, msg = some value ∧ lib.Announces value := by
  cases msg with
  | none => exact iff_of_false (fun running => running rfl) (by simp)
  | some value =>
    have only : (∃ heard, some value = some heard ∧ lib.Announces heard) ↔ lib.Announces value := by simp
    rw [only]
    unfold gatherNewStreams Poison.Announces Poison.IsMap
    dsimp only
    by_cases printed : lib.printable value = true
    · rw [if_pos printed]
      cases decoded : lib.decode value with
      | error => exact iff_of_true up ⟨printed, .inl rfl, nofun⟩
      | raised => exact iff_of_false (fun running => running rfl) (by simp)
      | ok json =>
        cases json with
        | object member =>
          dsimp only
          cases registered : registeredTopic member with
          | none =>
            refine iff_of_true up ⟨printed, .inr ⟨member, rfl⟩, ?_⟩
            rintro _ topic ⟨⟩ found
            exact absurd (registered.symm.trans found) nofun
          | some topic =>
            dsimp only
            cases text : ValidationPlug.interpolate topic with
            | none =>
              refine iff_of_false (fun running => running rfl) ?_
              rintro ⟨-, -, shown⟩
              exact shown member topic rfl registered text
            | some text' =>
              refine iff_of_true up ⟨printed, .inr ⟨member, rfl⟩, ?_⟩
              rintro _ other ⟨⟩ found
              obtain rfl := Option.some.inj (registered.symm.trans found)
              rw [text]
              exact nofun
        | _ => exact iff_of_false (fun running => running rfl) (by simp)
    · rw [if_neg printed]
      exact iff_of_false (fun running => running rfl) fun announces => printed announces.1

theorem act_crashes_iff (up : s.status ≠ .crashed) (ran : act lib options s event = some s') :
    s'.status ≠ .crashed ↔ Readable lib s event := by
  cases event with
  | published activity =>
    obtain rfl := Option.some.inj ran
    exact iff_of_true up trivial
  | opened task => exact openTopic_crashes_iff up ran
  | read task => exact readMessage_crashes_iff up ran
  | gathered accepted =>
    obtain ⟨streaming, ran⟩ := Option.ite_none_right_eq_some.mp ran
    exact iff_of_true (streamGather_status streaming ran) trivial
  | announced msg =>
    obtain rfl := Option.some.inj (Option.ite_none_right_eq_some.mp ran).2
    exact gatherNewStreams_crashes_iff up
  | shutDown =>
    obtain rfl := Option.some.inj (Option.ite_none_right_eq_some.mp ran).2
    exact iff_of_true (by decide : Status.returned ≠ .crashed) trivial

/-- A stream survives a run exactly when the client of the broker answers wherever it is asked, every
value that is read is a map or no JSON, and every announcement can be printed, with the topic of a
registration. -/
theorem stream_survives_iff {broker : kafka.Broker} {topics : List String}
    {events : List (Event kafka)} (ran : (spawnStream kafka lib options broker topics).run events = some s) :
    (∀ first t, first <+: events → (spawnStream kafka lib options broker topics).run first = some t →
      t.status ≠ .crashed) ↔ (spawnStream kafka lib options broker topics).Throughout (Readable lib) events := by
  apply Machine.along_iff_throughout _ _ _ ran
  · show Status.streaming ≠ .crashed
    decide
  · intro s event t up moved
    exact act_crashes_iff up (Option.ite_none_right_eq_some.mp moved).2

theorem sample_survives_iff :
    (∀ first t, first <+: sampleEvents → sampleMachine.run first = some t → t.status ≠ .crashed) ↔
      sampleMachine.Throughout (Readable samplePoison) sampleEvents :=
  stream_survives_iff rfl

end Survival

section Completion

variable {Value : Type} {kafka : KafkaEx Value} {lib : Poison Value} {options : Options} {s s' : Stream kafka}

def StreamTask.Finished (t : StreamTask) : Prop :=
  t.phase = .noSuchTopic ∨ ∃ offset next, t.phase = .ended offset next

structure Complete (s : Stream kafka) : Prop where
  streaming : s.status = .streaming
  finished : ∀ t ∈ s.tasks, t.Finished
  written : s.mailbox.queued = []

theorem Complete.act (complete : Complete s) (closed : options.autoSubscribeAll = false) {event : Event kafka}
    (ran : act lib options s event = some s') :
    (∃ activity, event = .published activity) ∧ Complete s' ∧ s'.written = s.written := by
  have finished {task : Nat} {t : StreamTask} (there : s.tasks[task]? = some t) :=
    complete.finished t (List.mem_of_getElem? there)
  cases event with
  | published activity =>
    obtain rfl := Option.some.inj ran
    exact ⟨⟨activity, rfl⟩, ⟨complete.streaming, complete.finished, complete.written⟩, rfl⟩
  | opened task =>
    obtain ⟨t, there, ran⟩ := Option.bind_eq_some_iff.mp ran
    rcases finished there with phase | ⟨offset, next, phase⟩ <;> simp [phase] at ran
  | read task =>
    obtain ⟨t, there, ran⟩ := Option.bind_eq_some_iff.mp ran
    rcases finished there with phase | ⟨offset, next, phase⟩ <;> simp [phase] at ran
  | gathered accepted =>
    obtain ⟨-, ran⟩ := Option.ite_none_right_eq_some.mp ran
    obtain ⟨⟨entry, mailbox⟩, took, -⟩ := Option.bind_eq_some_iff.mp ran
    have queued := (Mailbox.take_eq_some took).1
    rw [complete.written] at queued
    cases queued
  | announced msg => simp [LogStream.act, closed] at ran
  | shutDown => simp [LogStream.act, complete.streaming] at ran

/-- The response of a complete stream stays open, whatever comes: nothing but messages for the topics
can follow, and the client gets none of them. -/
theorem complete_stays_open {broker : kafka.Broker} {topics : List String}
    (closed : options.autoSubscribeAll = false) (complete : Complete s) {events : List (Event kafka)}
    (ran : (spawnStream kafka lib options broker topics).runFrom s events = some s') :
    s'.status = .streaming ∧ s'.written = s.written ∧
      ∀ event ∈ events, ∃ activity, event = .published activity := by
  induction events generalizing s with
  | nil =>
    obtain rfl := Option.some.inj ran
    exact ⟨complete.streaming, rfl, nofun⟩
  | cons event events ih =>
    obtain ⟨t, moved, ran⟩ := Option.bind_eq_some_iff.mp ran
    obtain ⟨only, still, same⟩ := complete.act closed (Option.ite_none_right_eq_some.mp moved).2
    obtain ⟨streaming, later, others⟩ := ih still ran
    exact ⟨streaming, later.trans same, List.forall_mem_cons.mpr ⟨only, others⟩⟩

def sampleDone : Stream sampleKafka where
  broker := sampleBroker
  tasks := [⟨.string "lsof", .noSuchTopic⟩, ⟨.string "ps", .ended 0 3⟩]
  mailbox := ⟨[(0, .noSuchTopic (.string "lsof")), (1, .ok (sampleObject "info"))], []⟩
  written := [(0, .noSuchTopic (.string "lsof")), (1, .ok (sampleObject "info"))]
  status := .streaming

-- A client that does not follow the log has all of it, and waits.
theorem sample_stays_open : sampleMachine.run sampleEvents = some sampleDone ∧
    ∃ s', sampleMachine.runFrom sampleDone [.published ("ps", "not JSON")] = some s' ∧
      (s'.status = .streaming ∧ s'.written = sampleDone.written ∧
        ∀ event ∈ [(.published ("ps", "not JSON") : Event sampleKafka)], ∃ activity, event = .published activity) := by
  have complete : Complete sampleDone := by
    refine ⟨rfl, ?_, rfl⟩
    simp [sampleDone, StreamTask.Finished]
  obtain ⟨s', ran⟩ : ∃ s', sampleMachine.runFrom sampleDone [.published ("ps", "not JSON")] = some s' := ⟨_, rfl⟩
  exact ⟨rfl, s', ran, complete_stays_open rfl complete ran⟩

end Completion

end VirtueSensing.Api.LogStream
