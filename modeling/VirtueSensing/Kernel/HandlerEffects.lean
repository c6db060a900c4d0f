import VirtueSensing.Kernel.RecordLines
import VirtueSensing.Kernel.SensorLevels

set_option autoImplicit false

/-!
# What a line leaves alone

Whatever a line asks for, the sensors keep their names and uuids, and only the socket that it came from
is written to.
-/

namespace VirtueSensing.Kernel

def identities (sensors : List Sensor) : List (Bytes × Bytes) :=
  sensors.map fun s => (s.name, s.uuid)

/-- The sensors are the same ones, and what was written went to the socket. -/
structure Answered (socket : Nat) (before after : State) : Prop where
  identities : identities after.sensors = identities before.sensors
  written : ∃ sent, after.written = before.written ++ sent ∧ ∀ w ∈ sent, w.1 = socket

namespace Answered

variable {socket : Nat} {k after : State}

theorem refl (socket : Nat) (k : State) : Answered socket k k :=
  ⟨rfl, [], by simp, by simp⟩

theorem of_same (sensors : after.sensors = k.sensors) (written : after.written = k.written) :
    Answered socket k after :=
  ⟨by rw [sensors], [], by simp [written], by simp⟩

theorem trans {last : State} (first : Answered socket k after) (second : Answered socket after last) :
    Answered socket k last := by
  obtain ⟨sent, written, own⟩ := first.written
  obtain ⟨more, writtenMore, ownMore⟩ := second.written
  refine ⟨second.identities.trans first.identities, sent ++ more, ?_, ?_⟩
  · rw [writtenMore, written, List.append_assoc]
  · exact List.forall_mem_append.mpr ⟨own, ownMore⟩

end Answered

theorem writeSessionReplies_sensors (env : Environment) (s : Session) (k : State) :
    (writeSessionReplies env s k).2.sensors = k.sensors := by
  have written (lines : List Bytes) (k : State) :
      (writeSessionReplies.go env s lines k).2.sensors = k.sensors := by
    induction lines generalizing k with
    | nil => rfl
    | cons line rest ih =>
      unfold writeSessionReplies.go
      dsimp only
      split
      · rfl
      · exact ih _
  unfold writeSessionReplies
  split
  · rfl
  · exact written s.replies k

section Handlers

variable (env : Environment) {call : Call} {k : State}

theorem answered_writeSessionReplies {socket : Nat} {s : Session} (own : s.socket = socket) (k : State) :
    Answered socket k ((writeSessionReplies env s k).2.freeSession s) := by
  obtain ⟨first, -, written⟩ := writeSessionReplies_written env s k
  refine ⟨?_, _, written, ?_⟩
  · rw [State.freeSession, writeSessionReplies_sensors]
  · simp [own]

theorem processStateMessage_identity (s : Sensor) (c : Command) :
    (processStateMessage s c).1.name = s.name ∧ (processStateMessage s c).1.uuid = s.uuid := by
  cases c with
  | increase | decrease =>
    simp only [processStateMessage]
    split_ifs <;> exact ⟨rfl, rfl⟩
  | _ => exact ⟨rfl, rfl⟩

theorem identities_set {sensors : List Sensor} {i : Nat} {s t : Sensor} (found : sensors[i]? = some s)
    (same : t.name = s.name ∧ t.uuid = s.uuid) : identities (sensors.set i t) = identities sensors := by
  apply List.ext_getElem?
  intro j
  simp only [identities, List.getElem?_map, List.getElem?_set]
  by_cases here : i = j
  · subst here
    obtain ⟨inside, rfl⟩ := List.getElem?_eq_some_iff.mp found
    simp [inside, same]
  · simp [here]

theorem answered_state : Answered call.session.socket k (processStateRequest env call k).2 := by
  unfold processStateRequest
  cases getSensor call.session.sensorName k.sensors with
  | error ccode => exact .refl _ k
  | ok i =>
    cases found : k.sensors[i]? with
    | none => simpa [found] using Answered.refl call.session.socket k
    | some sensor =>
      have same := identities_set found (processStateMessage_identity sensor call.command)
      simp only [found]
      generalize processStateMessage sensor call.command = moved at same ⊢
      obtain ⟨sensor', state⟩ := moved
      have kept : Answered call.session.socket k { k with sensors := k.sensors.set i sensor' } :=
        ⟨same, [], by simp, by simp⟩
      have sent := @answered_writeSessionReplies env call.session.socket
        (call.session.link (stateReplyLine env call state)) rfl { k with sensors := k.sensors.set i sensor' }
      split
      · exact kept.trans sent
      · exact kept.trans (.of_same rfl rfl)

theorem answered_discovery (alloc : DiscoveryAllocation) :
    Answered call.message.socket k (processDiscoveryRequest env alloc call k).2 := by
  unfold processDiscoveryRequest
  dsimp only
  split
  · split
    · exact .of_same rfl rfl
    · split
      · split
        · exact .of_same rfl rfl
        · exact ⟨rfl, [_], rfl, by simp⟩
      · exact .of_same rfl rfl
  · exact .of_same rfl rfl

theorem answered_records {σ : Type} {message : SensorMessage σ} {alloc : Allocation} {turns : Nat}
    {nonce : UInt64} {data : σ} {out : Int × State × σ}
    (ran : processRecordsRequest env message alloc turns nonce call data k = some out) :
    Answered call.session.socket k out.2.1 := by
  unfold processRecordsRequest at ran
  split at ran
  · cases ran
    exact .refl _ k
  · obtain ⟨s, -, linked⟩ := Option.bind_eq_some_iff.mp ran
    cases linked
    exact @answered_writeSessionReplies env call.session.socket
      { call.session with replies := call.session.replies ++ s.linked } rfl k

end Handlers

/-- The handlers that the environment stands for answer on the socket of their call. -/
structure Environment.Answers (env : Environment) : Prop where
  discovery : ∀ call k, Answered call.message.socket k (env.discoveryRequest call k).2
  records : ∀ call k, Answered call.session.socket k (env.recordsRequest call k).2

theorem parseJsonMessage_answered {env : Environment} (answers : env.Answers) (socket : Nat)
    (line : Bytes) (k : State) : Answered socket k (parseJsonMessage env socket line k).state := by
  have handled := parseJsonMessage_handled env socket line k
  revert handled
  generalize parseJsonMessage env socket line k = out
  intro handled
  have opened : Answered socket k (k.newSession (env.message socket line)).2 :=
    .of_same (k.newSession_sensors _) (k.newSession_written _)
  cases handled with
  | rejected => exact .refl socket k
  | linked => exact .of_same rfl rfl
  | opened => exact opened
  | called _ _ _ c =>
    have entered : Answered socket k ((env.message socket line).entry k) :=
      opened.trans (.of_same rfl rfl)
    refine entered.trans ?_
    show Answered socket _ (env.run ((env.message socket line).call k c) _).2
    unfold Environment.run
    split
    · exact .refl _ _
    · exact answers.discovery ((env.message socket line).call k c) _
    · exact @answered_state env ((env.message socket line).call k c) _
    · exact answers.records ((env.message socket line).call k c) _

end VirtueSensing.Kernel
