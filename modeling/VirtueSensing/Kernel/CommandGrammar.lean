import VirtueSensing.Kernel.Request

set_option autoImplicit false

/-!
# Which words the command table accepts

A request runs the handler of some command for every word of acceptable size: the table compares
the first bytes of the words only, and the value for no match is the number of `off`.
-/

namespace VirtueSensing.Kernel

open Jsmn

def Message.hasNonce (m : Message) : Bool :=
  0 < (m.text nonceIndex).length ∧ (m.text nonceIndex).length ≤ maxNonceSize

def Message.hasSensor (m : Message) : Bool :=
  0 < (m.text sensorIndex).length ∧ (m.text sensorIndex).length ≤ maxNameSize

def Message.hasCommand (m : Message) : Bool :=
  0 < (m.text cmdIndex).length ∧ (m.text cmdIndex).length < maxCmdSize

/-- The checks in front of the command take the line for a request that has a command. -/
structure RequestLine (env : Environment) (socket : Nat) (line : Bytes) : Prop where
  parsed : 0 ≤ (env.jsmnParse line).result
  valid : validateMessageTokens (env.message socket line)
  version : checkProtocolVersion (env.message socket line)
  request : checkProtocolMessage (env.message socket line) = some .request
  nonce : (env.message socket line).hasNonce
  command : cmdIndex < (env.message socket line).tokens.length

instance (env : Environment) (socket : Nat) (line : Bytes) :
    Decidable (RequestLine env socket line) :=
  decidable_of_iff
    (0 ≤ (env.jsmnParse line).result ∧ validateMessageTokens (env.message socket line) ∧
      checkProtocolVersion (env.message socket line) ∧
      checkProtocolMessage (env.message socket line) = some .request ∧
      (env.message socket line).hasNonce ∧ cmdIndex < (env.message socket line).tokens.length)
    ⟨fun ⟨a, b, c, d, e, f⟩ => ⟨a, b, c, d, e, f⟩, fun ⟨a, b, c, d, e, f⟩ => ⟨a, b, c, d, e, f⟩⟩

def IsCommand (word : Bytes) : Prop :=
  ∃ c : Command, word = c.word

/-- The handler of a command runs for the word of the command, and no other word does anything. -/
structure ObeysCommand (word : Bytes) (before : State) (out : Outcome) : Prop where
  known : ∀ c : Command, word = c.word → ∃ call, out.called = some call ∧ call.command = c
  unknown : (∀ c : Command, word ≠ c.word) →
    out.ccode < 0 ∧ out.called = none ∧ out.state.sensors = before.sensors

theorem indexCommand_word (c : Command) : indexCommand c.word = c.code := by
  cases c <;> decide

theorem indexCommand_isCode (word : Bytes) : ∃ c : Command, indexCommand word = c.code := by
  unfold indexCommand
  cases Command.all.find? fun c => c.compares word with
  | some c => exact ⟨c, rfl⟩
  | none => exact ⟨.off, rfl⟩

theorem Command.code_le_records (c : Command) : c.code ≤ Command.records.code := by
  cases c <;> decide

theorem dispatch_code (env : Environment) (m : Message) (p : Progress) (s : Session)
    (c : Command) :
    dispatch env m p s c.code =
      ⟨(env.run ⟨m, s, c⟩ p.state).1, (env.run ⟨m, s, c⟩ p.state).2, p.opened, some ⟨m, s, c⟩⟩ := by
  have small := c.code_le_records
  simp only [dispatch, Int.toNat_natCast, c.all_getElem_code]
  rw [if_pos (by omega)]

def Progress.opening (m : Message) (k : State) : Progress :=
  ⟨.request, (k.newSession m).2, some (k.newSession m).1⟩

theorem getSession_request {m : Message} {k : State} (nonce : m.hasNonce) :
    getSession m ⟨.request, k, none⟩ = some (.opening m k) := by
  simp only [Message.hasNonce, decide_eq_true_eq] at nonce
  simp only [getSession, Progress.opening]
  rw [if_neg (by omega)]
  rfl

theorem RequestLine.parse_eq {env : Environment} {socket : Nat} {line : Bytes}
    (asked : RequestLine env socket line) (k : State) :
    parseJsonMessage env socket line k =
      finish (preProcessJsmnRequestCmd env (env.message socket line)
        (.opening (env.message socket line) k)) := by
  have long := asked.command
  simp only [cmdIndex] at long
  rw [parseJsonMessage_eq, if_neg (by simp [asked.parsed, asked.valid]), parseHeader,
    if_neg (by simp only [verTagIndex]; omega), if_neg (by simp [asked.version]), parseBody,
    if_neg (by simp only [msgIndex]; omega), asked.request]
  simp only [parseSession, getSession_request asked.nonce]
  rw [if_neg (by simp only [nonceIndex]; omega), if_neg (by simp only [cmdIndex]; omega)]

theorem preProcess_rejects {env : Environment} {m : Message} {p : Progress}
    (bad : ¬ (m.hasCommand ∧ m.hasSensor)) :
    preProcessJsmnRequestCmd env m p = p.stop jsmnErrorInval := by
  simp only [Message.hasCommand, Message.hasSensor, decide_eq_true_eq] at bad
  unfold preProcessJsmnRequestCmd
  split_ifs
  · rfl
  · rfl
  · rfl
  · rfl
  · omega

theorem preProcess_dispatches {env : Environment} {m : Message} (k : State)
    (command : m.hasCommand) (sensor : m.hasSensor) (long : cmdIndex < m.tokens.length) :
    preProcessJsmnRequestCmd env m (.opening m k) =
      dispatch env m
        { Progress.opening m k with
          state := (k.newSession m).2.update ((k.newSession m).1.fill m) }
        ((k.newSession m).1.fill m) (indexCommand (m.text cmdIndex)) := by
  simp only [Message.hasCommand, Message.hasSensor, decide_eq_true_eq] at command sensor
  have asked : (Progress.opening m k).type ≠ .reply := by
    simp [Progress.opening]
  have listed : ¬ m.tokens.length < sensorIndex := by
    simp only [cmdIndex, sensorIndex] at *
    omega
  unfold preProcessJsmnRequestCmd
  rw [if_neg asked, if_neg (by omega), if_neg listed, if_neg (by omega)]
  rfl

theorem jsmnErrorInval_neg : jsmnErrorInval < 0 := by
  decide

theorem State.newSession_sensors (k : State) (m : Message) :
    (k.newSession m).2.sensors = k.sensors := by
  simp only [State.newSession, State.garbageCollectSession]
  split <;> rfl

section Requests

variable {env : Environment} {socket : Nat} {line : Bytes}

theorem RequestLine.rejected (asked : RequestLine env socket line) (k : State)
    (bad : ¬ ((env.message socket line).hasCommand ∧ (env.message socket line).hasSensor)) :
    (parseJsonMessage env socket line k).ccode < 0 ∧
    (parseJsonMessage env socket line k).called = none ∧
    (parseJsonMessage env socket line k).state.sensors = k.sensors := by
  rw [asked.parse_eq, preProcess_rejects bad]
  exact ⟨jsmnErrorInval_neg, rfl, k.newSession_sensors _⟩

theorem RequestLine.called (asked : RequestLine env socket line) (k : State)
    (command : (env.message socket line).hasCommand) (sensor : (env.message socket line).hasSensor)
    {c : Command} (index : indexCommand ((env.message socket line).text cmdIndex) = c.code) :
    ∃ call, (parseJsonMessage env socket line k).called = some call ∧ call.command = c := by
  rw [asked.parse_eq, preProcess_dispatches k command sensor asked.command, index, dispatch_code]
  exact ⟨_, rfl, rfl⟩

/-- A request does what its word says exactly when the sizes of its tokens agree with the word: a
word of the protocol needs a sensor, and any other word is only rejected for the size of a token. -/
theorem command_obeyed_iff (asked : RequestLine env socket line) (k : State) :
    ObeysCommand ((env.message socket line).text cmdIndex) k (parseJsonMessage env socket line k) ↔
      (IsCommand ((env.message socket line).text cmdIndex) ↔
        (env.message socket line).hasCommand ∧ (env.message socket line).hasSensor) := by
  constructor
  · intro obeys
    constructor
    · rintro ⟨c, word⟩
      obtain ⟨call, called, -⟩ := obeys.known c word
      by_contra bad
      have rejected := asked.rejected k bad
      simp [rejected.2.1] at called
    · rintro ⟨command, sensor⟩
      by_contra other
      obtain ⟨c, index⟩ := indexCommand_isCode ((env.message socket line).text cmdIndex)
      obtain ⟨call, called, -⟩ := asked.called k command sensor index
      have unknown := obeys.unknown fun d same => other ⟨d, same⟩
      simp [called] at unknown
  · intro agree
    refine ⟨fun c word => ?_, fun other => ?_⟩
    · obtain ⟨command, sensor⟩ := agree.mp ⟨c, word⟩
      exact asked.called k command sensor (by rw [word, indexCommand_word])
    · exact asked.rejected k fun sizes => (agree.mpr sizes).elim other

end Requests

def localEnvironment : Environment where
  jsmnParse := Jsmn.parse maxTokens
  allocates := true
  socketWrite := fun _ line => line.length
  behindNonce := []
  discoveryRequest := fun call k => (complete, k.freeSession call.session)
  recordsRequest := fun call k => (complete, k.freeSession call.session)

def kernelPs : Sensor := ⟨ascii "kernel-ps", List.replicate 16 0, Command.default.code, 300, intMax⟩

def psRequest (word : Bytes) : Bytes :=
  ascii "\x7bVirtue-protocol-version: 0.1, request: [n1, " ++ word ++ ascii ", kernel-ps]\x7d\n"

theorem command_obeyed_off :
    RequestLine localEnvironment 0 (psRequest (ascii "off")) ∧
    ObeysCommand (ascii "off") ⟨[], 0, [kernelPs], []⟩
      (parseJsonMessage localEnvironment 0 (psRequest (ascii "off")) ⟨[], 0, [kernelPs], []⟩) := by
  have asked : RequestLine localEnvironment 0 (psRequest (ascii "off")) := by decide +kernel
  have word : (localEnvironment.message 0 (psRequest (ascii "off"))).text cmdIndex = ascii "off" := by
    decide +kernel
  have sizes : (localEnvironment.message 0 (psRequest (ascii "off"))).hasCommand ∧
      (localEnvironment.message 0 (psRequest (ascii "off"))).hasSensor := by
    decide +kernel
  refine ⟨asked, ?_⟩
  have obeyed := (command_obeyed_iff asked ⟨[], 0, [kernelPs], []⟩).mpr
  rw [word] at obeyed
  exact obeyed ⟨fun _ => sizes, fun _ => ⟨.off, rfl⟩⟩

theorem unknown_word_switches_off :
    RequestLine localEnvironment 0 (psRequest (ascii "xyz")) ∧
    (localEnvironment.message 0 (psRequest (ascii "xyz"))).text cmdIndex = ascii "xyz" ∧
    (parseJsonMessage localEnvironment 0 (psRequest (ascii "xyz")) ⟨[], 0, [kernelPs], []⟩).state.sensors =
      [{ kernelPs with repeatCount := 0 }] ∧
    ¬ ObeysCommand (ascii "xyz") ⟨[], 0, [kernelPs], []⟩
      (parseJsonMessage localEnvironment 0 (psRequest (ascii "xyz")) ⟨[], 0, [kernelPs], []⟩) := by
  have switched : (parseJsonMessage localEnvironment 0 (psRequest (ascii "xyz"))
      ⟨[], 0, [kernelPs], []⟩).state.sensors = [{ kernelPs with repeatCount := 0 }] := by
    decide +kernel
  refine ⟨by decide +kernel, by decide +kernel, switched, fun obeys => ?_⟩
  have unknown : ∀ c : Command, ascii "xyz" ≠ c.word := by
    intro c
    cases c <;> decide
  have same := (obeys.unknown unknown).2.2
  rw [switched] at same
  exact absurd same (by decide)

end VirtueSensing.Kernel
