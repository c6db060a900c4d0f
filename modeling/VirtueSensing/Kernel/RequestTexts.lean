import VirtueSensing.Jsmn.TextTokens
import VirtueSensing.Kernel.RequestSteps

set_option autoImplicit false

/-!
# Requests as clients write them

A request in the form of the protocol, in any layout and with or without quotes, runs the handler of its
command with its parts, as long as it keeps the limits of the parser.
-/

namespace VirtueSensing.Kernel

open Jsmn

def requestValue (nonce cmd sensor : Bytes) (more : List Json) : Json :=
  .object [versionMember, requestMember nonce cmd sensor more]

structure WithinLimits (line nonce cmd sensor : Bytes) (more : List Json) : Prop where
  line : line.length < maxLineLen
  tokens : countValues more + 8 ≤ maxTokens
  nonce : 0 < nonce.length ∧ nonce.length ≤ maxNonceSize
  cmd : 0 < cmd.length ∧ cmd.length < maxCmdSize
  sensor : 0 < sensor.length ∧ sensor.length ≤ maxNameSize

theorem count_requestValue (nonce cmd sensor : Bytes) (more : List Json) :
    (requestValue nonce cmd sensor more).count = countValues more + 8 := by
  simp [requestValue, Json.count, countMembers, countValues, versionMember, requestMember]
  omega

section Tokens

variable {m : Message} {nonce cmd sensor : Bytes} {more : List Json}

theorem decode_header (decoded : decode m.line m.tokens = some (requestValue nonce cmd sensor more)) :
    (m.token 0).type = .object ∧ checkProtocolVersion m ∧ checkProtocolMessage m = some .request := by
  obtain ⟨t₀, behind₀, below₀, tokens, read₀, pushed₀⟩ := readStack_cons (decode_eq_some decoded)
  obtain ⟨object, rfl⟩ := pushed₀
  obtain ⟨t₁, rest₁, below₁, rfl, read₁, tag, rfl⟩ := readStack_cons read₀
  obtain ⟨t₂, rest₂, below₂, rfl, read₂, version, rfl⟩ := readStack_cons read₁
  obtain ⟨t₃, rest₃, below₃, rfl, -, word, -⟩ := readStack_cons read₂
  have at₁ : m.text verTagIndex = t₁.text m.line := Message.text_eq (by simp [tokens, verTagIndex])
  have at₂ : m.text versionIndex = t₂.text m.line := Message.text_eq (by simp [tokens, versionIndex])
  have at₃ : m.text msgIndex = t₃.text m.line := Message.text_eq (by simp [tokens, msgIndex])
  refine ⟨by simp [Message.token, tokens, object], ?_, ?_⟩
  · rw [checkProtocolVersion, decide_eq_true_eq]
    exact ⟨at₁.trans tag, at₂.trans version⟩
  · have request : m.text msgIndex = ascii "request" := at₃.trans word
    rw [checkProtocolMessage, request]
    rfl

end Tokens

section Requests

variable {env : Environment} {line nonce cmd sensor : Bytes} {more : List Json} (socket : Nat)
  (jsmn : env.jsmnParse = Jsmn.parse maxTokens) (text : IsText line (requestValue nonce cmd sensor more))

/-- The tokens are those of the request, each within the line. -/
structure Tokenized (m : Message) (nonce cmd sensor : Bytes) (more : List Json) : Prop where
  length : m.tokens.length = countValues more + 8
  closed : ∀ t ∈ m.tokens, t.Closed m.line
  decoded : decode m.line m.tokens = some (requestValue nonce cmd sensor more)

include jsmn text in
theorem tokenized_of_text (few : countValues more + 8 ≤ maxTokens) :
    0 ≤ (env.jsmnParse line).result ∧ Tokenized (env.message socket line) nonce cmd sensor more := by
  have count := count_requestValue nonce cmd sensor more
  obtain ⟨result, spells⟩ := @IsText.tokens line _ text maxTokens (by rw [count]; exact few)
  have tokens : (env.message socket line).tokens = (Jsmn.parse maxTokens line).tokens := by
    rw [Environment.message, jsmn]
  have counted := (Jsmn.parse maxTokens line).counted
  refine ⟨by rw [jsmn, result]; exact Int.natCast_nonneg _, ?_, ?_, ?_⟩
  · rw [tokens]
    omega
  · rw [tokens]
    exact spells.closed
  · rw [tokens]
    exact spells.decode

theorem Tokenized.requestLine (parsed : 0 ≤ (env.jsmnParse line).result)
    (tokenized : Tokenized (env.message socket line) nonce cmd sensor more)
    (limits : WithinLimits line nonce cmd sensor more) : RequestLine env socket line := by
  obtain ⟨object, version, request⟩ := decode_header tokenized.decoded
  have length := tokenized.length
  have few := limits.tokens
  have short := limits.line
  refine ⟨parsed, ?_, version, request, ?_, ?_⟩
  · rw [validateMessageTokens, decide_eq_true_eq]
    refine ⟨short, by omega, by omega, object, fun t member => ?_⟩
    obtain ⟨order, stop⟩ := tokenized.closed t member
    omega
  · rw [Message.hasNonce, (decode_request tokenized.decoded).1, decide_eq_true_eq]
    exact limits.nonce
  · rw [length]
    simp [cmdIndex]

include jsmn text in
theorem text_handled (limits : WithinLimits line nonce cmd sensor more) {c : Command}
    (index : indexCommand cmd = c.code) (k : State) :
    parseJsonMessage env socket line k =
      finish ⟨(env.run ((env.message socket line).call k c) ((env.message socket line).entry k)).1,
        (env.run ((env.message socket line).call k c) ((env.message socket line).entry k)).2,
        some (k.newSession (env.message socket line)).1, some ((env.message socket line).call k c)⟩ ∧
    (env.message socket line).text nonceIndex = nonce ∧ (env.message socket line).text cmdIndex = cmd ∧
    (env.message socket line).text sensorIndex = sensor := by
  obtain ⟨parsed, tokenized⟩ := tokenized_of_text socket jsmn text limits.tokens
  have asked := tokenized.requestLine socket parsed limits
  obtain ⟨nonceText, cmdText, sensorText⟩ := decode_request tokenized.decoded
  have command : (env.message socket line).hasCommand := by
    rw [Message.hasCommand, cmdText, decide_eq_true_eq]
    exact limits.cmd
  have named : (env.message socket line).hasSensor := by
    rw [Message.hasSensor, sensorText, decide_eq_true_eq]
    exact limits.sensor
  refine ⟨?_, nonceText, cmdText, sensorText⟩
  rw [asked.parse_eq, preProcess_dispatches k command named asked.command, cmdText, index, dispatch_code]
  rfl

include jsmn text in
theorem limits_of_called {socket : Nat} {k : State} {call : Call}
    (called : (parseJsonMessage env socket line k).called = some call) :
    WithinLimits line nonce cmd sensor more := by
  have asked := requestLine_of_called called
  have few : countValues more + 8 ≤ maxTokens := by
    by_contra many
    have refused := @IsText.refused line _ text maxTokens (by rw [count_requestValue]; omega)
    have parsed := asked.parsed
    rw [jsmn] at parsed
    omega
  obtain ⟨-, tokenized⟩ := tokenized_of_text socket jsmn text few
  obtain ⟨nonceText, cmdText, sensorText⟩ := decode_request tokenized.decoded
  have sizes : (env.message socket line).hasCommand ∧ (env.message socket line).hasSensor := by
    by_contra bad
    rw [(asked.rejected k bad).2.1] at called
    cases called
  have valid := asked.valid
  have sized := asked.nonce
  rw [validateMessageTokens, decide_eq_true_eq] at valid
  simp only [Message.hasNonce, Message.hasCommand, Message.hasSensor, nonceText, cmdText, sensorText,
    decide_eq_true_eq] at sized sizes
  exact ⟨valid.1, few, sized, sizes.1, sizes.2⟩

end Requests

/-- The call has the parts of the request, and runs the command that its word names. -/
structure RunsAs (call : Call) (nonce cmd sensor : Bytes) : Prop where
  nonceKept : call.session.nonce = nonce
  cmdKept : call.session.cmd = cmd
  sensorKept : call.session.sensorName = sensor
  command : ∀ c : Command, cmd = c.word → call.command = c

theorem Command.code_injective {c d : Command} (same : c.code = d.code) : c = d := by
  have first := c.all_getElem_code
  rw [same, d.all_getElem_code] at first
  exact (Option.some.inj first).symm

/-- Of the requests that are written as the protocol says, in any layout, exactly those within the limits
run a handler, and it is the handler of their command with their own parts. -/
theorem request_runs_iff (env : Environment) (jsmn : env.jsmnParse = Jsmn.parse maxTokens) (socket : Nat)
    (line nonce cmd sensor : Bytes) (more : List Json)
    (text : IsText line (requestValue nonce cmd sensor more)) (k : State) :
    ((parseJsonMessage env socket line k).called.isSome ↔ WithinLimits line nonce cmd sensor more) ∧
    ∀ call, (parseJsonMessage env socket line k).called = some call → RunsAs call nonce cmd sensor := by
  constructor
  · constructor
    · intro some
      obtain ⟨call, called⟩ := Option.isSome_iff_exists.mp some
      exact limits_of_called jsmn text called
    · intro limits
      obtain ⟨c, index⟩ := indexCommand_isCode cmd
      obtain ⟨handled, -⟩ := text_handled socket jsmn text limits index k
      rw [handled]
      rfl
  · intro call called
    have limits := limits_of_called jsmn text called
    obtain ⟨-, tokenized⟩ := tokenized_of_text socket jsmn text limits.tokens
    obtain ⟨nonceText, cmdText, sensorText⟩ := decode_request tokenized.decoded
    have asked := requestLine_of_called called
    obtain ⟨first, second, third⟩ := asked.called_parts called
    refine ⟨first.trans nonceText, second.trans cmdText, third.trans sensorText, fun c word => ?_⟩
    have handled := parseJsonMessage_handled env socket line k
    revert handled called
    generalize parseJsonMessage env socket line k = out
    intro called handled
    cases handled with
    | rejected | linked | opened => cases called
    | called ccode _ _ d index =>
      obtain rfl := Option.some.inj called
      rw [cmdText, word, indexCommand_word] at index
      exact (Command.code_injective (Int.natCast_inj.mp index)).symm

-- The form of the protocol's own examples, without quotes.
def spacedRequest : Bytes :=
  ascii "\x7bVirtue-protocol-version: 0.1, request: [n1, records, kernel-ps] \x7d\n"

theorem isText_spacedRequest :
    IsText spacedRequest (requestValue (ascii "n1") (ascii "records") (ascii "kernel-ps") []) := by
  have nonce : Derives (.value (.scalar (ascii "n1"))) (ascii "n1, records, kernel-ps] \x7d\n")
      (ascii ", records, kernel-ps] \x7d\n") := .word ⟨by decide, by decide⟩ (by decide)
  have cmd : Derives (.value (.scalar (ascii "records"))) (ascii "records, kernel-ps] \x7d\n")
      (ascii ", kernel-ps] \x7d\n") := .word ⟨by decide, by decide⟩ (by decide)
  have sensor : Derives (.value (.scalar (ascii "kernel-ps"))) (ascii "kernel-ps] \x7d\n")
      (ascii "] \x7d\n") := .word ⟨by decide, by decide⟩ (by decide)
  have array : Derives
      (.value (.array [.scalar (ascii "n1"), .scalar (ascii "records"), .scalar (ascii "kernel-ps")]))
      (ascii "[n1, records, kernel-ps] \x7d\n") (ascii " \x7d\n") :=
    .array (.full (.items (.none _) (.element nonce) (.comma (.none _)
      (.items (.skip (by decide) (.none _)) (.element cmd) (.comma (.none _)
        (.items (.skip (by decide) (.none _)) (.element sensor) (.last (.none _))))))))
  have version : Derives (.value (.scalar (ascii "0.1")))
      (ascii "0.1, request: [n1, records, kernel-ps] \x7d\n")
      (ascii ", request: [n1, records, kernel-ps] \x7d\n") := .word ⟨by decide, by decide⟩ (by decide)
  have first : Derives (.item .object (.member versionMember)) spacedRequest.tail
      (ascii ", request: [n1, records, kernel-ps] \x7d\n") :=
    .bare ⟨by decide, by decide⟩ (.none _) (.skip (by decide) (.none _)) version
  have second : Derives
      (.item .object (.member (requestMember (ascii "n1") (ascii "records") (ascii "kernel-ps") [])))
      (ascii "request: [n1, records, kernel-ps] \x7d\n") (ascii " \x7d\n") :=
    .bare ⟨by decide, by decide⟩ (.none _) (.skip (by decide) (.none _)) array
  have object : Derives
      (.value (requestValue (ascii "n1") (ascii "records") (ascii "kernel-ps") [])) spacedRequest
      (ascii "\n") :=
    .object (.full (.items (.none _) first (.comma (.none _)
      (.items (.skip (by decide) (.none _)) second (.last (.skip (by decide) (.none _)))))))
  exact ⟨_, _, .none _, object, .skip (by decide) (.none _)⟩

theorem spaced_request_runs : ∃ call,
    (parseJsonMessage localEnvironment 3 spacedRequest ⟨[], 0, [kernelPs], []⟩).called = some call ∧
      call.command = .records ∧ call.session.sensorName = ascii "kernel-ps" := by
  obtain ⟨runs, runsAs⟩ := request_runs_iff localEnvironment rfl 3 spacedRequest (ascii "n1")
    (ascii "records") (ascii "kernel-ps") [] isText_spacedRequest ⟨[], 0, [kernelPs], []⟩
  obtain ⟨call, called⟩ := Option.isSome_iff_exists.mp
    (runs.mpr ⟨by decide, by decide, by decide, by decide, by decide⟩)
  have parts := runsAs call called
  exact ⟨call, called, parts.command .records rfl, parts.sensorKept⟩

end VirtueSensing.Kernel
