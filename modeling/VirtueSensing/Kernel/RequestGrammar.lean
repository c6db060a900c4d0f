import Mathlib.Data.List.Permutation
import VirtueSensing.Jsmn.Decode
import VirtueSensing.Kernel.CommandGrammar

set_option autoImplicit false

/-!
# Which lines reach a handler

`parse_json_message` looks at the places of the tokens only, so lines of other shapes than a request
open sessions and run handlers too.
-/

namespace VirtueSensing.Kernel

open Jsmn

def versionMember : Bytes × Json :=
  (ascii "Virtue-protocol-version", .scalar (ascii "0.1"))

def requestMember (nonce cmd sensor : Bytes) (more : List Json) : Bytes × Json :=
  (ascii "request", .array (.scalar nonce :: .scalar cmd :: .scalar sensor :: more))

/-- The line is one object, closed to its end, with the version and the request as its members, in
either order. -/
def IsRequest (env : Environment) (line nonce cmd sensor : Bytes) : Prop :=
  0 ≤ (env.jsmnParse line).result ∧ (∀ t ∈ (env.jsmnParse line).tokens, ¬ t.isOpen) ∧
  ∃ more members, members.Perm [versionMember, requestMember nonce cmd sensor more] ∧
    decode line (env.jsmnParse line).tokens = some (.object members)

/-- A handler runs for requests only and with their parts; any other line is rejected and opens no
session. -/
structure ObeysGrammar (env : Environment) (line : Bytes) (out : Outcome) : Prop where
  handled : ∀ call, out.called = some call →
    IsRequest env line call.session.nonce call.session.cmd call.session.sensorName
  others : (∀ nonce cmd sensor, ¬ IsRequest env line nonce cmd sensor) →
    out.ccode < 0 ∧ out.opened = none

/-- The tokens in front of the session fail a check, or the line is a reply with a command. -/
def FailsHeader (m : Message) : Prop :=
  verTagIndex < m.tokens.length ∧
    (¬ checkProtocolVersion m ∨
      msgIndex < m.tokens.length ∧
        (checkProtocolMessage m = none ∨
          nonceIndex < m.tokens.length ∧
            (¬ m.hasNonce ∨
              checkProtocolMessage m = some .reply ∧ cmdIndex < m.tokens.length)))

def RejectedEarly (env : Environment) (socket : Nat) (line : Bytes) : Prop :=
  (env.jsmnParse line).result < 0 ∨
    validateMessageTokens (env.message socket line) ∧ FailsHeader (env.message socket line)

theorem decode_member {js : Bytes} {tokens : List Token} {name : Bytes} {v : Json}
    {members : List (Bytes × Json)}
    (decoded : decode js tokens = some (.object ((name, v) :: members))) :
    ∃ t₀ t₁ rest, tokens = t₀ :: t₁ :: rest ∧ t₁.text js = name ∧
      readStack js rest = some (.value v :: members.map .member) := by
  obtain ⟨t₀, rest₀, below₀, rfl, read₀, -, rfl⟩ := readStack_cons (decode_eq_some decoded)
  obtain ⟨t₁, rest₁, below₁, rfl, read₁, name₁, rfl⟩ := readStack_cons read₀
  exact ⟨t₀, t₁, rest₁, rfl, name₁, by simpa using read₁⟩

theorem Message.text_eq {m : Message} {i : Nat} {t : Token} (found : m.tokens[i]? = some t) :
    m.text i = t.text m.line := by
  simp [Message.text, Message.token, List.getD_eq_getElem?_getD, found]

theorem decode_request {m : Message} {nonce cmd sensor : Bytes} {more : List Json}
    (decoded : decode m.line m.tokens =
      some (.object [versionMember, requestMember nonce cmd sensor more])) :
    m.text nonceIndex = nonce ∧ m.text cmdIndex = cmd ∧ m.text sensorIndex = sensor := by
  obtain ⟨t₀, t₁, rest₁, tokens, -, read₁⟩ := decode_member decoded
  obtain ⟨t₂, rest₂, below₂, rfl, read₂, -, rfl⟩ := readStack_cons read₁
  obtain ⟨t₃, rest₃, below₃, rfl, read₃, -, rfl⟩ := readStack_cons read₂
  obtain ⟨t₄, rest₄, below₄, rfl, read₄, -, rfl⟩ := readStack_cons read₃
  obtain ⟨t₅, rest₅, below₅, rfl, read₅, nonce, rfl⟩ := readStack_cons read₄
  obtain ⟨t₆, rest₆, below₆, rfl, read₆, cmd, rfl⟩ := readStack_cons read₅
  obtain ⟨t₇, rest₇, below₇, rfl, -, sensor, -⟩ := readStack_cons read₆
  have at₅ : m.text nonceIndex = t₅.text m.line := Message.text_eq (by simp [tokens, nonceIndex])
  have at₆ : m.text cmdIndex = t₆.text m.line := Message.text_eq (by simp [tokens, cmdIndex])
  have at₇ : m.text sensorIndex = t₇.text m.line := Message.text_eq (by simp [tokens, sensorIndex])
  exact ⟨at₅.trans nonce, at₆.trans cmd, at₇.trans sensor⟩

theorem getSession_eq_none {m : Message} {p : Progress} (bad : ¬ m.hasNonce) :
    getSession m p = none := by
  simp only [Message.hasNonce, decide_eq_true_eq] at bad
  simp only [getSession]
  rw [if_pos (by omega)]

theorem getSession_reply {m : Message} {p : Progress} (nonce : m.hasNonce) (reply : p.type = .reply) :
    ∃ q, getSession m p = some q ∧ q.type = .reply ∧ q.opened = p.opened := by
  simp only [Message.hasNonce, decide_eq_true_eq] at nonce
  simp only [getSession]
  rw [if_neg (by omega), if_neg (by simp [reply])]
  exact ⟨_, rfl, reply, rfl⟩

inductive Refusal (rejected : Prop) (out : Outcome) : Prop where
  | error (early : rejected) (negative : out.ccode < 0) (unopened : out.opened = none)
      (uncalled : out.called = none)
  | ignored (late : ¬ rejected) (kept : 0 ≤ out.ccode ∨ out.opened ≠ none)
      (uncalled : out.called = none)

theorem parseSession_refuses {env : Environment} {m : Message} {type : MessageType} {k : State}
    (worded : type = .request ∨ type = .reply)
    (other : ¬ (type = .request ∧ m.hasNonce ∧ cmdIndex < m.tokens.length)) :
    Refusal (nonceIndex < m.tokens.length ∧
      (¬ m.hasNonce ∨ type = .reply ∧ cmdIndex < m.tokens.length))
      (parseSession env m ⟨type, k, none⟩) := by
  unfold parseSession
  by_cases short : m.tokens.length ≤ nonceIndex
  · rw [if_pos short]
    exact .ignored (by omega) (.inl (Int.natCast_nonneg _)) rfl
  rw [if_neg short]
  by_cases nonce : m.hasNonce
  · rcases worded with rfl | rfl
    · have last : m.tokens.length ≤ cmdIndex := by simp_all
      rw [getSession_request nonce]
      simp only [if_pos last]
      exact .ignored (by simp_all) (.inl (Int.natCast_nonneg _)) rfl
    · obtain ⟨q, session, reply, unopened⟩ := getSession_reply (p := ⟨.reply, k, none⟩) nonce rfl
      rw [session]
      by_cases last : m.tokens.length ≤ cmdIndex
      · simp only [if_pos last]
        exact .ignored (by simp_all) (.inl (Int.natCast_nonneg _)) rfl
      · simp only [if_neg last, preProcessJsmnRequestCmd, if_pos reply]
        exact .error ⟨by omega, .inr ⟨trivial, by omega⟩⟩ jsmnErrorInval_neg unopened rfl
  · rw [getSession_eq_none nonce]
    exact .error ⟨by omega, .inl nonce⟩ jsmnErrorInval_neg rfl rfl

theorem Refusal.congr {first second : Prop} {out : Outcome} (same : first ↔ second)
    (refused : Refusal first out) : Refusal second out :=
  propext same ▸ refused

theorem checkProtocolMessage_word {m : Message} {type : MessageType}
    (word : checkProtocolMessage m = some type) : type = .request ∨ type = .reply := by
  simp only [checkProtocolMessage] at word
  split_ifs at word <;> simp_all

theorem parseHeader_refuses {env : Environment} {m : Message} {k : State}
    (other : ¬ (checkProtocolVersion m ∧ checkProtocolMessage m = some .request ∧ m.hasNonce ∧
      cmdIndex < m.tokens.length)) :
    Refusal (FailsHeader m) (parseHeader env m ⟨.empty, k, none⟩) := by
  unfold parseHeader FailsHeader
  by_cases short : m.tokens.length ≤ verTagIndex
  · rw [if_pos short]
    exact .ignored (by omega) (.inl (Int.natCast_nonneg _)) rfl
  rw [if_neg short]
  by_cases version : checkProtocolVersion m
  · rw [if_neg (by simp [version]), parseBody]
    by_cases shorter : m.tokens.length ≤ msgIndex
    · rw [if_pos shorter]
      exact .ignored (by simp [version]; omega) (.inl (Int.natCast_nonneg _)) rfl
    rw [if_neg shorter]
    cases word : checkProtocolMessage m with
    | none => exact .error ⟨by omega, .inr ⟨by omega, .inl rfl⟩⟩ jsmnErrorInval_neg rfl rfl
    | some type =>
      refine (parseSession_refuses (checkProtocolMessage_word word) (by simp_all)).congr ?_
      simp [version, show verTagIndex < m.tokens.length by omega,
        show msgIndex < m.tokens.length by omega]
  · rw [if_pos version]
    exact .error ⟨by omega, .inl version⟩ jsmnErrorInval_neg rfl rfl

theorem parseJsonMessage_refuses {env : Environment} {socket : Nat} {line : Bytes} {k : State}
    (other : ¬ RequestLine env socket line) :
    Refusal (RejectedEarly env socket line) (parseJsonMessage env socket line k) := by
  rw [parseJsonMessage_eq]
  unfold RejectedEarly
  by_cases failed : (env.jsmnParse line).result < 0
  · rw [if_pos (.inl failed)]
    exact .error (.inl failed) failed rfl rfl
  by_cases valid : validateMessageTokens (env.message socket line)
  · rw [if_neg (by simp [valid]; omega)]
    refine Refusal.congr ?_ (parseHeader_refuses fun ⟨version, request, nonce, command⟩ => ?_)
    · simp [failed, valid]
    · exact other ⟨by omega, valid, version, request, nonce, command⟩
  · rw [if_pos (.inr valid)]
    exact .ignored (by simp [valid]; omega) (.inl (by simp; omega)) rfl

theorem sensorNameOf_eq (m : Message) : sensorNameOf m = m.text sensorIndex := by
  unfold sensorNameOf
  split_ifs with listed
  · rfl
  · simp [Message.text, Message.token, List.getElem?_eq_none (Nat.le_of_not_lt listed), Token.zero,
      Token.text, Bytes.slice]

section Requests

variable {env : Environment} {socket : Nat} {line : Bytes}

theorem RequestLine.not_rejectedEarly (asked : RequestLine env socket line) :
    ¬ RejectedEarly env socket line := by
  have parsed := asked.parsed
  simp [RejectedEarly, FailsHeader, asked.version, asked.request, asked.nonce, parsed]

theorem RequestLine.opened (asked : RequestLine env socket line) (k : State) :
    (parseJsonMessage env socket line k).opened ≠ none := by
  rw [asked.parse_eq]
  by_cases sizes : (env.message socket line).hasCommand ∧ (env.message socket line).hasSensor
  · obtain ⟨c, index⟩ := indexCommand_isCode ((env.message socket line).text cmdIndex)
    rw [preProcess_dispatches k sizes.1 sizes.2 asked.command, index, dispatch_code]
    simp [finish, Progress.opening]
  · rw [preProcess_rejects sizes]
    simp [finish, Progress.stop, Progress.opening]

theorem RequestLine.called_parts (asked : RequestLine env socket line) {k : State} {call : Call}
    (called : (parseJsonMessage env socket line k).called = some call) :
    call.session.nonce = (env.message socket line).text nonceIndex ∧
    call.session.cmd = (env.message socket line).text cmdIndex ∧
    call.session.sensorName = (env.message socket line).text sensorIndex := by
  by_cases sizes : (env.message socket line).hasCommand ∧ (env.message socket line).hasSensor
  · obtain ⟨c, index⟩ := indexCommand_isCode ((env.message socket line).text cmdIndex)
    rw [asked.parse_eq, preProcess_dispatches k sizes.1 sizes.2 asked.command, index,
      dispatch_code] at called
    obtain rfl := Option.some.inj called
    exact ⟨rfl, rfl, sensorNameOf_eq _⟩
  · have rejected := asked.rejected k sizes
    simp [rejected.2.1] at called

theorem IsRequest.parts {nonce cmd sensor : Bytes} (isRequest : IsRequest env line nonce cmd sensor)
    (version : checkProtocolVersion (env.message socket line)) :
    (env.message socket line).text nonceIndex = nonce ∧
    (env.message socket line).text cmdIndex = cmd ∧
    (env.message socket line).text sensorIndex = sensor := by
  obtain ⟨-, -, more, members, perm, decoded⟩ := isRequest
  rcases List.perm_pair.mp perm with rfl | rfl
  · exact decode_request decoded
  · obtain ⟨t₀, t₁, rest, tokens, tag, -⟩ := decode_member decoded
    have second : (env.message socket line).text verTagIndex = ascii "request" :=
      (Message.text_eq (i := 1) (by simp [Environment.message, tokens])).trans tag
    simp only [checkProtocolVersion, second, decide_eq_true_eq] at version
    exact absurd version.1 (by decide)

/-- A line is handled as the grammar says exactly when it is a request, or fails a check that stands
in front of the session. -/
theorem grammar_obeyed_iff (env : Environment) (socket : Nat) (line : Bytes) (k : State) :
    ObeysGrammar env line (parseJsonMessage env socket line k) ↔
      (∃ nonce cmd sensor, IsRequest env line nonce cmd sensor) ∨
        RejectedEarly env socket line := by
  by_cases asked : RequestLine env socket line
  · constructor
    · intro obeys
      by_contra none
      rw [not_or] at none
      exact asked.opened k (obeys.others fun n c s isRequest => none.1 ⟨n, c, s, isRequest⟩).2
    · rintro (⟨nonce, cmd, sensor, isRequest⟩ | early)
      · refine ⟨fun call called => ?_, fun none => absurd isRequest (none nonce cmd sensor)⟩
        obtain ⟨rfl, rfl, rfl⟩ := isRequest.parts asked.version
        obtain ⟨same₁, same₂, same₃⟩ := asked.called_parts called
        rwa [same₁, same₂, same₃]
      · exact absurd early asked.not_rejectedEarly
  · cases parseJsonMessage_refuses (k := k) asked with
    | error early negative unopened uncalled =>
      refine ⟨fun _ => .inr early, fun _ => ⟨fun call called => ?_, fun _ => ⟨negative, unopened⟩⟩⟩
      simp [uncalled] at called
    | ignored late kept uncalled =>
      constructor
      · intro obeys
        by_contra none
        rw [not_or] at none
        have rejected := obeys.others fun n c s isRequest => none.1 ⟨n, c, s, isRequest⟩
        rcases kept with nonneg | opened
        · exact absurd rejected.1 (by omega)
        · exact opened rejected.2
      · rintro (⟨nonce, cmd, sensor, isRequest⟩ | early)
        · refine ⟨fun call called => ?_, fun none => absurd isRequest (none nonce cmd sensor)⟩
          simp [uncalled] at called
        · exact absurd early late

end Requests

def unboundLine : Bytes :=
  ascii "\x7bVirtue-protocol-version 0.1 request [n1 off kernel-ps]\x7d\n"

theorem unbound_tokens_reach_handler :
    decode unboundLine (localEnvironment.jsmnParse unboundLine).tokens = none ∧
    (parseJsonMessage localEnvironment 0 unboundLine ⟨[], 0, [kernelPs], []⟩).called.map Call.command =
      some .off ∧
    ¬ ObeysGrammar localEnvironment unboundLine
      (parseJsonMessage localEnvironment 0 unboundLine ⟨[], 0, [kernelPs], []⟩) := by
  have meaningless : decode unboundLine (localEnvironment.jsmnParse unboundLine).tokens = none := by
    rw [← Option.isNone_iff_eq_none]
    decide +kernel
  have handled : (parseJsonMessage localEnvironment 0 unboundLine
      ⟨[], 0, [kernelPs], []⟩).called.map Call.command = some .off := by
    decide +kernel
  refine ⟨meaningless, handled, fun obeys => ?_⟩
  obtain ⟨call, called, -⟩ := Option.map_eq_some_iff.mp handled
  obtain ⟨-, -, more, members, -, decoded⟩ := obeys.handled call called
  simp [meaningless] at decoded

end VirtueSensing.Kernel
