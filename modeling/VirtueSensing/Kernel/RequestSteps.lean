import VirtueSensing.Kernel.RequestGrammar

set_option autoImplicit false

/-!
# What a line can do

`parse_json_message` as one step on the state of the controller: the cases that later modules go
through, in place of its code.
-/

namespace VirtueSensing.Kernel

def State.linkReply (k : State) (m : Message) : State :=
  { k with sessions := k.sessions.map fun s =>
      if s.nonceMatches (m.text nonceIndex) then s.link m.line else s }

-- The call that the command `c` in `m` makes, and the state in which it is made.
def Message.call (m : Message) (k : State) (c : Command) : Call :=
  ⟨m, (k.newSession m).1.fill m, c⟩

def Message.entry (m : Message) (k : State) : State :=
  (k.newSession m).2.update ((k.newSession m).1.fill m)

inductive Handled (env : Environment) (m : Message) (k : State) : Outcome → Prop where
  | rejected (ccode : Int) : Handled env m k ⟨ccode, k, none, none⟩
  | linked (ccode : Int) (nonce : m.hasNonce) (reply : checkProtocolMessage m = some .reply) :
      Handled env m k ⟨ccode, k.linkReply m, none, none⟩
  | opened (ccode : Int) (nonce : m.hasNonce) (request : checkProtocolMessage m = some .request) :
      Handled env m k ⟨ccode, (k.newSession m).2, some (k.newSession m).1, none⟩
  | called (ccode : Int) (nonce : m.hasNonce) (request : checkProtocolMessage m = some .request)
      (c : Command) (word : indexCommand (m.text cmdIndex) = c.code) :
      Handled env m k ⟨ccode, (env.run (m.call k c) (m.entry k)).2, some (k.newSession m).1,
        some (m.call k c)⟩

section Cases

variable (env : Environment) {m : Message} (k : State)

theorem getSession_reply_eq (nonce : m.hasNonce) :
    getSession m ⟨.reply, k, none⟩ = some ⟨.reply, k.linkReply m, none⟩ := by
  simp only [Message.hasNonce, decide_eq_true_eq] at nonce
  simp only [getSession, correlateReply_eq]
  rw [if_neg (by omega)]
  rfl

theorem parseSession_handled_request (request : checkProtocolMessage m = some .request) :
    Handled env m k (parseSession env m ⟨.request, k, none⟩) := by
  unfold parseSession
  by_cases short : m.tokens.length ≤ nonceIndex
  · rw [if_pos short]
    exact .rejected _
  rw [if_neg short]
  by_cases nonce : m.hasNonce
  · rw [getSession_request nonce]
    by_cases last : m.tokens.length ≤ cmdIndex
    · simp only [if_pos last]
      exact .opened _ nonce request
    simp only [if_neg last]
    by_cases sizes : m.hasCommand ∧ m.hasSensor
    · obtain ⟨c, index⟩ := indexCommand_isCode (m.text cmdIndex)
      rw [preProcess_dispatches k sizes.1 sizes.2 (by omega), index, dispatch_code]
      exact .called _ nonce request c index
    · rw [preProcess_rejects sizes]
      exact .opened _ nonce request
  · rw [getSession_eq_none nonce]
    exact .rejected _

theorem parseSession_handled_reply (reply : checkProtocolMessage m = some .reply) :
    Handled env m k (parseSession env m ⟨.reply, k, none⟩) := by
  unfold parseSession
  by_cases short : m.tokens.length ≤ nonceIndex
  · rw [if_pos short]
    exact .rejected _
  rw [if_neg short]
  by_cases nonce : m.hasNonce
  · rw [getSession_reply_eq k nonce]
    by_cases last : m.tokens.length ≤ cmdIndex
    · simp only [if_pos last]
      exact .linked _ nonce reply
    · simp only [if_neg last]
      exact .linked _ nonce reply
  · rw [getSession_eq_none nonce]
    exact .rejected _

theorem parseBody_handled : Handled env m k (parseBody env m ⟨.empty, k, none⟩) := by
  unfold parseBody
  by_cases short : m.tokens.length ≤ msgIndex
  · rw [if_pos short]
    exact .rejected _
  rw [if_neg short]
  cases word : checkProtocolMessage m with
  | none => exact .rejected _
  | some type =>
    cases type with
    | request => exact parseSession_handled_request env k word
    | reply => exact parseSession_handled_reply env k word
    | empty =>
      unfold checkProtocolMessage at word
      grind

theorem parseHeader_handled : Handled env m k (parseHeader env m ⟨.empty, k, none⟩) := by
  unfold parseHeader
  by_cases short : m.tokens.length ≤ verTagIndex
  · rw [if_pos short]
    exact .rejected _
  rw [if_neg short]
  by_cases version : checkProtocolVersion m
  · rw [if_neg (by simp [version])]
    exact parseBody_handled env k
  · rw [if_pos version]
    exact .rejected _

end Cases

theorem parseJsonMessage_handled (env : Environment) (socket : Nat) (line : Bytes) (k : State) :
    Handled env (env.message socket line) k (parseJsonMessage env socket line k) := by
  rw [parseJsonMessage_eq]
  split
  · exact .rejected _
  · exact parseHeader_handled env k

theorem requestLine_of_called {env : Environment} {socket : Nat} {line : Bytes} {k : State}
    {call : Call} (called : (parseJsonMessage env socket line k).called = some call) :
    RequestLine env socket line := by
  by_contra other
  cases parseJsonMessage_refuses (k := k) other with
  | error _ _ _ uncalled => rw [uncalled] at called; cases called
  | ignored _ _ uncalled => rw [uncalled] at called; cases called

end VirtueSensing.Kernel
