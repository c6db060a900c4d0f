import VirtueSensing.Kernel.Framing
import VirtueSensing.Kernel.Sessions

set_option autoImplicit false

/-!
# Lifetime of a request

What happens to the memory of a request message and of its session while `k_echo_server` handles a
line. Message and session pass through the parser and the handlers, and the server goes back to the
message when the parser has returned.
-/

namespace VirtueSensing.Kernel

variable {σ : Type}

inductive Object where
  | message
  | session
  deriving DecidableEq, Repr

inductive MemoryEvent where
  | alloc (o : Object)
  | use (o : Object)
  | free (o : Object)
  -- Into `h_sessions` and out of it.
  | link
  | unlink
  deriving DecidableEq, Repr

-- `free_session` of a session that still has its request.
def freeSessionTrace : List MemoryEvent :=
  [.use .session, .unlink, .use .session, .free .message, .free .session]

def handlerTrace (ends : Bool) (call : Call) : List MemoryEvent :=
  let reads : List MemoryEvent :=
    match cmdTable call.command with
    | .jsmnCmd => [.use .message]
    | .discoveryRequest | .stateRequest | .recordsRequest => [.use .message, .use .session]
  reads ++ if ends then .use .message :: freeSessionTrace else []

-- `get_session` returns `NULL`, whereupon the parser frees the message.
def refusesNonce (env : Environment) (m : Message) (line : Bytes) : Bool :=
  0 ≤ (env.jsmnParse line).result ∧ validateMessageTokens m ∧ checkProtocolVersion m ∧
    (checkProtocolMessage m).isSome ∧ nonceIndex < m.tokens.length ∧ ¬ m.hasNonce

/-- What `parse_json_message` does to the message and the session, by the session it opened and the
handler it called. -/
def parseTrace (message : SensorMessage σ) (a : Arrival σ) (k : State) : List MemoryEvent :=
  let env := a.environment message
  let m := env.message a.socket a.line
  let out := parseJsonMessage env a.socket a.line k
  match out.opened with
  | none => .use .message :: if refusesNonce env m a.line then [.free .message] else []
  | some _ =>
    [.use .message, .alloc .session, .use .session, .link, .use .message] ++
      match out.called with
      | none => []
      | some call => .use .session :: handlerTrace (a.endsSession message call (m.entry k)) call

-- The result of the parser is stored in the message and then read from it.
def lineTrace (message : SensorMessage σ) (t : Turn) (a : Arrival σ) (k : State) :
    List MemoryEvent :=
  if newMessage t a.line then
    [.alloc .message, .use .message] ++ parseTrace message a k ++ [.use .message, .use .message]
  else []

/-- Message and session are freed once, the session is unlinked, and neither is used again. -/
structure Released (trace : List MemoryEvent) : Prop where
  freed : ∀ o, trace.count (.free o) = trace.count (.alloc o)
  unlinked : trace.count .unlink = trace.count .link
  untouched : ∀ o before after, trace = before ++ .free o :: after → .use o ∉ after

section Connected

variable {message : SensorMessage σ} {a : Arrival σ} {k : State}

end Connected

-- Behind the parser the message is used twice, so it must not have been freed before.
theorem not_released_of_used_last {first : List MemoryEvent} {o : Object}
    (allocated : .alloc o ∈ first) : ¬ Released (first ++ [.use o, .use o]) := by
  intro released
  have once := released.freed o
  rw [List.count_append, List.count_append] at once
  have some : 0 < first.count (.alloc o) := List.count_pos_iff.mpr allocated
  have none : [MemoryEvent.use o, .use o].count (.free o) = 0 := by simp
  have freed : .free o ∈ first := by
    apply List.count_pos_iff.mp
    omega
  obtain ⟨before, after, split⟩ := List.append_of_mem freed
  exact released.untouched o before (after ++ [.use o, .use o]) (by simp [split]) (by simp)

def offArrival : Arrival (FlexArray PsData) :=
  { connectArrival 0 with line := psRequest (ascii "off") }

def servedTurn : Turn := ⟨false, offArrival.line.length, true, offArrival.line.length, true, false⟩

end VirtueSensing.Kernel
