import VirtueSensing.Jsmn.Order
import VirtueSensing.Kernel.Replies

set_option autoImplicit false

/-!
# The size of the reply to a state request

Its buffer has twice the bytes of the request. The tag, the version, the word and the nonce stand one
behind the other in every request, and the rest of the reply is shorter than the first three twice.
-/

namespace VirtueSensing.Kernel

-- What `process_state_request` has printed where there is room for all of it.
def stateReplyText (nonce : Bytes) (state : Int) : Bytes :=
  ascii "\x7b" ++ protocolVersion ++ ascii ", reply: [" ++ nonce ++ ascii ", " ++
    cmdStrings.getD state.toNat [] ++ ascii "]\x7d\n"

theorem length_cmdString (state : Nat) : (cmdStrings.getD state []).length ≤ 11 := by
  have all : cmdStrings.all fun word => decide (word.length ≤ 11) := rfl
  rw [List.getD_eq_getElem?_getD]
  cases found : cmdStrings[state]? with
  | none => exact Nat.zero_le _
  | some word =>
    exact of_decide_eq_true (List.all_eq_true.mp all word (List.mem_of_getElem? found))

theorem length_stateReplyText (nonce : Bytes) (state : Int) :
    (stateReplyText nonce state).length ≤ 57 + nonce.length := by
  have word := length_cmdString state.toNat
  have opening : (ascii "\x7b" ++ protocolVersion ++ ascii ", reply: [").length = 41 := rfl
  have comma : (ascii ", ").length = 2 := rfl
  have closing : (ascii "]\x7d\n").length = 3 := rfl
  simp only [stateReplyText, List.length_append] at opening ⊢
  omega

theorem closes_stateReplyText (nonce : Bytes) (state : Int) :
    ascii "]\x7d\n" <:+ stateReplyText nonce state :=
  List.suffix_append _ _

section Line

variable {env : Environment} {socket : Nat} {line : Bytes}

theorem Message.text_before (jsmn : env.jsmnParse = Jsmn.parse maxTokens) {i j : Nat}
    (earlier : i < j) (present : j < (env.message socket line).tokens.length)
    {c : UInt8} {rest : Bytes} (text : (env.message socket line).text i = c :: rest)
    (plain : c ≠ 123 ∧ c ≠ 91) :
    ((env.message socket line).token i).start + ((env.message socket line).text i).length ≤
      ((env.message socket line).token j).start := by
  have first := List.getElem?_eq_getElem (Nat.lt_trans earlier present)
  have second := List.getElem?_eq_getElem present
  have token : (env.message socket line).token i = (env.message socket line).tokens[i] := by
    rw [Message.token, List.getD_eq_getElem?_getD, first, Option.getD_some]
  have behind : (env.message socket line).token j = (env.message socket line).tokens[j] := by
    rw [Message.token, List.getD_eq_getElem?_getD, second, Option.getD_some]
  rw [Message.text_eq first] at text
  rw [Message.text_eq first, token, behind]
  generalize (env.message socket line).tokens[i] = t at first text
  generalize (env.message socket line).tokens[j] = u at second
  rw [Environment.message, jsmn] at first second
  exact Jsmn.text_before maxTokens line earlier first second text plain

theorem RequestLine.length_line (asked : RequestLine env socket line)
    (jsmn : env.jsmnParse = Jsmn.parse maxTokens) :
    33 + ((env.message socket line).text nonceIndex).length ≤ line.length := by
  have present := asked.command
  have version := asked.version
  rw [checkProtocolVersion, decide_eq_true_eq] at version
  have word : (env.message socket line).text msgIndex = ascii "request" := by
    have request := asked.request
    dsimp only [checkProtocolMessage] at request
    split_ifs at request with reply word
    · cases request
    · exact word
  have size := asked.nonce
  rw [Message.hasNonce, decide_eq_true_eq] at size
  have tag := Message.text_before jsmn (show verTagIndex < versionIndex by decide)
    (Nat.lt_trans (by decide) present) version.1 (by decide)
  have number := Message.text_before jsmn (show versionIndex < msgIndex by decide)
    (Nat.lt_trans (by decide) present) version.2 (by decide)
  have request := Message.text_before jsmn (show msgIndex < nonceIndex by decide)
    (Nat.lt_trans (by decide) present) word (by decide)
  have nonce : ((env.message socket line).text nonceIndex).length ≤
      line.length - ((env.message socket line).token nonceIndex).start :=
    Jsmn.length_text_le _ _
  have sizes : (ascii "Virtue-protocol-version").length = 23 ∧ (ascii "0.1").length = 3 ∧
      (ascii "request").length = 7 := by decide
  rw [version.1] at tag
  rw [version.2] at number
  rw [word] at request
  omega

end Line

/-- The reply to a state request whose nonce leaves room in its array is printed whole, whichever
state it names, and so ends with its brackets and the newline. -/
theorem state_reply_fits (env : Environment) (jsmn : env.jsmnParse = Jsmn.parse maxTokens)
    (socket : Nat) (line : Bytes) (k : State) (call : Call)
    (called : (parseJsonMessage env socket line k).called = some call)
    (short : call.session.nonce.length < maxNonceSize) (state : Int) :
    (stateReplyText call.session.nonce state).length < line.length * 2 - 1 ∧
      stateReplyLine env call state = stateReplyText call.session.nonce state ∧
      ascii "]\x7d\n" <:+ stateReplyLine env call state := by
  obtain ⟨same, nonce⟩ := called_parts called
  have long := (requestLine_of_called called).length_line jsmn
  rw [← nonce] at long
  have text := length_stateReplyText call.session.nonce state
  have fits : (stateReplyText call.session.nonce state).length < line.length * 2 - 1 := by omega
  have whole : stateReplyLine env call state = stateReplyText call.session.nonce state := by
    rw [stateReplyLine, printedNonce, if_pos short, same]
    exact List.take_of_length_le (Nat.le_sub_one_of_lt fits)
  rw [whole]
  exact ⟨fits, rfl, closes_stateReplyText _ _⟩

theorem state_reply_fits_off :
    ∃ call, (parseJsonMessage localEnvironment 0 (psRequest (ascii "off"))
        ⟨[], 0, [kernelPs], []⟩).called = some call ∧
      ascii "]\x7d\n" <:+ stateReplyLine localEnvironment call Command.off.code := by
  have called : (parseJsonMessage localEnvironment 0 (psRequest (ascii "off"))
      ⟨[], 0, [kernelPs], []⟩).called =
        some (Message.call (localEnvironment.message 0 (psRequest (ascii "off")))
          ⟨[], 0, [kernelPs], []⟩ .off) := by
    decide +kernel
  exact ⟨_, called, (state_reply_fits localEnvironment rfl 0 _ _ _ called (by decide +kernel) _).2.2⟩

end VirtueSensing.Kernel
