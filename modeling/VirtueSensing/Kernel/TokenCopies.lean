import VirtueSensing.Kernel.RequestGrammar

set_option autoImplicit false

/-!
# Tokens copied into a session

`get_session` and `pre_process_jsmn_request_cmd` with the tokens that they read and the arrays that
they copy them into, next to what the two functions do.
-/

namespace VirtueSensing.Kernel

open Jsmn

/-- The arrays of `struct jsmn_session` that a token is copied into. -/
inductive SessionArray where
  | nonce
  | cmd
  | sensorName
  deriving DecidableEq, Repr

def SessionArray.size : SessionArray → Nat
  | nonce => maxNonceSize
  | cmd => maxCmdSize
  | sensorName => maxNameSize

inductive Touch where
  -- `m->tokens[index]`
  | reads (index : Nat)
  | copies (array : SessionArray) (bytes : Nat)
  deriving DecidableEq, Repr

/-- The zero behind a copied token is inside its array too. The one behind a nonce is there already,
since the session comes from `kzalloc`. -/
def Touch.Inside (count : Nat) : Touch → Prop
  | reads index => index < count
  | copies array bytes => bytes + 1 ≤ array.size

instance (count : Nat) : DecidablePred (Touch.Inside count)
  | .reads index => inferInstanceAs (Decidable (index < count))
  | .copies array bytes => inferInstanceAs (Decidable (bytes + 1 ≤ array.size))

def getSessionTouching (m : Message) (p : Progress) : List Touch × Option Progress :=
  let nonce := m.text nonceIndex
  if nonce.length = 0 ∨ maxNonceSize < nonce.length then ([.reads nonceIndex], none)
  else if p.type = .request then
    let (s, state) := p.state.newSession m
    ([.reads nonceIndex, .copies .nonce nonce.length], some { p with state, opened := some s })
  else
    let linked := p.state.sessions.map fun s =>
      if s.nonceMatches nonce then s.link m.line else s
    ([.reads nonceIndex], some { p with state := { p.state with sessions := linked } })

def preProcessTouching (env : Environment) (m : Message) (p : Progress) : List Touch × Outcome :=
  let cmd := m.text cmdIndex
  let name := m.text sensorIndex
  if p.type = .reply then ([], p.stop jsmnErrorInval)
  else if cmd.length = 0 ∨ maxCmdSize ≤ cmd.length then
    ([.reads cmdIndex], p.stop jsmnErrorInval)
  else if m.tokens.length < sensorIndex then ([.reads cmdIndex], p.stop jsmnErrorInval)
  else if name.length = 0 ∨ maxNameSize < name.length then
    ([.reads cmdIndex, .reads sensorIndex], p.stop jsmnErrorInval)
  else
    match p.type, p.opened with
    | .request, some s =>
      let s := s.fill m
      let copied := if sensorIndex < m.tokens.length then [.copies .sensorName name.length] else []
      ([.reads cmdIndex, .reads sensorIndex, .copies .cmd cmd.length] ++ copied,
        dispatch env m { p with state := p.state.update s } s (indexCommand cmd))
    | _, _ => ([.reads cmdIndex, .reads sensorIndex], p.stop jsmnErrorInval)

def parseTokenTouching (env : Environment) (m : Message) (i : Nat) (p : Progress) :
    List Touch × Except Outcome (Nat × Progress) :=
  if i = nonceIndex then
    match getSessionTouching m p with
    | (touched, none) => (touched, .error (p.stop jsmnErrorInval))
    | (touched, some p) => (touched, .ok (i + 1, p))
  else if i = cmdIndex then
    let (touched, done) := preProcessTouching env m p
    (touched, .error (finish done))
  else ([], parseToken env m i p)

def parseTokensTouching (env : Environment) (m : Message) :
    Nat → Nat → Progress → List Touch × Outcome
  | 0, _, p => ([], p.stop m.tokens.length)
  | fuel + 1, i, p =>
    if i < m.tokens.length then
      match parseTokenTouching env m i p with
      | (touched, .error done) => (touched, done)
      | (touched, .ok (i, p)) =>
        let (later, out) := parseTokensTouching env m fuel i p
        (touched ++ later, out)
    else ([], p.stop m.tokens.length)

def parseJsonMessageTouching (env : Environment) (socket : Nat) (line : Bytes) (k : State) :
    List Touch × Outcome :=
  let parsed := env.jsmnParse line
  let m := env.message socket line
  if parsed.result < 0 then ([], ⟨parsed.result, k, none, none⟩)
  else if ¬ validateMessageTokens m then ([], ⟨parsed.result, k, none, none⟩)
  else parseTokensTouching env m m.tokens.length verTagIndex ⟨.empty, k, none⟩

section Outcomes

variable (env : Environment) (m : Message)

theorem getSessionTouching_snd (p : Progress) : (getSessionTouching m p).2 = getSession m p := by
  unfold getSessionTouching getSession
  simp only [correlateReply_eq]
  split_ifs
  · rfl
  · rfl
  · rfl

theorem preProcessTouching_snd (p : Progress) :
    (preProcessTouching env m p).2 = preProcessJsmnRequestCmd env m p := by
  unfold preProcessTouching preProcessJsmnRequestCmd
  dsimp only
  split_ifs
  · rfl
  · rfl
  · rfl
  · rfl
  · obtain ⟨type, state, opened⟩ := p
    cases type <;> cases opened <;> rfl
  · obtain ⟨type, state, opened⟩ := p
    cases type <;> cases opened <;> rfl

theorem parseTokenTouching_snd (i : Nat) (p : Progress) :
    (parseTokenTouching env m i p).2 = parseToken env m i p := by
  unfold parseTokenTouching
  split
  · rename_i here
    subst here
    have turn : parseToken env m nonceIndex p = (getSession m p).elim
        (.error (p.stop jsmnErrorInval)) fun p => .ok (nonceIndex + 1, p) := by
      unfold parseToken
      rw [if_neg (by decide), if_neg (by decide), if_neg (by decide), if_neg (by decide), if_pos rfl]
      cases getSession m p <;> rfl
    rw [turn, ← getSessionTouching_snd]
    obtain ⟨touched, found⟩ := getSessionTouching m p
    cases found <;> rfl
  · split
    · rename_i here
      subst here
      have turn : parseToken env m cmdIndex p =
          .error (finish (preProcessJsmnRequestCmd env m p)) := rfl
      rw [turn, ← preProcessTouching_snd]
    · rfl

theorem parseTokensTouching_snd (fuel i : Nat) (p : Progress) :
    (parseTokensTouching env m fuel i p).2 = parseTokens env m fuel i p := by
  induction fuel generalizing i p with
  | zero => rfl
  | succ fuel ih =>
    rw [parseTokensTouching, parseTokens, ← parseTokenTouching_snd]
    split
    · obtain ⟨touched, turn⟩ := parseTokenTouching env m i p
      cases turn with
      | error done => rfl
      | ok next => exact ih next.1 next.2
    · rfl

/-- Beside the list of what it touches, the parser does what it did. -/
theorem parseJsonMessageTouching_snd (socket : Nat) (line : Bytes) (k : State) :
    (parseJsonMessageTouching env socket line k).2 = parseJsonMessage env socket line k := by
  unfold parseJsonMessageTouching parseJsonMessage
  dsimp only
  split_ifs
  · rfl
  · exact parseTokensTouching_snd env _ _ _ _
  · rfl

end Outcomes

theorem Message.text_unused (m : Message) {i : Nat} (unused : m.tokens.length ≤ i) :
    m.text i = [] := by
  have zero : m.token i = Token.zero := by
    rw [Message.token, List.getD_eq_getElem?_getD, List.getElem?_eq_none unused]
    rfl
  rw [Message.text, zero]
  simp [Token.text, Token.zero, Bytes.slice]

section Touches

variable {env : Environment} {m : Message} {fuel i : Nat} {p : Progress}

theorem touches_turn (enough : m.tokens.length ≤ fuel + i) :
    (parseTokensTouching env m fuel i p).1 =
      if m.tokens.length ≤ i then []
      else (parseTokenTouching env m i p).1 ++
        match parseToken env m i p with
        | .error _ => []
        | .ok (j, q) => (parseTokensTouching env m (fuel - 1) j q).1 := by
  cases fuel with
  | zero => rw [parseTokensTouching, if_pos (by omega)]
  | succ fuel =>
    rw [parseTokensTouching, ← parseTokenTouching_snd]
    by_cases last : m.tokens.length ≤ i
    · rw [if_neg (by omega), if_pos last]
    · rw [if_pos (by omega), if_neg last]
      obtain ⟨touched, turn⟩ := parseTokenTouching env m i p
      cases turn with
      | error done => exact (List.append_nil touched).symm
      | ok next => rfl

-- What is touched from the nonce on.
def sessionTouches (env : Environment) (m : Message) (p : Progress) : List Touch :=
  if m.tokens.length ≤ nonceIndex then []
  else (getSessionTouching m p).1 ++
    match getSession m p with
    | none => []
    | some q => if m.tokens.length ≤ cmdIndex then [] else (preProcessTouching env m q).1

theorem touches_nonce (enough : m.tokens.length ≤ fuel + nonceIndex) :
    (parseTokensTouching env m fuel nonceIndex p).1 = sessionTouches env m p := by
  rw [touches_turn enough, sessionTouches]
  by_cases last : m.tokens.length ≤ nonceIndex
  · rw [if_pos last, if_pos last]
  · rw [if_neg last, if_neg last]
    have touched : (parseTokenTouching env m nonceIndex p).1 = (getSessionTouching m p).1 := by
      unfold parseTokenTouching
      rw [if_pos rfl]
      obtain ⟨touched, found⟩ := getSessionTouching m p
      cases found <;> rfl
    have turn : parseToken env m nonceIndex p =
        match getSession m p with
        | none => .error (p.stop jsmnErrorInval)
        | some p => .ok (cmdIndex, p) := rfl
    rw [touched, turn]
    cases getSession m p with
    | none => rfl
    | some q =>
      have rest := @touches_turn env m (fuel - 1) cmdIndex q
        (by simp only [nonceIndex, cmdIndex] at *; omega)
      have ends : parseToken env m cmdIndex q =
          .error (finish (preProcessJsmnRequestCmd env m q)) := rfl
      simp only [rest, ends, List.append_nil]
      rfl

theorem sessionTouches_short (short : m.tokens.length ≤ nonceIndex) : sessionTouches env m p = [] :=
  if_pos short

theorem touches_bracket (enough : m.tokens.length ≤ fuel + jsonlBracketIndex) :
    (parseTokensTouching env m fuel jsonlBracketIndex p).1 = sessionTouches env m p := by
  rw [touches_turn enough]
  by_cases last : m.tokens.length ≤ jsonlBracketIndex
  · rw [if_pos last, sessionTouches_short (Nat.le_trans last (by decide))]
  · rw [if_neg last]
    exact touches_nonce (by simp only [jsonlBracketIndex, nonceIndex] at *; omega)

theorem touches_msg (enough : m.tokens.length ≤ fuel + msgIndex) :
    (parseTokensTouching env m fuel msgIndex p).1 =
      match checkProtocolMessage m with
      | none => []
      | some type => sessionTouches env m { p with type } := by
  rw [touches_turn enough]
  by_cases last : m.tokens.length ≤ msgIndex
  · have short (q : Progress) : sessionTouches env m q = [] :=
      sessionTouches_short (Nat.le_trans last (by decide))
    rw [if_pos last]
    cases checkProtocolMessage m with
    | none => rfl
    | some type => exact (short _).symm
  · rw [if_neg last]
    have quiet : (parseTokenTouching env m msgIndex p).1 = [] := rfl
    have turn : parseToken env m msgIndex p =
        match checkProtocolMessage m with
        | none => .error (p.stop jsmnErrorInval)
        | some type => .ok (jsonlBracketIndex, { p with type }) := rfl
    rw [quiet, turn, List.nil_append]
    cases checkProtocolMessage m with
    | none => rfl
    | some type =>
      exact touches_bracket (by simp only [jsonlBracketIndex, msgIndex] at *; omega)

theorem touches_header :
    (parseTokensTouching env m m.tokens.length verTagIndex p).1 =
      if checkProtocolVersion m then
        match checkProtocolMessage m with
        | none => []
        | some type => sessionTouches env m { p with type }
      else [] := by
  rw [touches_turn (Nat.le_add_right _ _)]
  by_cases last : m.tokens.length ≤ verTagIndex
  · have short (q : Progress) : sessionTouches env m q = [] :=
      sessionTouches_short (Nat.le_trans last (by decide))
    rw [if_pos last]
    cases checkProtocolMessage m with
    | none => simp
    | some type => simp [short]
  · rw [if_neg last]
    have quiet : (parseTokenTouching env m verTagIndex p).1 = [] := rfl
    have turn : parseToken env m verTagIndex p =
        if checkProtocolVersion m then .ok (msgIndex, p) else .error (p.stop jsmnErrorInval) := rfl
    rw [quiet, turn, List.nil_append]
    cases checkProtocolVersion m with
    | false => rfl
    | true => exact touches_msg (by simp only [msgIndex, verTagIndex] at *; omega)

/-- The nonce is copied with the zero behind it, and so is the name of the sensor. -/
structure TokensFit (m : Message) : Prop where
  nonce : (m.text nonceIndex).length ≠ maxNonceSize
  sensor : m.hasCommand → m.tokens.length ≠ sensorIndex
  name : m.hasCommand → (m.text sensorIndex).length ≠ maxNameSize

theorem getSessionTouching_inside {m : Message} {k : State} (nonce : m.hasNonce)
    (long : nonceIndex < m.tokens.length) :
    (∀ t ∈ (getSessionTouching m ⟨.request, k, none⟩).1, t.Inside m.tokens.length) ↔
      (m.text nonceIndex).length ≠ maxNonceSize := by
  simp only [Message.hasNonce, decide_eq_true_eq] at nonce
  rw [getSessionTouching]
  rw [if_neg (by omega), if_pos rfl]
  simp only [List.forall_mem_cons, Touch.Inside, SessionArray.size, long, true_and]
  simp
  omega

theorem preProcessTouching_inside (k : State) (long : cmdIndex < m.tokens.length) :
    (∀ t ∈ (preProcessTouching env m (.opening m k)).1, t.Inside m.tokens.length) ↔
      (m.hasCommand → m.tokens.length ≠ sensorIndex) ∧
        (m.hasCommand → (m.text sensorIndex).length ≠ maxNameSize) := by
  have asked : (Progress.opening m k).type ≠ .reply := by
    simp [Progress.opening]
  have next : cmdIndex + 1 = sensorIndex := rfl
  unfold preProcessTouching
  by_cases command : m.hasCommand
  · simp only [command, true_imp_iff]
    simp only [Message.hasCommand, decide_eq_true_eq] at command
    rw [if_neg asked, if_neg (by omega), if_neg (by omega)]
    have reads : Touch.Inside m.tokens.length (.reads sensorIndex) ↔
        m.tokens.length ≠ sensorIndex := by
      change sensorIndex < m.tokens.length ↔ _
      omega
    have word : Touch.Inside m.tokens.length (.copies .cmd (m.text cmdIndex).length) := command.2
    by_cases bad : (m.text sensorIndex).length = 0 ∨ maxNameSize < (m.text sensorIndex).length
    · rw [if_pos bad, List.forall_mem_cons, List.forall_mem_singleton, reads]
      have sized : (m.text sensorIndex).length ≠ maxNameSize := by
        rcases bad with none | long
        · rw [none]
          decide
        · omega
      exact ⟨fun both => ⟨both.2, sized⟩, fun both => ⟨long, both.1⟩⟩
    · have listed : sensorIndex < m.tokens.length := by
        by_contra last
        refine bad (.inl ?_)
        rw [m.text_unused (by omega), List.length_nil]
      have copied : Touch.Inside m.tokens.length (.copies .sensorName (m.text sensorIndex).length) ↔
          (m.text sensorIndex).length ≠ maxNameSize := by
        change _ + 1 ≤ maxNameSize ↔ _
        omega
      have touched : Touch.Inside m.tokens.length (.reads cmdIndex) := long
      rw [if_neg bad]
      simp only [Progress.opening, if_pos listed, List.cons_append, List.nil_append,
        List.forall_mem_cons, List.not_mem_nil, false_imp_iff, implies_true, and_true, touched, word,
        reads, copied, true_and]
  · refine iff_of_true ?_ ⟨fun has => absurd has command, fun has => absurd has command⟩
    simp only [Message.hasCommand, decide_eq_true_eq] at command
    rw [if_neg asked, if_pos (by omega), List.forall_mem_singleton]
    exact long

theorem sessionTouches_request {m : Message} (k : State) (nonce : m.hasNonce)
    (long : nonceIndex < m.tokens.length) :
    (∀ t ∈ sessionTouches env m ⟨.request, k, none⟩, t.Inside m.tokens.length) ↔ TokensFit m := by
  rw [sessionTouches, if_neg (by omega), List.forall_mem_append,
    getSessionTouching_inside nonce long, getSession_request nonce]
  by_cases last : m.tokens.length ≤ cmdIndex
  · have missing : ¬ m.hasCommand := by
      simp [Message.hasCommand, m.text_unused last]
    simp only [if_pos last]
    exact ⟨fun both => ⟨both.1, fun has => absurd has missing, fun has => absurd has missing⟩,
      fun fit => ⟨fit.nonce, List.forall_mem_nil _⟩⟩
  · simp only [if_neg last]
    rw [preProcessTouching_inside k (by omega)]
    exact ⟨fun fit => ⟨fit.1, fit.2.1, fit.2.2⟩, fun fit => ⟨fit.nonce, fit.sensor, fit.name⟩⟩

theorem sessionTouches_read {m : Message} {type : MessageType} (k : State)
    (long : nonceIndex < m.tokens.length) (read : ¬ m.hasNonce ∨ type = .reply) :
    ∀ t ∈ sessionTouches env m ⟨type, k, none⟩, t.Inside m.tokens.length := by
  have one : ∀ t ∈ [Touch.reads nonceIndex], t.Inside m.tokens.length :=
    List.forall_mem_singleton.mpr long
  rw [sessionTouches, if_neg (by omega)]
  by_cases nonce : m.hasNonce
  · obtain rfl := read.resolve_left (not_not_intro nonce)
    simp only [Message.hasNonce, decide_eq_true_eq] at nonce
    rw [getSessionTouching, if_neg (by omega), if_neg MessageType.noConfusion, getSession, if_neg (by omega),
      if_neg MessageType.noConfusion]
    simpa [preProcessTouching] using one
  · simp only [Message.hasNonce, decide_eq_true_eq] at nonce
    rw [getSessionTouching, if_pos (by omega), getSession, if_pos (by omega)]
    simpa using one

end Touches

/-- The line gets to its session as a request, with a nonce that is accepted. -/
structure OpensSession (env : Environment) (socket : Nat) (line : Bytes) : Prop where
  parsed : 0 ≤ (env.jsmnParse line).result
  valid : validateMessageTokens (env.message socket line)
  version : checkProtocolVersion (env.message socket line)
  request : checkProtocolMessage (env.message socket line) = some .request
  nonce : (env.message socket line).hasNonce
  listed : nonceIndex < (env.message socket line).tokens.length

/-- The tokens of a line are read and copied in bounds exactly if it opens no session or its nonce
and the name of its sensor leave room for a zero and the name is there. -/
theorem tokens_inside_iff (env : Environment) (socket : Nat) (line : Bytes) (k : State) :
    (∀ t ∈ (parseJsonMessageTouching env socket line k).1,
        t.Inside (env.message socket line).tokens.length) ↔
      (OpensSession env socket line → TokensFit (env.message socket line)) := by
  unfold parseJsonMessageTouching
  by_cases failed : (env.jsmnParse line).result < 0
  · rw [if_pos failed]
    exact iff_of_true nofun fun opens => absurd opens.parsed (by omega)
  by_cases valid : validateMessageTokens (env.message socket line)
  · rw [if_neg failed, if_neg (not_not_intro valid), touches_header]
    cases version : checkProtocolVersion (env.message socket line) with
    | false => exact iff_of_true nofun fun opens => absurd opens.version (by simp [version])
    | true =>
      cases word : checkProtocolMessage (env.message socket line) with
      | none => exact iff_of_true nofun fun opens => absurd opens.request (by simp [word])
      | some type =>
        by_cases long : nonceIndex < (env.message socket line).tokens.length
        · by_cases opens : type = .request ∧ (env.message socket line).hasNonce
          · obtain ⟨rfl, nonce⟩ := opens
            have opened : OpensSession env socket line :=
              ⟨Int.not_lt.mp failed, valid, version, word, nonce, long⟩
            rw [forall_prop_of_true opened]
            exact sessionTouches_request k nonce long
          · refine iff_of_true (sessionTouches_read k long ?_) fun opened => absurd ?_ opens
            · by_cases nonce : (env.message socket line).hasNonce
              · exact .inr ((checkProtocolMessage_word word).resolve_left fun request => opens ⟨request, nonce⟩)
              · exact .inl nonce
            · exact ⟨Option.some.inj (word.symm.trans opened.request), opened.nonce⟩
        · refine iff_of_true ?_ fun opens => absurd opens.listed long
          simp [sessionTouches_short (Nat.le_of_not_lt long)]
  · rw [if_neg failed, if_pos valid]
    exact iff_of_true nofun fun opens => absurd opens.valid valid

def namedRequest (nonce name : Bytes) : Bytes :=
  ascii "\x7bVirtue-protocol-version: 0.1, request: [" ++ nonce ++ ascii ", connect, " ++ name ++
    ascii "]\x7d\n"

def bareRequest : Bytes :=
  ascii "\x7bVirtue-protocol-version: 0.1, request: [n1, connect]\x7d\n"

def touchedBy (line : Bytes) : List Touch :=
  (parseJsonMessageTouching localEnvironment 0 line ⟨[], 0, [], []⟩).1

def InsideFor (line : Bytes) : Prop :=
  ∀ t ∈ touchedBy line, t.Inside (localEnvironment.message 0 line).tokens.length

instance (line : Bytes) : Decidable (InsideFor line) :=
  inferInstanceAs (Decidable (∀ t ∈ touchedBy line, t.Inside _))

-- A name and a nonce of the largest size that is accepted, and a request that names no sensor.
theorem tokens_outside :
    ¬ InsideFor (namedRequest (ascii "n1") (List.replicate 128 97)) ∧
    ¬ InsideFor (namedRequest (List.replicate 40 97) (ascii "kernel-ps")) ∧
    touchedBy bareRequest = [.reads 5, .copies .nonce 2, .reads 6, .reads 7] ∧
    ¬ InsideFor bareRequest := by
  decide +kernel

end VirtueSensing.Kernel
