import VirtueSensing.Shared.Bytes

set_option autoImplicit false

/-!
# The jsmn tokenizer

`jsmn.cpp`, built without `JSMN_STRICT`, `JSMN_PARENT_LINKS` and
`JSMN_DONT_ACCEPT_PARTIAL_PACKETS`. `toknext` is the number of tokens and `pos` the number of bytes
consumed, so the loops recurse over the bytes that are left.
-/

namespace VirtueSensing.Jsmn

inductive TokenType where
  | undefined
  | object
  | array
  | string
  | primitive
  deriving DecidableEq, Repr

-- `jsmn_alloc_token` leaves -1 in both ends, but every caller sets `start` at once.
structure Token where
  type : TokenType
  start : Nat
  stop : Int
  size : Nat
  deriving DecidableEq, Repr

-- A slot that `jsmn_parse` never allocated.
def Token.zero : Token := ⟨.undefined, 0, 0, 0⟩

def Token.container (t : Token) : Bool :=
  t.type = .object ∨ t.type = .array

def Token.isOpen (t : Token) : Bool :=
  t.stop = -1

def Token.text (t : Token) (js : Bytes) : Bytes :=
  js.slice t.start t.stop

inductive Error where
  | nomem
  | inval
  | part
  deriving DecidableEq, Repr

def Error.code : Error → Int
  | .nomem => -1
  | .inval => -2
  | .part => -3

/-- What `jsmn_parse` returns, with the tokens it has allocated. -/
structure Parsed where
  result : Int
  tokens : List Token
  counted : result < 0 ∨ result = tokens.length

structure Parser where
  tokens : List Token
  toksuper : Option Nat
  deriving DecidableEq, Repr

def initial : Parser := ⟨[], none⟩

def endsPrimitive (c : UInt8) : Bool :=
  c ∈ ascii ":\t\r\n ,]\x7d"

-- The offset just behind the primitive, and what is left there.
def parsePrimitive : Bytes → Nat → Except Error (Nat × Bytes)
  | [], pos => .ok (pos, [])
  | c :: rest, pos =>
    if c = 0 ∨ endsPrimitive c then .ok (pos, c :: rest)
    else if c < 32 ∨ 127 ≤ c then .error .inval
    else parsePrimitive rest (pos + 1)

inductive StringMode where
  | plain
  | escaped
  | hex (left : Nat)
  deriving DecidableEq, Repr

def isHex (c : UInt8) : Bool :=
  (48 ≤ c ∧ c ≤ 57) ∨ (65 ≤ c ∧ c ≤ 70) ∨ (97 ≤ c ∧ c ≤ 102)

-- The offset of the closing quote, and what is left behind it.
def parseString : StringMode → Bytes → Nat → Except Error (Nat × Bytes)
  | _, [], _ => .error .part
  | .plain, c :: rest, pos =>
    if c = 0 then .error .part
    else if c = 34 then .ok (pos, rest)
    else if c = 92 ∧ rest ≠ [] then parseString .escaped rest (pos + 1)
    else parseString .plain rest (pos + 1)
  | .escaped, c :: rest, pos =>
    if c = 117 then parseString (.hex 3) rest (pos + 1)
    else if c ∈ ascii "\"/\\bfrnt" then parseString .plain rest (pos + 1)
    else .error .inval
  | .hex left, c :: rest, pos =>
    if c = 0 then .error .part
    else if ¬ isHex c then .error .inval
    else match left with
      | 0 => parseString .plain rest (pos + 1)
      | left + 1 => parseString (.hex left) rest (pos + 1)

def Parser.growSuper (p : Parser) : Parser :=
  match p.toksuper with
  | none => p
  | some i => { p with tokens := p.tokens.modify i fun t => { t with size := t.size + 1 } }

-- The loops that walk from the last token down to the first one that fits.
def lastIdx (fits : Token → Bool) (tokens : List Token) : Option Nat :=
  (List.range tokens.length).reverse.find? fun i => (tokens[i]?.map fits).getD false

def Parser.openContainer (numTokens : Nat) (p : Parser) (type : TokenType) (pos : Nat) :
    Except Error Parser :=
  if numTokens ≤ p.tokens.length then .error .nomem
  else
    let grown := p.growSuper
    .ok ⟨grown.tokens ++ [⟨type, pos, -1, 0⟩], some p.tokens.length⟩

def Parser.closeContainer (p : Parser) (type : TokenType) (pos : Nat) : Except Error Parser :=
  match lastIdx Token.isOpen p.tokens with
  | none => .error .inval
  | some i =>
    if (p.tokens[i]?.map Token.type) ≠ some type then .error .inval
    else
      let tokens := p.tokens.modify i fun t => { t with stop := pos + 1 }
      .ok ⟨tokens, lastIdx Token.isOpen (tokens.take (i + 1))⟩

def Parser.addScalar (numTokens : Nat) (p : Parser) (type : TokenType) (start stop : Nat) :
    Except Error Parser :=
  if numTokens ≤ p.tokens.length then .error .nomem
  else .ok (Parser.growSuper { p with tokens := p.tokens ++ [⟨type, start, stop, 0⟩] })

def Parser.colon (p : Parser) : Parser :=
  { p with toksuper := if p.tokens = [] then none else some (p.tokens.length - 1) }

def Parser.comma (p : Parser) : Parser :=
  match p.toksuper with
  | none => p
  | some i =>
    if (p.tokens[i]?.map Token.container).getD false then p
    else match lastIdx (fun t => t.container && t.isOpen) p.tokens with
      | none => p
      | some parent => { p with toksuper := some parent }

def parseLoop (numTokens : Nat) : Nat → Bytes → Nat → Parser → Except Error Parser
  | 0, _, _, p | _, [], _, p => .ok p
  | fuel + 1, c :: rest, pos, p =>
    if c = 0 then .ok p
    else if c = 123 then do
      parseLoop numTokens fuel rest (pos + 1) (← p.openContainer numTokens .object pos)
    else if c = 91 then do
      parseLoop numTokens fuel rest (pos + 1) (← p.openContainer numTokens .array pos)
    else if c = 125 then do
      parseLoop numTokens fuel rest (pos + 1) (← p.closeContainer .object pos)
    else if c = 93 then do
      parseLoop numTokens fuel rest (pos + 1) (← p.closeContainer .array pos)
    else if c = 34 then do
      let (stop, behind) ← parseString .plain rest (pos + 1)
      let p ← p.addScalar numTokens .string (pos + 1) stop
      parseLoop numTokens fuel behind (stop + 1) p
    else if c ∈ ascii "\t\r\n " then parseLoop numTokens fuel rest (pos + 1) p
    else if c = 58 then parseLoop numTokens fuel rest (pos + 1) p.colon
    else if c = 44 then parseLoop numTokens fuel rest (pos + 1) p.comma
    else do
      let (stop, behind) ← parsePrimitive (c :: rest) pos
      let p ← p.addScalar numTokens .primitive pos stop
      parseLoop numTokens fuel behind stop p

theorem parsePrimitive_consumes {bytes behind : Bytes} {pos stop : Nat}
    (parsed : parsePrimitive bytes pos = .ok (stop, behind)) : behind.length ≤ bytes.length := by
  induction bytes generalizing pos with
  | nil => simp_all [parsePrimitive]
  | cons c rest ih =>
    unfold parsePrimitive at parsed
    split_ifs at parsed with ends
    · simp_all
    · exact Nat.le_succ_of_le (ih parsed)

theorem parsePrimitive_cons_consumes {c : UInt8} {rest behind : Bytes} {pos stop : Nat}
    (starts : ¬ (c = 0 ∨ endsPrimitive c))
    (parsed : parsePrimitive (c :: rest) pos = .ok (stop, behind)) :
    behind.length ≤ rest.length := by
  unfold parsePrimitive at parsed
  split_ifs at parsed
  exact parsePrimitive_consumes parsed

theorem parseString_consumes {mode : StringMode} {bytes behind : Bytes} {pos stop : Nat}
    (parsed : parseString mode bytes pos = .ok (stop, behind)) :
    behind.length ≤ bytes.length := by
  induction bytes generalizing mode pos with
  | nil => cases mode <;> simp [parseString] at parsed
  | cons c rest ih =>
    cases mode with
    | plain =>
      unfold parseString at parsed
      split_ifs at parsed
      · simp_all
      · exact Nat.le_succ_of_le (ih parsed)
      · exact Nat.le_succ_of_le (ih parsed)
    | escaped =>
      unfold parseString at parsed
      split_ifs at parsed
      · exact Nat.le_succ_of_le (ih parsed)
      · exact Nat.le_succ_of_le (ih parsed)
    | hex left =>
      cases left <;>
      · unfold parseString at parsed
        split_ifs at parsed
        exact Nat.le_succ_of_le (ih parsed)

theorem Except.bind_congr {ε α β : Type} {x : Except ε α} {f g : α → Except ε β}
    (same : ∀ a, x = .ok a → f a = g a) : x >>= f = x >>= g := by
  cases x with
  | error e => rfl
  | ok a => exact same a rfl

-- Every turn consumes a byte, so a turn for each byte that is left is enough.
theorem parseLoop_enough (numTokens : Nat) {fuel more : Nat} {bytes : Bytes}
    (enough : bytes.length ≤ fuel) (enoughToo : bytes.length ≤ more) (pos : Nat) (p : Parser) :
    parseLoop numTokens fuel bytes pos p = parseLoop numTokens more bytes pos p := by
  induction fuel generalizing more bytes pos p with
  | zero =>
    obtain rfl := List.length_eq_zero_iff.mp (Nat.le_zero.mp enough)
    cases more <;> rfl
  | succ fuel ih =>
    cases bytes with
    | nil => cases more <;> rfl
    | cons c rest =>
      cases more with
      | zero => simp at enoughToo
      | succ more =>
        simp only [List.length_cons, Nat.add_le_add_iff_right] at enough enoughToo
        have next := fun pos p => ih enough enoughToo pos p
        unfold parseLoop
        by_cases nul : c = 0
        · rw [if_pos nul, if_pos nul]
        rw [if_neg nul, if_neg nul]
        by_cases openObject : c = 123
        · rw [if_pos openObject, if_pos openObject]
          exact Except.bind_congr fun p _ => next _ p
        rw [if_neg openObject, if_neg openObject]
        by_cases openArray : c = 91
        · rw [if_pos openArray, if_pos openArray]
          exact Except.bind_congr fun p _ => next _ p
        rw [if_neg openArray, if_neg openArray]
        by_cases closeObject : c = 125
        · rw [if_pos closeObject, if_pos closeObject]
          exact Except.bind_congr fun p _ => next _ p
        rw [if_neg closeObject, if_neg closeObject]
        by_cases closeArray : c = 93
        · rw [if_pos closeArray, if_pos closeArray]
          exact Except.bind_congr fun p _ => next _ p
        rw [if_neg closeArray, if_neg closeArray]
        by_cases quote : c = 34
        · rw [if_pos quote, if_pos quote]
          refine Except.bind_congr fun ⟨stop, behind⟩ parsed => Except.bind_congr fun p _ => ?_
          have consumed := parseString_consumes parsed
          exact ih (by omega) (by omega) _ p
        rw [if_neg quote, if_neg quote]
        by_cases blank : c ∈ ascii "\t\r\n "
        · rw [if_pos blank, if_pos blank]
          exact next _ p
        rw [if_neg blank, if_neg blank]
        by_cases colon : c = 58
        · rw [if_pos colon, if_pos colon]
          exact next _ _
        rw [if_neg colon, if_neg colon]
        by_cases comma : c = 44
        · rw [if_pos comma, if_pos comma]
          exact next _ _
        rw [if_neg comma, if_neg comma]
        refine Except.bind_congr fun ⟨stop, behind⟩ parsed => Except.bind_congr fun p _ => ?_
        have starts : ¬ (c = 0 ∨ endsPrimitive c) := by
          simp_all [endsPrimitive, ascii]
        have consumed := parsePrimitive_cons_consumes starts parsed
        exact ih (by omega) (by omega) _ p

def parse (numTokens : Nat) (js : Bytes) : Parsed :=
  match parseLoop numTokens js.length js 0 initial with
  | .ok p => ⟨p.tokens.length, p.tokens, .inr rfl⟩
  | .error e => ⟨e.code, [], .inl (by cases e <;> decide)⟩

end VirtueSensing.Jsmn
