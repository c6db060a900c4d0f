import Mathlib.Data.List.Find
import Mathlib.Data.List.Induction
import VirtueSensing.Jsmn.Texts

set_option autoImplicit false

/-!
# The tokens of a text

jsmn reads the text of a value from its start to its end, and the tokens that it leaves spell the value.
-/

namespace VirtueSensing.Jsmn

/-- The tokens read onto a stack, the last one first. -/
def readOnto (js : Bytes) (tokens : List Token) (stack : List Item) : Option (List Item) :=
  tokens.foldr (fun t read => read.bind (t.push js)) (some stack)

def Token.Closed (js : Bytes) (t : Token) : Prop :=
  (t.start : Int) ≤ t.stop ∧ t.stop ≤ js.length

/-- Closed tokens that put these items on any stack. -/
structure Spells (js : Bytes) (tokens : List Token) (items : List Item) : Prop where
  closed : ∀ t ∈ tokens, t.Closed js
  read : ∀ stack, readOnto js tokens stack = some (items ++ stack)

section Spelling

variable {js : Bytes} {tokens others : List Token} {items more : List Item}

theorem readOnto_append (stack : List Item) :
    readOnto js (tokens ++ others) stack = (readOnto js others stack).bind (readOnto js tokens) := by
  induction tokens with
  | nil =>
    rw [List.nil_append, show readOnto js [] = some from rfl, Option.bind_fun_some]
  | cons t tokens ih =>
    have step (ts : List Token) (s : List Item) :
        readOnto js (t :: ts) s = (readOnto js ts s).bind (t.push js) := rfl
    rw [List.cons_append, step, ih, Option.bind_assoc]
    rfl

theorem readStack_eq : readStack js tokens = readOnto js tokens [] := by
  induction tokens with
  | nil => rfl
  | cons t tokens ih => rw [readStack, ih]; rfl

theorem Spells.nil : Spells js [] [] := ⟨by simp, fun _ => rfl⟩

theorem Spells.append (first : Spells js tokens items) (second : Spells js others more) :
    Spells js (tokens ++ others) (items ++ more) := by
  refine ⟨List.forall_mem_append.mpr ⟨first.closed, second.closed⟩, fun stack => ?_⟩
  rw [readOnto_append, second.read, Option.bind_some, first.read, List.append_assoc]

theorem Spells.decode {v : Json} (spells : Spells js tokens [.value v]) : decode js tokens = some v := by
  rw [Jsmn.decode, readStack_eq, spells.read]
  rfl

theorem popValues_append (vs : List Json) (stack : List Item) :
    popValues vs.length (vs.map .value ++ stack) = some (vs, stack) := by
  induction vs with
  | nil => rfl
  | cons v vs ih => simp [popValues, ih]

theorem popMembers_append (ms : List (Bytes × Json)) (stack : List Item) :
    popMembers ms.length (ms.map .member ++ stack) = some (ms, stack) := by
  induction ms with
  | nil => rfl
  | cons m ms ih => simp [popMembers, ih]

theorem Spells.cons {t : Token} (closed : t.Closed js) (spells : Spells js tokens items)
    (push : ∀ stack, t.push js (items ++ stack) = some (more ++ stack)) :
    Spells js (t :: tokens) more := by
  refine ⟨List.forall_mem_cons.mpr ⟨closed, spells.closed⟩, fun stack => ?_⟩
  show (readOnto js tokens stack).bind (t.push js) = _
  rw [spells.read, Option.bind_some, push]

theorem Spells.array {t : Token} {vs : List Json} (closed : t.Closed js) (type : t.type = .array)
    (size : t.size = vs.length) (spells : Spells js tokens (vs.map .value)) :
    Spells js (t :: tokens) [.value (.array vs)] := by
  apply spells.cons closed
  intro stack
  simp [Token.push, type, size, popValues_append]

theorem Spells.object {t : Token} {ms : List (Bytes × Json)} (closed : t.Closed js)
    (type : t.type = .object) (size : t.size = ms.length) (spells : Spells js tokens (ms.map .member)) :
    Spells js (t :: tokens) [.value (.object ms)] := by
  apply spells.cons closed
  intro stack
  simp [Token.push, type, size, popMembers_append]

theorem Spells.scalar {t : Token} {text : Bytes} (closed : t.Closed js)
    (type : t.type = .string ∨ t.type = .primitive) (size : t.size = 0) (same : t.text js = text) :
    Spells js [t] [.value (.scalar text)] := by
  apply Spells.nil.cons closed
  intro stack
  rcases type with type | type <;> simp [Token.push, type, size, same, pushScalar]

theorem Spells.member {t : Token} {name : Bytes} {v : Json} (closed : t.Closed js)
    (type : t.type = .string ∨ t.type = .primitive) (size : t.size = 1) (same : t.text js = name)
    (spells : Spells js tokens [.value v]) : Spells js (t :: tokens) [.member (name, v)] := by
  apply spells.cons closed
  intro stack
  rcases type with type | type <;> simp [Token.push, type, size, same, pushScalar]

end Spelling

section LastIdx

variable {fits : Token → Bool}

theorem lastIdx_snoc (tokens : List Token) (t : Token) :
    lastIdx fits (tokens ++ [t]) = if fits t then some tokens.length else lastIdx fits tokens := by
  have before : ∀ i ∈ (List.range tokens.length).reverse,
      (((tokens ++ [t])[i]?.map fits).getD false) = ((tokens[i]?.map fits).getD false) := by
    intro i member
    rw [List.mem_reverse, List.mem_range] at member
    rw [List.getElem?_append_left member]
  rw [lastIdx, List.length_append, List.length_singleton, List.range_succ, List.reverse_append,
    List.reverse_singleton, List.singleton_append, List.find?_cons]
  cases last : fits t with
  | true => simp [last]
  | false =>
    simp only [List.getElem?_concat_length, Option.map_some, last, Option.getD_some]
    exact List.find?_congr before

theorem lastIdx_append (tokens : List Token) {others : List Token} (none : ∀ t ∈ others, fits t = false) :
    lastIdx fits (tokens ++ others) = lastIdx fits tokens := by
  induction others using List.reverseRecOn with
  | nil => rw [List.append_nil]
  | append_singleton others t ih =>
    rw [List.forall_mem_append] at none
    rw [← List.append_assoc, lastIdx_snoc, none.2 t (List.mem_singleton_self t), if_neg (by simp),
      ih none.1]

theorem lastIdx_map (change : Token → Token) (same : ∀ t, fits (change t) = fits t) (i : Nat)
    (tokens : List Token) : lastIdx fits (tokens.modify i change) = lastIdx fits tokens := by
  have each (j : Nat) :
      (((tokens.modify i change)[j]?.map fits).getD false) = ((tokens[j]?.map fits).getD false) := by
    rw [List.getElem?_modify]
    split
    · cases tokens[j]? with
      | none => rfl
      | some t => simp [same]
    · simp
  rw [lastIdx, lastIdx, List.length_modify]
  simp only [each]

end LastIdx

def Token.ended (t : Token) (stop : Int) : Token := { t with stop := stop }

/-- A container whose closing bracket was not read yet, with the tokens before it and inside it. -/
structure Frame where
  before : List Token
  container : Token
  inside : List Token

namespace Frame

variable (f : Frame)

def tokens : List Token := f.before ++ f.container :: f.inside

def parser : Parser := ⟨f.tokens, some f.before.length⟩

def add (count : Nat) (tokens : List Token) : Frame :=
  ⟨f.before, { f.container with size := f.container.size + count }, f.inside ++ tokens⟩

def close (stop : Int) : Parser :=
  ⟨f.before ++ f.container.ended stop :: f.inside, lastIdx Token.isOpen f.before⟩

/-- Where new items go: to the container, or to the name in it that was read last. -/
def Within (super : Option Nat) : Prop :=
  ∃ i, super = some i ∧ (i = f.before.length ∨ ∃ t, f.tokens[i]? = some t ∧ t.container = false)

/-- The container is the last one that is open, and begins before what is left of the text. -/
structure Open (js text : Bytes) (type : TokenType) : Prop where
  kind : type = .object ∨ type = .array
  type : f.container.type = type
  stop : f.container.stop = -1
  start : f.container.start + text.length < js.length
  before : ∀ t ∈ f.before, t.isOpen → t.container
  inside : ∀ t ∈ f.inside, t.Closed js

end Frame

/-- All that is open is a container, and new items go to a token that exists. -/
structure Parser.Ready (p : Parser) : Prop where
  opened : ∀ t ∈ p.tokens, t.isOpen → t.container
  super : ∀ i ∈ p.toksuper, i < p.tokens.length

theorem growSuper_cases (p : Parser) : p.growSuper.tokens = p.tokens ∨
    ∃ i, p.growSuper.tokens = p.tokens.modify i fun t => { t with size := t.size + 1 } := by
  unfold Parser.growSuper
  split
  · exact .inl rfl
  · exact .inr ⟨_, rfl⟩

theorem lastOpen_growSuper (p : Parser) :
    lastIdx Token.isOpen p.growSuper.tokens = lastIdx Token.isOpen p.tokens := by
  rcases growSuper_cases p with same | ⟨i, grown⟩
  · rw [same]
  · rw [grown, lastIdx_map]
    exact fun t => rfl

theorem opened_growSuper {p : Parser} (opened : ∀ t ∈ p.tokens, t.isOpen → t.container) :
    ∀ t ∈ p.growSuper.tokens, t.isOpen → t.container := by
  rcases growSuper_cases p with same | ⟨i, grown⟩
  · rwa [same]
  · intro t member isOpen
    rw [grown, List.mem_iff_getElem?] at member
    obtain ⟨j, found⟩ := member
    rw [List.getElem?_modify] at found
    obtain ⟨u, there, rfl⟩ := Option.map_eq_some_iff.mp found
    have kept := opened u (List.mem_of_getElem? there)
    split at isOpen
    · rw [if_pos (by assumption)]
      exact kept isOpen
    · rw [if_neg (by assumption)]
      exact kept isOpen

theorem Token.Closed.not_open {js : Bytes} {t : Token} (closed : t.Closed js) : t.isOpen = false := by
  have order := closed.1
  simp only [isOpen, decide_eq_false_iff_not]
  omega

namespace Frame

variable {f : Frame} {js text : Bytes} {type : TokenType} {fits : Token → Bool}

theorem Open.container (opened : f.Open js text type) : f.container.container := by
  simpa [Token.container, opened.type] using opened.kind

theorem Open.add (opened : f.Open js text type) (count : Nat) {tokens : List Token}
    (closed : ∀ t ∈ tokens, t.Closed js) : (f.add count tokens).Open js text type :=
  ⟨opened.kind, opened.type, opened.stop, opened.start, opened.before,
    List.forall_mem_append.mpr ⟨opened.inside, closed⟩⟩

theorem Open.shorter {rest : Bytes} (opened : f.Open js text type) (suffix : rest <:+ text) :
    f.Open js rest type :=
  ⟨opened.kind, opened.type, opened.stop,
    Nat.lt_of_le_of_lt (Nat.add_le_add_left suffix.length_le _) opened.start, opened.before,
    opened.inside⟩

theorem Open.lastIdx (opened : f.Open js text type) (fit : fits f.container)
    (others : ∀ t, t.Closed js → fits t = false) : lastIdx fits f.tokens = some f.before.length := by
  have split : f.tokens = (f.before ++ [f.container]) ++ f.inside := by simp [tokens]
  rw [split, lastIdx_append _ fun t member => others t (opened.inside t member), lastIdx_snoc, if_pos fit]

theorem Open.lastOpen (opened : f.Open js text type) :
    Jsmn.lastIdx Token.isOpen f.tokens = some f.before.length :=
  opened.lastIdx (by simp [Token.isOpen, opened.stop]) fun _ closed => closed.not_open

theorem Open.ready (opened : f.Open js text type) : f.parser.Ready := by
  constructor
  · intro t member isOpen
    simp only [parser, tokens, List.mem_append, List.mem_cons] at member
    rcases member with before | rfl | inside
    · exact opened.before t before isOpen
    · exact opened.container
    · rw [(opened.inside t inside).not_open] at isOpen
      cases isOpen
  · simp [parser, tokens]

theorem modify_tokens (f : Frame) (change : Token → Token) :
    f.tokens.modify f.before.length change = f.before ++ change f.container :: f.inside := by
  rw [tokens, List.modify_eq_take_drop]
  simp

theorem growSuper_state (f : Frame) (tokens : List Token) :
    f.parser.growSuper.tokens ++ tokens = (f.add 1 tokens).tokens := by
  show f.tokens.modify f.before.length _ ++ tokens = _
  rw [modify_tokens, List.append_assoc]
  rfl

theorem Open.closeContainer (opened : f.Open js text type) (super : Option Nat) (pos : Nat) :
    Parser.closeContainer ⟨f.tokens, super⟩ type pos = .ok (f.close (pos + 1)) := by
  have found : f.tokens[f.before.length]? = some f.container := by simp [tokens]
  have taken (t : Token) : (f.before ++ t :: f.inside).take (f.before.length + 1) = f.before ++ [t] := by
    rw [List.append_cons, List.take_left' (by simp)]
  have shut : (f.container.ended (pos + 1)).isOpen = false := by
    rw [Token.isOpen, decide_eq_false_iff_not]
    show ¬ (pos : Int) + 1 = -1
    omega
  unfold Parser.closeContainer
  dsimp only
  rw [opened.lastOpen]
  dsimp only
  rw [found, if_neg (by simp [opened.type]), modify_tokens, taken]
  show Except.ok (Parser.mk _ (Jsmn.lastIdx Token.isOpen (f.before ++ [f.container.ended (pos + 1)]))) = _
  rw [lastIdx_snoc, shut, if_neg (by simp)]
  rfl

theorem Open.comma (opened : f.Open js text type) {super : Option Nat} (within : f.Within super) :
    Parser.comma ⟨f.tokens, super⟩ = f.parser := by
  obtain ⟨i, rfl, rfl | ⟨t, found, other⟩⟩ := within
  · have found : f.tokens[f.before.length]? = some f.container := by simp [tokens]
    simp [Parser.comma, found, opened.container, parser]
  · have last : Jsmn.lastIdx (fun t => t.container && t.isOpen) f.tokens = some f.before.length :=
      opened.lastIdx (by simp [opened.container, Token.isOpen, opened.stop])
        fun t closed => by simp [closed.not_open]
    simp only [Parser.comma, found, Option.map_some, Option.getD_some, other, Bool.false_eq_true, if_false,
      last]
    rfl

end Frame

-- The loop over what is left of a text, whose end it has in common.
def run (numTokens : Nat) (js text : Bytes) (p : Parser) : Except Error Parser :=
  parseLoop numTokens text.length text (js.length - text.length) p

section Run

variable {numTokens : Nat} {js text rest : Bytes} {p : Parser} {c : UInt8}

theorem place_eq (suffix : c :: text <:+ js) : js.length - (c :: text).length + 1 = js.length - text.length := by
  have short := suffix.length_le
  rw [List.length_cons] at short ⊢
  omega

theorem run_blank (blank : Blank text rest) (suffix : text <:+ js) :
    run numTokens js text p = run numTokens js rest p := by
  induction blank with
  | none text => rfl
  | @skip c text rest white more ih =>
    rw [← ih ((List.suffix_cons c text).trans suffix)]
    have marks : ascii "\t\r\n " = [9, 13, 10, 32] := rfl
    have other : c ≠ 0 ∧ c ≠ 123 ∧ c ≠ 91 ∧ c ≠ 125 ∧ c ≠ 93 ∧ c ≠ 34 := by
      rw [marks] at white
      simp only [List.mem_cons, List.not_mem_nil, or_false] at white
      grind
    obtain ⟨zero, object, array, endObject, endArray, quote⟩ := other
    rw [run, List.length_cons, parseLoop, if_neg zero, if_neg object, if_neg array, if_neg endObject,
      if_neg endArray, if_neg quote, if_pos white, ← List.length_cons, place_eq suffix]
    rfl

theorem run_open (type : TokenType) (opening : (c = 123 ∧ type = .object) ∨ (c = 91 ∧ type = .array))
    (room : p.tokens.length < numTokens) (suffix : c :: text <:+ js) :
    run numTokens js (c :: text) p = run numTokens js text
      (Frame.mk p.growSuper.tokens ⟨type, js.length - (c :: text).length, -1, 0⟩ []).parser := by
  have grown : p.growSuper.tokens.length = p.tokens.length := length_growSuper p
  rcases opening with ⟨rfl, rfl⟩ | ⟨rfl, rfl⟩
  · rw [run, List.length_cons, parseLoop, if_neg (by decide), if_pos rfl, Parser.openContainer,
      if_neg (by omega), ← List.length_cons, place_eq suffix]
    simp [run, Frame.parser, Frame.tokens, grown, Except.ok_bind]
  · rw [run, List.length_cons, parseLoop, if_neg (by decide), if_neg (by decide), if_pos rfl,
      Parser.openContainer, if_neg (by omega), ← List.length_cons, place_eq suffix]
    simp [run, Frame.parser, Frame.tokens, grown, Except.ok_bind]

theorem run_close {f : Frame} {type : TokenType} (super : Option Nat)
    (opened : f.Open js (closing type :: text) type) (suffix : closing type :: text <:+ js) :
    run numTokens js (closing type :: text) ⟨f.tokens, super⟩ =
      run numTokens js text (f.close (js.length - text.length : Nat)) := by
  have ends := opened.closeContainer super (js.length - (closing type :: text).length)
  have place := place_eq suffix
  have stop : ((js.length - text.length : Nat) : Int) = (js.length - (closing type :: text).length : Nat) + 1 := by
    omega
  rw [stop]
  rcases opened.kind with rfl | rfl
  · rw [run, List.length_cons, parseLoop, if_neg (by decide), if_neg (by decide), if_neg (by decide),
      if_pos (by decide), ← List.length_cons, ends, place]
    rfl
  · rw [run, List.length_cons, parseLoop, if_neg (by decide), if_neg (by decide), if_neg (by decide),
      if_neg (by decide), if_pos (by decide), ← List.length_cons, ends, place]
    rfl

theorem run_comma (suffix : 44 :: text <:+ js) :
    run numTokens js (44 :: text) p = run numTokens js text p.comma := by
  rw [run, List.length_cons, parseLoop, if_neg (by decide), if_neg (by decide), if_neg (by decide),
    if_neg (by decide), if_neg (by decide), if_neg (by decide), if_neg (by decide), if_neg (by decide),
    if_pos rfl, ← List.length_cons, place_eq suffix]
  rfl

theorem run_colon (suffix : 58 :: text <:+ js) :
    run numTokens js (58 :: text) p = run numTokens js text p.colon := by
  rw [run, List.length_cons, parseLoop, if_neg (by decide), if_neg (by decide), if_neg (by decide),
    if_neg (by decide), if_neg (by decide), if_neg (by decide), if_neg (by decide), if_pos rfl,
    ← List.length_cons, place_eq suffix]
  rfl

theorem modify_append_left {tokens : List Token} {i : Nat} (change : Token → Token)
    (before : i < tokens.length) (more : List Token) :
    (tokens ++ more).modify i change = tokens.modify i change ++ more := by
  induction tokens generalizing i with
  | nil => simp at before
  | cons t tokens ih =>
    cases i with
    | zero => rfl
    | succ i => simp [ih (Nat.lt_of_succ_lt_succ before)]

theorem addScalar_eq {type : TokenType} {start stop : Nat} (room : p.tokens.length < numTokens)
    (super : ∀ i ∈ p.toksuper, i < p.tokens.length) :
    p.addScalar numTokens type start stop =
      .ok ⟨p.growSuper.tokens ++ [⟨type, start, stop, 0⟩], p.toksuper⟩ := by
  rw [Parser.addScalar, if_neg (by omega)]
  cases inside : p.toksuper with
  | none => simp [Parser.growSuper, inside]
  | some i =>
    have before := super i inside
    simp only [Parser.growSuper, inside, Except.ok.injEq, Parser.mk.injEq, and_true]
    rw [modify_append_left _ before]

-- The text from `first` on to `rest` is a token that has no children yet.
def scalarToken (js : Bytes) (type : TokenType) (first rest : Bytes) : Token :=
  ⟨type, js.length - first.length, (js.length - rest.length : Nat), 0⟩

theorem slice_suffix {body behind : Bytes} (suffix : body ++ behind <:+ js) :
    js.slice (js.length - (body ++ behind).length) (js.length - behind.length : Nat) = body := by
  obtain ⟨before, rfl⟩ := suffix
  simp only [Bytes.slice, List.length_append]
  rw [show before.length + (body.length + behind.length) - (body.length + behind.length) = before.length by
    omega, List.drop_left, show ((before.length + (body.length + behind.length) - behind.length : Nat) -
      (before.length : Nat) : Int).toNat = body.length by omega, List.take_left]

theorem run_string {body : Bytes} (read : StringRest text body rest) (room : p.tokens.length < numTokens)
    (super : ∀ i ∈ p.toksuper, i < p.tokens.length) (suffix : 34 :: text <:+ js) :
    run numTokens js (34 :: text) p = run numTokens js rest
      ⟨p.growSuper.tokens ++ [scalarToken js .string text (34 :: rest)], p.toksuper⟩ := by
  have place := place_eq suffix
  have behind : text = body ++ 34 :: rest := read.text_eq
  have short := suffix.length_le
  have stop : js.length - text.length + body.length = js.length - (34 :: rest).length := by
    rw [behind] at short ⊢
    simp only [List.length_cons, List.length_append] at short ⊢
    omega
  have next : js.length - (34 :: rest).length + 1 = js.length - rest.length := by
    rw [behind] at short
    simp only [List.length_cons, List.length_append] at short ⊢
    omega
  rw [run, List.length_cons, parseLoop, if_neg (by decide), if_neg (by decide), if_neg (by decide),
    if_neg (by decide), if_neg (by decide), if_pos rfl, ← List.length_cons, place, read.parseString, stop,
    Except.ok_bind]
  dsimp only
  rw [addScalar_eq room super, Except.ok_bind, next]
  apply parseLoop_enough
  · rw [behind, List.length_append, List.length_cons]
    omega
  · exact Nat.le_refl _

theorem run_word {word : Bytes} (isWord : Word word) (ends : ∀ c ∈ rest.head?, endsPrimitive c)
    (room : p.tokens.length < numTokens) (super : ∀ i ∈ p.toksuper, i < p.tokens.length)
    (suffix : word ++ rest <:+ js) :
    run numTokens js (word ++ rest) p = run numTokens js rest
      ⟨p.growSuper.tokens ++ [scalarToken js .primitive (word ++ rest) rest], p.toksuper⟩ := by
  obtain ⟨nonempty, bytes⟩ := isWord
  have read := Word.parsePrimitive bytes ends (js.length - (word ++ rest).length)
  have short := suffix.length_le
  have stop : js.length - (word ++ rest).length + word.length = js.length - rest.length := by
    rw [List.length_append] at short ⊢
    omega
  cases word with
  | nil => exact absurd rfl nonempty
  | cons c word =>
    obtain ⟨low, high, other⟩ := bytes c List.mem_cons_self
    have marks : ascii "\x7b\x7d[]:,\"" = [123, 125, 91, 93, 58, 44, 34] := rfl
    have blanks : ascii "\t\r\n " = [9, 13, 10, 32] := rfl
    rw [marks] at other
    simp only [List.mem_cons, List.not_mem_nil, or_false, not_or] at other
    obtain ⟨object, endObject, array, endArray, colon, comma, quote⟩ := other
    have seen : c ∉ ascii "\t\r\n " := by
      rw [blanks]
      simp only [List.mem_cons, List.not_mem_nil, or_false, not_or]
      grind
    rw [List.cons_append] at read stop ⊢
    rw [run, List.length_cons, parseLoop, if_neg (by grind), if_neg object, if_neg array, if_neg endObject,
      if_neg endArray, if_neg quote, if_neg seen, if_neg colon, if_neg comma, ← List.length_cons, read,
      stop, Except.ok_bind]
    dsimp only
    rw [addScalar_eq room super, Except.ok_bind]
    apply parseLoop_enough
    · rw [List.length_append]
      omega
    · exact Nat.le_refl _

end Run

/-- What the tokenizer has done to a container when the items of it are read and its bracket is closed. -/
def ReadsToClose (numTokens : Nat) (js : Bytes) (xs : List Item) (text rest : Bytes) (f : Frame)
    (super : Option Nat) : Prop :=
  ∃ tokens, Spells js tokens xs ∧ tokens.length = countItems xs ∧
    (f.container.ended (js.length - rest.length : Nat)).Closed js ∧
    run numTokens js text ⟨f.tokens, super⟩ =
      run numTokens js rest ((f.add xs.length tokens).close (js.length - rest.length : Nat))

/-- How the tokenizer reads a part of a text, with slots left for all its tokens. -/
def Phrase.Reads (numTokens : Nat) (js : Bytes) : Phrase → Bytes → Bytes → Prop
  | .value v, text, rest => ∀ p : Parser, p.Ready → p.tokens.length + v.count ≤ numTokens →
    ∃ tokens super, Spells js tokens [.value v] ∧ tokens.length = v.count ∧
      (super = p.toksuper ∨ super = lastIdx Token.isOpen p.tokens) ∧
      run numTokens js text p = run numTokens js rest ⟨p.growSuper.tokens ++ tokens, super⟩
  | .item type x, text, rest => ∀ f : Frame, f.Open js text type →
    f.tokens.length + x.count ≤ numTokens →
    ∃ tokens super, Spells js tokens [x] ∧ tokens.length = x.count ∧ (f.add 1 tokens).Within super ∧
      run numTokens js text f.parser = run numTokens js rest ⟨(f.add 1 tokens).tokens, super⟩
  | .body type xs, text, rest | .items type xs, text, rest => ∀ f : Frame, f.Open js text type →
    f.tokens.length + countItems xs ≤ numTokens →
    ReadsToClose numTokens js xs text rest f (some f.before.length)
  | .behind type xs, text, rest => ∀ f : Frame, f.Open js text type → ∀ super, f.Within super →
    f.tokens.length + countItems xs ≤ numTokens → ReadsToClose numTokens js xs text rest f super

section Reading

variable {numTokens : Nat} {js text rest : Bytes} {type : TokenType}

theorem scalarToken_closed {first behind : Bytes} (suffix : behind <:+ first) (whole : first <:+ js) :
    (scalarToken js type first behind).Closed js := by
  have shorter := suffix.length_le
  have short := whole.length_le
  constructor
  · show ((js.length - first.length : Nat) : Int) ≤ (js.length - behind.length : Nat)
    omega
  · show ((js.length - behind.length : Nat) : Int) ≤ js.length
    omega

theorem reads_last {f : Frame} (opened : f.Open js text type) (super : Option Nat)
    (blank : Blank text (closing type :: rest)) (suffix : text <:+ js) :
    ReadsToClose numTokens js [] text rest f super := by
  have later := blank.suffix
  have whole := later.trans suffix
  have start := (opened.shorter later).start
  have short := whole.length_le
  rw [List.length_cons] at start short
  refine ⟨[], .nil, rfl, ⟨?_, ?_⟩, ?_⟩
  · show (f.container.start : Int) ≤ (js.length - rest.length : Nat)
    omega
  · show ((js.length - rest.length : Nat) : Int) ≤ js.length
    omega
  · rw [run_blank blank suffix, run_close super (opened.shorter later) whole]
    simp [Frame.close, Frame.add]

theorem reads_items {f : Frame} {x : Item} {xs : List Item} {first middle : Bytes}
    (item : (Phrase.item type x).Reads numTokens js first middle)
    (more : (Phrase.behind type xs).Reads numTokens js middle rest)
    (blank : Blank text first) (later : middle <:+ first) (opened : f.Open js text type)
    (room : f.tokens.length + countItems (x :: xs) ≤ numTokens) (suffix : text <:+ js) :
    ReadsToClose numTokens js (x :: xs) text rest f (some f.before.length) := by
  have start := opened.shorter blank.suffix
  rw [countItems] at room
  obtain ⟨tokens, super, spells, count, within, read⟩ := item f start (by omega)
  have grown : (f.add 1 tokens).tokens.length = f.tokens.length + tokens.length := by
    simp only [Frame.add, Frame.tokens, List.length_append, List.length_cons]
    omega
  obtain ⟨others, spellsMore, countMore, closed, readMore⟩ :=
    more (f.add 1 tokens) ((start.shorter later).add 1 spells.closed) super within (by omega)
  refine ⟨tokens ++ others, spells.append spellsMore, ?_, closed, ?_⟩
  · rw [List.length_append, count, countMore, countItems]
  · have same : (f.add 1 tokens).add xs.length others = f.add (x :: xs).length (tokens ++ others) := by
      simp only [Frame.add, List.append_assoc, List.length_cons]
      rw [Nat.add_assoc, Nat.add_comm 1]
    rw [run_blank blank suffix]
    exact read.trans (same ▸ readMore)

theorem reads_element {v : Json} (value : (Phrase.value v).Reads numTokens js text rest) :
    (Phrase.item .array (.value v)).Reads numTokens js text rest := by
  intro f opened room
  obtain ⟨tokens, super, spells, count, place, read⟩ := value f.parser opened.ready room
  refine ⟨tokens, super, spells, count, ⟨f.before.length, ?_, .inl rfl⟩, ?_⟩
  · rcases place with same | last
    · exact same
    · exact last.trans opened.lastOpen
  · rw [read, Frame.growSuper_state]

theorem reads_container {v : Json} {xs : List Item} {c : UInt8}
    (opening : (c = 123 ∧ type = .object) ∨ (c = 91 ∧ type = .array))
    (body : (Phrase.body type xs).Reads numTokens js text rest) (count : v.count = countItems xs + 1)
    (spells : ∀ (t : Token) (tokens : List Token), t.Closed js → t.type = type → t.size = xs.length →
      Spells js tokens xs → Spells js (t :: tokens) [.value v]) (suffix : c :: text <:+ js) :
    (Phrase.value v).Reads numTokens js (c :: text) rest := by
  intro p ready room
  have short := suffix.length_le
  have grown : p.growSuper.tokens.length = p.tokens.length := length_growSuper p
  let f : Frame := ⟨p.growSuper.tokens, ⟨type, js.length - (c :: text).length, -1, 0⟩, []⟩
  have opened : f.Open js text type := by
    refine ⟨?_, rfl, rfl, ?_, opened_growSuper ready.opened, by simp [f]⟩
    · rcases opening with ⟨-, rfl⟩ | ⟨-, rfl⟩
      · exact .inl rfl
      · exact .inr rfl
    · show js.length - (c :: text).length + text.length < js.length
      rw [List.length_cons] at short ⊢
      omega
  have size : f.tokens.length = p.tokens.length + 1 := by simp [f, Frame.tokens, grown]
  obtain ⟨tokens, spelled, counted, closed, read⟩ := body f opened (by omega)
  refine ⟨_ :: tokens, _, spells ((f.add xs.length tokens).container.ended _) tokens closed rfl
    (Nat.zero_add _) spelled, ?_, .inr (lastOpen_growSuper p), ?_⟩
  · rw [List.length_cons, counted, count]
  · rw [run_open type opening (by omega) suffix]
    exact read

theorem reads_string {body : Bytes} (read : StringRest text body rest) (suffix : 34 :: text <:+ js) :
    (Phrase.value (.scalar body)).Reads numTokens js (34 :: text) rest := by
  intro p ready room
  have behind := read.text_eq
  have whole : body ++ 34 :: rest <:+ js := behind ▸ (List.suffix_cons 34 text).trans suffix
  have later : 34 :: rest <:+ text := behind ▸ List.suffix_append _ _
  refine ⟨[scalarToken js .string text (34 :: rest)], p.toksuper, ?_, rfl, .inl rfl, ?_⟩
  · apply Spells.scalar (scalarToken_closed later ((List.suffix_cons 34 text).trans suffix)) (.inl rfl) rfl
    rw [behind]
    exact slice_suffix whole
  · exact run_string read (by rw [Json.count] at room; omega) ready.super suffix

theorem reads_word {word : Bytes} (isWord : Word word) (ends : ∀ c ∈ rest.head?, endsPrimitive c)
    (suffix : word ++ rest <:+ js) :
    (Phrase.value (.scalar word)).Reads numTokens js (word ++ rest) rest := by
  intro p ready room
  refine ⟨[scalarToken js .primitive (word ++ rest) rest], p.toksuper, ?_, rfl, .inl rfl, ?_⟩
  · apply Spells.scalar (scalarToken_closed (List.suffix_append _ _) suffix) (.inr rfl) rfl
    exact slice_suffix suffix
  · exact run_word isWord ends (by rw [Json.count] at room; omega) ready.super suffix

/-- The next token is a name without children in the object, and the value behind it comes next. -/
def NamedBy (numTokens : Nat) (js text first : Bytes) (t : Token) : Prop :=
  ∀ f : Frame, f.Open js text .object → f.tokens.length < numTokens →
    run numTokens js text f.parser =
      run numTokens js first ⟨(f.add 1 []).tokens ++ [t], some f.tokens.length⟩

theorem run_colon_value {named bound first : Bytes} (blank : Blank named (58 :: bound))
    (space : Blank bound first) (suffix : named <:+ js) (tokens : List Token) (t : Token)
    (super : Option Nat) :
    run numTokens js named ⟨tokens ++ [t], super⟩ =
      run numTokens js first ⟨tokens ++ [t], some tokens.length⟩ := by
  have colon : 58 :: bound <:+ js := blank.suffix.trans suffix
  rw [run_blank blank suffix, run_colon colon, run_blank space ((List.suffix_cons 58 bound).trans colon)]
  simp [Parser.colon]

theorem growSuper_frame (f : Frame) : f.parser.growSuper.tokens = (f.add 1 []).tokens := by
  rw [← f.growSuper_state, List.append_nil]

theorem length_add_nil (f : Frame) : (f.add 1 []).tokens.length = f.tokens.length := by
  simp [Frame.add, Frame.tokens]

theorem named_string {name named bound first : Bytes} (key : StringRest text name named)
    (blank : Blank named (58 :: bound)) (space : Blank bound first) (suffix : 34 :: text <:+ js) :
    NamedBy numTokens js (34 :: text) first (scalarToken js .string text (34 :: named)) := by
  intro f opened room
  have behind := key.suffix.trans ((List.suffix_cons 34 text).trans suffix)
  rw [run_string key room opened.ready.super suffix, growSuper_frame,
    run_colon_value blank space behind, length_add_nil]

theorem named_word {name named bound first : Bytes} (isWord : Word name)
    (blank : Blank named (58 :: bound)) (space : Blank bound first) (suffix : name ++ named <:+ js) :
    NamedBy numTokens js (name ++ named) first (scalarToken js .primitive (name ++ named) named) := by
  intro f opened room
  have behind := (List.suffix_append name named).trans suffix
  rw [run_word isWord (blank.ends (by decide)) room opened.ready.super suffix, growSuper_frame,
    run_colon_value blank space behind, length_add_nil]

-- The name is an item of the object, and its value is the only child of the name.
theorem reads_member {t : Token} {name first : Bytes} {v : Json} (named : NamedBy numTokens js text first t)
    (closed : t.Closed js) (type : t.type = .string ∨ t.type = .primitive) (childless : t.size = 0)
    (same : t.text js = name) (value : (Phrase.value v).Reads numTokens js first rest) :
    (Phrase.item .object (.member (name, v))).Reads numTokens js text rest := by
  intro f opened room
  have room : f.tokens.length + (v.count + 1) ≤ numTokens := room
  have split : (f.add 1 []).tokens ++ [t] = (f.add 1 [t]).tokens := by simp [Frame.add, Frame.tokens]
  have size := length_add_nil f
  have grown : (f.add 1 [t]).Open js text .object := opened.add 1 (by simpa using closed)
  have ready : Parser.Ready ⟨(f.add 1 []).tokens ++ [t], some f.tokens.length⟩ := by
    refine ⟨split ▸ grown.ready.opened, ?_⟩
    simp [size]
  obtain ⟨tokens, super, spells, count, place, read⟩ := value _ ready (by simp [size]; omega)
  have child : Parser.growSuper ⟨(f.add 1 []).tokens ++ [t], some f.tokens.length⟩ =
      ⟨(f.add 1 []).tokens ++ [{ t with size := t.size + 1 }], some f.tokens.length⟩ := by
    have last := Frame.modify_tokens ⟨(f.add 1 []).tokens, t, []⟩ fun u => { u with size := u.size + 1 }
    rw [Frame.tokens] at last
    dsimp only at last
    rw [size] at last
    rw [Parser.growSuper]
    dsimp only
    rw [last]
  have together : (f.add 1 []).tokens ++ [{ t with size := t.size + 1 }] ++ tokens =
      (f.add 1 ({ t with size := t.size + 1 } :: tokens)).tokens := by
    simp [Frame.add, Frame.tokens]
  rw [child] at read
  refine ⟨{ t with size := t.size + 1 } :: tokens, super, ?_, ?_, ?_, ?_⟩
  · exact Spells.member closed type (by rw [childless]) same spells
  · rw [List.length_cons, count, Item.count]
  · rcases place with rfl | rfl
    · refine ⟨f.tokens.length, rfl, .inr ⟨{ t with size := t.size + 1 }, ?_, ?_⟩⟩
      · rw [← together, List.append_assoc, ← size, List.getElem?_append_right (Nat.le_refl _)]
        simp
      · rcases type with string | primitive
        · simp [Token.container, string]
        · simp [Token.container, primitive]
    · exact ⟨f.before.length, split ▸ grown.lastOpen, .inl rfl⟩
  · rw [named f opened (by omega), read, together]

theorem Derives.reads {phrase : Phrase} (derived : Derives phrase text rest)
    (suffix : text <:+ js) : phrase.Reads numTokens js text rest := by
  induction derived with
  | string read => exact reads_string read suffix
  | word isWord ends => exact reads_word isWord ends suffix
  | @array vs text rest body ih =>
    apply reads_container (.inr ⟨rfl, rfl⟩) (ih ((List.suffix_cons 91 text).trans suffix)) _ _ suffix
    · rw [Json.count, countItems_values]
    · intro t tokens closed type size spells
      exact spells.array closed type (by simpa using size)
  | @object ms text rest body ih =>
    apply reads_container (.inl ⟨rfl, rfl⟩) (ih ((List.suffix_cons 123 text).trans suffix)) _ _ suffix
    · rw [Json.count, countItems_members]
    · intro t tokens closed type size spells
      exact spells.object closed type (by simpa using size)
  | empty blank => exact fun f opened _ => reads_last opened _ blank suffix
  | full items ih => exact ih suffix
  | items blank item more ihItem ihMore =>
    intro f opened room
    have first := blank.suffix.trans suffix
    exact reads_items (ihItem first) (ihMore (item.suffix.trans first)) blank item.suffix opened room suffix
  | element value ih => exact reads_element (ih suffix)
  | member key blank space value ih =>
    have whole := (List.suffix_cons _ _).trans suffix
    have bound := (List.suffix_cons _ _).trans (blank.suffix.trans (key.suffix.trans whole))
    have behind := key.text_eq
    apply reads_member (named_string key blank space suffix) _ (.inl rfl) rfl _
      (ih (space.suffix.trans bound))
    · exact scalarToken_closed (behind ▸ List.suffix_append _ _) whole
    · rw [behind] at whole ⊢
      exact slice_suffix whole
  | bare isWord blank space value ih =>
    have bound := (List.suffix_cons _ _).trans (blank.suffix.trans ((List.suffix_append _ _).trans suffix))
    apply reads_member (named_word isWord blank space suffix) _ (.inr rfl) rfl (slice_suffix suffix)
      (ih (space.suffix.trans bound))
    exact scalarToken_closed (List.suffix_append _ _) suffix
  | last blank => exact fun f opened super _ _ => reads_last opened super blank suffix
  | comma blank items ih =>
    intro f opened super within room
    have behind := blank.suffix.trans suffix
    have later := opened.shorter ((List.suffix_cons _ _).trans blank.suffix)
    obtain ⟨tokens, spells, count, closed, read⟩ := ih ((List.suffix_cons _ _).trans behind) f later room
    refine ⟨tokens, spells, count, closed, ?_⟩
    rw [run_blank blank suffix, run_comma behind, opened.comma within]
    exact read

end Reading

/-- With as many slots as the value has tokens, or more, the tokens spell the value. -/
theorem IsText.tokens {js : Bytes} {v : Json} (text : IsText js v) {numTokens : Nat}
    (room : v.count ≤ numTokens) :
    (parse numTokens js).result = v.count ∧ Spells js (parse numTokens js).tokens [.value v] := by
  obtain ⟨first, rest, before, derived, behind⟩ := text
  have start : Parser.Ready initial := ⟨by simp [initial], by simp [initial]⟩
  obtain ⟨tokens, super, spells, count, -, read⟩ :=
    (derived.reads before.suffix) initial start (by simpa [initial] using room)
  have loop : parseLoop numTokens js.length js 0 initial = .ok ⟨tokens, super⟩ := by
    have whole : parseLoop numTokens js.length js 0 initial = run numTokens js js initial := by
      rw [run, Nat.sub_self]
    rw [whole, run_blank before (List.suffix_refl js), read,
      run_blank behind (derived.suffix.trans before.suffix)]
    rfl
  obtain ⟨result, same⟩ := parse_of_loop loop
  rw [result, same, count]
  exact ⟨rfl, spells⟩

-- A text has one value only.
theorem IsText.unique {js : Bytes} {v w : Json} (text : IsText js v) (other : IsText js w) : v = w := by
  have first := (text.tokens (Nat.le_max_left v.count w.count)).2.decode
  have second := (other.tokens (Nat.le_max_right v.count w.count)).2.decode
  exact Option.some.inj (first.symm.trans second)

theorem IsText.refused {js : Bytes} {v : Json} (text : IsText js v) {numTokens : Nat}
    (short : numTokens < v.count) : (parse numTokens js).result < 0 := by
  by_contra accepted
  obtain ⟨q, parsed⟩ := loop_of_parse (Int.not_lt.mp accepted)
  obtain ⟨whole, few⟩ := (parseLoop_capacity (Nat.le_of_lt short) (Nat.zero_le _)).mp parsed
  have result := (text.tokens (Nat.le_refl v.count)).1
  rw [(parse_of_loop whole).1] at result
  omega

/-- jsmn makes tokens that mean the value out of every text of it if there is a slot for each of them, and
gives an error if there is not. -/
theorem text_decodes (js : Bytes) (v : Json) (text : IsText js v) (numTokens : Nat) :
    (v.count ≤ numTokens → (parse numTokens js).result = v.count ∧
      decode js (parse numTokens js).tokens = some v) ∧
    (numTokens < v.count → (parse numTokens js).result < 0) := by
  refine ⟨fun room => ?_, text.refused⟩
  obtain ⟨result, spells⟩ := text.tokens room
  exact ⟨result, spells.decode⟩

def spacedText : Bytes := ascii "\x7b \"a\\n\" :[1 ,true] \x7d\n"

def spacedValue : Json := .object [(ascii "a\\n", .array [.scalar (ascii "1"), .scalar (ascii "true")])]

theorem isText_spaced : IsText spacedText spacedValue := by
  have word {text : Bytes} (nonempty : text ≠ [])
      (bytes : ∀ c ∈ text, 32 < c ∧ c < 127 ∧ c ∉ ascii "\x7b\x7d[]:,\"") : Word text :=
    ⟨nonempty, bytes⟩
  have one : Derives (.value (.scalar (ascii "1"))) (ascii "1 ,true] \x7d\n") (ascii " ,true] \x7d\n") :=
    .word (word (by decide) (by decide)) (by decide)
  have two : Derives (.value (.scalar (ascii "true"))) (ascii "true] \x7d\n") (ascii "] \x7d\n") :=
    .word (word (by decide) (by decide)) (by decide)
  have array : Derives (.value (.array [.scalar (ascii "1"), .scalar (ascii "true")]))
      (ascii "[1 ,true] \x7d\n") (ascii " \x7d\n") :=
    .array (.full (.items (.none _) (.element one) (.comma (.skip (by decide) (.none _))
      (.items (.none _) (.element two) (.last (.none _))))))
  have key : StringRest (ascii "a\\n\" :[1 ,true] \x7d\n") (ascii "a\\n") (ascii " :[1 ,true] \x7d\n") :=
    .char (by decide) (.escape (by decide) (.quote _))
  have object : Derives (.value spacedValue) spacedText (ascii "\n") :=
    .object (.full (.items (.skip (by decide) (.none _))
      (.member key (.skip (by decide) (.none _)) (.none _) array) (.last (.skip (by decide) (.none _)))))
  exact ⟨_, _, .none _, object, .skip (by decide) (.none _)⟩

theorem text_decodes_spaced : (parse 5 spacedText).result = 5 ∧
    decode spacedText (parse 5 spacedText).tokens = some spacedValue ∧ (parse 4 spacedText).result < 0 := by
  obtain ⟨result, decoded⟩ := (text_decodes spacedText spacedValue isText_spaced 5).1 (by decide)
  exact ⟨result, decoded, (text_decodes spacedText spacedValue isText_spaced 4).2 (by decide)⟩

end VirtueSensing.Jsmn
