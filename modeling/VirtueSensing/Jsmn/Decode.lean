import VirtueSensing.Jsmn.Parser

set_option autoImplicit false

/-!
# What a token array means

The tokens stand in the order in which their values open, and `size` counts the children: an array
has `size` values, an object `size` members, and a member's name has its value as its only child.
Reading them from the last one to the first leaves the values of the array on a stack. Only the sizes
count here: whether each bracket was closed is in the tokens' ends.
-/

namespace VirtueSensing.Jsmn

inductive Json where
  | scalar (text : Bytes)
  | array (elements : List Json)
  | object (members : List (Bytes × Json))

inductive Item where
  | value (v : Json)
  | member (m : Bytes × Json)

def popValues : Nat → List Item → Option (List Json × List Item)
  | 0, stack => some ([], stack)
  | n + 1, .value v :: stack => (popValues n stack).map fun (vs, rest) => (v :: vs, rest)
  | _ + 1, _ => none

def popMembers : Nat → List Item → Option (List (Bytes × Json) × List Item)
  | 0, stack => some ([], stack)
  | n + 1, .member m :: stack => (popMembers n stack).map fun (ms, rest) => (m :: ms, rest)
  | _ + 1, _ => none

def pushScalar (text : Bytes) : Nat → List Item → Option (List Item)
  | 0, stack => some (.value (.scalar text) :: stack)
  | 1, .value v :: stack => some (.member (text, v) :: stack)
  | _, _ => none

def Token.push (t : Token) (js : Bytes) (stack : List Item) : Option (List Item) :=
  match t.type with
  | .string | .primitive => pushScalar (t.text js) t.size stack
  | .array => (popValues t.size stack).map fun (vs, rest) => .value (.array vs) :: rest
  | .object => (popMembers t.size stack).map fun (ms, rest) => .value (.object ms) :: rest
  | .undefined => none

def readStack (js : Bytes) : List Token → Option (List Item)
  | [] => some []
  | t :: rest => (readStack js rest).bind (t.push js)

/-- The one value that all the tokens together spell. -/
def decode (js : Bytes) (tokens : List Token) : Option Json :=
  match readStack js tokens with
  | some [.value v] => some v
  | _ => none

theorem decode_eq_some {js : Bytes} {tokens : List Token} {v : Json}
    (decoded : decode js tokens = some v) : readStack js tokens = some [.value v] := by
  unfold decode at decoded
  split at decoded
  · simp_all
  · simp at decoded

theorem popValues_eq_some {n : Nat} {stack rest : List Item} {vs : List Json}
    (popped : popValues n stack = some (vs, rest)) :
    stack = vs.map .value ++ rest := by
  induction n generalizing stack vs with
  | zero => simp_all [popValues]
  | succ n ih =>
    match stack with
    | [] | .member _ :: _ => simp [popValues] at popped
    | .value v :: stack =>
      simp only [popValues, Option.map_eq_some_iff, Prod.exists, Prod.mk.injEq] at popped
      obtain ⟨vs, rest, popped, rfl, rfl⟩ := popped
      rw [ih popped]
      rfl

theorem popMembers_eq_some {n : Nat} {stack rest : List Item} {ms : List (Bytes × Json)}
    (popped : popMembers n stack = some (ms, rest)) :
    stack = ms.map .member ++ rest := by
  induction n generalizing stack ms with
  | zero => simp_all [popMembers]
  | succ n ih =>
    match stack with
    | [] | .value _ :: _ => simp [popMembers] at popped
    | .member m :: stack =>
      simp only [popMembers, Option.map_eq_some_iff, Prod.exists, Prod.mk.injEq] at popped
      obtain ⟨ms, rest, popped, rfl, rfl⟩ := popped
      rw [ih popped]
      rfl

def Pushed (js : Bytes) (t : Token) (below rest : List Item) : Item → Prop
  | .value (.scalar text) => t.text js = text ∧ below = rest
  | .value (.array vs) => t.type = .array ∧ below = vs.map .value ++ rest
  | .value (.object ms) => t.type = .object ∧ below = ms.map .member ++ rest
  | .member (name, v) => t.text js = name ∧ below = .value v :: rest

theorem pushScalar_pushed {js : Bytes} {t : Token} {below rest : List Item} {top : Item}
    (pushed : pushScalar (t.text js) t.size below = some (top :: rest)) :
    Pushed js t below rest top := by
  unfold pushScalar at pushed
  split at pushed
  · obtain ⟨rfl, rfl⟩ := List.cons.inj (Option.some.inj pushed)
    exact ⟨rfl, rfl⟩
  · obtain ⟨rfl, rfl⟩ := List.cons.inj (Option.some.inj pushed)
    exact ⟨rfl, rfl⟩
  · simp at pushed

theorem Token.push_pushed {js : Bytes} {t : Token} {below rest : List Item} {top : Item}
    (pushed : t.push js below = some (top :: rest)) : Pushed js t below rest top := by
  unfold Token.push at pushed
  split at pushed
  · exact pushScalar_pushed pushed
  · exact pushScalar_pushed pushed
  · simp only [Option.map_eq_some_iff, Prod.exists, List.cons.injEq] at pushed
    obtain ⟨vs, rest, popped, rfl, rfl⟩ := pushed
    exact ⟨by assumption, popValues_eq_some popped⟩
  · simp only [Option.map_eq_some_iff, Prod.exists, List.cons.injEq] at pushed
    obtain ⟨ms, rest, popped, rfl, rfl⟩ := pushed
    exact ⟨by assumption, popMembers_eq_some popped⟩
  · simp at pushed

theorem readStack_cons {js : Bytes} {tokens : List Token} {top : Item} {rest : List Item}
    (read : readStack js tokens = some (top :: rest)) :
    ∃ t behind below, tokens = t :: behind ∧ readStack js behind = some below ∧
      Pushed js t below rest top := by
  cases tokens with
  | nil => simp [readStack] at read
  | cons t behind =>
    obtain ⟨below, read, pushed⟩ := Option.bind_eq_some_iff.mp read
    exact ⟨t, behind, below, rfl, read, t.push_pushed pushed⟩

end VirtueSensing.Jsmn
