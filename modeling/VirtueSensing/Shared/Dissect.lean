import Mathlib.Algebra.Order.Group.Nat
import Mathlib.Tactic.Common
import VirtueSensing.Shared.Bytes

set_option autoImplicit false

/-!
# Packets read by lists of fields

A packet class lists its fields, and each field takes its bytes from the front of what is left. When
nothing is left, the fields that are still to come keep their defaults.
-/

namespace VirtueSensing

inductive StructError where
  | short
  deriving DecidableEq, Repr

def Dissector (α : Type) : Type := Bytes → Except StructError (α × Bytes)

namespace Dissect

variable {α β : Type}

instance : Monad Dissector where
  pure a s := .ok (a, s)
  bind d f s :=
    match d s with
    | .error e => .error e
    | .ok (a, rest) => f a rest

@[simp] theorem pure_apply (a : α) (s : Bytes) : (pure a : Dissector α) s = .ok (a, s) := rfl

theorem bind_apply (d : Dissector α) (f : α → Dissector β) (s : Bytes) :
    (d >>= f) s =
      match d s with
      | .error e => .error e
      | .ok (a, rest) => f a rest := rfl

theorem bind_run {d : Dissector α} {s rest : Bytes} {a : α} (here : d s = .ok (a, rest))
    (f : α → Dissector β) : (d >>= f) s = f a rest := by
  rw [bind_apply, here]

theorem map_apply (f : α → β) (d : Dissector α) (s : Bytes) :
    (f <$> d) s =
      match d s with
      | .error e => .error e
      | .ok (a, rest) => .ok (f a, rest) := rfl

theorem bind_eq_ok {d : Dissector α} {f : α → Dissector β} {s rest : Bytes} {b : β} :
    (d >>= f) s = .ok (b, rest) ↔ ∃ a t, d s = .ok (a, t) ∧ f a t = .ok (b, rest) := by
  rw [bind_apply]
  cases d s with
  | error e => simp
  | ok found =>
    obtain ⟨a, t⟩ := found
    simp

def bigEndian : Nat → Nat → Bytes
  | 0, _ => []
  | width + 1, n => (n / 256 ^ width).toUInt8 :: bigEndian width (n % 256 ^ width)

def unsigned : Bytes → Nat
  | [] => 0
  | b :: rest => b.toNat * 256 ^ rest.length + unsigned rest

@[simp] theorem length_bigEndian (width n : Nat) : (bigEndian width n).length = width := by
  induction width generalizing n with
  | zero => rfl
  | succ width ih => rw [bigEndian, List.length_cons, ih]

theorem unsigned_bigEndian {width n : Nat} (fits : n < 256 ^ width) :
    unsigned (bigEndian width n) = n := by
  induction width generalizing n with
  | zero => rw [Nat.lt_one_iff.mp fits]; rfl
  | succ width ih =>
    have positive : 0 < 256 ^ width := Nat.pow_pos (by decide)
    have leading : n / 256 ^ width < 256 :=
      Nat.div_lt_of_lt_mul (by rwa [Nat.pow_succ] at fits)
    have byte : (n / 256 ^ width).toUInt8.toNat = n / 256 ^ width := by
      rw [Nat.toUInt8_eq, UInt8.toNat_ofNat', Nat.mod_eq_of_lt leading]
    rw [bigEndian, unsigned, length_bigEndian, ih (Nat.mod_lt n positive), byte, Nat.mul_comm]
    exact Nat.div_add_mod n _

def integer (width : Nat) : Dissector Nat := fun s =>
  if s.length < width then .error .short else .ok (unsigned (s.take width), s.drop width)

-- A string takes what is there, if it is shorter than its length says.
def string (length : Nat) : Dissector Bytes := fun s => .ok (s.take length, s.drop length)

def field (default : α) (d : Dissector α) : Dissector α := fun s =>
  if s = [] then .ok (default, []) else d s

/-- A packet, or bytes that its class could not read. -/
inductive Item (α : Type) where
  | packet (packet : α)
  | raw (load : Bytes)
  deriving DecidableEq, Repr

/-- A field that holds a packet, whose class leaves the bytes behind its own fields. -/
def packetField (d : Dissector α) : Dissector (Option α) := field none (some <$> d)

/-- A field that holds a packet in a number of bytes of its own. What the class leaves of them is
dropped, and they stay as they are when it could not read them. -/
def packetLenField (length : Nat) (d : Dissector α) : Dissector (Item α) := fun s =>
  match d (s.take length) with
  | .error _ => .ok (.raw (s.take length), s.drop length)
  | .ok (a, _) => .ok (.packet a, s.drop length)

def conditional (present : Bool) (d : Dissector (Option α)) : Dissector (Option α) :=
  if present then d else pure none

/-- What is left of a packet field fills it up to an alignment. -/
def padField (align : Nat) (d : Dissector α) : Dissector α := fun s =>
  match d s with
  | .error e => .error e
  | .ok (a, remain) =>
    .ok (a, remain.drop ((align - (s.length - remain.length) % align) % align))

/-- The bytes behind the fields of a packet, as a packet of another class with what it left of them,
or as they are when that class could not read them. -/
inductive Payload (α : Type) where
  | none
  | layer (packet : α) (left : Bytes)
  | raw (load : Bytes)
  deriving DecidableEq, Repr

def payload (d : Dissector α) : Dissector (Payload α) := fun s =>
  if s = [] then .ok (.none, [])
  else
    match d s with
    | .error _ => .ok (.raw s, [])
    | .ok (a, left) => .ok (.layer a left, [])

def remaining : Dissector Bytes := fun s => .ok (s, [])

/-- A list of so many values, or of as many as there are bytes for. -/
def fieldList (d : Dissector α) : Nat → Dissector (List α)
  | 0 => pure []
  | count + 1 =>
    field [] do
      let a ← d
      let later ← fieldList d count
      return a :: later

/-- A list of packets that goes on with what a packet left while another one follows. A packet that
leaves nothing is the last one. -/
def packets (d : Dissector α) (follows : α → Bool) : Nat → Bytes → List (Item α) × Bytes
  | 0, s => ([], s)
  | fuel + 1, s =>
    if s = [] then ([], [])
    else
      match d s with
      | .error _ => ([.raw s], [])
      | .ok (a, left) =>
        if left = [] then ([.packet a], [])
        else if follows a then
          let (later, rest) := packets d follows fuel left
          (.packet a :: later, rest)
        else ([.packet a], left)

def packetList (d : Dissector α) (follows : α → Bool) : Dissector (List (Item α)) := fun s =>
  .ok (packets d follows s.length s)

@[simp] theorem field_nil (default : α) (d : Dissector α) : field default d [] = .ok (default, []) :=
  rfl

theorem field_of_ne_nil (default : α) (d : Dissector α) {s : Bytes} (more : s ≠ []) :
    field default d s = d s := if_neg more

@[simp] theorem field_absent (d : Dissector (Option α)) (s : Bytes) :
    field none (conditional false d) s = .ok (none, s) := by
  by_cases nothing : s = []
  · rw [nothing]
    rfl
  · exact field_of_ne_nil none _ nothing

theorem integer_run {width : Nat} {s : Bytes} (enough : width ≤ s.length) :
    integer width s = .ok (unsigned (s.take width), s.drop width) :=
  if_neg (Nat.not_lt.mpr enough)

theorem field_string (length : Nat) (s : Bytes) :
    field [] (string length) s = .ok (s.take length, s.drop length) := by
  by_cases nothing : s = []
  · simp [nothing]
  · exact field_of_ne_nil [] _ nothing

@[simp] theorem bigEndian_ne_nil {width n : Nat} : bigEndian (width + 1) n ≠ [] :=
  List.cons_ne_nil _ _

@[simp] theorem integer_bigEndian {width n : Nat} (fits : n < 256 ^ width) (rest : Bytes) :
    integer width (bigEndian width n ++ rest) = .ok (n, rest) := by
  have enough : ¬ (bigEndian width n ++ rest).length < width := by simp
  rw [integer, if_neg enough, List.take_left' (length_bigEndian width n),
    List.drop_left' (length_bigEndian width n), unsigned_bigEndian fits]

@[simp] theorem string_append {bytes : Bytes} {length : Nat} (whole : bytes.length = length)
    (rest : Bytes) : string length (bytes ++ rest) = .ok (bytes, rest) := by
  rw [string, List.take_left' whole, List.drop_left' whole]

@[simp] theorem field_string_append {bytes : Bytes} {length : Nat} (whole : bytes.length = length)
    (rest : Bytes) : field [] (string length) (bytes ++ rest) = .ok (bytes, rest) := by
  rw [field_string, List.take_left' whole, List.drop_left' whole]

theorem packetField_eq_none {d : Dissector α} {s rest : Bytes}
    (nothing : packetField d s = .ok (none, rest)) : s = [] := by
  by_contra more
  rw [packetField, field_of_ne_nil none _ more, map_apply] at nothing
  split at nothing <;> simp at nothing

theorem packetField_run {d : Dissector α} {s rest : Bytes} {a : α} (more : s ≠ [])
    (read : d s = .ok (a, rest)) : packetField d s = .ok (some a, rest) := by
  rw [packetField, field_of_ne_nil none _ more]
  exact bind_run read _

theorem packetField_eq_some {d : Dissector α} {s rest : Bytes} {a : α}
    (found : packetField d s = .ok (some a, rest)) : d s = .ok (a, rest) := by
  by_cases nothing : s = []
  · rw [nothing] at found
    cases found
  · rw [packetField, field_of_ne_nil none _ nothing] at found
    obtain ⟨b, t, here, given⟩ := bind_eq_ok.mp found
    obtain ⟨same, rfl⟩ := Prod.mk.inj (Except.ok.inj given)
    rw [here, Option.some.inj same]

theorem packetLenField_append {bytes : Bytes} {length : Nat} (whole : bytes.length = length)
    (d : Dissector α) (rest : Bytes) :
    ∃ item, packetLenField length d (bytes ++ rest) = .ok (item, rest) := by
  rw [packetLenField, List.take_left' whole, List.drop_left' whole]
  cases d bytes with
  | error e => exact ⟨_, rfl⟩
  | ok found => exact ⟨_, rfl⟩

theorem payload_layer {d : Dissector α} {s left : Bytes} {a : α} (more : s ≠ [])
    (read : d s = .ok (a, left)) : payload d s = .ok (.layer a left, []) := by
  rw [payload, if_neg more, read]

theorem packets_last {d : Dissector α} {follows : α → Bool} {s left : Bytes} {a : α}
    (more : s ≠ []) (read : d s = .ok (a, left)) (behind : left ≠ []) (last : follows a = false)
    (fuel : Nat) : packets d follows (fuel + 1) s = ([.packet a], left) := by
  simp [packets, more, read, behind, last]

theorem packets_next {d : Dissector α} {follows : α → Bool} {s left : Bytes} {a : α}
    (more : s ≠ []) (read : d s = .ok (a, left)) (behind : left ≠ []) (next : follows a = true)
    (fuel : Nat) : packets d follows (fuel + 1) s =
      (.packet a :: (packets d follows fuel left).1, (packets d follows fuel left).2) := by
  simp [packets, more, read, behind, next]

theorem packets_swallowed {d : Dissector α} {follows : α → Bool} {s : Bytes} {a : α}
    (more : s ≠ []) (read : d s = .ok (a, [])) (fuel : Nat) :
    packets d follows (fuel + 1) s = ([.packet a], []) := by
  simp [packets, more, read]

/-- From bytes a dissector reads a value, whatever follows them, and leaves some of them. -/
structure Leaves (d : Dissector α) (bytes : Bytes) (a : α) (left : Bytes) : Prop where
  more : bytes ≠ []
  runs : ∀ rest, d (bytes ++ rest) = .ok (a, left ++ rest)

def Reads (d : Dissector α) (bytes : Bytes) (a : α) : Prop := Leaves d bytes a []

namespace Leaves

variable {d : Dissector α} {bytes left : Bytes} {a : α}

theorem field (here : Leaves d bytes a left) (default : α) :
    Leaves (field default d) bytes a left := by
  refine ⟨here.more, fun rest => ?_⟩
  rw [field_of_ne_nil default d (by simp [here.more]), here.runs]

theorem map (here : Leaves d bytes a left) (f : α → β) : Leaves (f <$> d) bytes (f a) left :=
  ⟨here.more, fun rest => by rw [map_apply, here.runs]⟩

theorem packetField (here : Leaves d bytes a left) :
    Leaves (packetField d) bytes (some a) left :=
  (here.map some).field none

theorem last (here : Leaves d bytes a left) {f : α → β} :
    Leaves (d >>= fun a => pure (f a)) bytes (f a) left :=
  here.map f

theorem reads (here : Leaves d bytes a left) (nothing : left = []) : Reads d bytes a := by
  subst nothing
  exact here

theorem eq_nil_iff (here : Leaves d bytes a left) (rest : Bytes) :
    d (bytes ++ rest) = .ok (a, rest) ↔ left = [] := by
  rw [here.runs]
  simp

end Leaves

namespace Reads

variable {d : Dissector α} {bytes : Bytes} {a : α}

theorem runs (here : Reads d bytes a) (rest : Bytes) : d (bytes ++ rest) = .ok (a, rest) :=
  Leaves.runs here rest

theorem whole (here : Reads d bytes a) : d bytes = .ok (a, []) := by
  have alone := here.runs []
  rwa [List.append_nil] at alone

theorem field (here : Reads d bytes a) (default : α) : Reads (field default d) bytes a :=
  Leaves.field here default

theorem packetField (here : Reads d bytes a) : Reads (packetField d) bytes (some a) :=
  Leaves.packetField here

theorem last (here : Reads d bytes a) {f : α → β} :
    Reads (d >>= fun a => pure (f a)) bytes (f a) :=
  Leaves.last here

theorem bind {f : α → Dissector β} {later left : Bytes} {b : β} (here : Reads d bytes a)
    (next : Leaves (f a) later b left) : Leaves (d >>= f) (bytes ++ later) b left := by
  refine ⟨by simp [Leaves.more here], fun rest => ?_⟩
  rw [List.append_assoc, bind_run (here.runs _)]
  exact next.runs rest

end Reads

theorem reads_integer {width n : Nat} (fits : n < 256 ^ (width + 1)) :
    Reads (integer (width + 1)) (bigEndian (width + 1) n) n :=
  ⟨bigEndian_ne_nil, integer_bigEndian fits⟩

def AtMost (d : Dissector α) (n : Nat) : Prop :=
  ∀ s a rest, d s = .ok (a, rest) → s.length ≤ rest.length + n

namespace AtMost

variable {d : Dissector α} {m n : Nat}

theorem pure (a : α) : AtMost (pure a) 0 := by
  intro s b rest read
  cases read
  exact Nat.le_refl _

theorem bind {f : α → Dissector β} (here : AtMost d m) (next : ∀ a, AtMost (f a) n) :
    AtMost (d >>= f) (m + n) := by
  intro s b rest read
  obtain ⟨a, t, first, second⟩ := bind_eq_ok.mp read
  have taken := here s a t first
  have later := next a t b rest second
  omega

theorem map {f : α → β} (here : AtMost d n) : AtMost (f <$> d) n :=
  here.bind fun a => AtMost.pure (f a)

theorem field (here : AtMost d n) (default : α) : AtMost (field default d) n := by
  intro s a rest read
  by_cases nothing : s = []
  · rw [nothing]
    exact Nat.zero_le _
  · rw [field_of_ne_nil default d nothing] at read
    exact here s a rest read

theorem packetField (here : AtMost d n) : AtMost (packetField d) n :=
  here.map.field none

theorem conditional {d : Dissector (Option α)} (here : AtMost d n) (present : Bool) :
    AtMost (conditional present d) n := by
  cases present with
  | true => exact here
  | false =>
    intro s a rest read
    cases read
    exact Nat.le_add_right _ _

theorem integer (width : Nat) : AtMost (integer width) width := by
  intro s a rest read
  rw [Dissect.integer] at read
  split at read
  · cases read
  · obtain ⟨-, rfl⟩ := Prod.mk.inj (Except.ok.inj read)
    rw [List.length_drop]
    omega

theorem string (length : Nat) : AtMost (string length) length := by
  intro s a rest read
  obtain ⟨rfl, rfl⟩ := Prod.mk.inj (Except.ok.inj read)
  rw [List.length_drop]
  omega

end AtMost

end Dissect

end VirtueSensing
