import VirtueSensing.Driver.RecordLayout
import VirtueSensing.Shared.Integers

set_option autoImplicit false

/-!
# Images of records

The bytes that the driver leaves in a buffer when it assigns numbers and strings to the fields of a
record, and what user space reads from them. A `UUID` is one little-endian number, since its fields
follow each other without a gap.
-/

namespace VirtueSensing.Driver

open CLayout Integers

namespace Record

def declares (r : Record) (path : List FieldName) : Bool :=
  (r.driver.fields.find? fun f => f.path = path).isSome

def place (r : Record) (path : List FieldName) (declared : r.declares path) : CLayout.Field FieldName :=
  Option.get (r.driver.fields.find? fun f => f.path = path) declared

theorem find_place {r : Record} {path : List FieldName} (declared : r.declares path) :
    (r.driver.fields.find? fun f => f.path = path) = some (r.place path declared) :=
  (Option.some_get declared).symm

theorem place_mem {r : Record} {path : List FieldName} (declared : r.declares path) :
    r.place path declared ∈ r.driver.fields :=
  List.mem_of_find?_eq_some (find_place declared)

theorem path_place {r : Record} {path : List FieldName} (declared : r.declares path) :
    (r.place path declared).path = path := by
  have found := List.find?_some (find_place declared)
  exact of_decide_eq_true found

def put (r : Record) (path : List FieldName) (value : Nat)
    (declared : r.declares path := by decide +kernel) : Assignment r where
  field := r.place path declared
  declared := place_mem declared
  bytes := littleEndian (r.place path declared).size value
  sized := .inl (length_littleEndian _ _)

def fill (r : Record) (path : List FieldName) (bytes : Bytes)
    (declared : r.declares path := by decide +kernel) : Assignment r where
  field := r.place path declared
  declared := place_mem declared
  bytes := (bytes ++ zeroBytes (r.place path declared).size).take (r.place path declared).size
  sized := .inl (by simp [zeroBytes])

def move (r : Record) (array : FieldName) (bytes : Bytes)
    (declared : r.declares [array] := by decide +kernel)
    (trailing : r.Trailing [array] := by decide) : Assignment r where
  field := r.place [array] declared
  declared := place_mem declared
  bytes := bytes
  sized := .inr ((path_place declared).symm ▸ trailing)

@[simp] theorem path_put {r : Record} {path : List FieldName} {value : Nat}
    (declared : r.declares path) : (r.put path value declared).field.path = path :=
  path_place declared

@[simp] theorem path_fill {r : Record} {path : List FieldName} {bytes : Bytes}
    (declared : r.declares path) : (r.fill path bytes declared).field.path = path :=
  path_place declared

@[simp] theorem path_move {r : Record} {array : FieldName} {bytes : Bytes}
    (declared : r.declares [array]) (trailing : r.Trailing [array]) :
    (r.move array bytes declared trailing).field.path = [array] :=
  path_place declared

def image (r : Record) (buffer : Bytes) (writes : List (Assignment r)) : Bytes :=
  runWrites buffer (writes.map fun a => a.write 0)

end Record

variable {r : Record}

def Inside (writes : List (Assignment r)) (length : Nat) : Prop :=
  ∀ a ∈ writes, (a.write 0).Inside length

instance (writes : List (Assignment r)) (length : Nat) : Decidable (Inside writes length) :=
  inferInstanceAs (Decidable (∀ a ∈ writes, (a.write 0).Inside length))

def Apart (writes : List (Assignment r)) : Prop :=
  (writes.map fun a => a.field.path).Pairwise Unrelated

variable {writes : List (Assignment r)} {buffer : Bytes}

theorem length_image (inside : Inside writes buffer.length) :
    (r.image buffer writes).length = buffer.length :=
  length_runWrites (List.forall_mem_map.mpr inside)

theorem image_append (inside : Inside writes buffer.length) (tail : Bytes) :
    r.image (buffer ++ tail) writes = r.image buffer writes ++ tail :=
  runWrites_append (List.forall_mem_map.mpr inside) tail

/-- Where no field is assigned twice, user space reads each as it was assigned. -/
theorem read_image (apart : Apart writes) (inside : Inside writes buffer.length)
    {a : Assignment r} (member : a ∈ writes) {other : CLayout.Field FieldName}
    (known : other ∈ r.user.fields) (counterpart : other.path ∈ counterparts a.field.path) :
    r.read other a.bytes.length (r.image buffer writes) = a.bytes := by
  obtain ⟨before, after, rfl⟩ := List.append_of_mem member
  refine read_as_written r before a after buffer inside ?_ other known counterpart
  intro later last
  rw [Apart, List.map_append, List.map_cons, List.pairwise_append, List.pairwise_cons] at apart
  exact apart.2.1.1 _ (List.mem_map_of_mem last)

end VirtueSensing.Driver
