import VirtueSensing.Kernel.LockDiscipline
import VirtueSensing.Kernel.UuidText

set_option autoImplicit false

/-!
# Lookup of a sensor

`get_sensor` of `controller-common.c` with the lock that it takes. A search tries the lock of the
sensor that it has found only once, and a lock that is taken starts the search again.
-/

namespace VirtueSensing.Kernel

/-- What a search returns, `*sensor`, and the locks of the thread. The lock of a sensor goes by the
position of the sensor. -/
structure Lookup where
  ccode : Int
  sensor : Option Nat
  locks : Locks Nat

namespace Lookup

def refused (ccode : Int) (l : Locks Nat) : Lookup := ⟨ccode, none, l⟩

def locked (i : Nat) (l : Locks Nat) : Lookup := ⟨0, some i, l.spinLock i⟩

def rcuReadUnlock (found : Lookup) : Lookup := { found with locks := found.locks.rcuReadUnlock }

-- With nobody else at the locks.
def settled (l : Locks Nat) : Except Int Nat → Lookup
  | .ok i => locked i l
  | .error ccode => refused ccode l

end Lookup

def strnlen (buffer : Bytes) (maxlen : Nat) : Nat := min buffer.cString.length maxlen

-- `strncmp` finds no difference.
def strncmpSame (a b : Bytes) (n : Nat) : Bool := a.cString.take n = b.cString.take n

def spinTrylock (free : Nat → Bool) (i : Nat) (l : Locks Nat) : Lookup :=
  if free i then .locked i l else .refused eagain l

-- The loop of both searches.
def searchSensors (free : Nat → Bool) (same : Sensor → Bool) :
    List Sensor → Nat → Locks Nat → Lookup
  | [], _, l => .refused enfile l
  | s :: rest, i, l =>
    if same s then spinTrylock free i l else searchSensors free same rest (i + 1) l

def getSensorUuidLocked (free : Nat → Bool) (uuid : Bytes) (sensors : List Sensor)
    (l : Locks Nat) : Lookup :=
  match uuidParse uuid.cString with
  | none => .refused einval l
  | some input =>
    (searchSensors free (fun s => s.uuid = input) sensors 0 l.rcuReadLock).rcuReadUnlock

def getSensorNameLocked (free : Nat → Bool) (sensorName : Bytes) (sensors : List Sensor)
    (l : Locks Nat) : Lookup :=
  let nameLen := strnlen sensorName maxNameSize
  if nameLen = maxNameSize then .refused einval l
  else
    (searchSensors free
      (fun s => s.name.cString.length = nameLen ∧ strncmpSame s.name sensorName nameLen)
      sensors 0 l.rcuReadLock).rcuReadUnlock

-- The jumps back to `uuid_search` and to `name_search`. `now` counts the turns of both.
def searchAgain (search : Nat → Locks Nat → Lookup) : Nat → Nat → Locks Nat → Option (Nat × Lookup)
  | 0, _, _ => none
  | fuel + 1, now, l =>
    let found := search now l
    if found.ccode = eagain then searchAgain search fuel (now + 1) found.locks
    else some (now + 1, found)

/-- `get_sensor`; `free now i` says whether no other thread has the lock of sensor `i` in turn
`now`. -/
def getSensorLocked (free : Nat → Nat → Bool) (fuel : Nat) (key : Bytes) (sensors : List Sensor)
    (l : Locks Nat) : Option Lookup :=
  let nameSearch (now : Nat) (l : Locks Nat) : Option Lookup :=
    (searchAgain (fun now => getSensorNameLocked (free now) key sensors) fuel now l).map Prod.snd
  if strnlen key maxNameSize = uuidStringLen ∧ uuidIsValid key.cString ∧
      (uuidParse key.cString).isSome then
    match searchAgain (fun now => getSensorUuidLocked (free now) key sensors) fuel 0 l with
    | none => none
    | some (now, found) => if found.ccode = 0 then some found else nameSearch now found.locks
  else nameSearch 0 l

def nameFound (key : Bytes) (sensors : List Sensor) : Except Int Nat :=
  if maxNameSize ≤ key.length then .error einval
  else (sensors.findIdx? fun s => s.name.cString = key).elim (.error enfile) .ok

def sensorFound (key : Bytes) (sensors : List Sensor) : Except Int Nat :=
  if key.length = uuidStringLen ∧ uuidIsValid key ∧ (uuidParse key).isSome then
    match getSensorUuid key sensors with
    | .ok i => .ok i
    | .error _ => nameFound key sensors
  else nameFound key sensors

theorem sensorFound_eq {sensors : List Sensor} (text : ∀ s ∈ sensors, 0 ∉ s.name) (buffer : Bytes) :
    sensorFound buffer.cString sensors = getSensor buffer sensors := by
  have names : nameFound buffer.cString sensors = getSensorName buffer.cString sensors := by
    have same : sensors.findIdx? (fun s => decide (s.name.cString = buffer.cString)) =
        sensors.findIdx? (fun s => decide (s.name = buffer.cString)) := by
      apply Lists.findIdx?_congr
      intro s member
      rw [s.name.cString_eq_self (text s member)]
    rw [nameFound, getSensorName, same]
  unfold sensorFound getSensor
  refine if_congr Iff.rfl ?_ names
  cases getSensorUuid buffer.cString sensors with
  | ok i => rfl
  | error e => exact names

section Search

variable (free : Nat → Bool) (sensors : List Sensor) (l : Locks Nat)

theorem spinTrylock_rcuReadUnlock (i : Nat) :
    (spinTrylock free i l.rcuReadLock).rcuReadUnlock = spinTrylock free i l := by
  unfold spinTrylock
  split
  · simp [Lookup.locked, Lookup.rcuReadUnlock, Locks.spinLock, Locks.rcuReadLock,
      Locks.rcuReadUnlock]
  · simp [Lookup.refused, Lookup.rcuReadUnlock]

/-- One turn of a search that would end with this result if nobody held a lock. -/
def turn : Except Int Nat → Lookup
  | .ok i => spinTrylock free i l
  | .error ccode => .refused ccode l

theorem searchSensors_eq (same : Sensor → Bool) (i : Nat) :
    searchSensors free same sensors i l =
      turn free l ((sensors.findIdx? same).elim (.error enfile) fun j => .ok (i + j)) := by
  induction sensors generalizing i with
  | nil => rfl
  | cons s rest ih =>
    rw [searchSensors, List.findIdx?_cons]
    cases same s with
    | true => rfl
    | false =>
      simp only [Bool.false_eq_true, if_false, ih]
      cases rest.findIdx? same with
      | none => rfl
      | some j =>
        simp only [Option.map_some, Option.elim_some]
        rw [Nat.add_right_comm, Nat.add_assoc]

theorem searchSensors_turn (same : Sensor → Bool) :
    (searchSensors free same sensors 0 l.rcuReadLock).rcuReadUnlock =
      turn free l ((sensors.findIdx? same).elim (.error enfile) .ok) := by
  rw [searchSensors_eq]
  cases sensors.findIdx? same with
  | none => simp [turn, Lookup.refused, Lookup.rcuReadUnlock]
  | some j =>
    simp only [Option.elim_some, Nat.zero_add, turn]
    exact spinTrylock_rcuReadUnlock free l j

theorem getSensorUuidLocked_eq (key : Bytes) :
    getSensorUuidLocked free key sensors l = turn free l (getSensorUuid key.cString sensors) := by
  unfold getSensorUuidLocked getSensorUuid
  cases uuidParse key.cString with
  | none => rfl
  | some input => exact searchSensors_turn free sensors l _

theorem getSensorNameLocked_eq (key : Bytes) :
    getSensorNameLocked free key sensors l = turn free l (nameFound key.cString sensors) := by
  unfold getSensorNameLocked nameFound strnlen
  by_cases long : maxNameSize ≤ key.cString.length
  · rw [if_pos (Nat.min_eq_right long), if_pos long]
    rfl
  · have short : min key.cString.length maxNameSize = key.cString.length :=
      Nat.min_eq_left (Nat.le_of_not_le long)
    have whole : (fun s : Sensor => decide (s.name.cString.length = key.cString.length ∧
        strncmpSame s.name key key.cString.length)) = fun s => decide (s.name.cString = key.cString) := by
      funext s
      rw [decide_eq_decide, strncmpSame, decide_eq_true_eq]
      constructor
      · rintro ⟨sized, same⟩
        rwa [List.take_of_length_le (Nat.le_of_eq sized), List.take_length] at same
      · intro same
        rw [same]
        exact ⟨rfl, rfl⟩
    simp only [short]
    rw [if_neg (by omega), if_neg long, whole]
    exact searchSensors_turn free sensors l _

end Search

theorem elim_refuses {position : Option Nat} {ccode : Int}
    (found : position.elim (.error enfile) .ok = (.error ccode : Except Int Nat)) :
    ccode = enfile := by
  cases position with
  | none => exact (Except.error.inj found).symm
  | some i => cases found

theorem getSensorUuid_refuses {key : Bytes} {sensors : List Sensor} {ccode : Int}
    (found : getSensorUuid key sensors = .error ccode) : ccode = einval ∨ ccode = enfile := by
  unfold getSensorUuid at found
  split at found
  · exact .inl (Except.error.inj found).symm
  · exact .inr (elim_refuses found)

theorem nameFound_refuses {key : Bytes} {sensors : List Sensor} {ccode : Int}
    (found : nameFound key sensors = .error ccode) : ccode = einval ∨ ccode = enfile := by
  unfold nameFound at found
  split at found
  · exact .inl (Except.error.inj found).symm
  · exact .inr (elim_refuses found)

section Turns

variable {search : Nat → Locks Nat → Lookup} {now : Nat} {l : Locks Nat} {found : Except Int Nat}

theorem turn_cases (free : Nat → Bool) (l : Locks Nat) (found : Except Int Nat) :
    turn free l found = .refused eagain l ∨ turn free l found = .settled l found := by
  cases found with
  | error ccode => exact .inr rfl
  | ok i =>
    show spinTrylock free i l = _ ∨ spinTrylock free i l = .locked i l
    unfold spinTrylock
    split
    · exact .inr rfl
    · exact .inl rfl

theorem settled_ccode (refuses : ∀ ccode, found = .error ccode → ccode = einval ∨ ccode = enfile)
    (l : Locks Nat) : (Lookup.settled l found).ccode ≠ eagain := by
  cases found with
  | ok i => exact (by decide : (0 : Int) ≠ eagain)
  | error ccode =>
    rcases refuses ccode rfl with rfl | rfl
    · exact (by decide : einval ≠ eagain)
    · exact (by decide : enfile ≠ eagain)

theorem searchAgain_again (taken : search now l = .refused eagain l) (fuel : Nat) :
    searchAgain search (fuel + 1) now l = searchAgain search fuel (now + 1) l := by
  rw [searchAgain, taken]
  rfl

theorem searchAgain_done (ends : (search now l).ccode ≠ eagain) (fuel : Nat) :
    searchAgain search (fuel + 1) now l = some (now + 1, search now l) := by
  rw [searchAgain]
  exact if_neg ends

variable {free : Nat → Nat → Bool}

theorem searchAgain_settles
    (refuses : ∀ ccode, found = .error ccode → ccode = einval ∨ ccode = enfile)
    (turns : ∀ now, search now l = turn (free now) l found)
    (frees : ∀ i now, ∃ later, now ≤ later ∧ free later i) (now : Nat) :
    ∃ enough after, ∀ fuel, enough ≤ fuel →
      searchAgain search fuel now l = some (after, .settled l found) := by
  obtain ⟨wait, stops⟩ : ∃ wait, search (now + wait) l = .settled l found := by
    cases found with
    | error ccode => exact ⟨0, turns now⟩
    | ok i =>
      obtain ⟨later, behind, unlocked⟩ := frees i now
      refine ⟨later - now, ?_⟩
      rw [Nat.add_sub_cancel' behind, turns]
      exact if_pos unlocked
  have done {now : Nat} (settled : search now l = .settled l found) :
      ∃ enough after, ∀ fuel, enough ≤ fuel →
        searchAgain search fuel now l = some (after, .settled l found) := by
    refine ⟨1, now + 1, fun fuel more => ?_⟩
    obtain ⟨fuel, rfl⟩ := Nat.exists_eq_add_of_le' more
    rw [← settled]
    exact searchAgain_done (settled ▸ settled_ccode refuses l) fuel
  induction wait generalizing now with
  | zero => exact done stops
  | succ wait ih =>
    rcases turn_cases (free now) l found with taken | settled
    · rw [← Nat.add_assoc, Nat.add_right_comm] at stops
      obtain ⟨enough, after, settles⟩ := ih (now + 1) stops
      refine ⟨enough + 1, after, fun fuel more => ?_⟩
      obtain ⟨fuel, rfl⟩ := Nat.exists_eq_add_of_le' more
      rw [← Nat.add_assoc, searchAgain_again ((turns now).trans taken)]
      exact settles (fuel + enough) (Nat.le_add_left _ _)
    · exact done ((turns now).trans settled)

theorem strnlen_eq_uuid (key : Bytes) :
    strnlen key maxNameSize = uuidStringLen ↔ key.cString.length = uuidStringLen := by
  unfold strnlen maxNameSize uuidStringLen
  omega

/-- With its turns behind it, the lookup has found what there is to find, and has locked that. -/
theorem getSensorLocked_settles (frees : ∀ i now, ∃ later, now ≤ later ∧ free later i)
    (key : Bytes) (sensors : List Sensor) (l : Locks Nat) :
    ∃ enough, ∀ fuel, enough ≤ fuel →
      getSensorLocked free fuel key sensors l =
        some (.settled l (sensorFound key.cString sensors)) := by
  have nameSearch (now : Nat) := searchAgain_settles (fun _ => nameFound_refuses)
    (fun now => getSensorNameLocked_eq (free now) sensors l key) frees now
  unfold getSensorLocked sensorFound
  simp only [strnlen_eq_uuid]
  by_cases uuid : key.cString.length = uuidStringLen ∧ uuidIsValid key.cString ∧
      (uuidParse key.cString).isSome
  · obtain ⟨enough, after, settles⟩ := searchAgain_settles (fun _ => getSensorUuid_refuses)
      (fun now => getSensorUuidLocked_eq (free now) sensors l key) frees 0
    obtain ⟨more, afterName, names⟩ := nameSearch after
    refine ⟨max enough more, fun fuel most => ?_⟩
    have first := settles fuel (Nat.le_trans (Nat.le_max_left _ _) most)
    have second := names fuel (Nat.le_trans (Nat.le_max_right _ _) most)
    simp only [if_pos uuid, first]
    cases found : getSensorUuid key.cString sensors with
    | ok i => rfl
    | error ccode =>
      have failed : ccode ≠ 0 := by
        rcases getSensorUuid_refuses found with rfl | rfl
        · decide
        · decide
      have refused : ¬ (Lookup.settled l (.error ccode)).ccode = 0 := failed
      have locks : (Lookup.settled l (.error ccode)).locks = l := rfl
      rw [if_neg refused, locks, second, Option.map_some]
  · obtain ⟨enough, after, settles⟩ := nameSearch 0
    refine ⟨enough, fun fuel more => ?_⟩
    simp only [if_neg uuid, settles fuel more, Option.map_some]

/-- The locks aside, this is the lookup that requests go through. -/
theorem getSensorLocked_eq (frees : ∀ i now, ∃ later, now ≤ later ∧ free later i) (key : Bytes)
    {sensors : List Sensor} (text : ∀ s ∈ sensors, 0 ∉ s.name) (l : Locks Nat) :
    ∃ enough, ∀ fuel, enough ≤ fuel →
      getSensorLocked free fuel key sensors l = some (.settled l (getSensor key sensors)) := by
  rw [← sensorFound_eq text key]
  exact getSensorLocked_settles frees key sensors l

end Turns

/-- What the lookup of a key should return: the sensor with this uuid, or else the first sensor with
this name, alone under its lock, or else nothing. -/
structure Finds (key : Bytes) (sensors : List Sensor) (l : Locks Nat) (found : Lookup) : Prop where
  uuid : ∀ i s, sensors[i]? = some s → key.map toLower = printUuid s.uuid → found = .locked i l
  name : (∀ s ∈ sensors, key.map toLower ≠ printUuid s.uuid) →
    ∀ i s, sensors[i]? = some s → s.name.cString = key →
      (∀ t ∈ sensors.take i, t.name.cString ≠ key) → found = .locked i l
  none : (∀ s ∈ sensors, key.map toLower ≠ printUuid s.uuid) →
    (∀ s ∈ sensors, s.name.cString ≠ key) →
      found.ccode < 0 ∧ found.sensor = .none ∧ found.locks = l

section Found

variable {key : Bytes} {sensors : List Sensor}

theorem sensorFound_uuid (sized : ∀ s ∈ sensors, s.uuid.length = 16)
    (distinct : (sensors.map Sensor.uuid).Nodup) {i : Nat} {s : Sensor}
    (there : sensors[i]? = some s) (printed : key.map toLower = printUuid s.uuid) :
    sensorFound key sensors = .ok i := by
  have length : key.length = uuidStringLen := by
    rw [← List.length_map toLower, printed, length_printUuid]
  have member := List.mem_of_getElem? there
  have parsed : uuidParse key = some s.uuid :=
    (uuidParse_eq_some length).mpr ⟨sized s member, printed⟩
  have position : sensors.findIdx? (fun t => t.uuid = s.uuid) = some i := by
    obtain ⟨inside, rfl⟩ := List.getElem?_eq_some_iff.mp there
    rw [List.findIdx?_eq_some_iff_getElem]
    refine ⟨inside, by simp, fun j before => ?_⟩
    have apart := List.pairwise_iff_getElem.mp distinct j i (by simp; omega) (by simpa) before
    simpa using apart
  rw [sensorFound, if_pos ⟨length, uuidIsValid_of_lower printed, by simp [parsed]⟩, getSensorUuid,
    parsed]
  simp only [position, Option.elim_some]

theorem sensorFound_name (other : ∀ s ∈ sensors, key.map toLower ≠ printUuid s.uuid) :
    sensorFound key sensors = nameFound key sensors := by
  unfold sensorFound
  split
  · rename_i uuid
    obtain ⟨length, -, parses⟩ := uuid
    obtain ⟨input, parsed⟩ := Option.isSome_iff_exists.mp parses
    have printed := ((uuidParse_eq_some length).mp parsed).2
    have absent : sensors.findIdx? (fun s => s.uuid = input) = none := by
      rw [List.findIdx?_eq_none_iff]
      intro s member
      rw [decide_eq_false_iff_not]
      rintro rfl
      exact other s member printed
    simp only [getSensorUuid, parsed, absent, Option.elim_none]
  · rfl

theorem nameFound_first (short : key.length < maxNameSize) {i : Nat} {s : Sensor}
    (there : sensors[i]? = some s) (named : s.name.cString = key)
    (first : ∀ t ∈ sensors.take i, t.name.cString ≠ key) : nameFound key sensors = .ok i := by
  have position : sensors.findIdx? (fun t => t.name.cString = key) = some i := by
    obtain ⟨inside, rfl⟩ := List.getElem?_eq_some_iff.mp there
    rw [List.findIdx?_eq_some_iff_getElem]
    refine ⟨inside, by simpa using named, fun j before => ?_⟩
    have earlier : sensors[j] ∈ sensors.take i :=
      List.mem_take_iff_getElem.mpr ⟨j, by omega, rfl⟩
    simpa using first _ earlier
  rw [nameFound, if_neg (by omega), position, Option.elim_some]

theorem nameFound_none (short : key.length < maxNameSize)
    (absent : ∀ s ∈ sensors, s.name.cString ≠ key) : nameFound key sensors = .error enfile := by
  have position : sensors.findIdx? (fun t => t.name.cString = key) = none := by
    rw [List.findIdx?_eq_none_iff]
    exact fun s member => decide_eq_false (absent s member)
  rw [nameFound, if_neg (by omega), position, Option.elim_none]

end Found

/-- An uuid finds its sensor and any other key the first sensor of that name, whoever holds the locks
meanwhile, as long as each becomes free again. -/
theorem sensor_found (sensors : List Sensor) (sized : ∀ s ∈ sensors, s.uuid.length = 16)
    (distinct : (sensors.map Sensor.uuid).Nodup) (key rest : Bytes) (text : 0 ∉ key)
    (short : key.length < maxNameSize) (free : Nat → Nat → Bool)
    (frees : ∀ i now, ∃ later, now ≤ later ∧ free later i) (l : Locks Nat) :
    ∃ enough, ∀ fuel, enough ≤ fuel → ∃ found,
      getSensorLocked free fuel (key ++ 0 :: rest) sensors l = some found ∧
        Finds key sensors l found := by
  obtain ⟨enough, settles⟩ := getSensorLocked_settles frees (key ++ 0 :: rest) sensors l
  refine ⟨enough, fun fuel more => ⟨_, settles fuel more, ?_⟩⟩
  rw [key.cString_append_zero rest text]
  refine ⟨fun i s there printed => ?_, fun other i s there named first => ?_, fun other absent => ?_⟩
  · rw [sensorFound_uuid sized distinct there printed]
    rfl
  · rw [sensorFound_name other, nameFound_first short there named first]
    rfl
  · rw [sensorFound_name other, nameFound_none short absent]
    exact ⟨(by decide : enfile < 0), rfl, rfl⟩

def uuidSensor (name : String) (last : UInt8) : Sensor :=
  ⟨ascii name, List.replicate 15 0xab ++ [last], Command.default.code, 300, intMax⟩

-- The lock of the second sensor becomes free in the third turn.
theorem sensor_found_upper : ∃ enough, ∀ fuel, enough ≤ fuel → ∃ found,
    getSensorLocked (fun now _ => 2 ≤ now) fuel
        (ascii "ABABABAB-ABAB-ABAB-ABAB-ABABABABAB02" ++ 0 :: [])
        [uuidSensor "Kernel PS Sensor" 1, uuidSensor "Kernel LSOF Sensor" 2] Locks.none = some found ∧
      found = .locked 1 Locks.none := by
  obtain ⟨enough, finds⟩ := sensor_found
    [uuidSensor "Kernel PS Sensor" 1, uuidSensor "Kernel LSOF Sensor" 2] (by decide) (by decide)
    (ascii "ABABABAB-ABAB-ABAB-ABAB-ABABABABAB02") [] (by decide) (by decide) (fun now _ => 2 ≤ now)
    (fun _ now => ⟨now + 2, by omega, by simp⟩) Locks.none
  refine ⟨enough, fun fuel more => ?_⟩
  obtain ⟨found, ran, each⟩ := finds fuel more
  exact ⟨found, ran, each.uuid 1 _ rfl (by decide)⟩

end VirtueSensing.Kernel
