import VirtueSensing.Kernel.ReplyFormats
import VirtueSensing.Kernel.SensorLevels
import VirtueSensing.Shared.CLayout

set_option autoImplicit false

/-!
# The writes of a discovery

`build_discovery_buffer` with each of its writes into the block it has allocated: the padding of
`strncpy`, which goes on behind the name, and the zero that `snprintf` leaves behind an uuid.
-/

namespace VirtueSensing.Kernel

open CLayout JsonText

-- What C makes of a number that it stores in a `size_t` or in an `int`.
def sizeT (n : Int) : Nat := (n % 2 ^ 64).toNat
def cInt (n : Nat) : Int :=
  if n % 2 ^ 32 < 2 ^ 31 then (n % 2 ^ 32 : Nat) else (n % 2 ^ 32 : Nat) - 2 ^ 32

theorem cInt_eq {n : Nat} (small : n < 2 ^ 31) : cInt n = n := by
  have whole : n % 2 ^ 32 = n := Nat.mod_eq_of_lt (by omega)
  rw [cInt, whole, if_pos small]

theorem sizeT_eq {n : Nat} (small : n < 2 ^ 64) : sizeT n = n := by
  rw [sizeT]
  omega

structure DiscoveryCursor where
  cursor : Nat
  lastEntry : Nat
  remaining : Int
  count : Nat
  writes : List Write

namespace DiscoveryCursor

def start (len : Nat) : DiscoveryCursor :=
  ⟨1, 0, len - 2, 0, [⟨0, ascii "["⟩]⟩

def put (d : DiscoveryCursor) (bytes : Bytes) (advance : Nat) : DiscoveryCursor :=
  { d with cursor := d.cursor + advance, writes := d.writes ++ [⟨d.cursor, bytes⟩] }

-- `*cursor++`, once for each character.
def store (d : DiscoveryCursor) (text : Bytes) : DiscoveryCursor := d.put text text.length

def strncpy (d : DiscoveryCursor) (src : Bytes) (n : Nat) : DiscoveryCursor :=
  d.put (src.cString.take n ++ List.replicate (n - src.cString.length) 0) src.cString.length

def snprintf (d : DiscoveryCursor) (text : Bytes) (size : Nat) : DiscoveryCursor :=
  d.put (text.take (size - 1) ++ [0]) uuidStringLen

def fits (d : DiscoveryCursor) (s : Sensor) : Bool :=
  let idLen := cInt (s.name.cString.length + uuidStringLen + 1 + 10)
  d.remaining - 1 > idLen

def separate (d : DiscoveryCursor) : DiscoveryCursor :=
  if 0 < d.count then d.store (ascii ", ") else d

def addEntry (d : DiscoveryCursor) (s : Sensor) : DiscoveryCursor :=
  let d := d.separate.store (ascii "[\"")
  let d := d.strncpy s.name (sizeT (d.remaining - 3))
  let d := d.store (ascii "\", \"")
  let d := d.snprintf (printUuid s.uuid) (uuidStringLen + 1)
  let d := d.store (ascii "\"]")
  { d with
    count := d.count + 1
    remaining := d.remaining - (d.cursor - d.lastEntry)
    lastEntry := d.cursor }

theorem separate_fields (d : DiscoveryCursor) : d.separate.remaining = d.remaining ∧
    d.separate.lastEntry = d.lastEntry ∧ d.separate.count = d.count := by
  unfold separate
  split
  · exact ⟨rfl, rfl, rfl⟩
  · exact ⟨rfl, rfl, rfl⟩

-- The cursor, and whether every entry found room.
def addEntries : List Sensor → DiscoveryCursor → DiscoveryCursor × Bool
  | [], d => (d, true)
  | s :: rest, d => if d.fits s then addEntries rest (d.addEntry s) else (d, false)

def close (d : DiscoveryCursor) : DiscoveryCursor :=
  if 2 < d.remaining then
    let d := (d.store (ascii "]")).store [0]
    { d with remaining := d.remaining - 2 }
  else d

-- The block that the writes leave, which `kzalloc` had filled with zeros.
def block (d : DiscoveryCursor) : Bytes :=
  runWrites (List.replicate connectionMaxReply 0) d.writes

end DiscoveryCursor

/-- The result, `*buf` as the block it points to, `*len`, and the writes. -/
structure DiscoveryBlock where
  ccode : Int
  buf : Option Bytes
  len : Nat
  writes : List Write

-- Freeing the block and making it smaller write nothing into it.
def buildDiscoveryBlock (allocates : Bool) (sensors : List Sensor) : DiscoveryBlock :=
  if ¬ allocates then ⟨enomem, none, 0, []⟩
  else
    match (DiscoveryCursor.start connectionMaxReply).addEntries sensors with
    | (d, false) => ⟨enomem, none, sizeT enomem, d.writes⟩
    | (d, true) =>
      let d := d.close
      if 0x100 < d.remaining then
        let len := sizeT (connectionMaxReply - (d.remaining - 2))
        ⟨0, some (d.block.take len), len, d.writes⟩
      else ⟨0, some d.block, connectionMaxReply, d.writes⟩

/-- The block starts with this text, which ends at the cursor, and every write is inside of it. -/
structure Written (d : DiscoveryCursor) (text : Bytes) : Prop where
  inside : ∀ w ∈ d.writes, w.Inside connectionMaxReply
  cursor : d.cursor = text.length
  starts : text <+: d.block

namespace Written

variable {d : DiscoveryCursor} {text : Bytes}

theorem length_block (written : Written d text) : d.block.length = connectionMaxReply := by
  rw [DiscoveryCursor.block, length_runWrites (by simpa using written.inside), List.length_replicate]

theorem put (written : Written d text) (more tail : Bytes)
    (room : text.length + more.length + tail.length ≤ connectionMaxReply) :
    Written (d.put (more ++ tail) more.length) (text ++ more) := by
  have inside : (⟨d.cursor, more ++ tail⟩ : Write).Inside connectionMaxReply := by
    have cursor := written.cursor
    simp only [Write.Inside, Write.stop, List.length_append]
    omega
  refine ⟨?_, by simp [DiscoveryCursor.put, written.cursor], ?_⟩
  · simp only [DiscoveryCursor.put, List.forall_mem_append, List.forall_mem_singleton]
    exact ⟨written.inside, inside⟩
  · have block : (d.put (more ++ tail) more.length).block =
        (⟨d.cursor, more ++ tail⟩ : Write).run d.block := by
      simp [DiscoveryCursor.put, DiscoveryCursor.block, runWrites]
    have front : d.block.take d.cursor = text := by
      rw [written.cursor]
      exact (List.prefix_iff_eq_take.mp written.starts).symm
    rw [block, Write.run, front]
    exact ⟨tail ++ d.block.drop (Write.stop ⟨d.cursor, more ++ tail⟩), by simp⟩

theorem store (written : Written d text) (more : Bytes)
    (room : text.length + more.length ≤ connectionMaxReply) :
    Written (d.store more) (text ++ more) := by
  have stored := written.put more [] (by simpa using room)
  rwa [List.append_nil] at stored

theorem strncpy (written : Written d text) (src : Bytes) {n : Nat} (fits : src.cString.length ≤ n)
    (room : text.length + n ≤ connectionMaxReply) :
    Written (d.strncpy src n) (text ++ src.cString) := by
  rw [DiscoveryCursor.strncpy, List.take_of_length_le fits]
  apply written.put
  rw [List.length_replicate]
  omega

theorem snprintf (written : Written d text) (uuid : Bytes)
    (room : text.length + uuidStringLen + 1 ≤ connectionMaxReply) :
    Written (d.snprintf (printUuid uuid) (uuidStringLen + 1)) (text ++ printUuid uuid) :=
  written.put (printUuid uuid) [0] room

end Written

-- Only the opening bracket is not counted as used.
theorem DiscoveryBuffer.Filled.length_text {sensors : List Sensor} {b : DiscoveryBuffer}
    (filled : Filled sensors b) : b.text.length ≤ b.lastEntry + 1 := by
  have before := filled.lastEntry
  have text := filled.text
  cases sensors with
  | nil => simp [text, ascii]
  | cons s rest =>
    simp only [reduceCtorEq, if_false] at before
    omega

/-- The variables of the function hold what the buffer without its writes says. -/
structure Refines (b : DiscoveryBuffer) (d : DiscoveryCursor) : Prop where
  written : Written d b.text
  lastEntry : d.lastEntry = b.lastEntry
  remaining : d.remaining = b.remaining
  count : d.count = b.count

theorem refines_start :
    Refines (.start connectionMaxReply) (.start connectionMaxReply) := by
  refine ⟨⟨?_, rfl, ?_⟩, rfl, rfl, rfl⟩
  · simp only [DiscoveryCursor.start, List.forall_mem_singleton]
    decide
  · exact ⟨List.replicate (connectionMaxReply - 1) 0, rfl⟩

namespace Refines

variable {b : DiscoveryBuffer} {d : DiscoveryCursor} {s : Sensor} {sensors : List Sensor}

theorem fits_eq (refines : Refines b d)
    (short : s.name.cString.length + uuidStringLen + 1 + 10 < 2 ^ 31) : d.fits s = b.fits s := by
  simp only [DiscoveryCursor.fits, DiscoveryBuffer.fits, cInt_eq short, refines.remaining]
  rfl

theorem addEntry (refines : Refines b d) (filled : DiscoveryBuffer.Filled sensors b)
    (fits : b.fits s) : Refines (b.add s) (d.addEntry s) := by
  have used := filled.remaining
  have before := filled.lastEntry
  have counted := filled.count
  have text := filled.text
  rw [DiscoveryBuffer.fits, decide_eq_true_iff] at fits
  obtain ⟨written, lastEntry, remaining, count⟩ := refines
  have size : connectionMaxReply = 4096 := rfl
  have uuidSize : uuidStringLen = 36 := rfl
  have opening : (ascii "[\"").length = 2 := rfl
  have middle : (ascii "\", \"").length = 4 := rfl
  have closing : (ascii "\"]").length = 2 := rfl
  obtain ⟨sep, sepEq, start⟩ : ∃ sep, sep = (if 0 < b.count then ascii ", " else []) ∧
      b.text.length + sep.length ≤ b.lastEntry + 2 := by
    refine ⟨_, rfl, ?_⟩
    cases sensors with
    | nil => simp [before, counted, text, ascii]
    | cons t rest => simp [before, counted, ascii]
  have limit : sizeT (d.remaining - 3) = 4091 - b.lastEntry := by
    have natural : d.remaining - 3 = ((4091 - b.lastEntry : Nat) : Int) := by omega
    rw [natural, sizeT_eq (by omega)]
  have separated : Written d.separate (b.text ++ sep) := by
    rw [DiscoveryCursor.separate, count, sepEq]
    split
    · exact written.store _ (by rw [if_pos ‹_›] at sepEq; rw [sepEq] at start; omega)
    · rwa [List.append_nil]
  have opened := separated.store (ascii "[\"") (by simp only [List.length_append]; omega)
  have named := opened.strncpy s.name (n := sizeT (d.remaining - 3)) (by omega)
    (by simp only [List.length_append]; omega)
  have divided := named.store (ascii "\", \"") (by simp only [List.length_append]; omega)
  have identified := divided.snprintf s.uuid (by simp only [List.length_append]; omega)
  have closed := identified.store (ascii "\"]")
    (by simp only [List.length_append, length_printUuid]; omega)
  have entered : (b.add s).text = b.text ++ sep ++ ascii "[\"" ++ s.name.cString ++
      ascii "\", \"" ++ printUuid s.uuid ++ ascii "\"]" := by
    simp only [DiscoveryBuffer.add, Sensor.entry, sepEq, List.append_assoc]
  rw [← entered] at closed
  obtain ⟨sameRemaining, sameEntry, sameCount⟩ := d.separate_fields
  have added : d.addEntry s =
      { ((((d.separate.store (ascii "[\"")).strncpy s.name (sizeT (d.remaining - 3))).store
          (ascii "\", \"")).snprintf (printUuid s.uuid) (uuidStringLen + 1)).store (ascii "\"]") with
        count := d.count + 1
        remaining := d.remaining - ((b.add s).text.length - d.lastEntry)
        lastEntry := (b.add s).text.length } := by
    rw [← closed.cursor, ← sameRemaining, ← sameEntry, ← sameCount]
    rfl
  rw [added]
  refine ⟨⟨closed.inside, closed.cursor, closed.starts⟩, rfl, ?_, ?_⟩
  · rw [remaining, lastEntry]
    rfl
  · rw [count]
    rfl

theorem addEntries {rest : List Sensor}
    (short : ∀ s ∈ rest, s.name.cString.length + uuidStringLen + 1 + 10 < 2 ^ 31)
    (refines : Refines b d) (filled : DiscoveryBuffer.Filled sensors b) :
    (∃ e d', b.addAll rest = some e ∧ d.addEntries rest = (d', true) ∧ Refines e d' ∧
      DiscoveryBuffer.Filled (sensors ++ rest) e) ∨
    (∃ d', b.addAll rest = none ∧ d.addEntries rest = (d', false) ∧
      ∀ w ∈ d'.writes, w.Inside connectionMaxReply) := by
  induction rest generalizing b d sensors with
  | nil => exact .inl ⟨b, d, rfl, rfl, refines, by rwa [List.append_nil]⟩
  | cons s rest ih =>
    obtain ⟨here, later⟩ := List.forall_mem_cons.mp short
    rw [DiscoveryBuffer.addAll, DiscoveryCursor.addEntries, refines.fits_eq here]
    cases fits : b.fits s with
    | true =>
      rw [List.append_cons]
      exact ih later (refines.addEntry filled fits) (filled.add s)
    | false => exact .inr ⟨d, rfl, rfl, refines.written.inside⟩

theorem close (refines : Refines b d) (filled : DiscoveryBuffer.Filled sensors b)
    (bracket : 2 < b.remaining) :
    Written d.close (b.text ++ ascii "]" ++ [0]) ∧ d.close.remaining = b.remaining - 2 := by
  obtain ⟨written, lastEntry, remaining, count⟩ := refines
  have used := filled.remaining
  have length := filled.length_text
  have size : connectionMaxReply = 4096 := rfl
  have single : (ascii "]").length = 1 := rfl
  have closed := (written.store (ascii "]") (by omega)).store [0]
    (by simp only [List.length_append, List.length_singleton]; omega)
  have same : d.close =
      { (d.store (ascii "]")).store [0] with remaining := d.remaining - 2 } := by
    rw [DiscoveryCursor.close, if_pos (remaining ▸ bracket)]
    rfl
  rw [same]
  exact ⟨⟨closed.inside, closed.cursor, closed.starts⟩, by rw [remaining]⟩

end Refines

section Text

variable {sensors : List Sensor}

theorem mem_sensorPieces {p : Piece} (member : p ∈ sensorPieces sensors) :
    p.separates ∨ ∃ s ∈ sensors, p = .string s.name.cString ∨ p = .string (printUuid s.uuid) := by
  have entry (s : Sensor) (inside : p ∈ s.pieces) :
      p.separates ∨ p = .string s.name.cString ∨ p = .string (printUuid s.uuid) := by
    simp only [Sensor.pieces, List.mem_cons, List.not_mem_nil, or_false] at inside
    rcases inside with rfl | name | rfl | rfl | uuid | rfl
    · exact .inl rfl
    · exact .inr (.inl name)
    · exact .inl rfl
    · exact .inl rfl
    · exact .inr (.inr uuid)
    · exact .inl rfl
  have entries (inside : p ∈ entryPieces sensors) :
      p.separates ∨ ∃ s ∈ sensors, p ∈ s.pieces := by
    cases sensors with
    | nil => cases inside
    | cons s rest =>
      rcases List.mem_append.mp inside with first | later
      · exact .inr ⟨s, List.mem_cons_self, first⟩
      · obtain ⟨t, inRest, piece⟩ := List.mem_flatMap.mp later
        rcases List.mem_cons.mp piece with rfl | piece
        · exact .inl rfl
        rcases List.mem_cons.mp piece with rfl | piece
        · exact .inl rfl
        · exact .inr ⟨t, List.mem_cons_of_mem s inRest, piece⟩
  simp only [sensorPieces, List.cons_append, List.mem_cons, List.mem_append, List.not_mem_nil,
    or_false] at member
  rcases member with rfl | inside | rfl
  · exact .inl rfl
  · rcases entries inside with separates | ⟨s, listed, piece⟩
    · exact .inl separates
    · exact (entry s piece).imp id fun text => ⟨s, listed, text⟩
  · exact .inl rfl

theorem zero_not_mem_discoveryText (sensors : List Sensor) : 0 ∉ discoveryText sensors := by
  rw [← render_sensorPieces, render, List.mem_flatMap]
  rintro ⟨p, member, zero⟩
  rcases mem_sensorPieces member with separates | ⟨s, -, rfl | rfl⟩
  · cases p with
    | space | newline => simp [Piece.bytes] at zero
    | mark m => cases m <;> simp [Piece.bytes, Mark.byte] at zero
    | string | body | scalar => cases separates
  · simp only [Piece.bytes, quote, List.mem_cons, List.mem_append, List.cons_append] at zero
    have name := s.name.zero_not_mem_cString
    simp_all
  · have visible := (sendable_printUuid s.uuid).plain 0
    simp only [Piece.bytes, quote, List.mem_cons, List.mem_append, List.cons_append] at zero
    simp_all [isControl]

/-- With names that need no escape the text is the array of the pairs. -/
theorem parse_discoveryText (plain : ∀ s ∈ sensors, Plain s.name.cString) :
    parse false (discoveryText sensors) = some (.array (sensors.map Sensor.element)) := by
  have readable : Readable (sensorPieces sensors) := by
    apply readable_of_strings
    intro p member
    rcases mem_sensorPieces member with separates | ⟨s, listed, rfl | rfl⟩
    · exact .inl separates
    · exact .inr ⟨_, rfl, plain s listed⟩
    · exact .inr ⟨_, rfl, (sendable_printUuid s.uuid).plain⟩
  have built := build_sensors sensors [] []
  rw [List.append_nil] at built
  rw [← render_sensorPieces, parse_render false readable, built]
  rfl

end Text

-- The largest block that `kzalloc` gives has `1 << KMALLOC_SHIFT_MAX` bytes.
def kmallocMaxSize : Nat := 2 ^ 25

/-- The sensor has been set up by `init_sensor`, with a name. -/
structure Registered (kzalloc : Nat → Bool) (s : Sensor) : Prop where
  made : ∃ uuid name nameSize fresh, 0 < nameSize ∧
    initSensor kzalloc uuid name nameSize = .ok fresh ∧ s.name = fresh.name

theorem Registered.short {kzalloc : Nat → Bool} {s : Sensor} (registered : Registered kzalloc s)
    (limited : ∀ size, kzalloc size → size ≤ kmallocMaxSize) :
    s.name.cString.length + uuidStringLen + 1 + 10 < 2 ^ 31 := by
  obtain ⟨uuid, name, nameSize, fresh, sized, made, same⟩ := registered.made
  rw [initSensor, if_pos sized] at made
  split at made
  · rename_i allocated
    obtain rfl := Except.ok.inj made
    have limit := limited nameSize allocated
    have printed := s.name.length_cString_le
    have length : s.name.length ≤ nameSize - 1 := by
      rw [same]
      exact List.length_take_le _ _
    simp only [kmallocMaxSize, uuidStringLen] at limit ⊢
    omega
  · cases made

/-- Every write is inside the block, and what is returned is an error without a buffer, or the text of
all the sensors with the zero behind it inside the returned length. -/
structure BuiltInside (sensors : List Sensor) (out : DiscoveryBlock) : Prop where
  inside : ∀ w ∈ out.writes, w.Inside connectionMaxReply
  outcome : (out.ccode < 0 ∧ out.buf = none) ∨
    (out.ccode = 0 ∧ ∃ block, out.buf = some block ∧ out.len = block.length ∧
      block.cString = discoveryText sensors ∧ (discoveryText sensors).length < out.len)

theorem Written.builtInside {d : DiscoveryCursor} {sensors : List Sensor} {len : Nat}
    (written : Written d (discoveryText sensors ++ [0])) (most : len ≤ connectionMaxReply)
    (room : (discoveryText sensors).length < len) :
    BuiltInside sensors ⟨0, some (d.block.take len), len, d.writes⟩ := by
  refine ⟨written.inside, .inr ⟨rfl, _, rfl, ?_, ?_, room⟩⟩
  · rw [List.length_take, written.length_block, Nat.min_eq_left most]
  · obtain ⟨rest, whole⟩ := written.starts
    obtain ⟨more, rfl⟩ := Nat.exists_eq_add_of_lt room
    have taken : d.block.take ((discoveryText sensors).length + more + 1) =
        discoveryText sensors ++ 0 :: rest.take more := by
      rw [← whole, List.append_assoc, Nat.add_assoc, List.take_length_add_append]
      rfl
    rw [taken, Bytes.cString_append_zero _ _ (zero_not_mem_discoveryText sensors)]

theorem buildDiscoveryBlock_true {sensors : List Sensor}
    (short : ∀ s ∈ sensors, s.name.cString.length + uuidStringLen + 1 + 10 < 2 ^ 31) :
    BuiltInside sensors (buildDiscoveryBlock true sensors) ∧
      ((buildDiscoveryBlock true sensors).ccode = 0 ↔ HasRoom sensors) := by
  unfold buildDiscoveryBlock
  rw [if_neg (by simp)]
  rcases refines_start.addEntries short DiscoveryBuffer.filled_start with
    ⟨e, d, added, filling, refines, filled⟩ | ⟨d, full, filling, inside⟩
  · rw [filling]
    have room : HasRoom sensors := by
      rcases DiscoveryBuffer.addAll_start sensors with ⟨-, -, room, -⟩ | ⟨stopped, -⟩
      · exact room
      · rw [stopped] at added
        cases added
    obtain ⟨written, remaining⟩ := refines.close filled (filled.bracket room)
    have text : e.text ++ ascii "]" = discoveryText sensors := by
      rw [filled.text]
      rfl
    rw [text] at written
    have used := filled.remaining
    have bracket := filled.bracket room
    have length : (discoveryText sensors).length ≤ e.lastEntry + 2 := by
      rw [← text, List.length_append]
      exact Nat.succ_le_succ filled.length_text
    have size : connectionMaxReply = 4096 := rfl
    dsimp only
    split
    · have len : (connectionMaxReply : Int) - (d.close.remaining - 2) =
          ((e.lastEntry + 6 : Nat) : Int) := by omega
      rw [len, sizeT_eq (by omega)]
      exact ⟨written.builtInside (by omega) (by omega), iff_of_true rfl room⟩
    · have whole : d.close.block.take connectionMaxReply = d.close.block :=
        List.take_of_length_le (Nat.le_of_eq written.length_block)
      rw [← whole]
      exact ⟨written.builtInside (Nat.le_refl _) (by omega), iff_of_true rfl room⟩
  · rw [filling]
    refine ⟨⟨inside, .inl ⟨(by decide : enomem < 0), rfl⟩⟩, iff_of_false (by decide : ¬ enomem = 0) fun room => ?_⟩
    rcases DiscoveryBuffer.addAll_start sensors with ⟨d, added, -, -⟩ | ⟨-, none⟩
    · rw [added] at full
      cases full
    · exact none room

/-- The writes aside, this is the buffer that discovery requests print. -/
theorem buildDiscoveryBlock_buffer {sensors : List Sensor}
    (short : ∀ s ∈ sensors, s.name.cString.length + uuidStringLen + 1 + 10 < 2 ^ 31)
    (l : Locks SpinLock) :
    (buildDiscoveryBlock true sensors).buf.map Bytes.cString =
      (buildDiscoveryBuffer true sensors l).1.toOption := by
  obtain ⟨⟨-, outcome⟩, succeeds⟩ := buildDiscoveryBlock_true short
  rcases outcome with ⟨failed, none⟩ | ⟨done, block, some, -, text, -⟩
  · have full : ¬ HasRoom sensors := fun room => by
      rw [succeeds.mpr room] at failed
      exact absurd failed (by decide)
    rw [none, buildDiscoveryBuffer_of_not_hasRoom full]
    rfl
  · rw [some, Option.map_some, text, buildDiscoveryBuffer_of_hasRoom (succeeds.mp done)]
    rfl

/-- The list of the sensors that are registered is either refused or built inside its block. -/
theorem buildDiscoveryBlock_inside (kzalloc : Nat → Bool)
    (limited : ∀ size, kzalloc size → size ≤ kmallocMaxSize) (sensors : List Sensor)
    (registered : ∀ s ∈ sensors, Registered kzalloc s) :
    BuiltInside sensors (buildDiscoveryBlock (kzalloc connectionMaxReply) sensors) ∧
      ((∀ s ∈ sensors, Plain s.name.cString) →
        parse false (discoveryText sensors) = some (.array (sensors.map Sensor.element))) := by
  refine ⟨?_, parse_discoveryText⟩
  cases kzalloc connectionMaxReply with
  | false => exact ⟨nofun, .inl ⟨(by decide : enomem < 0), rfl⟩⟩
  | true => exact (buildDiscoveryBlock_true fun s member => (registered s member).short limited).1

theorem buildDiscoveryBlock_two :
    BuiltInside [kernelPs, kernelPs] (buildDiscoveryBlock true [kernelPs, kernelPs]) ∧
      parse false (discoveryText [kernelPs, kernelPs]) =
        some (.array ([kernelPs, kernelPs].map Sensor.element)) := by
  have registered : Registered (fun size => decide (size ≤ kmallocMaxSize)) kernelPs :=
    ⟨[], ascii "kernel-ps", 10, _, by decide, rfl, by decide⟩
  have both : ∀ s ∈ [kernelPs, kernelPs],
      Registered (fun size => decide (size ≤ kmallocMaxSize)) s := by
    simpa using registered
  obtain ⟨inside, parsed⟩ := buildDiscoveryBlock_inside
    (fun size => decide (size ≤ kmallocMaxSize)) (fun size fits => of_decide_eq_true fits)
    [kernelPs, kernelPs] both
  exact ⟨inside, parsed (by decide)⟩

end VirtueSensing.Kernel
