import VirtueSensing.Kernel.ReplyText

set_option autoImplicit false

/-!
# The formats of the replies

Each format string of a sensor as a list of pieces, with the elements that it is read back as.
-/

namespace VirtueSensing.Kernel

open JsonText

def recordLead : List Piece := headerPieces ++ [.space]

theorem readable_recordLead : Readable recordLead :=
  readable_append readable_headerPieces trivial (.inr (by simp [Piece.separates]))

section Formats

variable (uuid : Bytes)

def psFormat (index : Nat) (pid uid : Int) (nonce : UInt64) : Format where
  lead := recordLead
  middle :=
    [.mark .comma, .space, .string (ascii "Kernel PS Sensor"), .mark .comma, .space,
      .string (ascii "kernel-ps"), .mark .comma, .space, .string (printUuid uuid), .mark .comma,
      .space, .string (printInt index), .mark .comma, .mark .beginObject, .space,
      .string (ascii "comm"), .mark .colon, .space]
  behind :=
    [.mark .comma, .space, .string (ascii "pid"), .mark .colon, .space, .int pid, .mark .comma,
      .space, .string (ascii "uid"), .mark .colon, .space, .int uid, .space, .mark .endObject,
      .mark .comma, .string (printHex nonce), .mark .endArray, .mark .endObject]
  elements nonceText comm :=
    [.string nonceText, .string (ascii "Kernel PS Sensor"), .string (ascii "kernel-ps"),
      .string (printUuid uuid), .string (printInt index),
      .object [(ascii "comm", .string comm), (ascii "pid", .scalar (.int pid)),
        (ascii "uid", .scalar (.int uid))],
      .string (printHex nonce)]
  leadReadable := readable_recordLead
  leadRaw := by simp [recordLead, headerPieces]
  leadEnds := by simp [recordLead, Piece.separates]
  middleFollows := by
    refine ⟨?_, by simp, _, rfl, rfl⟩
    simp only [Readable, (sendable_printUuid uuid).plain, (sendable_printInt index).plain]
    decide
  middleEnds := by simp [Piece.separates]
  behindFollows := by
    refine ⟨?_, by simp [Piece.int], _, rfl, rfl⟩
    simp only [Readable, Piece.int, reads_int, (sendable_printHex nonce).plain]
    simp [Piece.separates]
    decide
  oneLine := by simp [recordLead, headerPieces, Piece.int]
  utf8 := by
    simp [recordLead, headerPieces, Piece.int, Piece.quoted, (sendable_printUuid uuid).utf8,
      (sendable_printInt index).utf8, (sendable_printHex nonce).utf8]
    decide
  builds _ _ := rfl

def lsofFormat (uid pid flags mode count : Int) : Format where
  lead := recordLead
  middle :=
    [.mark .comma, .space, .string (ascii "Kernel LSOF Sensor"), .mark .comma, .space,
      .string (ascii "kernel-lsof"), .mark .comma, .space, .string (printUuid uuid), .mark .comma,
      .mark .beginObject, .string (ascii "uid"), .mark .colon, .space, .int uid, .mark .comma,
      .space, .string (ascii "pid"), .mark .colon, .space, .int pid, .mark .comma,
      .space, .string (ascii "flags"), .mark .colon, .space, .int flags, .mark .comma,
      .space, .string (ascii "mode"), .mark .colon, .space, .int mode, .mark .comma,
      .space, .string (ascii "count"), .mark .colon, .space, .int count, .mark .comma,
      .space, .string (ascii "path"), .mark .colon, .space]
  behind := [.mark .endObject, .space, .mark .endArray, .mark .endObject]
  elements nonceText path :=
    [.string nonceText, .string (ascii "Kernel LSOF Sensor"), .string (ascii "kernel-lsof"),
      .string (printUuid uuid),
      .object [(ascii "uid", .scalar (.int uid)), (ascii "pid", .scalar (.int pid)),
        (ascii "flags", .scalar (.int flags)), (ascii "mode", .scalar (.int mode)),
        (ascii "count", .scalar (.int count)), (ascii "path", .string path)]]
  leadReadable := readable_recordLead
  leadRaw := by simp [recordLead, headerPieces]
  leadEnds := by simp [recordLead, Piece.separates]
  middleFollows := by
    refine ⟨?_, by simp [Piece.int], _, rfl, rfl⟩
    simp only [Readable, Piece.int, reads_int, (sendable_printUuid uuid).plain]
    simp [Piece.separates]
    decide
  middleEnds := by simp [Piece.separates]
  behindFollows := ⟨by simp [Readable], by simp, _, rfl, rfl⟩
  oneLine := by simp [recordLead, headerPieces, Piece.int]
  utf8 := by
    simp [recordLead, headerPieces, Piece.int, Piece.quoted, (sendable_printUuid uuid).utf8]
    decide
  builds _ _ := rfl

theorem psFormat_uid_iff {index : Nat} {pid uid other : Int} {runs : UInt64} {nonce comm : Bytes} :
    (psFormat uuid index pid uid runs).elements nonce comm =
      (psFormat uuid index pid other runs).elements nonce comm ↔ uid = other := by
  simp [psFormat]

theorem lsofFormat_uid_iff {uid other pid flags mode count : Int} {nonce path : Bytes} :
    (lsofFormat uuid uid pid flags mode count).elements nonce path =
      (lsofFormat uuid other pid flags mode count).elements nonce path ↔ uid = other := by
  simp [lsofFormat]

-- The name of the sensor is the content of an empty record.
def emptyFormat : Format where
  lead := recordLead
  middle := [.mark .comma, .space]
  behind :=
    [.mark .comma, .space, .string (printUuid uuid), .mark .endArray, .mark .endObject]
  elements nonceText name := [.string nonceText, .string name, .string (printUuid uuid)]
  leadReadable := readable_recordLead
  leadRaw := by simp [recordLead, headerPieces]
  leadEnds := by simp [recordLead, Piece.separates]
  middleFollows := ⟨by simp [Readable], by simp, _, rfl, rfl⟩
  middleEnds := by simp [Piece.separates]
  behindFollows := ⟨by simp [Readable, (sendable_printUuid uuid).plain], by simp, _, rfl, rfl⟩
  oneLine := by simp [recordLead, headerPieces]
  utf8 := by
    simp [recordLead, headerPieces, Piece.quoted, (sendable_printUuid uuid).utf8]
    decide
  builds _ _ := rfl

end Formats

namespace Sensor

def pieces (s : Sensor) : List Piece :=
  [.mark .beginArray, .string s.name.cString, .mark .comma, .space, .string (printUuid s.uuid),
    .mark .endArray]

theorem render_pieces (s : Sensor) : render s.pieces = s.entry := by
  simp [pieces, entry, Piece.bytes, Mark.byte, ascii, quote]

def element (s : Sensor) : Json :=
  .array [.string s.name.cString, .string (printUuid s.uuid)]

end Sensor

def entryPieces : List Sensor → List Piece
  | [] => []
  | s :: rest => s.pieces ++ rest.flatMap fun t => .mark .comma :: .space :: t.pieces

def sensorPieces (sensors : List Sensor) : List Piece :=
  .mark .beginArray :: entryPieces sensors ++ [.mark .endArray]

theorem render_sensorPieces (sensors : List Sensor) :
    render (sensorPieces sensors) = discoveryText sensors := by
  have entries : render (entryPieces sensors) =
      (ascii ", ").intercalate (sensors.map Sensor.entry) := by
    cases sensors with
    | nil => simp [entryPieces]
    | cons s rest =>
      rw [List.map_cons, Lists.intercalate_cons_flatMap, entryPieces, render_append,
        s.render_pieces, List.flatMap_map, render, List.flatMap_assoc]
      congr 1
      apply List.flatMap_congr
      intro t _
      rw [← t.render_pieces]
      rfl
  rw [sensorPieces, List.cons_append, render_cons, render_append, entries, discoveryText,
    List.append_assoc]
  rfl

theorem build_entries (rest : List Sensor) (stack : List Frame) (before : List Json) (v : Json)
    (ts : List Token) :
    build (.items before :: stack) (.after v)
      ((rest.flatMap fun t => .mark .comma :: .space :: t.pieces).flatMap Piece.tokens ++
        .mark .endArray :: ts) =
      build stack (.after (.array (before ++ v :: rest.map Sensor.element))) ts := by
  induction rest generalizing before v with
  | nil => rfl
  | cons s rest ih =>
    have step := ih (before ++ [v]) s.element
    rw [List.append_assoc] at step
    exact step

theorem build_sensors (sensors : List Sensor) (stack : List Frame) (ts : List Token) :
    build stack .value ((sensorPieces sensors).flatMap Piece.tokens ++ ts) =
      build stack (.after (.array (sensors.map Sensor.element))) ts := by
  have opened : build stack .value ((sensorPieces sensors).flatMap Piece.tokens ++ ts) =
      build (.items [] :: stack) .firstItem
        ((entryPieces sensors ++ [Piece.mark .endArray]).flatMap Piece.tokens ++ ts) := by
    rw [sensorPieces, List.cons_append, List.flatMap_cons]
    exact (build_cons _ _ _ _).trans (by rw [next_value]; rfl)
  rw [opened]
  cases sensors with
  | nil => rfl
  | cons s rest =>
    have entries := build_entries rest stack [] s.element ts
    simp only [entryPieces, List.append_assoc, List.flatMap_cons, List.flatMap_append,
      List.flatMap_nil] at entries ⊢
    exact entries

/-- The names of the sensors are literals of the source. -/
def Named (sensors : List Sensor) : Prop :=
  ∀ s ∈ sensors, Sendable s.name.cString

def Simple (p : Piece) : Prop :=
  p ≠ .newline ∧ (p.separates ∨ ∃ text, p = .string text ∧ Sendable text)

theorem simple_mark (m : Mark) : Simple (.mark m) := ⟨by simp, .inl rfl⟩

theorem simple_space : Simple .space := ⟨by simp, .inl rfl⟩

theorem simple_string {text : Bytes} (sendable : Sendable text) : Simple (.string text) :=
  ⟨by simp, .inr ⟨text, rfl, sendable⟩⟩

theorem Sensor.simple_pieces {s : Sensor} (named : Sendable s.name.cString) :
    ∀ p ∈ s.pieces, Simple p := by
  simp only [Sensor.pieces, List.forall_mem_cons]
  exact ⟨simple_mark _, simple_string named, simple_mark _, simple_space,
    simple_string (sendable_printUuid s.uuid), simple_mark _, by simp⟩

theorem simple_sensorPieces {sensors : List Sensor} (named : Named sensors) :
    ∀ p ∈ sensorPieces sensors, Simple p := by
  have entries : ∀ p ∈ entryPieces sensors, Simple p := by
    cases sensors with
    | nil => simp [entryPieces]
    | cons s rest =>
      obtain ⟨here, later⟩ := List.forall_mem_cons.mp named
      refine List.forall_mem_append.mpr ⟨Sensor.simple_pieces here, fun p member => ?_⟩
      obtain ⟨t, inRest, inside⟩ := List.mem_flatMap.mp member
      rcases List.mem_cons.mp inside with rfl | inside
      · exact simple_mark _
      rcases List.mem_cons.mp inside with rfl | inside
      · exact simple_space
      · exact Sensor.simple_pieces (later t inRest) p inside
  simp only [sensorPieces, List.cons_append, List.forall_mem_cons, List.forall_mem_append]
  exact ⟨simple_mark _, entries, simple_mark _, by simp⟩

theorem follows_of_simple {ps : List Piece} (simple : ∀ p ∈ ps, Simple p)
    (separated : ∃ p ∈ ps.head?, p.separates) : Follows ps := by
  refine ⟨readable_of_strings fun p member => ?_, fun raw value member => ?_, separated⟩
  · rcases (simple p member).2 with separates | ⟨text, rfl, sendable⟩
    · exact .inl separates
    · exact .inr ⟨text, rfl, sendable.plain⟩
  · simpa [Simple, Piece.separates] using simple _ member

theorem utf8_of_simple {ps : List Piece} (simple : ∀ p ∈ ps, Simple p) :
    ∀ p ∈ ps, ∀ text ∈ p.quoted, Utf8.valid text := by
  intro p member text quoted
  rcases (simple p member).2 with separates | ⟨text', rfl, sendable⟩
  · cases p <;> simp_all [Piece.separates, Piece.quoted]
  · obtain rfl := Option.some.inj quoted
    exact sendable.utf8

def discoveryBehind (sensors : List Sensor) : List Piece :=
  .mark .comma :: .space :: sensorPieces sensors ++ [.mark .endArray, .mark .endObject]

theorem simple_discoveryBehind {sensors : List Sensor} (named : Named sensors) :
    ∀ p ∈ discoveryBehind sensors, Simple p := by
  simp only [discoveryBehind, List.cons_append, List.forall_mem_cons, List.forall_mem_append]
  exact ⟨simple_mark _, simple_space, simple_sensorPieces named, simple_mark _, simple_mark _, by simp⟩

def discoveryFormat (sensors : List Sensor) (named : Named sensors) : Format where
  lead := headerPieces
  middle := [.mark .comma, .space]
  behind := discoveryBehind sensors
  elements nonceText word :=
    [.string nonceText, .string word, .array (sensors.map Sensor.element)]
  leadReadable := readable_headerPieces
  leadRaw := by simp [headerPieces]
  leadEnds := by simp [headerPieces, Piece.separates]
  middleFollows := ⟨by simp [Readable], by simp, _, rfl, rfl⟩
  middleEnds := by simp [Piece.separates]
  behindFollows := follows_of_simple (simple_discoveryBehind named) ⟨_, rfl, rfl⟩
  oneLine := by
    have none : Piece.newline ∉ discoveryBehind sensors :=
      fun member => (simple_discoveryBehind named _ member).1 rfl
    simp [headerPieces, none]
  utf8 := by
    rw [List.forall_mem_append]
    exact ⟨by simp [headerPieces, Piece.quoted]; decide, utf8_of_simple (simple_discoveryBehind named)⟩
  builds nonceText word := by
    have array := build_sensors sensors
      [.items [.string nonceText, .string word],
        .member [(versionKey, .scalar (.decimal 1 (-1)))] replyKey]
      [.mark .endArray, .mark .endObject]
    rw [discoveryBehind]
    simp only [List.flatMap_append, List.flatMap_cons, List.cons_append] at array ⊢
    exact array

section Lines

variable (uuid nonce : Bytes)

theorem length_natText_le {n k : Nat} (positive : 0 < k) (small : n < 10 ^ k) :
    (natText n).length ≤ k := by
  rw [natText, List.length_map]
  exact (Nat.length_toDigits_le_iff (by decide) positive).mpr small

theorem length_printInt_le {n : Int} (small : n.natAbs < 10 ^ 20) : (printInt n).length ≤ 21 := by
  show (intText n).length ≤ 21
  cases n with
  | ofNat n =>
    rw [Int.ofNat_eq_natCast, intText_ofNat]
    exact Nat.le_succ_of_le (length_natText_le (by decide) small)
  | negSucc n =>
    rw [intText_neg, List.length_cons]
    exact Nat.succ_le_succ (length_natText_le (by decide) small)

theorem length_signed_le (n : UInt32) : (printInt n.toBitVec.toInt).length ≤ 21 := by
  apply length_printInt_le
  have bound := n.toNat_lt
  have same : n.toBitVec.toNat = n.toNat := rfl
  rw [BitVec.toInt_eq_toNat_cond, same]
  split <;> omega

theorem length_printHex_le (n : UInt64) : (printHex n).length ≤ 16 := by
  have bound := n.toNat_lt
  have digits : (Nat.toDigits 16 n.toNat).length ≤ 16 :=
    (Nat.length_toDigits_le_iff (by decide) (by decide)).mpr (by omega)
  simpa [printHex, ascii] using digits

theorem length_psFormat (index : Nat) (pid uid : Int) (runs : UInt64) (comm : Bytes) :
    ((psFormat uuid index pid uid runs).line nonce comm).length =
      nonce.length + comm.length + (printInt index).length + (printInt pid).length +
        (printInt uid).length + (printHex runs).length + 162 := by
  simp [Format.line, Format.pieces, psFormat, recordLead, headerPieces, Piece.bytes, Piece.int,
    versionKey, replyKey, ascii, uuidStringLen, printInt, intText]
  omega

theorem length_lsofFormat (uid pid flags mode count : Int) (path : Bytes) :
    ((lsofFormat uuid uid pid flags mode count).line nonce path).length =
      nonce.length + path.length + (printInt uid).length + (printInt pid).length +
        (printInt flags).length + (printInt mode).length + (printInt count).length + 190 := by
  simp [Format.line, Format.pieces, lsofFormat, recordLead, headerPieces, Piece.bytes, Piece.int,
    versionKey, replyKey, ascii, uuidStringLen, printInt, intText]
  omega

theorem length_emptyFormat (name : Bytes) :
    ((emptyFormat uuid).line nonce name).length = nonce.length + name.length + 93 := by
  simp [Format.line, Format.pieces, emptyFormat, recordLead, headerPieces, Piece.bytes,
    versionKey, replyKey, ascii, uuidStringLen]
  omega

-- The bounds of the fields keep every record far below the size of its buffer.
theorem psRecord_line {rr : RecordsRequest} {data : PsData} (short : rr.jsonNonce.length ≤ maxNonceSize)
    (index : rr.index < 2 ^ 31) (typed : data.Typed) :
    psRecord (psSensor uuid) (ascii "kernel-ps") rr data =
      (psFormat uuid rr.index data.pidNr data.userId.toBitVec.toInt rr.nonce).line rr.jsonNonce
        data.comm.cString := by
  have text : psRecord (psSensor uuid) (ascii "kernel-ps") rr data = scnprintf (connectionMaxReply - 1)
      ((psFormat uuid rr.index data.pidNr data.userId.toBitVec.toInt rr.nonce).line rr.jsonNonce
        data.comm.cString) := by
    simp only [psRecord, List.append_assoc]
    rfl
  rw [text]
  apply List.take_of_length_le
  rw [length_psFormat]
  have comm := typed.comm
  have printed := data.comm.length_cString_le
  have indexDigits : (printInt rr.index).length ≤ 21 := length_printInt_le (by simp; omega)
  have pidDigits := length_printInt_le (n := data.pidNr) (by have pid := typed.pid; omega)
  have uidDigits := length_signed_le data.userId
  have hexDigits := length_printHex_le rr.nonce
  simp only [maxNonceSize, uuidStringLen, taskCommLen, connectionMaxReply] at *
  omega

theorem lsofRecord_line {stray : Bytes} {rr : RecordsRequest} {data : LsofData} {path : DentryPath}
    (short : rr.jsonNonce.length ≤ maxNonceSize) (found : data.dpath = some path) :
    lsofRecord (lsofSensor uuid) (ascii "kernel-lsof") stray rr data =
      (lsofFormat uuid data.userId.toBitVec.toInt data.pidNr.toInt data.flags.toNat data.mode.toNat
        data.count.toInt).line rr.jsonNonce path.bytes.cString := by
  have text : lsofRecord (lsofSensor uuid) (ascii "kernel-lsof") stray rr data =
      scnprintf connectionMaxReply
        ((lsofFormat uuid data.userId.toBitVec.toInt data.pidNr.toInt data.flags.toNat
          data.mode.toNat data.count.toInt).line rr.jsonNonce path.bytes.cString) := by
    have printed : data.printedPath stray = path.bytes.cString := by
      simp [LsofData.printedPath, found]
    simp only [lsofRecord, printed, List.append_assoc]
    rfl
  rw [text]
  apply List.take_of_length_le
  rw [length_lsofFormat]
  have fits := path.fits
  have printed := path.bytes.length_cString_le
  have uidDigits := length_signed_le data.userId
  have pidDigits := length_printInt_le (n := data.pidNr.toInt)
    (by have low := data.pidNr.le_toInt; have high := data.pidNr.toInt_lt; omega)
  have flagsDigits := length_printInt_le (n := data.flags.toNat)
    (by have high := data.flags.toNat_lt; omega)
  have modeDigits := length_printInt_le (n := data.mode.toNat)
    (by have high := data.mode.toNat_lt; omega)
  have countDigits := length_printInt_le (n := data.count.toInt)
    (by have low := data.count.le_toInt; have high := data.count.toInt_lt; omega)
  simp only [maxNonceSize, uuidStringLen, maxDentryLen, connectionMaxReply] at *
  omega

theorem emptyRecord_line {rr : RecordsRequest} (short : rr.jsonNonce.length ≤ maxNonceSize) :
    emptyRecord (psSensor uuid) rr =
      (emptyFormat uuid).line rr.jsonNonce (ascii "Kernel PS Sensor") := by
  have text : emptyRecord (psSensor uuid) rr = scnprintf (connectionMaxReply - 1)
      ((emptyFormat uuid).line rr.jsonNonce (ascii "Kernel PS Sensor")) := by
    simp only [emptyRecord, List.append_assoc]
    rfl
  rw [text]
  apply List.take_of_length_le
  have name : (ascii "Kernel PS Sensor").length = 16 := rfl
  rw [length_emptyFormat, name]
  simp only [maxNonceSize, uuidStringLen, connectionMaxReply] at *
  omega

theorem emptyLsofRecord_line {rr : RecordsRequest} (short : rr.jsonNonce.length ≤ maxNonceSize) :
    emptyLsofRecord (lsofSensor uuid) rr =
      (emptyFormat uuid).line rr.jsonNonce (ascii "Kernel LSOF Sensor") := by
  have text : emptyLsofRecord (lsofSensor uuid) rr = scnprintf connectionMaxReply
      ((emptyFormat uuid).line rr.jsonNonce (ascii "Kernel LSOF Sensor")) := by
    simp only [emptyLsofRecord, List.append_assoc]
    rfl
  rw [text]
  apply List.take_of_length_le
  have name : (ascii "Kernel LSOF Sensor").length = 18 := rfl
  rw [length_emptyFormat, name]
  simp only [maxNonceSize, uuidStringLen, connectionMaxReply] at *
  omega

theorem discoveryReply_line {sensors : List Sensor} (named : Named sensors) (text : 0 ∉ nonce) :
    discoveryReply nonce (discoveryText sensors) =
      (discoveryFormat sensors named).line nonce (ascii "discovery") := by
  rw [discoveryReply, nonce.cString_eq_self text, ← render_sensorPieces]
  simp only [Format.line, Format.pieces, discoveryFormat, discoveryBehind, render_append, render_cons,
    render_headerPieces, List.append_assoc, List.cons_append]
  rfl

end Lines

end VirtueSensing.Kernel
