import VirtueSensing.Nfs.BasicRoundTrip

set_option autoImplicit false

/-!
# Directory listings of the NFS sensor

The replies of READDIR and READDIRPLUS. The class of a READDIRPLUS entry leaves what is behind its
fields, and that of a READDIR entry takes it as its payload.
-/

namespace VirtueSensing.Nfs

open Dissect

namespace Nfs3

/-- A reply whose status tells by which class its payload is read. -/
structure StatusReply (α β : Type) where
  nfsStatus : Option Status
  payload : Payload (α ⊕ β)
  deriving DecidableEq, Repr

def Status.success (status : Status) : Bool := status.v = some 0

-- Only asked when there is a payload, and then there is a status.
def replyClass {α β : Type} (ok : Dissector α) (fail : Dissector β) :
    Option Status → Dissector (α ⊕ β)
  | some status => if status.success then .inl <$> ok else .inr <$> fail
  | none => .inr <$> fail

def statusReply {α β : Type} (ok : Dissector α) (fail : Dissector β) :
    Dissector (StatusReply α β) := do
  let nfsStatus ← packetField Nfs3.status
  let payload ← payload (replyClass ok fail nfsStatus)
  return ⟨nfsStatus, payload⟩

/-- The fields of a listing, with the default of its list of entries when no byte is left for it. -/
structure Listing (Entry : Type) where
  dir : Option PostOpAttr
  cookieverf : Option Number
  entryFollows : Nat
  entries : Option (List (Item Entry))
  eof : Nat
  deriving DecidableEq, Repr

def listing {Entry : Type} (entry : Dissector Entry) (follows : Entry → Bool) :
    Dissector (Listing Entry) := do
  let dir ← packetField Nfs3.postOpAttr
  let cookieverf ← packetField Nfs3.cookieverf
  let entryFollows ← int
  let entries ← field (some []) (conditional (entryFollows ≠ 0) (some <$> packetList entry follows))
  let eof ← int
  return ⟨dir, cookieverf, entryFollows, entries, eof⟩

structure ReaddirEntry where
  fileid : Option Number
  fname : Option Text
  cookie : Option Number
  entryFollows : Nat
  payload : Bytes
  deriving DecidableEq, Repr

def readdirEntry : Dissector ReaddirEntry := do
  let fileid ← packetField Nfs3.fileid
  let fname ← packetField Nfs3.fname
  let cookie ← packetField Nfs3.cookie
  let entryFollows ← int
  let payload ← remaining
  return ⟨fileid, fname, cookie, entryFollows, payload⟩

structure ReaddirplusEntry where
  fileid : Option Number
  fname : Option Text
  cookie : Option Number
  nameAttr : Option PostOpAttr
  file : Option PostOpFh
  entryFollows : Nat
  deriving DecidableEq, Repr

def readdirplusEntry : Dissector ReaddirplusEntry := do
  let fileid ← packetField Nfs3.fileid
  let fname ← packetField Nfs3.fname
  let cookie ← packetField Nfs3.cookie
  let nameAttr ← packetField Nfs3.postOpAttr
  let file ← packetField Nfs3.postOpFh
  let entryFollows ← int
  return ⟨fileid, fname, cookie, nameAttr, file, entryFollows⟩

def readdirReplyOk : Dissector (Listing ReaddirEntry) :=
  listing readdirEntry fun curr => curr.entryFollows ≠ 0

def readdirplusReplyOk : Dissector (Listing ReaddirplusEntry) :=
  listing readdirplusEntry fun curr => curr.entryFollows ≠ 0

structure ReplyFail where
  dir : Option PostOpAttr
  deriving DecidableEq, Repr

def replyFail : Dissector ReplyFail := do
  let dir ← packetField Nfs3.postOpAttr
  return ⟨dir⟩

def readdirReply : Dissector (StatusReply (Listing ReaddirEntry) ReplyFail) :=
  statusReply readdirReplyOk replyFail

def readdirplusReply : Dissector (StatusReply (Listing ReaddirplusEntry) ReplyFail) :=
  statusReply readdirplusReplyOk replyFail

end Nfs3

namespace Rfc1813

-- A list is chained by booleans that tell whether an entry follows.
def encodeEntries {α : Type} (encode : α → Bytes) : List α → Bytes
  | [] => word 0
  | e :: rest => word 1 ++ (encode e ++ encodeEntries encode rest)

def entriesFollow {α : Type} (entries : List α) : UInt32 := if entries = [] then 0 else 1

/-- The packets of a list of entries, each of which holds the boolean behind it. -/
def entryPackets {α β : Type} (packet : α → UInt32 → β) : List α → List (Item β)
  | [] => []
  | e :: rest => .packet (packet e (entriesFollow rest)) :: entryPackets packet rest

def bool (b : Bool) : UInt32 := if b then 1 else 0

/-- The result of a listing: attributes of the directory, verifier, entries, and whether they are the
last ones. -/
structure Listing (Entry : Type) where
  dirAttributes : PostOpAttr
  cookieverf : UInt64
  entries : List Entry
  eof : Bool

namespace Listing

variable {Entry Packet : Type}

def encode (encodeEntry : Entry → Bytes) (v : Listing Entry) : Bytes :=
  v.dirAttributes.encode ++ (hyper v.cookieverf ++
    (encodeEntries encodeEntry v.entries ++ word (bool v.eof)))

def packet (entryPacket : Entry → UInt32 → Packet) (v : Listing Entry) : Nfs3.Listing Packet where
  dir := some v.dirAttributes.packet
  cookieverf := some (longNumber v.cookieverf)
  entryFollows := (entriesFollow v.entries).toNat
  entries := if v.entries = [] then none else some (entryPackets entryPacket v.entries)
  eof := (bool v.eof).toNat

end Listing

structure Entry3 where
  fileid : UInt64
  name : Counted
  cookie : UInt64

def Entry3.encode (v : Entry3) : Bytes := hyper v.fileid ++ (v.name.encode ++ hyper v.cookie)

def Entry3.packet (v : Entry3) (follows : UInt32) : Nfs3.ReaddirEntry :=
  ⟨some (longNumber v.fileid), some v.name.text, some (longNumber v.cookie), follows.toNat, []⟩

structure Entryplus3 where
  fileid : UInt64
  name : Counted
  cookie : UInt64
  nameAttributes : PostOpAttr
  nameHandle : PostOpFh3

def Entryplus3.encode (v : Entryplus3) : Bytes :=
  hyper v.fileid ++ (v.name.encode ++ (hyper v.cookie ++
    (v.nameAttributes.encode ++ v.nameHandle.encode)))

def Entryplus3.packet (v : Entryplus3) (follows : UInt32) : Nfs3.ReaddirplusEntry :=
  ⟨some (longNumber v.fileid), some v.name.text, some (longNumber v.cookie),
    some v.nameAttributes.packet, some v.nameHandle.packet, follows.toNat⟩

abbrev Readdir3resok := Listing Entry3
abbrev Readdirplus3resok := Listing Entryplus3

theorem reads_readdirplusEntry {v : Entryplus3} (whole : ∀ c ∈ v.nameHandle, 4 ∣ c.length)
    (follows : UInt32) :
    Reads Nfs3.readdirplusEntry (v.encode ++ word follows) (v.packet follows) := by
  simp only [Entryplus3.encode, List.append_assoc]
  exact (reads_longNumber v.fileid).packetField.bind <|
    (reads_text v.name).packetField.bind <|
    (reads_longNumber v.cookie).packetField.bind <|
    (reads_postOpAttr v.nameAttributes).packetField.bind <|
    (reads_postOpFh whole).packetField.bind (reads_int follows).last

theorem entryplus_ne_nil (e : Entryplus3) (rest : Bytes) : e.encode ++ rest ≠ [] := by
  simp [Entryplus3.encode, hyper]

-- Between two entries stands the boolean that the packet of the first one takes with it.
theorem packets_entries {e : Entryplus3} {rest : List Entryplus3} {tail : Bytes}
    (whole : ∀ e' ∈ e :: rest, ∀ c ∈ e'.nameHandle, 4 ∣ c.length) (behind : tail ≠ []) {fuel : Nat}
    (enough : (e.encode ++ (encodeEntries Entryplus3.encode rest ++ tail)).length ≤ fuel) :
    packets Nfs3.readdirplusEntry (fun curr => curr.entryFollows ≠ 0) fuel
        (e.encode ++ (encodeEntries Entryplus3.encode rest ++ tail)) =
      (entryPackets Entryplus3.packet (e :: rest), tail) := by
  induction rest generalizing e fuel with
  | nil =>
    have read := (reads_readdirplusEntry (whole e List.mem_cons_self) 0).runs tail
    rw [List.append_assoc] at read
    cases fuel with
    | zero => exact absurd (List.length_eq_zero_iff.mp (Nat.le_zero.mp enough)) (entryplus_ne_nil e _)
    | succ fuel => exact packets_last (entryplus_ne_nil e _) read behind rfl fuel
  | cons next rest ih =>
    have chained : encodeEntries Entryplus3.encode (next :: rest) ++ tail =
        word 1 ++ (next.encode ++ (encodeEntries Entryplus3.encode rest ++ tail)) := by
      simp [encodeEntries]
    have read := (reads_readdirplusEntry (whole e List.mem_cons_self) 1).runs
      (next.encode ++ (encodeEntries Entryplus3.encode rest ++ tail))
    rw [List.append_assoc, ← chained] at read
    cases fuel with
    | zero => exact absurd (List.length_eq_zero_iff.mp (Nat.le_zero.mp enough)) (entryplus_ne_nil e _)
    | succ fuel =>
      have shorter :
          (next.encode ++ (encodeEntries Entryplus3.encode rest ++ tail)).length ≤ fuel := by
        have first : (word 1).length = 4 := length_bigEndian 4 1
        rw [chained, List.length_append, List.length_append, first] at enough
        omega
      have later := ih (fun e' member => whole e' (List.mem_cons_of_mem e member)) shorter
      rw [packets_next (entryplus_ne_nil e _) read (entryplus_ne_nil next _) rfl, later]
      rfl

theorem reads_listing_nil {Entry Packet : Type} {entry : Dissector Packet} {follows : Packet → Bool}
    {encodeEntry : Entry → Bytes} {entryPacket : Entry → UInt32 → Packet} {v : Listing Entry}
    (empty : v.entries = []) :
    Reads (Nfs3.listing entry follows) (v.encode encodeEntry) (v.packet entryPacket) := by
  obtain ⟨dirAttributes, cookieverf, entries, eof⟩ := v
  obtain rfl : entries = [] := empty
  refine (reads_postOpAttr dirAttributes).packetField.bind ?_
  refine (reads_longNumber cookieverf).packetField.bind ?_
  refine (reads_int 0).bind ⟨bigEndian_ne_nil, fun rest => ?_⟩
  have more : word (bool eof) ++ rest ≠ [] := List.append_ne_nil_of_left_ne_nil bigEndian_ne_nil _
  rw [bind_run (field_of_ne_nil _ _ more)]
  exact (reads_int (bool eof)).last.runs rest

theorem reads_listing_cons {Entry Packet : Type} {entry : Dissector Packet} {follows : Packet → Bool}
    {encodeEntry : Entry → Bytes} {entryPacket : Entry → UInt32 → Packet} {v : Listing Entry}
    {e : Entry} {rest : List Entry} (listed : v.entries = e :: rest) (nonempty : encodeEntry e ≠ [])
    (entries : ∀ tail, tail ≠ [] →
      packetList entry follows (encodeEntry e ++ (encodeEntries encodeEntry rest ++ tail)) =
        .ok (entryPackets entryPacket (e :: rest), tail)) :
    Reads (Nfs3.listing entry follows) (v.encode encodeEntry) (v.packet entryPacket) := by
  obtain ⟨dirAttributes, cookieverf, all, eof⟩ := v
  obtain rfl : all = e :: rest := listed
  refine (reads_postOpAttr dirAttributes).packetField.bind ?_
  refine (reads_longNumber cookieverf).packetField.bind ?_
  simp only [encodeEntries, List.append_assoc]
  refine (reads_int 1).bind ⟨List.append_ne_nil_of_left_ne_nil nonempty _, fun behind => ?_⟩
  have more : word (bool eof) ++ behind ≠ [] :=
    List.append_ne_nil_of_left_ne_nil bigEndian_ne_nil _
  have list := entries (word (bool eof) ++ behind) more
  have read : field (some []) (conditional ((1 : UInt32).toNat ≠ 0)
      (some <$> packetList entry follows))
        (encodeEntry e ++ (encodeEntries encodeEntry rest ++ (word (bool eof) ++ behind))) =
      .ok (some (entryPackets entryPacket (e :: rest)), word (bool eof) ++ behind) := by
    rw [field_of_ne_nil _ _ (List.append_ne_nil_of_left_ne_nil nonempty _)]
    exact (map_apply some _ _).trans (by rw [list])
  simp only [List.append_assoc]
  rw [bind_run read]
  exact (reads_int (bool eof)).last.runs behind

theorem reads_readdirplusReplyOk {v : Readdirplus3resok}
    (whole : ∀ e ∈ v.entries, ∀ c ∈ e.nameHandle, 4 ∣ c.length) :
    Reads Nfs3.readdirplusReplyOk (v.encode Entryplus3.encode) (v.packet Entryplus3.packet) := by
  cases listed : v.entries with
  | nil => exact reads_listing_nil listed
  | cons e rest =>
    refine reads_listing_cons listed ?_ ?_
    · simpa using entryplus_ne_nil e []
    · intro tail behind
      exact congrArg Except.ok (packets_entries (listed ▸ whole) behind (Nat.le_refl _))

theorem statusReply_ok {α β : Type} {ok : Dissector α} (fail : Dissector β) {bytes left : Bytes}
    {a : α} (more : bytes ≠ []) (read : ok bytes = .ok (a, left)) :
    Nfs3.statusReply ok fail (word 0 ++ bytes) =
      .ok (⟨some ⟨some 0⟩, .layer (.inl a) left⟩, []) := by
  have status := (reads_status 0).packetField.runs bytes
  have inner : Nfs3.replyClass ok fail (some ⟨some 0⟩) bytes = .ok (.inl a, left) := by
    exact (map_apply Sum.inl ok bytes).trans (by rw [read])
  rw [Nfs3.statusReply, bind_run status]
  exact bind_run (payload_layer more inner) _

end Rfc1813

open Rfc1813

/-- Every listing of READDIRPLUS is read back entry by entry, with the flag behind the last one, and
what follows it is left. -/
theorem readdirplus_recovered {v : Readdirplus3resok}
    (whole : ∀ e ∈ v.entries, ∀ c ∈ e.nameHandle, 4 ∣ c.length) (rest : Bytes) :
    Nfs3.readdirplusReply (word 0 ++ (v.encode Entryplus3.encode ++ rest)) =
      .ok (⟨some ⟨some 0⟩, .layer (.inl (v.packet Entryplus3.packet)) rest⟩, []) := by
  have listing := reads_readdirplusReplyOk whole
  exact statusReply_ok Nfs3.replyFail (List.append_ne_nil_of_left_ne_nil listing.more rest)
    (listing.runs rest)

def counted (s : String) (short : (ascii s).length < 2 ^ 32 := by decide) : Counted :=
  ⟨ascii s, short⟩

def dotName : Counted := counted "."

def notesName : Counted := counted "notes"

-- The first of two entries has a handle and no attributes.
def twoEntries : Readdirplus3resok :=
  ⟨none, 9, [⟨1, dotName, 1, none, some (counted "root")⟩, ⟨2, notesName, 2, none, none⟩], true⟩

theorem two_entries_recovered :
    Nfs3.readdirplusReply (word 0 ++ (twoEntries.encode Entryplus3.encode ++ [])) =
        .ok (⟨some ⟨some 0⟩, .layer (.inl (twoEntries.packet Entryplus3.packet)) []⟩, []) ∧
      (twoEntries.packet Entryplus3.packet).entries.map List.length = some 2 :=
  ⟨readdirplus_recovered (by decide) [], rfl⟩

end VirtueSensing.Nfs
