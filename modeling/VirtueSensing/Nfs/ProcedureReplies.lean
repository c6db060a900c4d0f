import VirtueSensing.Nfs.DirectoryReplies

set_option autoImplicit false

/-!
# Replies of single procedures

Which replies of READDIR, READ, SETATTR, REMOVE, RENAME and LINK the classes of `nfs.py` read back.
-/

namespace VirtueSensing.Nfs

open Dissect Rfc1813

namespace Nfs3

-- The default of the data is the integer zero, which no data is.
structure ReadReplyOk where
  file : Option PostOpAttr
  count : Nat
  eof : Nat
  dataLen : Nat
  data : Option Bytes
  p : Bytes
  deriving DecidableEq, Repr

def readReplyOk : Dissector ReadReplyOk := do
  let file ← packetField Nfs3.postOpAttr
  let count ← int
  let eof ← int
  let dataLen ← int
  let data ← field none (some <$> string count)
  let p ← field [] (padField 4 (string count))
  return ⟨file, count, eof, dataLen, data, p⟩

def readReply : Dissector (StatusReply ReadReplyOk ReplyFail) := statusReply readReplyOk replyFail

structure SetattrReply where
  nfsStatus : Nat
  objWcc : Option WccData
  deriving DecidableEq, Repr

def setattrReply : Dissector SetattrReply := do
  let nfsStatus ← int
  let objWcc ← packetField Nfs3.wccData
  return ⟨nfsStatus, objWcc⟩

structure RemoveReply where
  nfsStatus : Nat
  wcc : Option WccData
  deriving DecidableEq, Repr

def removeReply : Dissector RemoveReply := do
  let nfsStatus ← int
  let wcc ← packetField Nfs3.wccData
  return ⟨nfsStatus, wcc⟩

structure RenameReply where
  nfsStatus : Nat
  ffrom : Option WccData
  fto : Option WccData
  deriving DecidableEq, Repr

def renameReply : Dissector RenameReply := do
  let nfsStatus ← int
  let ffrom ← packetField Nfs3.wccData
  let fto ← packetField Nfs3.wccData
  return ⟨nfsStatus, ffrom, fto⟩

-- There is no field for the status.
structure LinkReply where
  file : Option PostOpFh
  linkdir : Option WccData
  deriving DecidableEq, Repr

def linkReply : Dissector LinkReply := do
  let file ← packetField Nfs3.postOpFh
  let linkdir ← packetField Nfs3.wccData
  return ⟨file, linkdir⟩

end Nfs3

/-- A result of READ, whose count is that of its data. -/
structure Read3resok where
  fileAttributes : PostOpAttr
  eof : Bool
  data : Counted

namespace Read3resok

def encode (v : Read3resok) : Bytes :=
  v.fileAttributes.encode ++ (bigEndian 4 v.data.length ++ (word (bool v.eof) ++ v.data.encode))

def packet (v : Read3resok) : Nfs3.ReadReplyOk where
  file := some v.fileAttributes.packet
  count := v.data.length
  eof := (bool v.eof).toNat
  dataLen := v.data.length
  data := some v.data.val
  p := v.data.padding.take v.data.length

end Read3resok

/-- Attributes of an object from before and after an operation, all of them present. -/
structure Wcc where
  before : WccAttr
  after : Fattr3

def Wcc.data (w : Wcc) : WccData := ⟨some w.before, some w.after⟩

inductive ProcedureReply where
  | readdir (v : Readdir3resok)
  | read (v : Read3resok)
  | setattr (status : UInt32) (objWcc : Wcc)
  | remove (status : UInt32) (dirWcc : Wcc)
  | rename (status : UInt32) (fromdirWcc todirWcc : Wcc)
  | link (status : UInt32) (fileAttributes : Fattr3) (linkdirWcc : Wcc)

namespace ProcedureReply

def encode : ProcedureReply → Bytes
  | readdir v => word 0 ++ v.encode Entry3.encode
  | read v => word 0 ++ v.encode
  | setattr status objWcc => word status ++ objWcc.data.encode
  | remove status dirWcc => word status ++ dirWcc.data.encode
  | rename status fromdirWcc todirWcc =>
    word status ++ (fromdirWcc.data.encode ++ todirWcc.data.encode)
  | link status fileAttributes linkdirWcc =>
    word status ++ (PostOpAttr.encode (some fileAttributes) ++ linkdirWcc.data.encode)

/-- Every field has its own value, and nothing is left. For a link the class has fields for the
attributes of the directory only. -/
def Recovered (r : ProcedureReply) : Prop :=
  match r with
  | readdir v => Nfs3.readdirReply r.encode =
      .ok (⟨some ⟨some 0⟩, .layer (.inl (v.packet Entry3.packet)) []⟩, [])
  | read v => Nfs3.readReply r.encode = .ok (⟨some ⟨some 0⟩, .layer (.inl v.packet) []⟩, [])
  | setattr status objWcc => Nfs3.setattrReply r.encode =
      .ok (⟨status.toNat, some objWcc.data.packet⟩, [])
  | remove status dirWcc => Nfs3.removeReply r.encode =
      .ok (⟨status.toNat, some dirWcc.data.packet⟩, [])
  | rename status fromdirWcc todirWcc => Nfs3.renameReply r.encode =
      .ok (⟨status.toNat, some fromdirWcc.data.packet, some todirWcc.data.packet⟩, [])
  | link _ _ linkdirWcc => ∃ file, Nfs3.linkReply r.encode =
      .ok (⟨file, some linkdirWcc.data.packet⟩, [])

def Recoverable : ProcedureReply → Prop
  | readdir v => v.entries = []
  | read v => v.data.length ≠ 0
  | setattr .. | remove .. | rename .. => True
  | link .. => False

end ProcedureReply

theorem reads_wcc (w : Wcc) : Reads Nfs3.wccData w.data.encode w.data.packet :=
  reads_wccData w.before (some w.after)

-- The first entry takes all that is behind it as its payload.
theorem readdirEntry_encode (e : Entry3) (follows : UInt32) (behind : Bytes) :
    Nfs3.readdirEntry (e.encode ++ (word follows ++ behind)) =
      .ok ({ e.packet follows with payload := behind }, []) := by
  have fileid : Reads (packetField Nfs3.fileid) _ _ := (reads_longNumber e.fileid).packetField
  have fname : Reads (packetField Nfs3.fname) _ _ := (reads_text e.name).packetField
  have cookie : Reads (packetField Nfs3.cookie) _ _ := (reads_longNumber e.cookie).packetField
  simp only [Nfs3.readdirEntry, Entry3.encode, List.append_assoc]
  rw [bind_run (fileid.runs _), bind_run (fname.runs _), bind_run (cookie.runs _),
    bind_run ((reads_int follows).runs _)]
  rfl

theorem entry_ne_nil (e : Entry3) (rest : Bytes) : e.encode ++ rest ≠ [] := by
  simp [Entry3.encode, hyper]

theorem encodeEntries_eq {α : Type} (encode : α → Bytes) (entries : List α) :
    ∃ later, encodeEntries encode entries = word (entriesFollow entries) ++ later := by
  cases entries with
  | nil => exact ⟨[], (List.append_nil _).symm⟩
  | cons e rest => exact ⟨_, rfl⟩

-- The rest of the list and the flag behind it are read as a part of the first entry.
theorem readdirReplyOk_cons {v : Readdir3resok} {e : Entry3} {rest : List Entry3}
    (listed : v.entries = e :: rest) :
    ∃ behind, behind ≠ [] ∧ Nfs3.readdirReplyOk (v.encode Entry3.encode) =
      .ok ({ v.packet Entry3.packet with
        entries := some [.packet { e.packet (entriesFollow rest) with payload := behind }]
        eof := 0 }, []) := by
  obtain ⟨dirAttributes, cookieverf, entries, eof⟩ := v
  obtain rfl : entries = e :: rest := listed
  obtain ⟨later, chained⟩ := encodeEntries_eq Entry3.encode rest
  refine ⟨later ++ word (bool eof), by simp [word], ?_⟩
  have dir : Reads (packetField Nfs3.postOpAttr) _ _ := (reads_postOpAttr dirAttributes).packetField
  have verifier : Reads (packetField Nfs3.cookieverf) _ _ :=
    (reads_longNumber cookieverf).packetField
  have list : field (some []) (conditional ((1 : UInt32).toNat ≠ 0) (some <$>
        packetList Nfs3.readdirEntry fun curr => curr.entryFollows ≠ 0))
      (e.encode ++ (word (entriesFollow rest) ++ (later ++ word (bool eof)))) =
        .ok (some [.packet { e.packet (entriesFollow rest) with
          payload := later ++ word (bool eof) }], []) := by
    have more := entry_ne_nil e (word (entriesFollow rest) ++ (later ++ word (bool eof)))
    rw [field_of_ne_nil _ _ more]
    refine (map_apply some _ _).trans ?_
    rw [packetList, ← Nat.succ_pred (mt List.length_eq_zero_iff.mp more), Nat.succ_eq_add_one,
      packets_swallowed more (readdirEntry_encode e _ _)]
  simp only [Nfs3.readdirReplyOk, Nfs3.listing, Listing.encode, encodeEntries, chained,
    List.append_assoc]
  rw [bind_run (dir.runs _), bind_run (verifier.runs _), bind_run ((reads_int 1).runs _),
    bind_run list]
  rfl

theorem readdir_iff (v : Readdir3resok) :
    (ProcedureReply.readdir v).Recovered ↔ v.entries = [] := by
  constructor
  · intro recovered
    cases listed : v.entries with
    | nil => rfl
    | cons e rest =>
      obtain ⟨behind, more, read⟩ := readdirReplyOk_cons listed
      have given := statusReply_ok Nfs3.replyFail (by simp [Listing.encode, hyper]) read
      have same := given.symm.trans recovered
      simp only [Except.ok.injEq, Prod.mk.injEq, Nfs3.StatusReply.mk.injEq,
        Payload.layer.injEq, Sum.inl.injEq] at same
      have entries := congrArg Nfs3.Listing.entries same.1.2.1
      simp [Listing.packet, listed, entryPackets, Entry3.packet] at entries
      exact absurd entries.1 more
  · intro empty
    have read : Reads Nfs3.readdirReplyOk (v.encode Entry3.encode) (v.packet Entry3.packet) :=
      reads_listing_nil empty
    exact statusReply_ok Nfs3.replyFail read.more read.whole

-- The length of the data serves for the bytes that fill it up too, and there are no more of them.
theorem padField_padding (c : Counted) :
    field [] (padField 4 (string c.length)) c.padding =
      .ok (c.padding.take c.length, []) := by
  by_cases whole : c.padding = []
  · rw [whole, List.take_nil]
    rfl
  · rw [field_of_ne_nil _ _ whole, padField, string]
    simp only [Except.ok.injEq, Prod.mk.injEq, true_and]
    apply List.drop_eq_nil_of_le
    simp only [List.length_drop, Counted.padding, List.length_replicate, padLength]
    omega

theorem readReplyOk_encode (v : Read3resok) :
    Nfs3.readReplyOk v.encode =
      .ok ({ v.packet with data := if v.data.length = 0 then none else some v.data.val }, []) := by
  have file : Reads (packetField Nfs3.postOpAttr) _ _ :=
    (reads_postOpAttr v.fileAttributes).packetField
  have data : field none (some <$> string v.data.length) (v.data.val ++ v.data.padding) =
      .ok (if v.data.length = 0 then none else some v.data.val, v.data.padding) := by
    by_cases empty : v.data.length = 0
    · have nothing : v.data.val = [] := List.length_eq_zero_iff.mp empty
      rw [if_pos empty, Counted.padding, empty, nothing]
      rfl
    · have more : v.data.val ++ v.data.padding ≠ [] :=
        List.append_ne_nil_of_left_ne_nil (mt List.length_eq_zero_iff.mpr empty) _
      have read : string v.data.length (v.data.val ++ v.data.padding) = _ :=
        string_append rfl v.data.padding
      rw [if_neg empty, field_of_ne_nil _ _ more]
      exact (map_apply some _ _).trans (by rw [read])
  simp only [Nfs3.readReplyOk, Read3resok.encode, Counted.encode]
  rw [bind_run (file.runs _), bind_run ((reads_length v.data).runs _),
    bind_run ((reads_int (bool v.eof)).runs _), bind_run ((reads_length v.data).runs _),
    bind_run data, bind_run (padField_padding v.data)]
  rfl

theorem read_iff (v : Read3resok) :
    (ProcedureReply.read v).Recovered ↔ v.data.length ≠ 0 := by
  have more : v.encode ≠ [] := by simp [Read3resok.encode]
  have given := statusReply_ok Nfs3.replyFail more (readReplyOk_encode v)
  constructor
  · intro recovered empty
    have same := given.symm.trans recovered
    simp only [Except.ok.injEq, Prod.mk.injEq, Nfs3.StatusReply.mk.injEq,
      Payload.layer.injEq, Sum.inl.injEq] at same
    have data := congrArg Nfs3.ReadReplyOk.data same.1.2.1
    simp [empty, Read3resok.packet] at data
  · intro some
    rw [if_neg some] at given
    exact given

theorem atMost_following {α : Type} {d : Dissector α} {n : Nat} (here : AtMost d n) :
    AtMost (Nfs3.following d) (4 + n) := by
  refine ((AtMost.integer 4).field 0).bind fun set => ?_
  exact (here.packetField.conditional _).bind fun value => AtMost.pure _

theorem atMost_int : AtMost int 4 := (AtMost.integer 4).field 0

theorem atMost_long : AtMost long 8 := (AtMost.integer 8).field 0

theorem atMost_time : AtMost Nfs3.time 8 :=
  atMost_int.bind fun _ => atMost_int.bind fun _ => AtMost.pure _

theorem atMost_intNumber : AtMost Nfs3.intNumber 4 := atMost_int.bind fun _ => AtMost.pure _

theorem atMost_longNumber : AtMost Nfs3.longNumber 8 := atMost_long.bind fun _ => AtMost.pure _

theorem atMost_fattr : AtMost Nfs3.fattr 84 :=
  atMost_intNumber.packetField.bind fun _ =>
  atMost_intNumber.packetField.bind fun _ =>
  atMost_intNumber.packetField.bind fun _ =>
  atMost_intNumber.packetField.bind fun _ =>
  atMost_intNumber.packetField.bind fun _ =>
  atMost_longNumber.packetField.bind fun _ =>
  atMost_longNumber.packetField.bind fun _ =>
  (atMost_int.bind fun _ => atMost_int.bind fun _ => AtMost.pure _).packetField.bind fun _ =>
  atMost_long.bind fun _ =>
  atMost_longNumber.packetField.bind fun _ =>
  atMost_time.packetField.bind fun _ =>
  atMost_time.packetField.bind fun _ =>
  atMost_time.packetField.bind fun _ => AtMost.pure _

theorem atMost_wccAttr : AtMost Nfs3.wccAttr 24 :=
  atMost_longNumber.packetField.bind fun _ =>
  atMost_time.packetField.bind fun _ =>
  atMost_time.packetField.bind fun _ => AtMost.pure _

theorem atMost_wccData : AtMost Nfs3.wccData 116 :=
  (atMost_int.bind fun _ => atMost_wccAttr.packetField.bind fun _ =>
    AtMost.pure _).packetField.bind fun _ =>
  ((atMost_following atMost_fattr).bind fun _ => AtMost.pure _).packetField.bind fun _ =>
    AtMost.pure _

theorem length_fattr (v : Fattr3) : v.encode.length = 84 := by
  simp [Fattr3.encode, Nfstime3.encode, Specdata3.encode, word, hyper]

theorem length_wcc (w : Wcc) : w.data.encode.length = 116 := by
  simp [Wcc.data, WccData.encode, PreOpAttr.encode, PostOpAttr.encode, Rfc1813.optional,
    WccAttr.encode, length_fattr, Nfstime3.encode, word, hyper]

-- The boolean of the attributes, taken for the length of a handle of one byte.
theorem reads_shifted (b : UInt8) : Reads Nfs3.fhandle (word 1 ++ [b]) ⟨1, [b]⟩ :=
  (reads_int 1).bind ⟨List.cons_ne_nil b [], fun _ => rfl⟩

theorem postOpFh_shifted (status : UInt32) (b : UInt8) (body : Bytes) :
    ∃ fh left, packetField Nfs3.postOpFh (word status ++ (word 1 ++ b :: body)) = .ok (fh, left) ∧
      body.length ≤ left.length := by
  by_cases ok : status = 0
  · have absent : Reads Nfs3.postOpFh (word 0) _ := (reads_absent Nfs3.fhandle).last
    refine ⟨_, _, ok ▸ absent.packetField.runs _, ?_⟩
    simp only [List.length_append, List.length_cons]
    omega
  · have present : Reads Nfs3.postOpFh (word status ++ (word 1 ++ [b])) _ :=
      (leaves_present status ok (reads_shifted b)).last
    have read := present.packetField.runs body
    simp only [List.append_assoc, List.singleton_append] at read
    exact ⟨_, _, read, Nat.le_refl _⟩

theorem linkReply_atMost {bytes t left : Bytes} {fh : Option Nfs3.PostOpFh} {p : Nfs3.LinkReply}
    (first : packetField Nfs3.postOpFh bytes = .ok (fh, t))
    (read : Nfs3.linkReply bytes = .ok (p, left)) : t.length ≤ left.length + 116 := by
  have later : AtMost (do
      let linkdir ← packetField Nfs3.wccData
      return (⟨fh, linkdir⟩ : Nfs3.LinkReply)) 116 :=
    atMost_wccData.packetField.bind fun _ => AtMost.pure _
  rw [Nfs3.linkReply, bind_run first] at read
  exact later t p left read

/-- The status is taken for the boolean in front of a handle, so that bytes are left. -/
theorem link_leaves {status : UInt32} {fileAttributes : Fattr3} {w : Wcc} {p : Nfs3.LinkReply}
    {left : Bytes}
    (read : Nfs3.linkReply (ProcedureReply.link status fileAttributes w).encode = .ok (p, left)) :
    left ≠ [] := by
  have more : fileAttributes.encode ++ w.data.encode ≠ [] := by simp [Fattr3.encode, word]
  obtain ⟨b, body, shape⟩ := List.exists_cons_of_ne_nil more
  have length := congrArg List.length shape
  rw [List.length_append, length_fattr, length_wcc, List.length_cons] at length
  have encoded : (ProcedureReply.link status fileAttributes w).encode =
      word status ++ (word 1 ++ b :: body) := by
    rw [← shape, ← List.append_assoc (word 1)]
    rfl
  obtain ⟨fh, t, first, long⟩ := postOpFh_shifted status b body
  rw [encoded] at read
  have taken := linkReply_atMost first read
  intro nothing
  rw [nothing] at taken
  simp only [List.length_nil] at taken
  omega

/-- Which replies are read back: a listing of READDIR without entries, a result of READ with data,
and every reply of SETATTR, REMOVE and RENAME, but none of LINK. -/
theorem reply_recovered_iff (r : ProcedureReply) : r.Recovered ↔ r.Recoverable := by
  cases r with
  | readdir v => exact readdir_iff v
  | read v => exact read_iff v
  | setattr status objWcc =>
    have reads : Reads Nfs3.setattrReply (word status ++ objWcc.data.encode) _ :=
      (reads_int status).bind (reads_wcc objWcc).packetField.last
    exact iff_of_true reads.whole trivial
  | remove status dirWcc =>
    have reads : Reads Nfs3.removeReply (word status ++ dirWcc.data.encode) _ :=
      (reads_int status).bind (reads_wcc dirWcc).packetField.last
    exact iff_of_true reads.whole trivial
  | rename status fromdirWcc todirWcc =>
    have reads : Reads Nfs3.renameReply
        (word status ++ (fromdirWcc.data.encode ++ todirWcc.data.encode)) _ :=
      (reads_int status).bind <|
      (reads_wcc fromdirWcc).packetField.bind (reads_wcc todirWcc).packetField.last
    exact iff_of_true reads.whole trivial
  | link status fileAttributes linkdirWcc =>
    refine iff_of_false ?_ not_false
    rintro ⟨file, read⟩
    exact link_leaves read rfl

def twoNames : Readdir3resok := ⟨none, 9, [⟨1, dotName, 1⟩, ⟨2, notesName, 2⟩], true⟩

theorem two_names_not_recovered : ¬ ∀ r : ProcedureReply, r.Recovered := by
  intro all
  exact absurd ((readdir_iff twoNames).mp (all (.readdir twoNames))) (List.cons_ne_nil _ _)

end VirtueSensing.Nfs
