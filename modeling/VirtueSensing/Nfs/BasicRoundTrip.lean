import VirtueSensing.Nfs.Rfc1813

set_option autoImplicit false

/-!
# Basic types are read back

For each basic type, when its packet class reads the encoding of a value back and leaves exactly what
follows.
-/

namespace VirtueSensing.Nfs

open Dissect

namespace Rfc1813

theorem reads_int (n : UInt32) : Reads int (word n) n.toNat :=
  (reads_integer n.toNat_lt).field 0

theorem reads_long (n : UInt64) : Reads long (hyper n) n.toNat :=
  (reads_integer n.toNat_lt).field 0

theorem reads_intNumber (n : UInt32) : Reads Nfs3.intNumber (word n) (intNumber n) :=
  (reads_int n).last

theorem reads_longNumber (n : UInt64) : Reads Nfs3.longNumber (hyper n) (longNumber n) :=
  (reads_long n).last

theorem reads_time (v : Nfstime3) : Reads Nfs3.time v.encode v.packet :=
  (reads_int v.seconds).bind (reads_int v.nseconds).last

theorem reads_specdata (v : Specdata3) : Reads Nfs3.specdata v.encode v.packet :=
  (reads_int v.specdata1).bind (reads_int v.specdata2).last

theorem reads_fattr (v : Fattr3) : Reads Nfs3.fattr v.encode v.packet :=
  (reads_intNumber v.type).packetField.bind <|
  (reads_intNumber v.mode).packetField.bind <|
  (reads_intNumber v.nlink).packetField.bind <|
  (reads_intNumber v.uid).packetField.bind <|
  (reads_intNumber v.gid).packetField.bind <|
  (reads_longNumber v.size).packetField.bind <|
  (reads_longNumber v.used).packetField.bind <|
  (reads_specdata v.rdev).packetField.bind <|
  (reads_long v.fsid).bind <|
  (reads_longNumber v.fileid).packetField.bind <|
  (reads_time v.atime).packetField.bind <|
  (reads_time v.mtime).packetField.bind <|
  (reads_time v.ctime).packetField.last

theorem reads_absent {β : Type} (d : Dissector β) :
    Reads (Nfs3.following d) (word 0) (0, none) := by
  refine ⟨bigEndian_ne_nil, fun rest => ?_⟩
  rw [Nfs3.following, bind_run ((reads_int 0).runs _)]
  rfl

theorem leaves_present {β : Type} {d : Dissector β} {bytes left : Bytes} {b : β} (flag : UInt32)
    (set : flag ≠ 0) (here : Leaves d bytes b left) :
    Leaves (Nfs3.following d) (word flag ++ bytes) (flag.toNat, some b) left := by
  have holds : flag.toNat ≠ 0 := fun zero => set (UInt32.toNat.inj zero)
  refine (reads_int flag).bind ?_
  rw [decide_eq_true holds]
  exact here.packetField.last

theorem reads_following {α β : Type} {d : Dissector β} {encode : α → Bytes} {packet : α → β}
    (reads : ∀ v, Reads d (encode v) (packet v)) (v : Option α) :
    Reads (Nfs3.following d) (optional encode v) (follows v, v.map packet) := by
  cases v with
  | none => exact reads_absent d
  | some v => exact leaves_present 1 (by decide) (reads v)

theorem reads_postOpAttr (v : PostOpAttr) : Reads Nfs3.postOpAttr v.encode v.packet :=
  (reads_following reads_fattr v).last

theorem reads_wccAttr (v : WccAttr) : Reads Nfs3.wccAttr v.encode v.packet :=
  (reads_longNumber v.size).packetField.bind <|
  (reads_time v.mtime).packetField.bind <|
  (reads_time v.ctime).packetField.last

theorem reads_length (c : Counted) : Reads int (bigEndian 4 c.length) c.length :=
  (reads_integer c.property).field 0

theorem str_val (c : Counted) (rest : Bytes) :
    str c.length (c.val ++ rest) = .ok (c.val, rest) :=
  field_string_append rfl rest

theorem str_padding (c : Counted) (rest : Bytes) :
    str (padLength c.length) (c.padding ++ rest) = .ok (c.padding, rest) :=
  field_string_append List.length_replicate rest

theorem encode_ne_nil (c : Counted) : c.encode ≠ [] := by
  simp [Counted.encode]

theorem reads_text (c : Counted) : Reads Nfs3.text c.encode c.text := by
  refine ⟨encode_ne_nil c, fun rest => ?_⟩
  rw [Nfs3.text, Counted.encode, List.append_assoc, bind_run ((reads_length c).runs _)]
  rw [List.append_assoc, bind_run (str_val c _), bind_run (str_padding c _)]
  rfl

-- A file handle is read without the bytes that fill its last word.
theorem leaves_fhandle (c : Counted) : Leaves Nfs3.fhandle c.encode c.fhandle c.padding := by
  refine ⟨encode_ne_nil c, fun rest => ?_⟩
  rw [Nfs3.fhandle, Counted.encode, List.append_assoc, bind_run ((reads_length c).runs _)]
  rw [List.append_assoc, bind_run (str_val c _)]
  rfl

theorem leaves_verifier (v : OpaqueAuth) :
    Leaves Rpc.verifier v.encode v.packet v.body.padding := by
  have fits : v.body.length < 256 ^ 4 := v.body.property
  have length := (Leaves.map (reads_integer fits) some).field none
  refine (reads_int v.flavor).bind ⟨encode_ne_nil v.body, fun rest => ?_⟩
  rw [Counted.encode, List.append_assoc, bind_run (length.runs _)]
  rw [List.nil_append, List.append_assoc, Option.getD_some, bind_run (str_val v.body _)]
  rfl

theorem padding_eq_nil (c : Counted) : c.padding = [] ↔ 4 ∣ c.length := by
  rw [Counted.padding, List.replicate_eq_nil_iff, padLength]
  omega

theorem reads_fhandle {c : Counted} (whole : 4 ∣ c.length) :
    Reads Nfs3.fhandle c.encode c.fhandle :=
  (leaves_fhandle c).reads ((padding_eq_nil c).mpr whole)

theorem leaves_postOpFh (c : Counted) :
    Leaves Nfs3.postOpFh (PostOpFh3.encode (some c)) (PostOpFh3.packet (some c)) c.padding :=
  (leaves_present 1 (by decide) (leaves_fhandle c)).last

theorem reads_postOpFh {v : PostOpFh3} (whole : ∀ c ∈ v, 4 ∣ c.length) :
    Reads Nfs3.postOpFh v.encode v.packet := by
  cases v with
  | none => exact (reads_absent Nfs3.fhandle).last
  | some c => exact (leaves_postOpFh c).reads ((padding_eq_nil c).mpr (whole c rfl))

theorem reads_sattrguard (v : Sattrguard3) : Reads Nfs3.sattrguard v.encode v.packet :=
  (reads_following reads_time v).last

theorem reads_dirOpArgs {v : Diropargs3} (whole : 4 ∣ v.dir.length) :
    Reads Nfs3.dirOpArgs v.encode v.packet :=
  (reads_fhandle whole).packetField.bind (reads_text v.name).packetField.last

theorem reads_preOpAttr (v : WccAttr) :
    Reads Nfs3.preOpAttr (PreOpAttr.encode (some v)) (PreOpAttr.packet (some v)) :=
  (reads_int 1).bind (reads_wccAttr v).packetField.last

theorem reads_wccData (before : WccAttr) (after : PostOpAttr) :
    Reads Nfs3.wccData (WccData.encode ⟨some before, after⟩) (WccData.packet ⟨some before, after⟩) :=
  (reads_preOpAttr before).packetField.bind (reads_postOpAttr after).packetField.last

theorem reads_setTime {v : SetTime} (stated : v ≠ .setToServerTime) :
    Reads (Nfs3.following Nfs3.time) v.encode (v.how.toNat, v.time.map Nfstime3.packet) := by
  cases v with
  | dontChange => exact reads_absent Nfs3.time
  | setToServerTime => exact absurd rfl stated
  | setToClientTime time => exact leaves_present 2 (by decide) (reads_time time)

theorem reads_sattr {v : Sattr3} (atime : v.atime ≠ .setToServerTime)
    (mtime : v.mtime ≠ .setToServerTime) : Reads Nfs3.sattr v.encode v.packet :=
  (reads_following reads_intNumber v.mode).bind <|
  (reads_following reads_intNumber v.uid).bind <|
  (reads_following reads_intNumber v.gid).bind <|
  (reads_following reads_longNumber v.size).bind <|
  (reads_setTime atime).bind (reads_setTime mtime).last

theorem reads_symlinkData {v : Symlinkdata3} (atime : v.symlinkAttributes.atime ≠ .setToServerTime)
    (mtime : v.symlinkAttributes.mtime ≠ .setToServerTime) :
    Reads Nfs3.symlinkData v.encode v.packet :=
  (reads_sattr atime mtime).packetField.bind (reads_text v.symlinkData).packetField.last

theorem postOpFh_iff (v : PostOpFh3) (rest : Bytes) :
    Nfs3.postOpFh (v.encode ++ rest) = .ok (v.packet, rest) ↔ ∀ c ∈ v, 4 ∣ c.length := by
  cases v with
  | none => exact iff_of_true ((reads_postOpFh (by simp)).runs rest) (by simp)
  | some c =>
    rw [(leaves_postOpFh c).eq_nil_iff rest, padding_eq_nil c]
    simp

theorem reads_status (n : UInt32) : Reads Nfs3.status (word n) ⟨some n.toNat⟩ :=
  ((Leaves.map (reads_integer n.toNat_lt) some).field none).last

theorem fhandle_iff (c : Counted) (rest : Bytes) :
    Nfs3.fhandle (c.encode ++ rest) = .ok (c.fhandle, rest) ↔ 4 ∣ c.length :=
  ((leaves_fhandle c).eq_nil_iff rest).trans (padding_eq_nil c)

theorem verifier_iff (v : OpaqueAuth) (rest : Bytes) :
    Rpc.verifier (v.encode ++ rest) = .ok (v.packet, rest) ↔ 4 ∣ v.body.length :=
  ((leaves_verifier v).eq_nil_iff rest).trans (padding_eq_nil v.body)

theorem length_encode (c : Counted) :
    c.encode.length = 4 + (c.length + padLength c.length) := by
  simp [Counted.encode, Counted.padding, Counted.length]

theorem text_atMost {s rest : Bytes} {t : Nfs3.Text} (read : Nfs3.text s = .ok (t, rest)) :
    s.length ≤ rest.length + (4 + (t.l + padLength t.l)) := by
  obtain ⟨l, afterLength, length, read⟩ := bind_eq_ok.mp read
  obtain ⟨v, afterText, text, read⟩ := bind_eq_ok.mp read
  obtain ⟨p, afterPad, pad, read⟩ := bind_eq_ok.mp read
  obtain ⟨rfl, rfl⟩ := Prod.mk.inj (Except.ok.inj read)
  have lengthTaken := (AtMost.integer 4).field 0 s l afterLength length
  have textTaken := (AtMost.string l).field [] afterLength v afterText text
  have padTaken := (AtMost.string (padLength l)).field [] afterText p afterPad pad
  simp only
  omega

theorem dirOpArgs_iff (v : Diropargs3) (rest : Bytes) :
    Nfs3.dirOpArgs (v.encode ++ rest) = .ok (v.packet, rest) ↔ 4 ∣ v.dir.length := by
  constructor
  · intro read
    rw [Nfs3.dirOpArgs, Diropargs3.encode, List.append_assoc,
      bind_run ((leaves_fhandle v.dir).packetField.runs _)] at read
    obtain ⟨fname, left, text, read⟩ := bind_eq_ok.mp read
    obtain ⟨same, rfl⟩ := Prod.mk.inj (Except.ok.inj read)
    obtain rfl : fname = some v.name.text := congrArg Nfs3.DirOpArgs.fname same
    have taken := text_atMost (packetField_eq_some text)
    have empty : v.dir.padding.length = 0 := by
      simp only [List.length_append, length_encode, Counted.text] at taken
      omega
    exact (padding_eq_nil v.dir).mp (List.length_eq_zero_iff.mp empty)
  · intro whole
    exact (reads_dirOpArgs whole).runs rest

theorem present_of_none {β : Type} {d : Dissector β} {flag : UInt32} (set : flag ≠ 0)
    {rest left : Bytes} {n : Nat}
    (read : Nfs3.following d (word flag ++ rest) = .ok ((n, none), left)) : rest = [] := by
  have holds : flag.toNat ≠ 0 := fun zero => set (UInt32.toNat.inj zero)
  rw [Nfs3.following, bind_run ((reads_int flag).runs _), decide_eq_true holds] at read
  obtain ⟨value, t, found, read⟩ := bind_eq_ok.mp read
  obtain ⟨same, -⟩ := Prod.mk.inj (Except.ok.inj read)
  obtain rfl : value = none := congrArg Prod.snd same
  exact packetField_eq_none found

theorem present_at_end {β : Type} (d : Dissector β) (flag : UInt32) :
    Nfs3.following d (word flag ++ []) = .ok ((flag.toNat, none), []) := by
  rw [Nfs3.following, bind_run ((reads_int flag).runs [])]
  cases decide (flag.toNat ≠ 0) <;> rfl

theorem preOpAttr_none {rest left : Bytes}
    (read : Nfs3.preOpAttr (word 0 ++ rest) = .ok (⟨0, none⟩, left)) : rest = [] := by
  rw [Nfs3.preOpAttr, bind_run ((reads_int 0).runs _)] at read
  obtain ⟨attr, t, found, read⟩ := bind_eq_ok.mp read
  obtain ⟨same, -⟩ := Prod.mk.inj (Except.ok.inj read)
  obtain rfl : attr = none := congrArg Nfs3.PreOpAttr.attr same
  exact packetField_eq_none found

theorem preOpAttr_iff (v : PreOpAttr) (rest : Bytes) :
    Nfs3.preOpAttr (v.encode ++ rest) = .ok (v.packet, rest) ↔ (v = none → rest = []) := by
  cases v with
  | some v => exact iff_of_true ((reads_preOpAttr v).runs rest) nofun
  | none =>
    refine ⟨fun read _ => preOpAttr_none read, fun nothing => ?_⟩
    rw [nothing rfl]
    rfl

theorem optional_ne_nil {α : Type} (encode : α → Bytes) (v : Option α) :
    optional encode v ≠ [] := by
  cases v with
  | none => exact bigEndian_ne_nil
  | some v => exact List.append_ne_nil_of_left_ne_nil bigEndian_ne_nil _

theorem wccData_iff (v : WccData) (rest : Bytes) :
    Nfs3.wccData (v.encode ++ rest) = .ok (v.packet, rest) ↔ v.before ≠ none := by
  obtain ⟨before, after⟩ := v
  cases before with
  | some before => exact iff_of_true ((reads_wccData before after).runs rest) nofun
  | none =>
    refine iff_of_false (fun read => ?_) (not_not.mpr rfl)
    rw [WccData.encode, List.append_assoc] at read
    obtain ⟨before, t, found, read⟩ := bind_eq_ok.mp read
    obtain ⟨later, u, -, read⟩ := bind_eq_ok.mp read
    obtain ⟨same, -⟩ := Prod.mk.inj (Except.ok.inj read)
    obtain rfl : before = some ⟨0, none⟩ := congrArg Nfs3.WccData.before same
    have nothing := preOpAttr_none (packetField_eq_some found)
    exact optional_ne_nil Fattr3.encode after (List.append_eq_nil_iff.mp nothing).1

theorem setTime_ne_nil (v : SetTime) : v.encode ≠ [] := by
  cases v with
  | dontChange | setToServerTime => exact bigEndian_ne_nil
  | setToClientTime time => exact List.append_ne_nil_of_left_ne_nil bigEndian_ne_nil _

theorem sattr_encode (v : Sattr3) (rest : Bytes) :
    Nfs3.sattr (v.encode ++ rest) =
      (do
        let (setAtime, atime) ← Nfs3.following Nfs3.time
        let (setMtime, mtime) ← Nfs3.following Nfs3.time
        return { v.packet with setAtime, atime, setMtime, mtime } : Dissector Nfs3.Sattr)
        (v.atime.encode ++ (v.mtime.encode ++ rest)) := by
  have mode : Reads (Nfs3.following Nfs3.mode) _ _ := reads_following reads_intNumber v.mode
  have uid : Reads (Nfs3.following Nfs3.uid) _ _ := reads_following reads_intNumber v.uid
  have gid : Reads (Nfs3.following Nfs3.gid) _ _ := reads_following reads_intNumber v.gid
  have size : Reads (Nfs3.following Nfs3.size) _ _ := reads_following reads_longNumber v.size
  simp only [Sattr3.encode, List.append_assoc, Nfs3.sattr]
  rw [bind_run (mode.runs _), bind_run (uid.runs _), bind_run (gid.runs _), bind_run (size.runs _)]
  rfl

/-- A time that the server is to set is taken for one that follows, so there must be nothing that
could be read for it. -/
theorem sattr_times {v : Sattr3} {rest left : Bytes}
    (read : Nfs3.sattr (v.encode ++ rest) = .ok (v.packet, left)) :
    v.atime ≠ .setToServerTime ∧ (v.mtime = .setToServerTime → rest = []) := by
  rw [sattr_encode] at read
  obtain ⟨⟨setAtime, atime⟩, t, first, read⟩ := bind_eq_ok.mp read
  obtain ⟨⟨setMtime, mtime⟩, u, second, read⟩ := bind_eq_ok.mp read
  obtain ⟨same, -⟩ := Prod.mk.inj (Except.ok.inj read)
  obtain rfl : atime = v.atime.time.map Nfstime3.packet := congrArg Nfs3.Sattr.atime same
  obtain rfl : mtime = v.mtime.time.map Nfstime3.packet := congrArg Nfs3.Sattr.mtime same
  have stated : v.atime ≠ .setToServerTime := by
    intro server
    rw [server] at first
    have nothing := present_of_none (by decide) first
    exact setTime_ne_nil v.mtime (List.append_eq_nil_iff.mp nothing).1
  refine ⟨stated, fun server => ?_⟩
  rw [(reads_setTime stated).runs] at first
  obtain ⟨-, rfl⟩ := Prod.mk.inj (Except.ok.inj first)
  rw [server] at second
  exact present_of_none (by decide) second

theorem sattr_iff (v : Sattr3) (rest : Bytes) :
    Nfs3.sattr (v.encode ++ rest) = .ok (v.packet, rest) ↔
      v.atime ≠ .setToServerTime ∧ (v.mtime = .setToServerTime → rest = []) := by
  refine ⟨sattr_times, fun ⟨atime, mtime⟩ => ?_⟩
  by_cases server : v.mtime = .setToServerTime
  · have last : Nfs3.following Nfs3.time (v.mtime.encode ++ rest) =
        .ok ((v.mtime.how.toNat, v.mtime.time.map Nfstime3.packet), rest) := by
      rw [server, mtime server]
      exact present_at_end Nfs3.time 1
    rw [sattr_encode, bind_run ((reads_setTime atime).runs _)]
    exact bind_run last _
  · exact (reads_sattr atime server).runs rest

theorem symlinkData_iff (v : Symlinkdata3) (rest : Bytes) :
    Nfs3.symlinkData (v.encode ++ rest) = .ok (v.packet, rest) ↔
      v.symlinkAttributes.atime ≠ .setToServerTime ∧
        v.symlinkAttributes.mtime ≠ .setToServerTime := by
  refine ⟨fun read => ?_, fun ⟨atime, mtime⟩ => (reads_symlinkData atime mtime).runs rest⟩
  rw [Symlinkdata3.encode, List.append_assoc] at read
  obtain ⟨attr, t, found, read⟩ := bind_eq_ok.mp read
  obtain ⟨path, u, -, read⟩ := bind_eq_ok.mp read
  obtain ⟨same, -⟩ := Prod.mk.inj (Except.ok.inj read)
  obtain rfl : attr = some v.symlinkAttributes.packet := congrArg Nfs3.SymlinkData.attr same
  obtain ⟨atime, mtime⟩ := sattr_times (packetField_eq_some found)
  refine ⟨atime, fun server => ?_⟩
  exact encode_ne_nil v.symlinkData (List.append_eq_nil_iff.mp (mtime server)).1

end Rfc1813

/-- A type of the protocol with its encoding, and the packet class that is to read it. -/
structure Codec where
  Value : Type
  Packet : Type
  encode : Value → Bytes
  packet : Value → Packet
  dissect : Dissector Packet

theorem Codec.recovers {c : Codec} {v : c.Value} (reads : Reads c.dissect (c.encode v) (c.packet v))
    (rest : Bytes) : c.dissect (c.encode v ++ rest) = .ok (c.packet v, rest) :=
  reads.runs rest

inductive Basic where
  | fname | path | fileid | cookie | cookieverf | createverf | writeverf | uid | gid | size | offset
  | mode | count | ftype | verifier | specdata | time | fhandle | fattr | sattr | postOpAttr
  | postOpFh | wccAttr | preOpAttr | wccData | dirOpArgs | sattrguard | symlinkData | status
  deriving DecidableEq, Repr

namespace Basic

open Rfc1813

def counted (dissect : Dissector Nfs3.Text) : Codec :=
  ⟨Counted, Nfs3.Text, Counted.encode, Counted.text, dissect⟩

def uint32 (dissect : Dissector Nfs3.Number) : Codec :=
  ⟨UInt32, Nfs3.Number, word, intNumber, dissect⟩

def uint64 (dissect : Dissector Nfs3.Number) : Codec :=
  ⟨UInt64, Nfs3.Number, hyper, longNumber, dissect⟩

def codec : Basic → Codec
  | fname => counted Nfs3.fname
  | path => counted Nfs3.path
  | fileid => uint64 Nfs3.fileid
  | cookie => uint64 Nfs3.cookie
  | cookieverf => uint64 Nfs3.cookieverf
  | createverf => uint64 Nfs3.createverf
  | writeverf => uint64 Nfs3.writeverf
  | uid => uint32 Nfs3.uid
  | gid => uint32 Nfs3.gid
  | size => uint64 Nfs3.size
  | offset => uint64 Nfs3.offset
  | mode => uint32 Nfs3.mode
  | count => uint32 Nfs3.count
  | ftype => uint32 Nfs3.ftype
  | verifier => ⟨OpaqueAuth, Rpc.Verifier, OpaqueAuth.encode, OpaqueAuth.packet, Rpc.verifier⟩
  | specdata => ⟨Specdata3, Nfs3.Specdata, Specdata3.encode, Specdata3.packet, Nfs3.specdata⟩
  | time => ⟨Nfstime3, Nfs3.Time, Nfstime3.encode, Nfstime3.packet, Nfs3.time⟩
  | fhandle => ⟨Counted, Nfs3.Fhandle, Counted.encode, Counted.fhandle, Nfs3.fhandle⟩
  | fattr => ⟨Fattr3, Nfs3.Fattr, Fattr3.encode, Fattr3.packet, Nfs3.fattr⟩
  | sattr => ⟨Sattr3, Nfs3.Sattr, Sattr3.encode, Sattr3.packet, Nfs3.sattr⟩
  | postOpAttr =>
    ⟨PostOpAttr, Nfs3.PostOpAttr, PostOpAttr.encode, PostOpAttr.packet, Nfs3.postOpAttr⟩
  | postOpFh => ⟨PostOpFh3, Nfs3.PostOpFh, PostOpFh3.encode, PostOpFh3.packet, Nfs3.postOpFh⟩
  | wccAttr => ⟨WccAttr, Nfs3.WccAttr, WccAttr.encode, WccAttr.packet, Nfs3.wccAttr⟩
  | preOpAttr => ⟨PreOpAttr, Nfs3.PreOpAttr, PreOpAttr.encode, PreOpAttr.packet, Nfs3.preOpAttr⟩
  | wccData => ⟨WccData, Nfs3.WccData, WccData.encode, WccData.packet, Nfs3.wccData⟩
  | dirOpArgs => ⟨Diropargs3, Nfs3.DirOpArgs, Diropargs3.encode, Diropargs3.packet, Nfs3.dirOpArgs⟩
  | sattrguard =>
    ⟨Sattrguard3, Nfs3.Sattrguard, Sattrguard3.encode, Sattrguard3.packet, Nfs3.sattrguard⟩
  | symlinkData =>
    ⟨Symlinkdata3, Nfs3.SymlinkData, Symlinkdata3.encode, Symlinkdata3.packet, Nfs3.symlinkData⟩
  | status => ⟨UInt32, Nfs3.Status, word, fun n => ⟨some n.toNat⟩, Nfs3.status⟩

/-- Nothing has to be filled up behind a handle or a verifier, no time is left to the server unless
nothing can be read for it, and the attributes from before an operation are there. -/
def Recoverable : (t : Basic) → t.codec.Value → Bytes → Prop
  | fhandle, (c : Counted), _ => 4 ∣ c.length
  | verifier, (v : OpaqueAuth), _ => 4 ∣ v.body.length
  | postOpFh, (v : PostOpFh3), _ => ∀ c ∈ v, 4 ∣ c.length
  | dirOpArgs, (v : Diropargs3), _ => 4 ∣ v.dir.length
  | sattr, (v : Sattr3), rest =>
    v.atime ≠ .setToServerTime ∧ (v.mtime = .setToServerTime → rest = [])
  | symlinkData, (v : Symlinkdata3), _ =>
    v.symlinkAttributes.atime ≠ .setToServerTime ∧ v.symlinkAttributes.mtime ≠ .setToServerTime
  | preOpAttr, (v : PreOpAttr), rest => v = none → rest = []
  | wccData, (v : WccData), _ => v.before ≠ none
  | _, _, _ => True

end Basic

open Rfc1813 in
/-- The packet class of a basic type reads an encoded value back and leaves exactly what follows just
when the value is recoverable there. -/
theorem basic_recovered_iff (t : Basic) (v : t.codec.Value) (rest : Bytes) :
    t.codec.dissect (t.codec.encode v ++ rest) = .ok (t.codec.packet v, rest) ↔
      t.Recoverable v rest := by
  cases t with
  | fname | path => exact iff_of_true (Codec.recovers (reads_text v) rest) trivial
  | fileid | cookie | cookieverf | createverf | writeverf | size | offset =>
    exact iff_of_true (Codec.recovers (reads_longNumber v) rest) trivial
  | uid | gid | mode | count | ftype => exact iff_of_true (Codec.recovers (reads_intNumber v) rest) trivial
  | verifier => exact verifier_iff v rest
  | specdata => exact iff_of_true (Codec.recovers (reads_specdata v) rest) trivial
  | time => exact iff_of_true (Codec.recovers (reads_time v) rest) trivial
  | fhandle => exact fhandle_iff v rest
  | fattr => exact iff_of_true (Codec.recovers (reads_fattr v) rest) trivial
  | sattr => exact sattr_iff v rest
  | postOpAttr => exact iff_of_true (Codec.recovers (reads_postOpAttr v) rest) trivial
  | postOpFh => exact postOpFh_iff v rest
  | wccAttr => exact iff_of_true (Codec.recovers (reads_wccAttr v) rest) trivial
  | preOpAttr => exact preOpAttr_iff v rest
  | wccData => exact wccData_iff v rest
  | dirOpArgs => exact dirOpArgs_iff v rest
  | sattrguard => exact iff_of_true (Codec.recovers (reads_sattrguard v) rest) trivial
  | symlinkData => exact symlinkData_iff v rest
  | status => exact iff_of_true (Codec.recovers (reads_status v) rest) trivial

-- The three bytes that fill up a handle of one byte are left for the next field.
theorem unfilled_handle_not_recovered :
    ¬ ∀ (t : Basic) (v : t.codec.Value) (rest : Bytes),
      t.codec.dissect (t.codec.encode v ++ rest) = .ok (t.codec.packet v, rest) := by
  intro all
  have handle := all .fhandle (⟨[7], by decide⟩ : Rfc1813.Counted) []
  exact absurd (congrArg (Except.map Prod.snd) handle) (by decide)

end VirtueSensing.Nfs
