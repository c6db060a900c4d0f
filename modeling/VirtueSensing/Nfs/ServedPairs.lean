import VirtueSensing.Nfs.MountReports

set_option autoImplicit false

/-!
# Packets of calls that succeeded

What the packets of a call and of its results hold of the values in them, for the procedures that the
dictionaries follow.
-/

namespace VirtueSensing.Nfs

open Dissect Rfc1813

namespace PacketClass

variable {name : Attr} {getfield : Fields → Dissector Value} {pkt later : Fields} {s t : Bytes}
  {value : Value}

theorem readFields_cons {rest : List (Attr × (Fields → Dissector Value))}
    (read : getfield pkt s = .ok (value, t)) :
    readFields ((name, getfield) :: rest) pkt s =
      readFields rest (Function.update pkt name value) t :=
  bind_run read _

theorem readFields_last (read : getfield pkt s = .ok (value, t)) :
    readFields [(name, getfield)] pkt s = .ok (Function.update pkt name value, t) :=
  bind_run read _

end PacketClass

section Fields

variable {α : Type} {d : Dissector α} {bytes : Bytes} {a : α}

theorem packet_run (value : α → Value) (reads : Reads d bytes a) (pkt : Fields) (rest : Bytes) :
    packet value d pkt (bytes ++ rest) = .ok (value a, rest) := by
  rw [packet, map_apply, reads.packetField.runs]
  rfl

theorem packet_whole (value : α → Value) (reads : Reads d bytes a) (pkt : Fields) :
    packet value d pkt bytes = .ok (value a, []) := by
  have alone := packet_run value reads pkt []
  rwa [List.append_nil] at alone

theorem handleField_run {c : Counted} (whole : 4 ∣ c.length) (pkt : Fields) (rest : Bytes) :
    handleField pkt (c.encode ++ rest) = .ok (.handle (some c.fhandle), rest) := by
  rw [handleField, map_apply, (reads_fhandle whole).packetField.runs]

theorem intField_run (n : UInt32) (pkt : Fields) (rest : Bytes) :
    intField pkt (word n ++ rest) = .ok (.int n.toNat, rest) := by
  rw [intField, map_apply, (reads_int n).runs]

end Fields

namespace LayeredClass

theorem layers_plain {cls : PacketClass} {s : Bytes} {pkt : Nfs.Fields} (more : s ≠ [])
    (read : cls.dissect s = .ok (pkt, [])) : (plain cls).layers s = [⟨cls.names, pkt⟩] := by
  have read : (plain cls).cls.dissect s = .ok (pkt, []) := read
  rw [layers, if_neg more, read]
  rfl

theorem layers_payload {c : LayeredClass} {cls : PacketClass} {s left : Bytes} {pkt inner : Nfs.Fields}
    (more : s ≠ []) (read : c.cls.dissect s = .ok (pkt, left)) (behind : left ≠ [])
    (guessed : c.payload pkt = some cls) (inside : cls.dissect left = .ok (inner, [])) :
    c.layers s = [⟨c.cls.names, pkt⟩, ⟨cls.names, inner⟩] := by
  rw [layers, if_neg more, read]
  simp only [if_neg behind, guessed, inside]
  rfl

end LayeredClass

/-- What CREATE, MKDIR and SYMLINK answer. -/
structure Made3 where
  obj : PostOpFh3
  objAttributes : PostOpAttr
  dirWcc : WccData
  deriving DecidableEq

def Made3.encode (v : Made3) : Bytes :=
  PostOpFh3.encode v.obj ++ (PostOpAttr.encode v.objAttributes ++ v.dirWcc.encode)

abbrev AuthFlavors := { flavors : List UInt32 // flavors.length < 2 ^ 32 }

/-- A call that succeeded, with its results. -/
inductive Served where
  | mnt (dirpath handle : Counted) (flavors : AuthFlavors)
  | lookup (what : Diropargs3) (object : Counted) (objAttributes dirAttributes : PostOpAttr)
  | create (where_ : Diropargs3) (how : Createhow3) (made : Made3)
  | mkdir (where_ : Diropargs3) (attributes : Sattr3) (made : Made3)
  | symlink (where_ : Diropargs3) (data : Symlinkdata3) (made : Made3)
  | link (file : Counted) (args : Diropargs3) (attributes : PostOpAttr) (linkdirWcc : WccData)
  | remove (object : Diropargs3) (dirWcc : WccData)
  | rmdir (object : Diropargs3) (dirWcc : WccData)
  | rename (ffrom fto : Diropargs3) (fromdirWcc todirWcc : WccData)
  deriving DecidableEq

namespace Served

def call : Served → ProgramCall
  | mnt dirpath _ _ => .mount (.mnt dirpath)
  | lookup what _ _ _ => .nfs (.lookup what)
  | create args how _ => .nfs (.create args how)
  | mkdir args attributes _ => .nfs (.mkdir args attributes)
  | symlink args data _ => .nfs (.symlink args data)
  | link file args _ _ => .nfs (.link file args)
  | remove object _ => .nfs (.remove object)
  | rmdir object _ => .nfs (.rmdir object)
  | rename ffrom fto _ _ => .nfs (.rename ffrom fto)

-- Behind the status.
def values : Served → Bytes
  | mnt _ handle flavors =>
    handle.encode ++ (bigEndian 4 flavors.val.length ++ flavors.val.flatMap word)
  | lookup _ object objAttributes dirAttributes =>
    object.encode ++ (PostOpAttr.encode objAttributes ++ PostOpAttr.encode dirAttributes)
  | create _ _ made | mkdir _ _ made | symlink _ _ made => made.encode
  | link _ _ attributes linkdirWcc => PostOpAttr.encode attributes ++ linkdirWcc.encode
  | remove _ dirWcc | rmdir _ dirWcc => dirWcc.encode
  | rename _ _ fromdirWcc todirWcc => fromdirWcc.encode ++ todirWcc.encode

def results (s : Served) : Bytes := word 0 ++ s.values

def operation : Served → Operation
  | mnt dirpath handle _ => .mnt dirpath.val (some handle.fhandle)
  | lookup what object _ _ => .lookup (some what.dir.fhandle) what.name.val (some object.fhandle)
  | create args _ made => .make .create (some args.dir.fhandle) args.name.val (made.obj.map (some ·.fhandle))
  | mkdir args _ made => .make .mkdir (some args.dir.fhandle) args.name.val (made.obj.map (some ·.fhandle))
  | symlink args _ made =>
    .make .symlink (some args.dir.fhandle) args.name.val (made.obj.map (some ·.fhandle))
  | link file args _ _ => .link (some file.fhandle) (some args.dir.fhandle) args.name.val
  | remove object _ => .remove (some object.dir.fhandle) object.name.val
  | rmdir object _ => .rmdir (some object.dir.fhandle) object.name.val
  | rename ffrom fto _ _ =>
    .rename (some ffrom.dir.fhandle) ffrom.name.val (some fto.dir.fhandle) fto.name.val

end Served

-- The server is not to set the time of the last access, which is taken for a time that follows.
def Createhow3.Whole : Createhow3 → Prop
  | unchecked attributes | guarded attributes => attributes.atime ≠ .setToServerTime
  | exclusive _ => True

instance : (how : Createhow3) → Decidable how.Whole
  | .unchecked _ => inferInstanceAs (Decidable (_ ≠ _))
  | .guarded _ => inferInstanceAs (Decidable (_ ≠ _))
  | .exclusive _ => .isTrue trivial

def Made3.Whole (made : Made3) : Prop :=
  (∀ c ∈ made.obj, 4 ∣ c.length) ∧ made.dirWcc.before ≠ none

instance (made : Made3) : Decidable made.Whole := inferInstanceAs (Decidable (_ ∧ _))

/-- The handles fill their last word, and the attributes from before the operation are there. Of LINK,
REMOVE, RMDIR and RENAME nothing is read. -/
def Served.Whole : Served → Prop
  | mnt _ handle _ => 4 ∣ handle.length
  | lookup what object _ _ => 4 ∣ what.dir.length ∧ 4 ∣ object.length
  | create args how made => 4 ∣ args.dir.length ∧ how.Whole ∧ made.Whole
  | mkdir args attributes made =>
    4 ∣ args.dir.length ∧ attributes.atime ≠ .setToServerTime ∧ made.Whole
  | symlink args data made =>
    4 ∣ args.dir.length ∧
      (data.symlinkAttributes.atime ≠ .setToServerTime ∧
        data.symlinkAttributes.mtime ≠ .setToServerTime) ∧ made.Whole
  | link _ _ _ _ | remove _ _ | rmdir _ _ | rename _ _ _ _ => True

instance : (s : Served) → Decidable s.Whole
  | .mnt _ _ _ => inferInstanceAs (Decidable (_ ∣ _))
  | .lookup _ _ _ _ => inferInstanceAs (Decidable (_ ∧ _))
  | .create _ _ _ => inferInstanceAs (Decidable (_ ∧ _ ∧ _))
  | .mkdir _ _ _ => inferInstanceAs (Decidable (_ ∧ _ ∧ _))
  | .symlink _ _ _ => inferInstanceAs (Decidable (_ ∧ (_ ∧ _) ∧ _))
  | .link _ _ _ _ | .remove _ _ | .rmdir _ _ | .rename _ _ _ _ => .isTrue trivial

section Arguments

variable {args : Diropargs3}

theorem dirOp_run (whole : 4 ∣ args.dir.length) (pkt : Fields) (rest : Bytes) :
    packet .dirOpArgs Nfs3.dirOpArgs pkt (args.encode ++ rest) =
      .ok (.dirOpArgs args.packet, rest) :=
  packet_run .dirOpArgs (reads_dirOpArgs whole) pkt rest

theorem mnt_args (dirpath : Counted) :
    ∃ pkt, Calls.mountPath.dissect dirpath.encode = .ok (pkt, []) ∧ pkt .path = .text dirpath.text :=
  ⟨_, PacketClass.readFields_last (packet_whole .text (reads_text dirpath) _), rfl⟩

theorem lookup_args (whole : 4 ∣ args.dir.length) :
    ∃ pkt, Calls.lookup.dissect args.encode = .ok (pkt, []) ∧ pkt .args = .dirOpArgs args.packet :=
  ⟨_, PacketClass.readFields_last (packet_whole .dirOpArgs (reads_dirOpArgs whole) _), rfl⟩

-- The attributes are the last field, so nothing can be read for the time of the last change.
theorem sattr_whole {attributes : Sattr3} (stated : attributes.atime ≠ .setToServerTime)
    (pkt : Fields) : unreadPacket Nfs3.sattr pkt attributes.encode = .ok (.unread, []) := by
  have read := (sattr_iff attributes []).mpr ⟨stated, fun _ => rfl⟩
  rw [List.append_nil] at read
  have more : attributes.encode ≠ [] := by
    rw [Sattr3.encode]
    exact List.append_ne_nil_of_left_ne_nil (optional_ne_nil word _) _
  rw [unreadPacket, packet, map_apply, packetField_run more read]
  rfl

theorem mkdir_args {attributes : Sattr3} (whole : 4 ∣ args.dir.length)
    (stated : attributes.atime ≠ .setToServerTime) :
    ∃ pkt, Calls.mkdir.dissect (args.encode ++ attributes.encode) = .ok (pkt, []) ∧
      pkt .args = .dirOpArgs args.packet :=
  ⟨_, (PacketClass.readFields_cons (dirOp_run whole _ _)).trans
    (PacketClass.readFields_last (sattr_whole stated _)), rfl⟩

theorem symlink_args {data : Symlinkdata3} (whole : 4 ∣ args.dir.length)
    (atime : data.symlinkAttributes.atime ≠ .setToServerTime)
    (mtime : data.symlinkAttributes.mtime ≠ .setToServerTime) :
    ∃ pkt, Calls.symlink.dissect (args.encode ++ data.encode) = .ok (pkt, []) ∧
      pkt .where_ = .dirOpArgs args.packet :=
  ⟨_, (PacketClass.readFields_cons (dirOp_run whole _ _)).trans
    (PacketClass.readFields_last (packet_whole .symlinkData (reads_symlinkData atime mtime) _)), rfl⟩

theorem createAttr_whole {attributes : Sattr3} (stated : attributes.atime ≠ .setToServerTime)
    {pkt : Fields} (mode : pkt .mode = .int 0 ∨ pkt .mode = .int 1) :
    Calls.createAttr pkt attributes.encode = .ok (.unread, []) := by
  rw [Calls.createAttr, if_pos mode]
  exact sattr_whole stated pkt

theorem createAttr_absent {pkt : Fields} {s : Bytes} (mode : pkt .mode = .int 2) :
    Calls.createAttr pkt s = .ok (.none, s) := by
  rw [Calls.createAttr, mode]
  rfl

theorem createHow_absent {pkt : Fields} {s : Bytes} (mode : pkt .mode ≠ .int 2) :
    Calls.createHow pkt s = .ok (.none, s) := by
  rw [Calls.createHow, if_neg mode]
  rfl

theorem createHow_whole {pkt : Fields} (mode : pkt .mode = .int 2) (verf : UInt64) :
    Calls.createHow pkt (hyper verf) = .ok (.unread, []) := by
  rw [Calls.createHow, if_pos mode]
  exact packet_whole _ (reads_longNumber verf) pkt

theorem create_args {how : Createhow3} (whole : 4 ∣ args.dir.length) (stated : how.Whole) :
    ∃ pkt, Calls.create.dissect (args.encode ++ how.encode) = .ok (pkt, []) ∧
      pkt .args = .dirOpArgs args.packet := by
  have dir (rest : Bytes) := dirOp_run whole (fun _ => .none) rest
  cases how with
  | unchecked attributes =>
    exact ⟨_, (PacketClass.readFields_cons (dir _)).trans <|
      (PacketClass.readFields_cons (intField_run 0 _ _)).trans <|
      (PacketClass.readFields_cons (createAttr_whole stated (.inl rfl))).trans <|
      PacketClass.readFields_last (createHow_absent nofun), rfl⟩
  | guarded attributes =>
    exact ⟨_, (PacketClass.readFields_cons (dir _)).trans <|
      (PacketClass.readFields_cons (intField_run 1 _ _)).trans <|
      (PacketClass.readFields_cons (createAttr_whole stated (.inr rfl))).trans <|
      PacketClass.readFields_last (createHow_absent nofun), rfl⟩
  | exclusive verf =>
    exact ⟨_, (PacketClass.readFields_cons (dir _)).trans <|
      (PacketClass.readFields_cons (intField_run 2 _ _)).trans <|
      (PacketClass.readFields_cons (createAttr_absent rfl)).trans <|
      PacketClass.readFields_last (createHow_whole rfl verf), rfl⟩

end Arguments

section Results

theorem made_results {made : Made3} (whole : made.Whole) :
    ∃ pkt, Replies.madeOk.dissect made.encode = .ok (pkt, []) ∧
      pkt .handle = .postOpFh (PostOpFh3.packet made.obj) := by
  obtain ⟨obj, objAttributes, ⟨before, after⟩⟩ := made
  obtain ⟨filled, there⟩ := whole
  cases before with
  | none => exact absurd rfl there
  | some before =>
    exact ⟨_, (PacketClass.readFields_cons (packet_run .postOpFh (reads_postOpFh filled) _ _)).trans <|
      (PacketClass.readFields_cons (packet_run _ (reads_postOpAttr objAttributes) _ _)).trans <|
      PacketClass.readFields_last (packet_whole _ (reads_wccData before after) _), rfl⟩

theorem lookup_results {object : Counted} (whole : 4 ∣ object.length)
    (objAttributes dirAttributes : PostOpAttr) :
    ∃ pkt, Replies.lookupOk.dissect
        (object.encode ++ (PostOpAttr.encode objAttributes ++ PostOpAttr.encode dirAttributes)) =
          .ok (pkt, []) ∧ pkt .handle = .handle (some object.fhandle) :=
  ⟨_, (PacketClass.readFields_cons (handleField_run whole _ _)).trans <|
    (PacketClass.readFields_cons (packet_run _ (reads_postOpAttr objAttributes) _ _)).trans <|
    PacketClass.readFields_last (packet_whole _ (reads_postOpAttr dirAttributes) _), rfl⟩

theorem words_ne_nil (flavor : UInt32) (flavors : List UInt32) :
    (flavor :: flavors).flatMap word ≠ [] := by
  simp [word]

theorem fieldList_words (flavors : List UInt32) :
    fieldList (integer 4) flavors.length (flavors.flatMap word) =
      .ok (flavors.map UInt32.toNat, []) := by
  induction flavors with
  | nil => rfl
  | cons flavor flavors ih =>
    have first : Reads (integer 4) (word flavor) flavor.toNat := reads_integer flavor.toNat_lt
    rw [List.length_cons, fieldList, field_of_ne_nil [] _ (words_ne_nil flavor flavors)]
    exact (bind_run (first.runs _) _).trans (bind_run ih _)

theorem authFlavors_run {pkt : Fields} (flavors : List UInt32)
    (count : pkt .authFlavorCt = .int flavors.length) :
    Replies.authFlavors pkt (flavors.flatMap word) = .ok (.unread, []) := by
  simp only [Replies.authFlavors, count, map_apply]
  cases flavors with
  | nil => rfl
  | cons flavor flavors =>
    rw [field_of_ne_nil [0] _ (words_ne_nil flavor flavors), fieldList_words]

theorem mnt_results {handle : Counted} (whole : 4 ∣ handle.length) (flavors : AuthFlavors) :
    ∃ pkt, Replies.mntOk.dissect
        (handle.encode ++ (bigEndian 4 flavors.val.length ++ flavors.val.flatMap word)) =
          .ok (pkt, []) ∧ pkt .handle = .handle (some handle.fhandle) := by
  have length : Reads int (bigEndian 4 flavors.val.length) flavors.val.length :=
    (reads_integer flavors.property).field 0
  have count (pkt : Fields) (rest : Bytes) :
      intField pkt (bigEndian 4 flavors.val.length ++ rest) = .ok (.int flavors.val.length, rest) := by
    rw [intField, map_apply, length.runs]
  exact ⟨_, (PacketClass.readFields_cons (handleField_run whole _ _)).trans <|
    (PacketClass.readFields_cons (count _ _)).trans <|
    PacketClass.readFields_last (authFlavors_run _ rfl), rfl⟩

end Results

def callHeaders : List Attr := rpcHeader.fields ++ Rpc.callNames

def replyHeaders : List Attr := rpcHeader.fields ++ Rpc.replyNames

theorem get_behind {first second : Layer Attr Value} {rest : Packet} {a : Attr}
    (here : a ∉ first.fields) (there : a ∉ second.fields) :
    Packet.get (first :: second :: rest) a = Packet.get rest a := by
  have front : ∀ layer ∈ [first, second], a ∉ layer.fields := by
    intro layer member
    rcases List.mem_pair.mp member with rfl | rfl
    · exact here
    · exact there
  have behind := Layer.lookup_append_of_absent front rest
  rw [Packet.get, Packet.get, ← behind]
  rfl

theorem get_first {layer : Layer Attr Value} {rest : Packet} {a : Attr} (here : a ∈ layer.fields) :
    Packet.get (layer :: rest) a = .ok (layer.value a) := by
  rw [Packet.get, Layer.lookup, if_pos here]

theorem get_second {layer second : Layer Attr Value} {rest : Packet} {a : Attr}
    (here : a ∉ layer.fields) (there : a ∈ second.fields) :
    Packet.get (layer :: second :: rest) a = .ok (second.value a) := by
  rw [Packet.get, Layer.lookup, if_neg here, Layer.lookup, if_pos there]

namespace Pair

variable {p : Pair} {a : Attr} {pkt : Fields}

theorem args_of_aligned (aligned : (Rfc1831.Message.call p.body).Aligned) :
    p.args = p.call.encode := by
  obtain ⟨q, read, -⟩ := p.callPacket_layers
  obtain ⟨q', found⟩ := (Rfc1831.call_iff p.body).mpr aligned
  exact congrArg Prod.snd (Except.ok.inj (read.symm.trans found))

theorem callPacket_get (aligned : (Rfc1831.Message.call p.body).Aligned) {cls : PacketClass}
    (found : p.call.argsClass = some (.plain cls)) (more : p.call.encode ≠ [])
    (read : cls.dissect p.call.encode = .ok (pkt, [])) (own : a ∉ callHeaders) (field : a ∈ cls.names) :
    p.callPacket.get a = .ok (pkt a) := by
  obtain ⟨q, -, -, -, layers⟩ := p.callPacket_layers
  rw [layers, args_of_aligned aligned, found]
  have here : a ∉ rpcHeader.fields := fun member => own (List.mem_append_left _ member)
  have there : a ∉ q.layer.fields := fun member => own (List.mem_append_right _ member)
  rw [get_behind here there, Option.elim_some, LayeredClass.layers_plain more read]
  exact get_first field

theorem replyPacket_served {verf : OpaqueAuth} {results : Bytes} {cls : ReplyClass}
    (accepted : p.answer = .accepted ⟨verf, 0, results⟩) (aligned : 4 ∣ verf.body.length)
    (more : results ≠ []) (found : p.call.replyClass = some cls) :
    ∃ q : Rpc.Reply, q.acceptState = some ⟨success⟩ ∧
      p.replyPacket = rpcHeader :: q.layer :: cls.packetClass.layers results := by
  have read := Rfc1831.reply_aligned 0 0 aligned results
  refine ⟨⟨(0 : UInt32).toNat, some verf.packet, some ⟨(0 : UInt32).toNat⟩⟩, rfl, ?_⟩
  rw [replyPacket, accepted, found, Nfs.replyPacket, Answer.message, Rfc1831.Message.encode, read]
  simp only [Rpc.Reply.payloadClass, if_neg more]
  rfl

theorem replyPacket_get {q : Rpc.Reply} {layers : Packet}
    (parts : p.replyPacket = rpcHeader :: q.layer :: layers) (own : a ∉ replyHeaders) :
    p.replyPacket.get a = layers.get a := by
  have here : a ∉ rpcHeader.fields := fun member => own (List.mem_append_left _ member)
  have there : a ∉ q.layer.fields := fun member => own (List.mem_append_right _ member)
  rw [parts, get_behind here there]

end Pair

theorem withStatus_layers {ok : PacketClass} (fail : Option PacketClass) {values : Bytes}
    {inner : Fields} (behind : values ≠ []) (read : ok.dissect values = .ok (inner, [])) :
    ∃ pkt, pkt .nfsStatus = .nfsStatus ⟨some 0⟩ ∧
      (Replies.withStatus ok fail).layers (word 0 ++ values) =
        [⟨[.nfsStatus], pkt⟩, ⟨ok.names, inner⟩] := by
  have status : (Replies.withStatus ok fail).cls.dissect (word 0 ++ values) = _ :=
    PacketClass.readFields_last (packet_run .nfsStatus (reads_status 0) _ values)
  have more : word 0 ++ values ≠ [] := by simp [word]
  refine ⟨_, rfl, LayeredClass.layers_payload more status behind ?_ read⟩
  rfl

section Answers

variable {p : Pair} {verf : OpaqueAuth} {values : Bytes} {inner : Fields}

theorem replyPacket_succeeds {procedure : Procedure} {ok : PacketClass} {fail : Option PacketClass}
    (accepted : p.answer = .accepted ⟨verf, 0, word 0 ++ values⟩) (aligned : 4 ∣ verf.body.length)
    (found : p.call.replyClass = some (.nfs procedure))
    (cls : nfs3ReplyClass procedure = Replies.withStatus ok fail) (behind : values ≠ [])
    (read : ok.dissect values = .ok (inner, [])) :
    p.replyPacket.succeeds = .ok true ∧
      ∀ a, a ∉ replyHeaders → a ∉ [Attr.nfsStatus] → a ∈ ok.names →
        p.replyPacket.get a = .ok (inner a) := by
  have more : word 0 ++ values ≠ [] := by simp [word]
  obtain ⟨q, -, parts⟩ := Pair.replyPacket_served accepted aligned more found
  obtain ⟨pkt, zero, layers⟩ := withStatus_layers fail behind read
  have same : (ReplyClass.nfs procedure).packetClass = Replies.withStatus ok fail := cls
  rw [same, layers] at parts
  constructor
  · have status : p.replyPacket.get .nfsStatus = .ok (.nfsStatus ⟨some 0⟩) := by
      rw [Pair.replyPacket_get parts (by decide), ← zero]
      exact get_first (List.mem_singleton_self _)
    rw [Packet.succeeds, status]
    rfl
  · intro a own other field
    rw [Pair.replyPacket_get parts own]
    exact get_second other field

theorem replyPacket_mounted (accepted : p.answer = .accepted ⟨verf, 0, word 0 ++ values⟩)
    (aligned : 4 ∣ verf.body.length) (found : p.call.replyClass = some .mountMnt) (behind : values ≠ [])
    (read : Replies.mntOk.dissect values = .ok (inner, [])) :
    p.replyPacket.isReplyParsable (.mount .mnt) = .ok true ∧
      p.replyPacket.get .handle = .ok (inner .handle) := by
  have more : word 0 ++ values ≠ [] := by simp [word]
  obtain ⟨q, zero, parts⟩ := Pair.replyPacket_served accepted aligned more found
  have status : Replies.mnt.cls.dissect (word 0 ++ values) = _ :=
    PacketClass.readFields_last (intField_run 0 _ values)
  have layers := LayeredClass.layers_payload more status behind rfl read
  have same : ReplyClass.mountMnt.packetClass = Replies.mnt := rfl
  rw [same, layers] at parts
  constructor
  · have accept : p.replyPacket.acceptV = .ok success := by
      have here : p.replyPacket.get .acceptState = .ok (.rpcStatus ⟨success⟩) := by
        have field : Attr.acceptState ∈ Rpc.replyNames := by decide
        rw [parts, get_second (by decide) field, Rpc.Reply.layer, zero]
        rfl
      rw [Packet.acceptV, here]
      rfl
    have state : p.replyPacket.get .status = .ok (.int 0) := by
      rw [Pair.replyPacket_get parts (by decide)]
      exact get_first (List.mem_singleton_self _)
    rw [Packet.isReplyParsable, accept, Except.ok_bind, if_neg (not_not.mpr rfl),
      Packet.isResultParsable, state]
    rfl
  · have field : Attr.handle ∈ Replies.mntOk.names := by decide
    rw [Pair.replyPacket_get parts (by decide)]
    exact get_second (by decide) field

end Answers

structure ServedPair where
  rpcvers : UInt32
  vers : UInt32
  cred : OpaqueAuth
  verf : OpaqueAuth
  replyVerf : OpaqueAuth
  served : Served
  deriving DecidableEq

namespace ServedPair

def pair (e : ServedPair) : Pair :=
  ⟨e.rpcvers, e.vers, e.cred, e.verf, e.served.call, .accepted ⟨e.replyVerf, 0, e.served.results⟩⟩

/-- Both headers end where the values begin, and the caller and the values are read. -/
structure Read (e : ServedPair) : Prop where
  call : (Rfc1831.Message.call e.pair.body).Aligned
  reply : 4 ∣ e.replyVerf.body.length
  legible : e.pair.callPacket.Legible
  whole : e.served.Whole

section Tracked

variable {rpcvers vers : UInt32} {cred verf replyVerf : OpaqueAuth} (m : Monitor)

theorem update_mnt {dirpath handle : Counted} {flavors : AuthFlavors}
    (read : Read ⟨rpcvers, vers, cred, verf, replyVerf, .mnt dirpath handle flavors⟩) :
    let p := pair ⟨rpcvers, vers, cred, verf, replyVerf, .mnt dirpath handle flavors⟩
    updatePacketState m p.callPacket p.replyPacket =
      (updateState m (.operation (.mnt dirpath.val (some handle.fhandle)))).mapError .state := by
  intro p
  obtain ⟨args, argsRead, path⟩ := mnt_args dirpath
  obtain ⟨inner, resultsRead, found⟩ := mnt_results read.whole flavors
  have behind : handle.encode ++ (bigEndian 4 flavors.val.length ++ flavors.val.flatMap word) ≠ [] :=
    List.append_ne_nil_of_left_ne_nil (encode_ne_nil handle) _
  obtain ⟨parsable, there⟩ := replyPacket_mounted (p := p) rfl read.reply rfl behind resultsRead
  have here : p.callPacket.get .path = .ok (.text dirpath.text) := by
    rw [← path]
    exact Pair.callPacket_get read.call rfl (encode_ne_nil dirpath) argsRead (by decide) (by decide)
  obtain ⟨who, known⟩ := getAuthStr_iff.mpr read.legible
  have exchange : p.callPacket.exchange p.replyPacket (.mount .mnt) =
      .ok (some (.operation (.mnt dirpath.val (some handle.fhandle)))) := by
    have known : p.callPacket.getAuthStr = .ok who := known
    simp only [Packet.exchange, here, known, there, found, Except.ok_bind]
    rfl
  exact update_exchange p.callPacket_program parsable exchange

theorem update_succeeded {p : Pair} {procedure : Procedure} {op : Operation}
    (program : p.callPacket.program = .ok (.nfs procedure)) (ok : p.replyPacket.succeeds = .ok true)
    (told : p.callPacket.exchange p.replyPacket (.nfs procedure) = .ok (some (.operation op))) :
    updatePacketState m p.callPacket p.replyPacket = (updateState m (.operation op)).mapError .state := by
  have parsable := isReplyParsable_nfs p.replyPacket procedure
  rw [decide_eq_true ok] at parsable
  exact update_exchange program parsable told

theorem update_lookup {what : Diropargs3} {object : Counted} {objAttributes dirAttributes : PostOpAttr}
    (read : Read ⟨rpcvers, vers, cred, verf, replyVerf,
      .lookup what object objAttributes dirAttributes⟩) :
    let p := pair ⟨rpcvers, vers, cred, verf, replyVerf,
      .lookup what object objAttributes dirAttributes⟩
    updatePacketState m p.callPacket p.replyPacket =
      (updateState m (.operation (.lookup (some what.dir.fhandle) what.name.val
        (some object.fhandle)))).mapError .state := by
  intro p
  obtain ⟨pkt, argsRead, args⟩ := lookup_args read.whole.1
  obtain ⟨inner, resultsRead, found⟩ := lookup_results read.whole.2 objAttributes dirAttributes
  have behind : object.encode ++
      (PostOpAttr.encode objAttributes ++ PostOpAttr.encode dirAttributes) ≠ [] :=
    List.append_ne_nil_of_left_ne_nil (encode_ne_nil object) _
  obtain ⟨ok, fields⟩ := replyPacket_succeeds (p := p) rfl read.reply rfl rfl behind resultsRead
  have more : what.encode ≠ [] := List.append_ne_nil_of_left_ne_nil (encode_ne_nil what.dir) _
  have here : p.callPacket.get .args = .ok (.dirOpArgs what.packet) := by
    have field : Attr.args ∈ Calls.lookup.names := by decide
    rw [← args]
    exact Pair.callPacket_get read.call rfl more argsRead (by decide) field
  have there : p.replyPacket.get .handle = .ok (.handle (some object.fhandle)) := by
    rw [← found]
    exact fields .handle (by decide) (by decide) (by decide)
  exact update_succeeded m p.callPacket_program ok (lookup_eq here read.legible there)

theorem update_made {p : Pair} {kind : Made} {a : Attr} {procedure : Procedure}
    {args : Diropargs3} {made : Made3} {fail : Option PacketClass}
    (program : p.callPacket.program = .ok (.nfs procedure))
    (exchange : p.callPacket.exchange p.replyPacket (.nfs procedure) =
      Nfs.made kind a p.callPacket p.replyPacket)
    (accepted : p.answer = .accepted ⟨replyVerf, 0, word 0 ++ made.encode⟩)
    (aligned : 4 ∣ replyVerf.body.length) (found : p.call.replyClass = some (.nfs procedure))
    (cls : nfs3ReplyClass procedure = Replies.withStatus Replies.madeOk fail)
    (legible : p.callPacket.Legible) (whole : made.Whole)
    (here : p.callPacket.get a = .ok (.dirOpArgs args.packet)) :
    updatePacketState m p.callPacket p.replyPacket =
      (updateState m (.operation (.make kind (some args.dir.fhandle) args.name.val
        (made.obj.map (some ·.fhandle))))).mapError .state := by
  obtain ⟨inner, resultsRead, object⟩ := made_results whole
  have behind : made.encode ≠ [] :=
    List.append_ne_nil_of_left_ne_nil (optional_ne_nil Counted.encode made.obj) _
  obtain ⟨ok, fields⟩ := replyPacket_succeeds accepted aligned found cls behind resultsRead
  have there : p.replyPacket.get .handle = .ok (.postOpFh (PostOpFh3.packet made.obj)) := by
    rw [← object]
    exact fields .handle (by decide) (by decide) (by decide)
  have told := exchange.trans (made_eq here legible there)
  cases obj : made.obj with
  | some handle =>
    rw [obj] at told
    exact update_succeeded m program ok told
  | none =>
    rw [obj] at told
    have parsable := isReplyParsable_nfs p.replyPacket procedure
    rw [decide_eq_true ok] at parsable
    simp only [updatePacketState, program, parsable, told, Except.ok_bind, if_true]
    rfl

theorem update_create {args : Diropargs3} {how : Createhow3} {made : Made3}
    (read : Read ⟨rpcvers, vers, cred, verf, replyVerf, .create args how made⟩) :
    let p := pair ⟨rpcvers, vers, cred, verf, replyVerf, .create args how made⟩
    updatePacketState m p.callPacket p.replyPacket =
      (updateState m (.operation (Served.create args how made).operation)).mapError .state := by
  intro p
  obtain ⟨pkt, argsRead, dir⟩ := create_args read.whole.1 read.whole.2.1
  have more : args.encode ++ how.encode ≠ [] :=
    List.append_ne_nil_of_left_ne_nil
      (List.append_ne_nil_of_left_ne_nil (encode_ne_nil args.dir) _) _
  have field : Attr.args ∈ Calls.create.names := by decide
  have here : p.callPacket.get .args = .ok (.dirOpArgs args.packet) := by
    rw [← dir]
    exact Pair.callPacket_get read.call rfl more argsRead (by decide) field
  exact update_made m p.callPacket_program rfl rfl read.reply rfl rfl read.legible read.whole.2.2 here

theorem update_mkdir {args : Diropargs3} {attributes : Sattr3} {made : Made3}
    (read : Read ⟨rpcvers, vers, cred, verf, replyVerf, .mkdir args attributes made⟩) :
    let p := pair ⟨rpcvers, vers, cred, verf, replyVerf, .mkdir args attributes made⟩
    updatePacketState m p.callPacket p.replyPacket =
      (updateState m (.operation (Served.mkdir args attributes made).operation)).mapError .state := by
  intro p
  obtain ⟨pkt, argsRead, dir⟩ := mkdir_args read.whole.1 read.whole.2.1
  have more : args.encode ++ attributes.encode ≠ [] :=
    List.append_ne_nil_of_left_ne_nil
      (List.append_ne_nil_of_left_ne_nil (encode_ne_nil args.dir) _) _
  have field : Attr.args ∈ Calls.mkdir.names := by decide
  have here : p.callPacket.get .args = .ok (.dirOpArgs args.packet) := by
    rw [← dir]
    exact Pair.callPacket_get read.call rfl more argsRead (by decide) field
  exact update_made m p.callPacket_program rfl rfl read.reply rfl rfl read.legible read.whole.2.2 here

theorem update_symlink {args : Diropargs3} {data : Symlinkdata3} {made : Made3}
    (read : Read ⟨rpcvers, vers, cred, verf, replyVerf, .symlink args data made⟩) :
    let p := pair ⟨rpcvers, vers, cred, verf, replyVerf, .symlink args data made⟩
    updatePacketState m p.callPacket p.replyPacket =
      (updateState m (.operation (Served.symlink args data made).operation)).mapError .state := by
  intro p
  obtain ⟨pkt, argsRead, dir⟩ := symlink_args read.whole.1 read.whole.2.1.1 read.whole.2.1.2
  have more : args.encode ++ data.encode ≠ [] :=
    List.append_ne_nil_of_left_ne_nil
      (List.append_ne_nil_of_left_ne_nil (encode_ne_nil args.dir) _) _
  have field : Attr.where_ ∈ Calls.symlink.names := by decide
  have here : p.callPacket.get .where_ = .ok (.dirOpArgs args.packet) := by
    rw [← dir]
    exact Pair.callPacket_get read.call rfl more argsRead (by decide) field
  exact update_made m p.callPacket_program rfl rfl read.reply rfl rfl read.legible read.whole.2.2 here

end Tracked

end ServedPair

theorem PacketClass.readFields_keeps {fieldsDesc : List (Attr × (Fields → Dissector Value))}
    {name : Attr} (absent : name ∉ fieldsDesc.map Prod.fst) {pkt later : Fields} {s left : Bytes}
    (read : readFields fieldsDesc pkt s = .ok (later, left)) : later name = pkt name := by
  induction fieldsDesc generalizing pkt s with
  | nil =>
    obtain ⟨rfl, -⟩ := Prod.mk.inj (Except.ok.inj read)
    rfl
  | cons fieldDesc rest ih =>
    obtain ⟨other, absent⟩ := List.ne_and_not_mem_of_not_mem_cons absent
    obtain ⟨value, t, -, read⟩ := Dissect.bind_eq_ok.mp read
    rw [ih absent read, Function.update_of_ne other]

/-- The status of a class is no packet: it is a number, or there is none. -/
def LayeredClass.Unasked (c : LayeredClass) : Prop :=
  (∀ pkt, c.payload pkt = none) ∧
    (.nfsStatus ∉ c.cls.names ∨ ∃ rest, c.cls = .of ((.nfsStatus, intField) :: rest) ∧
      .nfsStatus ∉ rest.map Prod.fst)

theorem LayeredClass.Unasked.dissect {c : LayeredClass} (unasked : c.Unasked) {s left : Bytes}
    {pkt : Fields} (read : c.cls.dissect s = .ok (pkt, left)) (field : .nfsStatus ∈ c.cls.names) :
    ∃ v, pkt .nfsStatus = .int v := by
  obtain absent | ⟨rest, cls, absent⟩ := unasked.2
  · exact absurd field absent
  · rw [cls] at read
    obtain ⟨value, t, status, read⟩ := Dissect.bind_eq_ok.mp read
    obtain ⟨v, u, -, given⟩ := Dissect.bind_eq_ok.mp status
    obtain ⟨rfl, -⟩ := Prod.mk.inj (Except.ok.inj given)
    exact ⟨v, (PacketClass.readFields_keeps absent read).trans (Function.update_self ..)⟩

-- No layer has a packet for the status.
def Packet.Unasked (packet : Packet) : Prop :=
  ∀ layer ∈ packet, .nfsStatus ∈ layer.fields → ∃ v, layer.value .nfsStatus = .int v

theorem Packet.Unasked.not_succeeds {packet : Packet} (unasked : packet.Unasked) :
    packet.succeeds ≠ .ok true := by
  intro ok
  obtain ⟨v, found, ok⟩ := Except.of_bind_ok ok
  rw [Packet.get] at found
  split at found
  · rename_i here
    obtain ⟨layer, member, field, same⟩ := Layer.exists_of_lookup here
    obtain ⟨n, number⟩ := unasked layer member field
    obtain rfl := Except.ok.inj found
    rw [← same, number] at ok
    cases ok
  · cases found

theorem unasked_raw : Packet.Unasked [raw] := by
  intro layer member field
  obtain rfl := List.mem_singleton.mp member
  exact absurd field (by decide)

theorem LayeredClass.Unasked.layers {c : LayeredClass} (unasked : c.Unasked) (s : Bytes) :
    (c.layers s).Unasked := by
  rw [LayeredClass.layers]
  split
  · exact fun _ member => absurd member List.not_mem_nil
  · cases read : c.cls.dissect s with
    | error e => exact unasked_raw
    | ok found =>
      obtain ⟨pkt, left⟩ := found
      intro layer member field
      rcases List.mem_cons.mp member with rfl | member
      · exact unasked.dissect read field
      · rw [unasked.1] at member
        split at member
        · exact absurd member List.not_mem_nil
        · exact unasked_raw layer member field

theorem Packet.Unasked.cons {packet : Packet} (unasked : packet.Unasked) {layer : Layer Attr Value}
    (absent : .nfsStatus ∉ layer.fields) : Packet.Unasked (layer :: packet) := by
  intro other member field
  rcases List.mem_cons.mp member with rfl | member
  · exact absurd field absent
  · exact unasked other member field

-- A reply is decoded by the class, or it tells of no status.
theorem unasked_decoded {cls : ReplyClass} (unasked : cls.packetClass.Unasked) {q : Rpc.Reply}
    {left : Bytes} {decoded : Decoded} (guessed : q.payloadClass left (some cls) = some decoded) :
    (decoded.layers left).Unasked := by
  unfold Rpc.Reply.payloadClass at guessed
  split at guessed
  · obtain rfl := Option.some.inj guessed
    exact fun _ member => absurd member List.not_mem_nil
  · dsimp only at guessed
    split at guessed
    · cases guessed
    · split at guessed
      · obtain rfl := Option.some.inj guessed
        exact unasked.layers left
      · split at guessed
        · obtain rfl := Option.some.inj guessed
          have mismatch : Replies.mismatch.Unasked := ⟨fun _ => rfl, .inl (by decide)⟩
          exact mismatch.layers left
        · obtain rfl := Option.some.inj guessed
          exact unasked_raw

theorem unasked_replyPacket {cls : ReplyClass} (unasked : cls.packetClass.Unasked) (s : Bytes) :
    (Nfs.replyPacket (some cls) s).Unasked := by
  have header : .nfsStatus ∉ rpcHeader.fields := by decide
  rw [Nfs.replyPacket]
  split
  · exact unasked_raw.cons header
  · rename_i q left read
    have own : .nfsStatus ∉ q.layer.fields := show .nfsStatus ∉ Rpc.replyNames by decide
    split
    · rename_i decoded guessed
      exact ((unasked_decoded unasked guessed).cons own).cons header
    · exact unasked_raw.cons header

theorem unasked_link : Replies.link.Unasked := ⟨fun _ => rfl, .inl (by decide)⟩

theorem unasked_remove : Replies.remove.Unasked := ⟨fun _ => rfl, .inr ⟨_, rfl, by decide⟩⟩

theorem unasked_rmdir : Replies.rmdir.Unasked := ⟨fun _ => rfl, .inr ⟨_, rfl, by decide⟩⟩

theorem unasked_rename : Replies.rename.Unasked := ⟨fun _ => rfl, .inr ⟨_, rfl, by decide⟩⟩

theorem update_unasked (m : Monitor) {p : Pair} {procedure : Procedure}
    (program : p.callPacket.program = .ok (.nfs procedure))
    (found : p.call.replyClass = some (.nfs procedure))
    (unasked : (nfs3ReplyClass procedure).Unasked) :
    updatePacketState m p.callPacket p.replyPacket = .ok m := by
  have unasked : (ReplyClass.nfs procedure).packetClass.Unasked := unasked
  have failed : p.replyPacket.succeeds ≠ .ok true := by
    rw [Pair.replyPacket, found]
    exact (unasked_replyPacket unasked _).not_succeeds
  have parsable := isReplyParsable_nfs p.replyPacket procedure
  rw [decide_eq_false failed] at parsable
  exact update_ignored program parsable

/-- A call whose replies tell the sensor nothing. -/
def Served.Unnoticed : Served → Prop
  | .link _ _ _ _ | .remove _ _ | .rmdir _ _ | .rename _ _ _ _ => True
  | _ => False

instance : (s : Served) → Decidable s.Unnoticed
  | .link _ _ _ _ | .remove _ _ | .rmdir _ _ | .rename _ _ _ _ => .isTrue trivial
  | .mnt _ _ _ | .lookup _ _ _ _ | .create _ _ _ | .mkdir _ _ _ | .symlink _ _ _ => .isFalse id

theorem update_served (m : Monitor) (e : ServedPair) (read : e.served.Unnoticed ∨ e.Read) :
    updatePacketState m e.pair.callPacket e.pair.replyPacket =
      (updateState m (.operation e.served.operation)).mapError .state := by
  obtain ⟨rpcvers, vers, cred, verf, replyVerf, served⟩ := e
  cases served with
  | link file args attributes linkdirWcc =>
    exact update_unasked m (Pair.callPacket_program _) rfl unasked_link
  | remove object dirWcc => exact update_unasked m (Pair.callPacket_program _) rfl unasked_remove
  | rmdir object dirWcc => exact update_unasked m (Pair.callPacket_program _) rfl unasked_rmdir
  | rename ffrom fto fromdirWcc todirWcc =>
    exact update_unasked m (Pair.callPacket_program _) rfl unasked_rename
  | mnt => exact ServedPair.update_mnt m (read.resolve_left id)
  | lookup => exact ServedPair.update_lookup m (read.resolve_left id)
  | create => exact ServedPair.update_create m (read.resolve_left id)
  | mkdir => exact ServedPair.update_mkdir m (read.resolve_left id)
  | symlink => exact ServedPair.update_symlink m (read.resolve_left id)

end VirtueSensing.Nfs
