import Mathlib.Algebra.Group.Nat.Defs
import Mathlib.Data.List.Nodup
import Mathlib.Tactic.Common
import VirtueSensing.Nfs.PacketClasses
import VirtueSensing.Shared.Machine

set_option autoImplicit false

/-!
# Calls and replies of the NFS sensor

`nfs.py` joins a reply to its call through two maps keyed by transaction id. scapy dissects a packet
from the outside in and then calls `post_dissection` of each layer, also from the outside in; a
layer without bytes left has no payload class.
-/

namespace VirtueSensing.Nfs

structure RpcCall where
  connection : Nat
  xid : UInt32
  prog : Nat
  proc : Nat
  -- What is left behind the header.
  args : Bytes
  -- Tells packets with the same contents apart.
  serial : Nat
  deriving DecidableEq, Repr

-- A procedure outside the table fails in the call layer, before the class is stored.
def RpcCall.replyClass (c : RpcCall) : Option ReplyClass :=
  if c.prog = portmapper then portmapReplyLookup c.proc
  else if c.prog = mountd then mount3ReplyLookup c.proc
  else if c.prog = nfsProgram then nfs3ReplyLookup c.proc
  else none

def valProgramMap : List Nat :=
  (List.range 40).map (100000 + ·) ++ [100069, 150001, 200000, 200001, 200002, 300001]

-- The program that a GETPORT call asks for. No other call has the field.
def RpcCall.program (c : RpcCall) : Option Value :=
  if c.prog = portmapper ∧ c.proc = 3 ∧ c.args ≠ [] then
    match Calls.portmapGetport.dissect c.args with
    | .error _ => none
    | .ok (pkt, _) => some (pkt .program)
  else none

-- `PORTMAP_GETPORT_Reply.post_dissection` looks up the name of the program.
def RpcCall.ported (c : RpcCall) : Bool := ∃ program ∈ valProgramMap, c.program = some (.int program)

/-- What lies under the RPC header: a record marker on TCP, with its flag and length. -/
inductive Transport where
  | udp
  | tcp (last : Bool) (length : Nat)
  deriving DecidableEq, Repr

-- The markers that `RPC_RecordMarker.pre_dissect` does not reject.
def Transport.accepted : Transport → Bool
  | .udp => true
  | .tcp _ length => length ≤ 2 ^ 16

def Transport.final : Transport → Bool
  | .udp => true
  | .tcp last _ => last

-- `RPC_Header.pre_dissect` rejects the id zero.
def isRpc (t : Transport) (xid : UInt32) : Bool :=
  t.accepted ∧ xid ≠ 0

structure Reply where
  connection : Nat
  xid : UInt32
  transport : Transport
  header : Rpc.Reply
  -- What is left behind the header.
  body : Bytes
  deriving DecidableEq, Repr

-- With the class found for the id. What is raised there leaves the bytes undecoded.
def Reply.payloadClass (r : Reply) (cls : Option ReplyClass) : Decoded :=
  (r.header.payloadClass r.body cls).getD .default

-- So does a class that raises.
def Reply.decoded (r : Reply) (cls : Option ReplyClass) : Decoded :=
  if (r.payloadClass cls).reads r.body then r.payloadClass cls else .default

structure Maps where
  xidReplyMap : UInt32 → Option ReplyClass
  xidCallMap : UInt32 → Option RpcCall

def Maps.call (maps : Maps) (t : Transport) (c : RpcCall) : Maps :=
  if isRpc t c.xid then
    { xidCallMap := Function.update maps.xidCallMap c.xid (some c)
      xidReplyMap :=
        match c.replyClass with
        | some cls => Function.update maps.xidReplyMap c.xid (some cls)
        | none => maps.xidReplyMap }
  else maps

-- What `post_dissection` raises there is raised for the whole packet.
def Decoded.raises (decoded : Decoded) (call : Option RpcCall) : Bool :=
  decoded = .reply .portmapGetport ∧ ¬ call.any RpcCall.ported

/-- How a reply is decoded and the call it is handed on with. -/
def Maps.reply (maps : Maps) (r : Reply) : Maps × Option Decoded × Option RpcCall :=
  if isRpc r.transport r.xid then
    let decoded := r.decoded (maps.xidReplyMap r.xid)
    let call := maps.xidCallMap r.xid
    ({ xidReplyMap :=
          if r.body = [] then maps.xidReplyMap else Function.update maps.xidReplyMap r.xid none
       xidCallMap :=
          if r.transport.final then Function.update maps.xidCallMap r.xid none else maps.xidCallMap },
      if decoded.raises call then none else some decoded,
      if decoded.raises call then none else call)
  else (maps, none, none)

/-- A call whose last reply is still to come; `answered` once a reply with a body was seen. -/
structure Pending where
  call : RpcCall
  answered : Bool
  deriving DecidableEq, Repr

def Pending.answeredBy (p : Pending) (r : Reply) : Bool :=
  p.call.connection = r.connection ∧ p.call.xid = r.xid

structure Delivery where
  own : RpcCall
  reply : Reply
  decoded : Option Decoded
  handed : Option RpcCall
  deriving DecidableEq, Repr

def Delivery.Matches (d : Delivery) : Prop :=
  d.decoded = some (d.reply.payloadClass d.own.replyClass) ∧ d.handed = some d.own

instance (d : Delivery) : Decidable d.Matches :=
  inferInstanceAs (Decidable (_ ∧ _))

structure Sniffer where
  maps : Maps
  pending : List Pending
  delivered : List Delivery

inductive RpcPacket where
  | call (t : Transport) (c : RpcCall)
  | reply (r : Reply)
  deriving DecidableEq, Repr

-- Which calls are pending after a reply to one of them.
def stillPending (pending : List Pending) (r : Reply) : List Pending :=
  if r.transport.final then pending.filter fun p => ¬ p.answeredBy r
  else pending.map fun p =>
    if p.answeredBy r then { p with answered := p.answered || r.body ≠ [] } else p

/-- A connection makes no second call under an id while the first is pending, and replies answer
pending calls of their own connection. -/
def callMachine : Machine Sniffer RpcPacket where
  initial := ⟨⟨fun _ => none, fun _ => none⟩, [], []⟩
  step s
    | .call t c =>
      if s.pending.any fun p => p.call.connection = c.connection ∧ p.call.xid = c.xid then none
      else some { s with maps := s.maps.call t c, pending := ⟨c, false⟩ :: s.pending }
    | .reply r =>
      match s.pending.find? fun p => p.answeredBy r with
      | none => none
      | some p =>
        let (maps, decoded, handed) := s.maps.reply r
        some ⟨maps, stillPending s.pending r, s.delivered ++ [⟨p.call, r, decoded, handed⟩]⟩

/-- The class of a call reads the reply, and the program of a GETPORT call has a name. -/
def RpcCall.Reads (c : RpcCall) (r : Reply) : Prop :=
  (r.payloadClass c.replyClass).reads r.body ∧
    (r.payloadClass c.replyClass = .reply .portmapGetport → c.ported)

instance (c : RpcCall) (r : Reply) : Decidable (c.Reads r) :=
  inferInstanceAs (Decidable (_ ∧ (_ → _)))

/-- The id of a call is in use on no other connection and names no class that is left over. A reply is
not the second part of an answer, and the class of its call reads it. -/
def Unshared (s : Sniffer) : RpcPacket → Prop
  | .call t c =>
    isRpc t c.xid ∧ (∀ p ∈ s.pending, p.call.xid ≠ c.xid) ∧
      (c.replyClass = none → s.maps.xidReplyMap c.xid = none)
  | .reply r =>
    r.transport.accepted ∧ ∀ p ∈ s.pending, p.answeredBy r →
      (r.body ≠ [] → p.answered → p.call.replyClass = none) ∧ p.call.Reads r

instance (s : Sniffer) : (packet : RpcPacket) → Decidable (Unshared s packet)
  | .call _ _ => inferInstanceAs (Decidable (_ ∧ _ ∧ (_ → _)))
  | .reply _ => inferInstanceAs (Decidable (_ ∧ _))

/-- The maps lead from the id of each pending call to that call and its class, and so far every
reply was matched. -/
structure Matched (s : Sniffer) : Prop where
  distinct : (s.pending.map fun p => p.call.xid).Nodup
  known : ∀ p ∈ s.pending, p.call.xid ≠ 0
  call : ∀ p ∈ s.pending, s.maps.xidCallMap p.call.xid = some p.call
  cls : ∀ p ∈ s.pending,
    s.maps.xidReplyMap p.call.xid = if p.answered then none else p.call.replyClass
  delivered : ∀ d ∈ s.delivered, d.Matches

theorem matched_initial : Matched callMachine.initial := by
  constructor <;> simp [callMachine]

theorem call_matched {s : Sniffer} (matched : Matched s) {t : Transport} {c : RpcCall}
    (unshared : Unshared s (.call t c)) :
    Matched { s with maps := s.maps.call t c, pending := ⟨c, false⟩ :: s.pending } := by
  obtain ⟨rpc, alone, clean⟩ := unshared
  have id : c.xid ≠ 0 := (of_decide_eq_true rpc).2
  have stored : (s.maps.call t c).xidCallMap = Function.update s.maps.xidCallMap c.xid (some c) := by
    simp [Maps.call, rpc]
  have classHere : (s.maps.call t c).xidReplyMap c.xid = c.replyClass := by
    cases cls : c.replyClass with
    | none => simp [Maps.call, rpc, cls, clean cls]
    | some cls => simp [Maps.call, rpc, cls]
  have classOther : ∀ xid, xid ≠ c.xid →
      (s.maps.call t c).xidReplyMap xid = s.maps.xidReplyMap xid := by
    intro xid other
    cases cls : c.replyClass with
    | none => simp [Maps.call, rpc, cls]
    | some cls => simp [Maps.call, rpc, cls, Function.update_of_ne other]
  refine ⟨?_, ?_, ?_, ?_, matched.delivered⟩
  · refine List.nodup_cons.mpr ⟨fun member => ?_, matched.distinct⟩
    obtain ⟨p, inside, same⟩ := List.mem_map.mp member
    exact alone p inside same
  · intro p member
    rcases List.mem_cons.mp member with rfl | older
    · exact id
    · exact matched.known p older
  · intro p member
    simp only [stored]
    rcases List.mem_cons.mp member with rfl | older
    · exact Function.update_self ..
    · rw [Function.update_of_ne (alone p older)]
      exact matched.call p older
  · intro p member
    rcases List.mem_cons.mp member with rfl | older
    · exact classHere
    · rw [classOther _ (alone p older)]
      exact matched.cls p older

theorem Matched.eq_of_xid {s : Sniffer} (matched : Matched s) {p q : Pending} (first : p ∈ s.pending)
    (second : q ∈ s.pending) (same : p.call.xid = q.call.xid) : p = q :=
  List.inj_on_of_nodup_map matched.distinct first second same

section Replies

variable {s : Sniffer} {r : Reply} {p : Pending}

theorem Maps.reply_isRpc (maps : Maps) (rpc : isRpc r.transport r.xid) :
    (maps.reply r).1 =
      { xidReplyMap :=
          if r.body = [] then maps.xidReplyMap else Function.update maps.xidReplyMap r.xid none
        xidCallMap :=
          if r.transport.final then Function.update maps.xidCallMap r.xid none
          else maps.xidCallMap } := by
  rw [Maps.reply, if_pos rpc]

theorem Maps.reply_other (maps : Maps) (rpc : isRpc r.transport r.xid) {xid : UInt32}
    (other : xid ≠ r.xid) :
    (maps.reply r).1.xidCallMap xid = maps.xidCallMap xid ∧
      (maps.reply r).1.xidReplyMap xid = maps.xidReplyMap xid := by
  rw [maps.reply_isRpc rpc]
  constructor
  · dsimp only
    split
    · exact Function.update_of_ne other ..
    · rfl
  · dsimp only
    split
    · rfl
    · exact Function.update_of_ne other ..

theorem Maps.reply_same (maps : Maps) (rpc : isRpc r.transport r.xid) :
    (r.transport.final = false → (maps.reply r).1.xidCallMap r.xid = maps.xidCallMap r.xid) ∧
      (maps.reply r).1.xidReplyMap r.xid = if r.body = [] then maps.xidReplyMap r.xid else none := by
  rw [maps.reply_isRpc rpc]
  constructor
  · intro more
    simp [more]
  · dsimp only
    split
    · rfl
    · exact Function.update_self ..

theorem Matched.isRpc (matched : Matched s) (member : p ∈ s.pending) (own : p.answeredBy r)
    (accepted : r.transport.accepted) : isRpc r.transport r.xid := by
  have id := matched.known p member
  rw [(of_decide_eq_true own).2] at id
  exact decide_eq_true ⟨accepted, id⟩

theorem Matched.payloadClass (matched : Matched s) (member : p ∈ s.pending) (own : p.answeredBy r)
    (unshared : Unshared s (.reply r)) :
    r.payloadClass (s.maps.xidReplyMap r.xid) = r.payloadClass p.call.replyClass := by
  have same : p.call.xid = r.xid := (of_decide_eq_true own).2
  have here := matched.cls p member
  rw [same] at here
  rw [here]
  by_cases answered : p.answered
  · rw [if_pos answered]
    by_cases body : r.body = []
    · simp only [Reply.payloadClass, Rpc.Reply.payloadClass, if_pos body]
    · rw [((unshared.2 p member own).1 body answered)]
  · rw [if_neg answered]

theorem Reply.decoded_of_reads {cls : Option ReplyClass} (reads : (r.payloadClass cls).reads r.body) :
    r.decoded cls = r.payloadClass cls :=
  if_pos reads

theorem Matched.delivery (matched : Matched s) (member : p ∈ s.pending) (own : p.answeredBy r)
    (unshared : Unshared s (.reply r)) :
    Delivery.Matches ⟨p.call, r, (s.maps.reply r).2.1, (s.maps.reply r).2.2⟩ := by
  obtain ⟨-, reads, ported⟩ := unshared.2 p member own
  have same : p.call.xid = r.xid := (of_decide_eq_true own).2
  have call := matched.call p member
  rw [same] at call
  have decoded : r.decoded (s.maps.xidReplyMap r.xid) = r.payloadClass p.call.replyClass := by
    have cls := matched.payloadClass member own unshared
    rw [Reply.decoded_of_reads (by rwa [cls]), cls]
  have quiet : (r.payloadClass p.call.replyClass).raises (some p.call) = false := by
    by_cases getport : r.payloadClass p.call.replyClass = .reply .portmapGetport
    · simp [Decoded.raises, ported getport]
    · simp [Decoded.raises, getport]
  rw [Maps.reply, if_pos (matched.isRpc member own unshared.1)]
  simp only [decoded, call, quiet, Bool.false_eq_true, if_false]
  exact ⟨rfl, rfl⟩

theorem mem_stillPending {q : Pending} (left : q ∈ stillPending s.pending r) :
    (q ∈ s.pending ∧ ¬ q.answeredBy r) ∨
      r.transport.final = false ∧ ∃ p ∈ s.pending, p.answeredBy r ∧
        q = { p with answered := p.answered || r.body ≠ [] } := by
  unfold stillPending at left
  by_cases final : r.transport.final
  · rw [if_pos final] at left
    obtain ⟨inside, other⟩ := List.mem_filter.mp left
    exact .inl ⟨inside, by simpa using other⟩
  · rw [if_neg final] at left
    obtain ⟨p, inside, rfl⟩ := List.mem_map.mp left
    by_cases own : p.answeredBy r
    · rw [if_pos own]
      exact .inr ⟨by simpa using final, p, inside, own, rfl⟩
    · rw [if_neg own]
      exact .inl ⟨inside, own⟩

theorem stillPending_distinct (distinct : (s.pending.map fun p => p.call.xid).Nodup) :
    ((stillPending s.pending r).map fun p => p.call.xid).Nodup := by
  unfold stillPending
  split
  · exact distinct.sublist (List.filter_sublist.map _)
  · rw [List.map_map]
    convert distinct using 2
    funext p
    simp only [Function.comp_apply]
    split <;> rfl

theorem reply_matched (matched : Matched s) (found : s.pending.find? (fun p => p.answeredBy r) = some p)
    (unshared : Unshared s (.reply r)) :
    Matched ⟨(s.maps.reply r).1, stillPending s.pending r,
      s.delivered ++ [⟨p.call, r, (s.maps.reply r).2.1, (s.maps.reply r).2.2⟩]⟩ := by
  have member := List.mem_of_find?_eq_some found
  have own : p.answeredBy r := by simpa using List.find?_some found
  have same : p.call.xid = r.xid := (of_decide_eq_true own).2
  have rpc := matched.isRpc member own unshared.1
  have apart : ∀ q ∈ s.pending, ¬ q.answeredBy r → q.call.xid ≠ r.xid := by
    intro q inside other equal
    obtain rfl := matched.eq_of_xid member inside (same.trans equal.symm)
    exact other own
  refine ⟨stillPending_distinct matched.distinct, ?_, ?_, ?_, ?_⟩
  · intro q left
    rcases mem_stillPending left with ⟨inside, -⟩ | ⟨-, q, inside, -, rfl⟩
    · exact matched.known q inside
    · exact matched.known q inside
  · intro q left
    rcases mem_stillPending left with ⟨inside, other⟩ | ⟨more, q, inside, ours, rfl⟩
    · rw [(s.maps.reply_other rpc (apart q inside other)).1]
      exact matched.call q inside
    · dsimp only
      rw [(of_decide_eq_true ours).2, (s.maps.reply_same rpc).1 more, ← (of_decide_eq_true ours).2]
      exact matched.call q inside
  · intro q left
    rcases mem_stillPending left with ⟨inside, other⟩ | ⟨more, q, inside, ours, rfl⟩
    · rw [(s.maps.reply_other rpc (apart q inside other)).2]
      exact matched.cls q inside
    · have before := matched.cls q inside
      dsimp only
      rw [(of_decide_eq_true ours).2] at before ⊢
      rw [(s.maps.reply_same rpc).2, before]
      by_cases body : r.body = []
      · simp [body]
      · simp [body]
  · intro d logged
    rcases List.mem_append.mp logged with older | new
    · exact matched.delivered d older
    · obtain rfl := List.mem_singleton.mp new
      exact matched.delivery member own unshared

end Replies

theorem step_matched {s t : Sniffer} {packet : RpcPacket} (matched : Matched s)
    (unshared : Unshared s packet) (moved : callMachine.step s packet = some t) : Matched t := by
  cases packet with
  | call transport c =>
    simp only [callMachine] at moved
    split at moved
    · cases moved
    · obtain rfl := Option.some.inj moved
      exact call_matched matched unshared
  | reply r =>
    simp only [callMachine] at moved
    cases found : s.pending.find? fun p => p.answeredBy r with
    | none => simp [found] at moved
    | some p =>
      simp only [found] at moved
      obtain rfl := Option.some.inj moved
      exact reply_matched matched found unshared

/-- While no two connections have calls pending under one id, every reply is decoded as the answer to
the call of its own connection and handed on with that call. -/
theorem replies_matched (packets : List RpcPacket) (s : Sniffer)
    (reached : callMachine.run packets = some s) (unshared : callMachine.Throughout Unshared packets) :
    ∀ d ∈ s.delivered, d.Matches := by
  have matched : Matched s := by
    refine callMachine.run_induction (motive := fun packets s =>
      callMachine.Throughout Unshared packets → Matched s) ?_ ?_ packets s reached unshared
    · intro _
      exact matched_initial
    · intro packets packet s t before ih moved unshared
      rw [callMachine.throughout_snoc Unshared before] at unshared
      exact step_matched (ih unshared.1) unshared.2 moved
  exact matched.delivered

def lookupCall (connection : Nat) (xid : UInt32) : RpcCall := ⟨connection, xid, nfsProgram, 3, [], 0⟩
def readCall (connection : Nat) (xid : UInt32) : RpcCall := ⟨connection, xid, nfsProgram, 6, [], 1⟩

-- NFS3ERR_IO, and no attributes follow.
def failedReply (connection : Nat) (xid : UInt32) : Reply :=
  ⟨connection, xid, .tcp true 36, ⟨0, some ⟨0, some 0, []⟩, some ⟨success⟩⟩, [0, 0, 0, 5, 0, 0, 0, 0]⟩

-- The second connection uses an id once the first is done with it.
def separateIds : List RpcPacket :=
  [.call (.tcp true 80) (lookupCall 0 7), .call (.tcp true 80) (readCall 1 8),
    .reply (failedReply 0 7), .call (.tcp true 80) (readCall 1 7), .reply (failedReply 1 7),
    .reply (failedReply 1 8)]

theorem separate_ids_matched :
    ∃ s, callMachine.run separateIds = some s ∧
      s.delivered.map (fun d => d.decoded) =
        [some (.reply (.nfs .lookup)), some (.reply (.nfs .read)), some (.reply (.nfs .read))] ∧
      ∀ d ∈ s.delivered, d.Matches := by
  refine ⟨_, rfl, by decide +kernel, ?_⟩
  exact replies_matched separateIds _ rfl
    (callMachine.throughout_of_follows Unshared (by decide +kernel))

-- Two connections have calls pending under one id.
def sharedId : List RpcPacket :=
  [.call (.tcp true 80) (lookupCall 0 7), .call (.tcp true 80) (readCall 1 7),
    .reply (failedReply 0 7)]

theorem shared_id_mismatched :
    (callMachine.run sharedId).map Sniffer.delivered =
      some [⟨lookupCall 0 7, failedReply 0 7, some (.reply (.nfs .read)), some (readCall 1 7)⟩] ∧
    ¬ ∀ (packets : List RpcPacket) (s : Sniffer), callMachine.run packets = some s →
      ∀ d ∈ s.delivered, d.Matches := by
  refine ⟨by decide +kernel, fun always => ?_⟩
  exact absurd (always sharedId _ rfl _ (List.mem_singleton_self _)) (by decide +kernel)

end VirtueSensing.Nfs
