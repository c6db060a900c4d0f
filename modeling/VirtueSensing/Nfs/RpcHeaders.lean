import VirtueSensing.Nfs.BasicRoundTrip
import VirtueSensing.Nfs.Procedures
import VirtueSensing.Shared.Lists

set_option autoImplicit false

/-!
# Headers of RPC calls and replies

Where `RPC_Call` and `RPC_Reply` of `nfs.py` find the arguments and the results, and which replies
they take for successful ones.
-/

namespace VirtueSensing.Nfs

open Dissect

namespace Rpc

def authNull : Nat := 0
def authUnix : Nat := 1

-- The machine name and the ids have the integer zero for a default, which no packet is.
structure AuthSys where
  stamp : Nat
  nameLen : Nat
  machineName : Option Bytes
  pad : Bytes
  uid : Option Nfs3.Number
  gid : Option Nfs3.Number
  auxGidCt : Nat
  auxGids : List Nat
  deriving DecidableEq, Repr

def authSys : Dissector AuthSys := do
  let stamp ← int
  let nameLen ← int
  let machineName ← field none (some <$> string nameLen)
  let pad ← str (padLength nameLen)
  let uid ← packetField Nfs3.uid
  let gid ← packetField Nfs3.gid
  let auxGidCt ← int
  let auxGids ← field [0] (fieldList (integer 4) auxGidCt)
  return ⟨stamp, nameLen, machineName, pad, uid, gid, auxGidCt, auxGids⟩

structure Credential where
  authSys : Option (Item AuthSys)
  authNull : Option (Item Unit)
  deriving DecidableEq, Repr

-- The two fields that depend on the flavor. There is none for another flavor.
def credential (credFlav credLen : Nat) : Dissector Credential := do
  let sys ← field none (conditional (credLen > 0 ∧ credFlav = authUnix)
    (some <$> packetLenField credLen Rpc.authSys))
  let null ← field none (conditional (credFlav = authNull)
    (some <$> packetLenField credLen (pure ())))
  return ⟨sys, null⟩

structure Call where
  rpcVersion : Nat
  prog : Nat
  progVersion : Nat
  proc : Nat
  credFlav : Nat
  credLen : Nat
  credential : Credential
  verifier : Option Verifier
  deriving DecidableEq, Repr

def call : Dissector Call := do
  let rpcVersion ← int
  let prog ← int
  let progVersion ← int
  let proc ← int
  let credFlav ← int
  let credLen ← int
  let credential ← Rpc.credential credFlav credLen
  let verifier ← packetField Rpc.verifier
  return ⟨rpcVersion, prog, progVersion, proc, credFlav, credLen, credential, verifier⟩

structure Reply where
  state : Nat
  verify : Option Verifier
  acceptState : Option Nfs3.Number
  deriving DecidableEq, Repr

def status : Dissector Nfs3.Number := Nfs3.intNumber

-- The state, whether the call was accepted or denied, does not change what is read.
def reply : Dissector Reply := do
  let state ← int
  let verify ← packetField Rpc.verifier
  let acceptState ← packetField Rpc.status
  return ⟨state, verify, acceptState⟩

/-- What `guess_payload_class` and the handlers go by. -/
def Reply.Success (p : Reply) : Prop := ∃ status ∈ p.acceptState, status.v = success

-- `RPC_Reply.guess_payload_class`, with the class found for the id. A missing status has no method
-- `success`, which raises `AttributeError`.
def Reply.payloadClass (p : Reply) (payload : Bytes) (cls : Option ReplyClass) : Option Decoded :=
  if payload = [] then some .nothing
  else
    match cls with
    | none => some .default
    | some cls =>
      match p.acceptState with
      | none => none
      | some status =>
        if status.v = success then some (.reply cls)
        else if status.v = progMismatch then some .mismatch
        else some .default

end Rpc

namespace Rfc1831

open Rfc1813

structure CallBody where
  rpcvers : UInt32
  prog : UInt32
  vers : UInt32
  proc : UInt32
  cred : OpaqueAuth
  verf : OpaqueAuth
  args : Bytes
  deriving DecidableEq

def CallBody.encode (c : CallBody) : Bytes :=
  word c.rpcvers ++ (word c.prog ++ (word c.vers ++ (word c.proc ++ (c.cred.encode ++
    (c.verf.encode ++ c.args)))))

structure AcceptedReply where
  verf : OpaqueAuth
  stat : UInt32
  results : Bytes
  deriving DecidableEq

inductive RejectedReply where
  | rpcMismatch (low high : UInt32)
  | authError (stat : UInt32)
  deriving DecidableEq

inductive Message where
  | call (c : CallBody)
  | accepted (r : AcceptedReply)
  | denied (r : RejectedReply)
  deriving DecidableEq

def RejectedReply.encode : RejectedReply → Bytes
  | rpcMismatch low high => word 0 ++ (word low ++ word high)
  | authError stat => word 1 ++ word stat

-- What follows the id and the direction.
def Message.encode : Message → Bytes
  | call c => c.encode
  | accepted r => word 0 ++ (r.verf.encode ++ (word r.stat ++ r.results))
  | denied r => word 1 ++ r.encode

/-- The arguments or the results are what is left behind the fields, and a reply passes for a
successful one only if it was accepted with that status. This is about the fields: with a procedure
that the tables do not list, `guess_payload_class` or `post_dissection` of a call raises behind them. -/
def Message.Handled (m : Message) : Prop :=
  match m with
  | call c => ∃ p, Rpc.call m.encode = .ok (p, c.args)
  | accepted r => ∃ p, Rpc.reply m.encode = .ok (p, r.results) ∧ (p.Success → r.stat = 0)
  | denied _ => ∀ p left, Rpc.reply m.encode = .ok (p, left) → ¬ p.Success

/-- The bytes of the credential that are left in front of the verifier. -/
def CallBody.unskipped (c : CallBody) : Bytes :=
  if c.cred.flavor.toNat = Rpc.authNull ∨ c.cred.flavor.toNat = Rpc.authUnix then
    c.cred.body.padding
  else c.cred.body.val ++ c.cred.body.padding

def CallBody.behind (c : CallBody) : Bytes := c.unskipped ++ c.verf.encode

-- The second word of some bytes, taken for the length of a verifier.
def secondWord (bytes : Bytes) : Nat := unsigned ((bytes.drop 4).take 4)

/-- A verifier that is read where it begins fills its last word. One that is read too early ends
where the right one does by its length, or it takes all that is left of a call without arguments. -/
def Message.Aligned : Message → Prop
  | call c =>
    if c.unskipped = [] then 4 ∣ c.verf.body.length
    else
      8 + secondWord c.behind = c.behind.length ∨
        c.args = [] ∧ c.behind.length ≤ 8 + secondWord c.behind
  | accepted r => 4 ∣ r.verf.body.length
  | denied (.rpcMismatch low high) => ¬ (low = 0 ∧ high = 0)
  | denied (.authError _) => True

instance : (m : Message) → Decidable m.Aligned
  | .call c => inferInstanceAs (Decidable (if c.unskipped = [] then _ else _))
  | .accepted r => inferInstanceAs (Decidable (4 ∣ r.verf.body.length))
  | .denied (.rpcMismatch low high) => inferInstanceAs (Decidable (¬ (low = 0 ∧ high = 0)))
  | .denied (.authError _) => .isTrue trivial

theorem verifier_run {s : Bytes} (enough : 8 ≤ s.length) :
    ∃ v, Rpc.verifier s = .ok (v, s.drop (8 + secondWord s)) := by
  have more : s ≠ [] := List.ne_nil_of_length_pos (by omega)
  have behind : 4 ≤ (s.drop 4).length := by
    rw [List.length_drop]
    omega
  have flavor : int s = _ :=
    (field_of_ne_nil 0 _ more).trans (integer_run (Nat.le_trans (by decide) enough))
  have length : field none (some <$> integer 4) (s.drop 4) =
      .ok (some (secondWord s), (s.drop 4).drop 4) := by
    rw [field_of_ne_nil _ _ (List.ne_nil_of_length_pos (Nat.lt_of_lt_of_le (by decide) behind))]
    exact (map_apply some _ _).trans (by rw [integer_run behind]; rfl)
  rw [Rpc.verifier, bind_run flavor, bind_run length, str, Option.getD_some,
    bind_run (field_string _ _), List.drop_drop, List.drop_drop]
  exact ⟨_, rfl⟩

theorem credential_part (c : Counted) {α : Type} (d : Dissector α) {rest : Bytes}
    (more : rest ≠ []) :
    ∃ item, field none (conditional true (some <$> packetLenField c.length d)) (c.val ++ rest) =
      .ok (some item, rest) := by
  have whole : c.val.length = c.length := rfl
  obtain ⟨item, read⟩ := packetLenField_append whole d rest
  refine ⟨item, ?_⟩
  rw [field_of_ne_nil none _ (List.append_ne_nil_of_right_ne_nil _ more)]
  exact (map_apply some _ _).trans (by rw [read])

theorem credential_run (c : CallBody) {rest : Bytes} (more : rest ≠ []) :
    ∃ p, Rpc.credential c.cred.flavor.toNat c.cred.body.length
      (c.cred.body.val ++ (c.cred.body.padding ++ rest)) = .ok (p, c.unskipped ++ rest) := by
  have padded : c.cred.body.padding ++ rest ≠ [] := List.append_ne_nil_of_right_ne_nil _ more
  rw [Rpc.credential, CallBody.unskipped]
  by_cases null : c.cred.flavor.toNat = Rpc.authNull
  · have other : ¬ (c.cred.body.length > 0 ∧ c.cred.flavor.toNat = Rpc.authUnix) := by
      rw [null]
      exact fun ⟨_, same⟩ => absurd same (by decide)
    obtain ⟨item, read⟩ := credential_part c.cred.body (pure ()) padded
    rw [decide_eq_false other, decide_eq_true null, bind_run (field_absent _ _), bind_run read,
      if_pos (.inl null)]
    exact ⟨_, rfl⟩
  · rw [decide_eq_false null]
    by_cases unix : c.cred.flavor.toNat = Rpc.authUnix
    · rw [if_pos (.inr unix)]
      by_cases empty : c.cred.body.length = 0
      · have nothing : c.cred.body.val = [] := List.length_eq_zero_iff.mp empty
        have other : ¬ (c.cred.body.length > 0 ∧ c.cred.flavor.toNat = Rpc.authUnix) := by
          rw [empty]
          exact fun ⟨positive, _⟩ => absurd positive (by decide)
        rw [decide_eq_false other, bind_run (field_absent _ _), bind_run (field_absent _ _), nothing]
        exact ⟨_, rfl⟩
      · obtain ⟨item, read⟩ := credential_part c.cred.body Rpc.authSys padded
        rw [decide_eq_true ⟨Nat.pos_of_ne_zero empty, unix⟩, bind_run read,
          bind_run (field_absent _ _)]
        exact ⟨_, rfl⟩
    · have other : ¬ (c.cred.body.length > 0 ∧ c.cred.flavor.toNat = Rpc.authUnix) :=
        fun ⟨_, same⟩ => unix same
      rw [decide_eq_false other, bind_run (field_absent _ _), bind_run (field_absent _ _),
        if_neg (not_or.mpr ⟨null, unix⟩), List.append_assoc]
      exact ⟨_, rfl⟩

theorem length_opaqueAuth (v : OpaqueAuth) :
    v.encode.length = 8 + (v.body.length + padLength v.body.length) := by
  simp only [OpaqueAuth.encode, List.length_append, length_encode, word, length_bigEndian]
  omega

theorem eight_le_behind (c : CallBody) : 8 ≤ c.behind.length := by
  rw [CallBody.behind, List.length_append, length_opaqueAuth]
  omega

theorem secondWord_append {bytes : Bytes} (enough : 8 ≤ bytes.length) (rest : Bytes) :
    secondWord (bytes ++ rest) = secondWord bytes := by
  have left : 4 ≤ (bytes.drop 4).length := by
    rw [List.length_drop]
    omega
  rw [secondWord, List.drop_append_of_le_length (Nat.le_trans (by decide) enough),
    List.take_append_of_le_length left]
  rfl

theorem secondWord_words (first : UInt32) {n : Nat} (fits : n < 256 ^ 4) (rest : Bytes) :
    secondWord (word first ++ (bigEndian 4 n ++ rest)) = n := by
  have length : (word first).length = 4 := length_bigEndian 4 _
  rw [secondWord, List.drop_left' length, List.take_left' (length_bigEndian 4 _),
    unsigned_bigEndian fits]

theorem secondWord_opaqueAuth (v : OpaqueAuth) : secondWord v.encode = v.body.length :=
  secondWord_words v.flavor v.body.property _

theorem call_run (c : CallBody) :
    ∃ p, Rpc.call c.encode = .ok (p, (c.behind ++ c.args).drop (8 + secondWord c.behind)) ∧
      p.prog = c.prog.toNat ∧ p.proc = c.proc.toNat := by
  have enough := eight_le_behind c
  have more : c.verf.encode ++ c.args ≠ [] := by simp [OpaqueAuth.encode, word]
  obtain ⟨credential, skipped⟩ := credential_run c more
  have long : 8 ≤ (c.behind ++ c.args).length := by
    rw [List.length_append]
    omega
  obtain ⟨v, read⟩ := verifier_run long
  have verifier : packetField Rpc.verifier (c.unskipped ++ (c.verf.encode ++ c.args)) =
      .ok (some v, (c.behind ++ c.args).drop (8 + secondWord c.behind)) := by
    have some : c.behind ++ c.args ≠ [] := List.ne_nil_of_length_pos (by omega)
    rw [← List.append_assoc]
    exact (packetField_run some read).trans (by rw [secondWord_append enough])
  have cred : c.cred.encode = word c.cred.flavor ++
    (bigEndian 4 c.cred.body.length ++ (c.cred.body.val ++ c.cred.body.padding)) := rfl
  simp only [CallBody.encode, cred, List.append_assoc, Rpc.call]
  rw [bind_run ((reads_int c.rpcvers).runs _), bind_run ((reads_int c.prog).runs _),
    bind_run ((reads_int c.vers).runs _), bind_run ((reads_int c.proc).runs _),
    bind_run ((reads_int c.cred.flavor).runs _), bind_run ((reads_length c.cred.body).runs _),
    bind_run skipped, bind_run verifier]
  exact ⟨_, rfl, rfl, rfl⟩

theorem call_iff (c : CallBody) : (Message.call c).Handled ↔ (Message.call c).Aligned := by
  obtain ⟨p, read, -⟩ := call_run c
  have located : (Message.call c).Handled ↔
      (c.behind ++ c.args).drop (8 + secondWord c.behind) = c.args := by
    constructor
    · rintro ⟨q, found⟩
      exact congrArg Prod.snd (Except.ok.inj (read.symm.trans found))
    · intro same
      exact ⟨p, by rw [Message.encode, read, same]⟩
  rw [located, Lists.drop_append_eq_right_iff, Message.Aligned]
  split
  · rename_i skipped
    rw [CallBody.behind, skipped, List.nil_append, secondWord_opaqueAuth, length_opaqueAuth]
    simp only [padLength]
    omega
  · exact Iff.rfl

theorem status_run {s : Bytes} (enough : 4 ≤ s.length) :
    packetField Rpc.status s = .ok (some ⟨unsigned (s.take 4)⟩, s.drop 4) := by
  have more : s ≠ [] := List.ne_nil_of_length_pos (by omega)
  refine packetField_run more ?_
  exact bind_run ((field_of_ne_nil 0 _ more).trans (integer_run enough)) _

theorem reply_run (state stat : UInt32) (v : OpaqueAuth) (results : Bytes) :
    Rpc.reply (word state ++ (v.encode ++ (word stat ++ results))) =
      .ok (⟨state.toNat, some v.packet, some ⟨unsigned ((v.body.padding ++ word stat).take 4)⟩⟩,
        (v.body.padding ++ word stat ++ results).drop 4) := by
  have length : (word stat).length = 4 := length_bigEndian 4 _
  have enough : 4 ≤ (v.body.padding ++ word stat).length := by
    rw [List.length_append]
    omega
  have accepted : packetField Rpc.status (v.body.padding ++ (word stat ++ results)) =
      .ok (some ⟨unsigned ((v.body.padding ++ word stat).take 4)⟩,
        (v.body.padding ++ word stat ++ results).drop 4) := by
    rw [← List.append_assoc, status_run (by rw [List.length_append]; omega),
      List.take_append_of_le_length enough]
  rw [Rpc.reply, bind_run ((reads_int state).runs _),
    bind_run ((leaves_verifier v).packetField.runs _), bind_run accepted]
  rfl

-- What follows a verifier that fills its last word is the status.
theorem reply_aligned (state stat : UInt32) {v : OpaqueAuth} (aligned : 4 ∣ v.body.length)
    (results : Bytes) :
    Rpc.reply (word state ++ (v.encode ++ (word stat ++ results))) =
      .ok (⟨state.toNat, some v.packet, some ⟨stat.toNat⟩⟩, results) := by
  have length : (word stat).length = 4 := length_bigEndian 4 _
  rw [reply_run, (padding_eq_nil v.body).mpr aligned, List.nil_append, List.drop_left' length,
    List.take_of_length_le (Nat.le_of_eq length), word, unsigned_bigEndian stat.toNat_lt]

theorem success_iff (stat : UInt32) (state : Nat) (v : Option Rpc.Verifier) :
    Rpc.Reply.Success ⟨state, v, some ⟨stat.toNat⟩⟩ ↔ stat = 0 := by
  constructor
  · rintro ⟨status, found, zero⟩
    obtain rfl := Option.some.inj found
    exact UInt32.toNat.inj zero
  · intro zero
    exact ⟨_, rfl, congrArg UInt32.toNat zero⟩

theorem accepted_iff (r : AcceptedReply) :
    (Message.accepted r).Handled ↔ (Message.accepted r).Aligned := by
  constructor
  · rintro ⟨p, read, -⟩
    have left := congrArg Prod.snd (Except.ok.inj ((reply_run 0 r.stat r.verf r.results).symm.trans read))
    rw [Lists.drop_append_eq_right_iff, List.length_append, word, length_bigEndian] at left
    have empty : r.verf.body.padding.length = 0 := by omega
    exact (padding_eq_nil r.verf.body).mp (List.length_eq_zero_iff.mp empty)
  · intro aligned
    exact ⟨_, reply_aligned 0 r.stat aligned r.results, (success_iff r.stat _ _).mp⟩

-- Fewer than four bytes behind what is taken for a verifier are no status.
theorem acceptState_of_short (state : UInt32) {s left : Bytes} {p : Rpc.Reply}
    (enough : 8 ≤ s.length) (short : s.length < 12 + secondWord s)
    (read : Rpc.reply (word state ++ s) = .ok (p, left)) : p.acceptState = none := by
  have more : s ≠ [] := List.ne_nil_of_length_pos (by omega)
  obtain ⟨v, verify⟩ := verifier_run enough
  have behind : (s.drop (8 + secondWord s)).length < 4 := by
    rw [List.length_drop]
    omega
  rw [Rpc.reply, bind_run ((reads_int state).runs _), bind_run (packetField_run more verify)] at read
  obtain ⟨acceptState, t, found, read⟩ := bind_eq_ok.mp read
  obtain ⟨rfl, -⟩ := Prod.mk.inj (Except.ok.inj read)
  cases acceptState with
  | none => rfl
  | some status =>
    generalize s.drop (8 + secondWord s) = rest at found behind
    by_cases nothing : rest = []
    · rw [nothing] at found
      cases found
    · have read := packetField_eq_some found
      rw [Rpc.status, Nfs3.intNumber, int, bind_apply, field_of_ne_nil 0 _ nothing, integer,
        if_pos behind] at read
      cases read

def noAuth : OpaqueAuth := ⟨0, ⟨[], by decide⟩⟩

-- A lowest version of zero is taken for the length of an empty verifier, and the highest one for the
-- status.
theorem rpcMismatch_zero (high : UInt32) :
    Rpc.reply (Message.denied (.rpcMismatch 0 high)).encode =
      .ok (⟨1, some noAuth.packet, some ⟨high.toNat⟩⟩, []) := by
  have read := reply_aligned 1 high (v := noAuth) (Nat.dvd_zero 4) []
  rw [List.append_nil] at read
  exact read

theorem rpcMismatch_short {low : UInt32} (some : low ≠ 0) (high : UInt32) {p : Rpc.Reply}
    {left : Bytes} (read : Rpc.reply (Message.denied (.rpcMismatch low high)).encode = .ok (p, left)) :
    p.acceptState = none := by
  have positive : 0 < low.toNat := Nat.pos_of_ne_zero fun same => some (UInt32.toNat.inj same)
  have length : (RejectedReply.rpcMismatch low high).encode.length = 12 := by
    simp [RejectedReply.encode, word]
  have second : secondWord (RejectedReply.rpcMismatch low high).encode = low.toNat :=
    secondWord_words 0 low.toNat_lt _
  exact acceptState_of_short 1 (by omega) (by omega) read

theorem authError_short {stat : UInt32} {p : Rpc.Reply} {left : Bytes}
    (read : Rpc.reply (Message.denied (.authError stat)).encode = .ok (p, left)) :
    p.acceptState = none := by
  have length : (RejectedReply.authError stat).encode.length = 8 := by
    simp [RejectedReply.encode, word]
  exact acceptState_of_short 1 (by omega) (by omega) read

theorem not_success_of_none {p : Rpc.Reply} (none : p.acceptState = none) : ¬ p.Success := by
  rintro ⟨status, found, -⟩
  rw [none] at found
  cases found

theorem rpcMismatch_iff (low high : UInt32) :
    (Message.denied (.rpcMismatch low high)).Handled ↔ ¬ (low = 0 ∧ high = 0) := by
  constructor
  · rintro handled ⟨rfl, rfl⟩
    exact handled _ _ (rpcMismatch_zero 0) ((success_iff 0 _ _).mpr rfl)
  · intro other p left read success
    by_cases zero : low = 0
    · subst zero
      obtain ⟨rfl, -⟩ := Prod.mk.inj (Except.ok.inj ((rpcMismatch_zero high).symm.trans read))
      exact other ⟨rfl, (success_iff high _ _).mp success⟩
    · exact not_success_of_none (rpcMismatch_short zero high read) success

/-- The parser finds the arguments of a call and the results of a reply, and takes no reply for a
successful one that is not, just when the message is aligned. -/
theorem headers_handled_iff (m : Message) : m.Handled ↔ m.Aligned := by
  cases m with
  | call c => exact call_iff c
  | accepted r => exact accepted_iff r
  | denied r =>
    cases r with
    | rpcMismatch low high => exact rpcMismatch_iff low high
    | authError stat =>
      exact iff_of_true (fun p left read => not_success_of_none (authError_short read)) trivial

-- A call of GETATTR with a credential of RPCSEC_GSS, flavor 6.
def gssCall : CallBody :=
  ⟨2, 100003, 3, 1, ⟨6, ⟨[0, 0, 0, 1, 0, 0, 0, 0, 0, 0, 0, 1, 0, 0, 0, 1, 0, 0, 0, 0], by decide⟩⟩,
    noAuth, [0, 0, 0, 4, 7, 7, 7, 7]⟩

theorem gss_call_not_handled : ¬ ∀ m : Message, m.Handled := by
  intro all
  exact absurd ((call_iff gssCall).mp (all (.call gssCall))) (by decide)

end Rfc1831

end VirtueSensing.Nfs
