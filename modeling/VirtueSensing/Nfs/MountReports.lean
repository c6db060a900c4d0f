import VirtueSensing.Nfs.ReportedEvents

set_option autoImplicit false

/-!
# Calls to the mount program

Of which calls and replies nothing is raised, for the mount program and for both programs.
-/

namespace VirtueSensing.Nfs

open Rfc1813

-- The key that `_destroy_handle_mapping` takes for a missing argument.
def emptyKey : PathKey := ⟨false, []⟩

theorem eq_emptyKey_iff (key : PathKey) : key = emptyKey ↔ ¬ key.packet ∧ key.text = [] := by
  obtain ⟨packet, text⟩ := key
  simp [emptyKey]

namespace Monitor

variable {m : Monitor}

theorem destroyHandleMapping_emptyKey : m.destroyHandleMapping emptyKey = .error .runtimeError := rfl

/-- The names that are gone are out of one dictionary, and the handles they led to out of the other. -/
structure Cleared (m : Monitor) (gone : PathKey → Prop) (later : Monitor) : Prop where
  names : ∀ key handle, later.nameHandleMap.lookup key = some handle ↔
    ¬ gone key ∧ m.nameHandleMap.lookup key = some handle
  handles : ∀ handle key, later.handleNameMap.lookup handle = some key ↔
    (∀ name, gone name → m.nameHandleMap.lookup name ≠ some handle) ∧
      m.handleNameMap.lookup handle = some key

theorem Cleared.mem {gone : PathKey → Prop} {later : Monitor} (cleared : Cleared m gone later)
    (key : PathKey) : key ∈ later.nameHandleMap ↔ ¬ gone key ∧ key ∈ m.nameHandleMap := by
  rw [← AList.lookup_isSome, ← AList.lookup_isSome, Option.isSome_iff_exists, Option.isSome_iff_exists,
    ← exists_and_left]
  exact exists_congr (cleared.names key)

theorem Cleared.congr {gone gone' : PathKey → Prop} {later : Monitor} (cleared : Cleared m gone later)
    (same : ∀ key ∈ m.nameHandleMap, (gone key ↔ gone' key)) : Cleared m gone' later where
  names key handle := by
    refine (cleared.names key handle).trans (and_congr_left fun found => not_congr (same key ?_))
    exact AList.lookup_isSome.mp (found ▸ rfl)
  handles handle key := by
    refine (cleared.handles handle key).trans (and_congr_left' (forall_congr' fun name => ?_))
    constructor
    · intro kept here found
      exact kept ((same name (AList.lookup_isSome.mp (found ▸ rfl))).mpr here) found
    · intro kept here found
      exact kept ((same name (AList.lookup_isSome.mp (found ▸ rfl))).mp here) found

theorem Cleared.trans {gone gone' : PathKey → Prop} {next later : Monitor} (first : Cleared m gone next)
    (second : Cleared next gone' later) : Cleared m (fun key => gone key ∨ gone' key) later where
  names key handle := by
    rw [second.names, first.names]
    tauto
  handles handle key := by
    rw [second.handles, first.handles, ← and_assoc]
    refine and_congr_left' ?_
    constructor
    · rintro ⟨later, kept⟩ name (here | here) found
      · exact kept name here found
      · by_cases before : gone name
        · exact kept name before found
        · exact later name here ((first.names name handle).mpr ⟨before, found⟩)
    · intro kept
      exact ⟨fun name here found => kept name (.inr here) ((first.names name handle).mp found).2,
        fun name here found => kept name (.inl here) found⟩

theorem Cleared.refl {gone : PathKey → Prop} (none : ∀ key, ¬ gone key) : Cleared m gone m where
  names key _ := (and_iff_right (none key)).symm
  handles _ _ := (and_iff_right fun name here => absurd here (none name)).symm

theorem destroyHandleMapping_known {key : PathKey} (named : key ≠ emptyKey)
    (known : key ∈ m.nameHandleMap) :
    ∃ later, m.destroyHandleMapping key = .ok later ∧ Cleared m (· = key) later ∧
      later.activeMountMap = m.activeMountMap := by
  obtain ⟨handle, found⟩ := Option.isSome_iff_exists.mp (AList.lookup_isSome.mpr known)
  rw [destroyHandleMapping, if_neg (mt (eq_emptyKey_iff key).mpr named), found]
  refine ⟨_, rfl, ⟨fun name other => ?_, fun other name => ?_⟩, rfl⟩
  · by_cases same : name = key
    · subst same
      simp
    · simp [AList.lookup_erase_ne same, same]
  · by_cases same : other = handle
    · subst same
      simp [found]
    · simp [AList.lookup_erase_ne same, found, Ne.symm same]

theorem destroyKeys {keys : List PathKey} (distinct : keys.Nodup)
    (known : ∀ key ∈ keys, key ∈ m.nameHandleMap) (named : emptyKey ∉ keys) :
    ∃ later, keys.foldlM destroyHandleMapping m = .ok later ∧ Cleared m (· ∈ keys) later ∧
      later.activeMountMap = m.activeMountMap := by
  induction keys generalizing m with
  | nil => exact ⟨m, rfl, .refl fun _ => List.not_mem_nil, rfl⟩
  | cons key rest ih =>
    obtain ⟨apart, distinct⟩ := List.nodup_cons.mp distinct
    obtain ⟨first, here⟩ := List.ne_and_not_mem_of_not_mem_cons named
    obtain ⟨next, destroyed, cleared, mounts⟩ :=
      destroyHandleMapping_known first.symm (known key List.mem_cons_self)
    have still : ∀ other ∈ rest, other ∈ next.nameHandleMap := fun other member =>
      (cleared.mem other).mpr ⟨fun same => apart (same ▸ member),
        known other (List.mem_cons_of_mem key member)⟩
    obtain ⟨later, ran, rested, kept⟩ := ih distinct still here
    refine ⟨later, ?_, (cleared.trans rested).congr fun other _ => List.mem_cons.symm, kept.trans mounts⟩
    rw [List.foldlM_cons, destroyed, Except.ok_bind, ran]

theorem destroyKeys_emptyKey {keys : List PathKey} (member : emptyKey ∈ keys) (later : Monitor) :
    keys.foldlM destroyHandleMapping m ≠ .ok later := by
  induction keys generalizing m with
  | nil => exact absurd member List.not_mem_nil
  | cons key rest ih =>
    intro ran
    rw [List.foldlM_cons] at ran
    obtain ⟨next, destroyed, ran⟩ := Except.of_bind_ok ran
    rcases List.mem_cons.mp member with rfl | below
    · cases destroyed
    · exact ih below ran

/-- A path can be unmounted unless it is empty and stands for an entry too. -/
def Removable (m : Monitor) (path : Bytes) : Prop := path = [] → emptyKey ∉ m.nameHandleMap

theorem emptyKey_below_iff (path : Bytes) :
    (emptyKey ∈ m.nameHandleMap.keys.filter fun key => path.isPrefixOf key.text) ↔
      path = [] ∧ emptyKey ∈ m.nameHandleMap := by
  rw [List.mem_filter, ← AList.mem_keys]
  cases path with
  | nil => simp
  | cons b rest => simp [emptyKey]

theorem destroyMountMapping_removable {path : Bytes} (removable : m.Removable path) :
    ∃ later, m.destroyMountMapping path = .ok later ∧
      Cleared m (fun key => path.isPrefixOf key.text) later ∧
      later.activeMountMap = m.activeMountMap.erase path := by
  have below : emptyKey ∉ m.nameHandleMap.keys.filter fun key => path.isPrefixOf key.text := by
    rw [emptyKey_below_iff]
    exact fun ⟨empty, known⟩ => removable empty known
  obtain ⟨later, ran, cleared, mounts⟩ := destroyKeys (m := m) ((AList.keys_nodup _).filter _)
    (fun key member => AList.mem_keys.mpr (List.mem_filter.mp member).1) below
  refine ⟨{ later with activeMountMap := later.activeMountMap.erase path }, ?_, ?_, ?_⟩
  · rw [destroyMountMapping, ran]
    rfl
  · have here : Cleared m (fun key => path.isPrefixOf key.text) later := by
      refine cleared.congr fun key known => ?_
      rw [List.mem_filter, ← AList.mem_keys]
      exact and_iff_right known
    exact ⟨here.names, here.handles⟩
  · rw [mounts]

theorem destroyMountMapping_iff (path : Bytes) :
    (∃ later, m.destroyMountMapping path = .ok later) ↔ m.Removable path := by
  constructor
  · rintro ⟨later, ran⟩ empty known
    obtain ⟨next, destroyed, -⟩ := Except.of_bind_ok ran
    exact destroyKeys_emptyKey ((emptyKey_below_iff path).mpr ⟨empty, known⟩) next destroyed
  · intro removable
    obtain ⟨later, ran, -⟩ := destroyMountMapping_removable removable
    exact ⟨later, ran⟩

theorem Removable.later {path other : Bytes} {later : Monitor} (removable : m.Removable path)
    (cleared : Cleared m (fun key => path.isPrefixOf key.text) later) :
    later.Removable other ↔ m.Removable other := by
  refine forall_congr' fun empty => not_congr ?_
  rw [cleared.mem]
  refine and_iff_right_of_imp fun known => ?_
  cases path with
  | nil => exact absurd known (removable rfl)
  | cons b path => simp [emptyKey]

theorem destroyMounts_removable {paths : List Bytes} (removable : ∀ path ∈ paths, m.Removable path) :
    ∃ later, paths.foldlM destroyMountMapping m = .ok later ∧
      Cleared m (fun key => ∃ path ∈ paths, path.isPrefixOf key.text) later ∧
      ∀ path, path ∈ later.activeMountMap ↔ path ∉ paths ∧ path ∈ m.activeMountMap := by
  induction paths generalizing m with
  | nil => exact ⟨m, rfl, .refl nofun, fun path => by simp⟩
  | cons path rest ih =>
    obtain ⟨first, others⟩ := List.forall_mem_cons.mp removable
    obtain ⟨next, destroyed, cleared, mounts⟩ := destroyMountMapping_removable first
    obtain ⟨later, ran, rested, kept⟩ := ih fun other member =>
      (first.later cleared).mpr (others other member)
    refine ⟨later, ?_, (cleared.trans rested).congr fun key _ => ?_, fun other => ?_⟩
    · rw [List.foldlM_cons, destroyed, Except.ok_bind, ran]
    · simp
    · rw [kept, mounts, AList.mem_erase, List.mem_cons, not_or]
      tauto

theorem destroyMounts_iff (paths : List Bytes) :
    (∃ later, paths.foldlM destroyMountMapping m = .ok later) ↔
      ∀ path ∈ paths, m.Removable path := by
  constructor
  · rintro ⟨later, ran⟩
    induction paths generalizing m with
    | nil => exact nofun
    | cons path rest ih =>
      rw [List.foldlM_cons] at ran
      obtain ⟨next, destroyed, ran⟩ := Except.of_bind_ok ran
      have removable := (destroyMountMapping_iff path).mp ⟨next, destroyed⟩
      obtain ⟨next', destroyed', cleared, -⟩ := destroyMountMapping_removable removable
      obtain rfl := Except.ok.inj (destroyed.symm.trans destroyed')
      exact List.forall_mem_cons.mpr
        ⟨removable, fun other member => (removable.later cleared).mp (ih ran other member)⟩
  · intro removable
    obtain ⟨later, ran, -⟩ := destroyMounts_removable removable
    exact ⟨later, ran⟩

end Monitor

def Packet.StatusNamed (reply : Packet) : Prop :=
  ∀ v, reply.get .status = .ok (.int v) → v ∈ mount3ValStatMap.map Prod.fst

namespace MountProcedure

/-- The handler has a path, the caller and a status to tell. -/
def Shown (call reply : Packet) : MountProcedure → Prop
  | null | dump | exports => True
  | mnt | umnt => call.Has .path ∧ call.Legible ∧ reply.StatusNamed
  | umntall => call.Legible ∧ reply.StatusNamed

/-- The dictionaries can do what a call asks for that was accepted. -/
def Settled (m : Monitor) (call reply : Packet) : MountProcedure → Prop
  | null | dump | exports => True
  | mnt =>
    ∃ status, reply.get .status = .ok status ∧
      (status = .int 0 → ∃ handle, reply.get .handle = .ok (.handle handle))
  | umnt => ∀ path, call.get .path = .ok path → m.Removable path.textStr
  | umntall => ∀ path ∈ m.activeMountMap.keys, m.Removable path

def Reportable (m : Monitor) (call reply : Packet) (p : MountProcedure) : Prop :=
  ∃ v, reply.acceptV = .ok v ∧ p.Shown call reply ∧ (v = success → p.Settled m call reply)

end MountProcedure

section Mounts

variable {m : Monitor} {call reply : Packet} {p : MountProcedure}

theorem fields_of_program (known : call.program = .ok (.mount p)) :
    call.get .prog = .ok (.int mountd) ∧ call.Has .proc := by
  obtain ⟨prog, first, known⟩ := Except.of_bind_ok known
  obtain ⟨proc, second, known⟩ := Except.of_bind_ok known
  refine ⟨?_, proc, second⟩
  split at known
  · split at known
    · rename_i same
      rw [first, same]
    · split at known
      · split at known <;> cases known
      · cases known
  · cases known

theorem getRpcStatus_iff {v : Nat} (known : call.program = .ok (.mount p))
    (accept : reply.acceptV = .ok v) :
    (∃ text, getRpcStatus call reply = .ok text) ↔ reply.StatusNamed := by
  have prog := (fields_of_program known).1
  simp only [getRpcStatus, Packet.StatusNamed, prog, accept, Except.ok_bind, if_true]
  match found : reply.get .status with
  | .ok (.int n) =>
    have listed : (∀ v, Except.ok (Value.int n) = Except.ok (ε := Exn) (.int v) →
        v ∈ mount3ValStatMap.map Prod.fst) ↔ mount3ValStatMap.lookup n ≠ none := by
      rw [Lists.lookup_ne_none_iff]
      constructor
      · intro all
        exact all n rfl
      · rintro here v ⟨rfl⟩
        exact here
    rw [listed]
    dsimp only
    cases mount3ValStatMap.lookup n with
    | none => exact iff_of_false nofun (not_not.mpr rfl)
    | some name => exact iff_of_true ⟨_, rfl⟩ nofun
  | .error _ => exact iff_of_true ⟨_, rfl⟩ nofun
  | .ok .none | .ok (.handle _) | .ok (.dirOpArgs _) | .ok (.text _) | .ok (.postOpFh _)
  | .ok (.symlinkData _) | .ok (.sattr _) | .ok (.auth _) | .ok (.rpcStatus _)
  | .ok (.nfsStatus _) | .ok .unread => exact iff_of_true ⟨_, rfl⟩ nofun

theorem report_ok_iff {status : Except Exn StatusText} {event : Who → StatusText → Event} :
    (∃ res, report call status event = .ok res) ↔ call.Legible ∧ ∃ text, status = .ok text := by
  rw [← getAuthStr_iff]
  constructor
  · rintro ⟨res, reported⟩
    obtain ⟨who, known, reported⟩ := Except.of_bind_ok reported
    obtain ⟨text, shown, -⟩ := Except.of_bind_ok reported
    exact ⟨⟨who, known⟩, text, shown⟩
  · rintro ⟨⟨who, known⟩, text, shown⟩
    refine ⟨some (event who text), ?_⟩
    simp only [report, known, shown, Except.ok_bind]
    rfl

theorem handleNop_ok (m : Monitor) (reply : Packet) (known : call.program = .ok (.mount p)) :
    ∃ res, handleNop m call reply = .ok res := by
  obtain ⟨prog, proc, found⟩ := fields_of_program known
  refine ⟨none, ?_⟩
  simp only [handleNop, prog, found, Except.ok_bind]
  rfl

theorem shown_iff {v : Nat} (known : call.program = .ok (.mount p)) (accept : reply.acceptV = .ok v) :
    (∃ res, mount3HandlerLookup p m call reply = .ok res) ↔ p.Shown call reply := by
  have report (event : Who → StatusText → Event) :
      (∃ res, report call (getRpcStatus call reply) event = .ok res) ↔
        call.Legible ∧ reply.StatusNamed :=
    report_ok_iff.trans (and_congr_right' (getRpcStatus_iff known accept))
  have pathed {event : Value → Who → StatusText → Event} :
      (∃ res, (call.get .path >>= fun path => Nfs.report call (getRpcStatus call reply) (event path)) =
        .ok res) ↔ call.Has .path ∧ call.Legible ∧ reply.StatusNamed := by
    simp only [Except.bind_eq_ok_iff]
    constructor
    · rintro ⟨res, path, found, reported⟩
      exact ⟨⟨path, found⟩, (report _).mp ⟨res, reported⟩⟩
    · rintro ⟨⟨path, found⟩, both⟩
      obtain ⟨res, reported⟩ := (report (event path)).mpr both
      exact ⟨res, path, found, reported⟩
  cases p with
  | null | dump | exports => exact iff_of_true (handleNop_ok m reply known) trivial
  | mnt | umnt => exact pathed
  | umntall => exact report _

theorem isReplyParsable_mount {v : Nat} (accept : reply.acceptV = .ok v) :
    reply.isReplyParsable (.mount p) =
      if v ≠ success then .ok false else reply.isResultParsable p := by
  rw [Packet.isReplyParsable, accept]
  rfl

def mountedAt (path : Value) : Value → Except Exn (Option Exchange)
  | .handle h => .ok (some (.operation (.mnt path.textStr h)))
  | _ => .error .attributeError

theorem mnt_settled_iff (known : call.program = .ok (.mount .mnt))
    (parsable : reply.isReplyParsable (.mount .mnt) = reply.isResultParsable .mnt)
    (pathed : call.Has .path) (legible : call.Legible) :
    (∃ later, updatePacketState m call reply = .ok later) ↔
      MountProcedure.mnt.Settled m call reply := by
  obtain ⟨path, here⟩ := pathed
  obtain ⟨who, told⟩ := getAuthStr_iff.mpr legible
  rw [Packet.isResultParsable] at parsable
  cases found : reply.get .status with
  | error e =>
    rw [found] at parsable
    refine iff_of_false ?_ ?_
    · rintro ⟨later, updated⟩
      simp only [updatePacketState, known, parsable, Except.ok_bind] at updated
      cases updated
    · rintro ⟨status, other, -⟩
      rw [found] at other
      cases other
  | ok status =>
    rw [found, Except.ok_bind] at parsable
    by_cases zero : status = .int 0
    · subst zero
      have settled : MountProcedure.mnt.Settled m call reply ↔
          ∃ handle, reply.get .handle = .ok (.handle handle) := by
        simp [MountProcedure.Settled, found]
      have exchange : call.exchange reply (.mount .mnt) =
          (reply.get .handle >>= mountedAt path) := by
        simp only [Packet.exchange, here, told, Except.ok_bind]
        rfl
      rw [settled, update_iff known parsable, exchange]
      constructor
      · rintro ⟨_, ran, -⟩
        obtain ⟨handle, read, ran⟩ := Except.of_bind_ok ran
        cases handle with
        | handle h => exact ⟨h, read⟩
        | _ => cases ran
      · rintro ⟨handle, read⟩
        refine ⟨_, by rw [read]; rfl, ?_⟩
        rintro _ ⟨rfl⟩
        exact ⟨_, rfl⟩
    · refine iff_of_true ⟨m, update_ignored known ?_⟩ ⟨status, found, fun same => absurd same zero⟩
      rw [parsable]
      exact congrArg Except.ok (decide_eq_false zero)

theorem settled_iff {v : Nat} (known : call.program = .ok (.mount p)) (accept : reply.acceptV = .ok v)
    (shown : p.Shown call reply) :
    (∃ later, updatePacketState m call reply = .ok later) ↔
      (v = success → p.Settled m call reply) := by
  have parsable := isReplyParsable_mount (p := p) accept
  by_cases ok : v = success
  · rw [if_neg (not_not.mpr ok)] at parsable
    rw [imp_iff_right ok]
    cases p with
    | null | dump | exports => exact iff_of_true ⟨m, update_ignored known parsable⟩ trivial
    | mnt => exact mnt_settled_iff known parsable shown.1 shown.2.1
    | umnt =>
      obtain ⟨path, here⟩ := shown.1
      have told : call.exchange reply (.mount .umnt) = .ok (some (.umnt path.textStr)) := by
        simp only [Packet.exchange, here, Except.ok_bind]
        rfl
      rw [update_exchange known parsable told, mapError_ok_iff]
      refine (Monitor.destroyMountMapping_iff path.textStr).trans ?_
      simp [MountProcedure.Settled, here]
    | umntall =>
      have told : call.exchange reply (.mount .umntall) = .ok (some .umntall) := rfl
      rw [update_exchange known parsable told, mapError_ok_iff]
      exact Monitor.destroyMounts_iff _
  · rw [if_pos ok] at parsable
    exact iff_of_true ⟨m, update_ignored known parsable⟩ fun same => absurd same ok

theorem handlePacket_mount (known : call.program = .ok (.mount p)) :
    handlePacket m call reply = mount3HandlerLookup p m call reply := by
  rw [handlePacket, known, Except.ok_bind]

theorem mount_reported_iff (known : call.program = .ok (.mount p)) :
    (∃ res later, handlerCore m reply (some call) = .ok (res, later)) ↔
      p.Reportable m call reply := by
  simp only [handlerCore_eq_ok, handlePacket_mount known]
  cases accept : reply.acceptV with
  | error e =>
    -- Without an accept status the sensor cannot even tell that there is nothing to do.
    refine iff_of_false ?_ ?_
    · rintro ⟨res, later, -, updated⟩
      simp only [updatePacketState, known, Packet.isReplyParsable, accept, Except.ok_bind] at updated
      cases updated
    · rintro ⟨v, found, -⟩
      rw [accept] at found
      cases found
  | ok v =>
    have reportable : p.Reportable m call reply ↔
        p.Shown call reply ∧ (v = success → p.Settled m call reply) := by
      simp [MountProcedure.Reportable, accept]
    rw [reportable]
    constructor
    · rintro ⟨res, later, handled, updated⟩
      have shown := (shown_iff known accept).mp ⟨res, handled⟩
      exact ⟨shown, (settled_iff known accept shown).mp ⟨later, updated⟩⟩
    · rintro ⟨shown, settled⟩
      obtain ⟨res, handled⟩ := (shown_iff (m := m) known accept).mpr shown
      obtain ⟨later, updated⟩ := (settled_iff known accept shown).mpr settled
      exact ⟨res, later, handled, updated⟩

end Mounts

def ProgramCall.program : ProgramCall → Program
  | nfs call => .nfs call.procedure
  | mount call => .mount call.procedure

def ProgramCall.argsClass : ProgramCall → Option LayeredClass
  | nfs call => some (.plain (nfs3CallLookup call.procedure))
  | mount call => (mount3CallLookup call.procedure).map .plain

theorem payloadClass_call (c : ProgramCall) {q : Rpc.Call} (prog : q.prog = c.prog.toNat)
    (proc : q.proc = c.proc.toNat) : q.payloadClass = some c.argsClass := by
  rw [Rpc.Call.payloadClass, prog, proc]
  cases c with
  | nfs call => cases call <;> rfl
  | mount call => cases call <;> rfl

namespace Pair

def args (p : Pair) : Bytes :=
  (p.body.behind ++ p.call.encode).drop (8 + Rfc1831.secondWord p.body.behind)

theorem callPacket_layers (p : Pair) :
    ∃ q, Rpc.call p.body.encode = .ok (q, p.args) ∧ q.prog = p.call.prog.toNat ∧
      q.proc = p.call.proc.toNat ∧
      p.callPacket = rpcHeader :: q.layer ::
        p.call.argsClass.elim (if p.args = [] then [] else [raw]) (·.layers p.args) := by
  obtain ⟨q, read, prog, proc⟩ := Rfc1831.call_run p.body
  have cls := payloadClass_call p.call prog proc
  refine ⟨q, read, prog, proc, ?_⟩
  rw [callPacket, Nfs.callPacket, read]
  simp only [cls]
  rfl

theorem callPacket_program (p : Pair) : p.callPacket.program = .ok p.call.program := by
  obtain ⟨q, -, prog, proc, layers⟩ := p.callPacket_layers
  have first : p.callPacket.get .prog = .ok (.int p.call.prog.toNat) := by
    rw [layers, ← prog]
    rfl
  have second : p.callPacket.get .proc = .ok (.int p.call.proc.toNat) := by
    rw [layers, ← proc]
    rfl
  simp only [Packet.program, first, second, Except.ok_bind]
  cases p.call with
  | nfs call => cases call <;> rfl
  | mount call => cases call <;> rfl

/-- Nothing is raised, and of a call to NFS there is one event that reports it. -/
def Reported (m : Monitor) (p : Pair) : Prop :=
  match p.call with
  | .nfs c => Nfs.Reported m p.callPacket p.replyPacket c p.answer.status
  | .mount _ => ∃ res later, handlerCore m p.replyPacket (some p.callPacket) = .ok (res, later)

/-- The packets of the call and of the reply hold what is read of them. -/
def Reportable (m : Monitor) (p : Pair) : Prop :=
  match p.call with
  | .nfs c => c.Reportable m p.callPacket p.replyPacket p.answer.status
  | .mount c => c.procedure.Reportable m p.callPacket p.replyPacket

end Pair

-- The machine is `host`, and the user is the superuser.
def hostAuth : OpaqueAuth :=
  ⟨1, ⟨[0, 0, 0, 7, 0, 0, 0, 4, 104, 111, 115, 116, 0, 0, 0, 0, 0, 0, 0, 0, 0, 0, 0, 0], by decide⟩⟩

def callOf (call : ProgramCall) (results : Bytes) : Pair :=
  ⟨2, 3, hostAuth, Rfc1831.noAuth, call, .accepted ⟨Rfc1831.noAuth, 0, results⟩⟩

-- A file is removed, and the event names another one.
def removedNotes : Pair :=
  callOf (.nfs (.remove ⟨⟨[0, 0, 0, 9], by decide⟩, ⟨ascii "notes.txt", by decide⟩⟩))
    (word 0 ++ WccData.encode ⟨some ⟨0, ⟨0, 0⟩, ⟨0, 0⟩⟩, none⟩)

end VirtueSensing.Nfs
