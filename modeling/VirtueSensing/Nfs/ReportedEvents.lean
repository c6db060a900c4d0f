import VirtueSensing.Nfs.PacketHandler

set_option autoImplicit false

/-!
# What is reported of a call and its reply

Of which packets of a call to NFS and of its reply the sensor reports the object and the status.
-/

namespace VirtueSensing.Nfs

open Rfc1813

-- `get_path` of a handle that was read as it is.
def Monitor.pathOf (m : Monitor) (handle : Counted) : Bytes := m.getPath (some handle.fhandle)

def Monitor.entryOf (m : Monitor) (args : Diropargs3) : Bytes :=
  pathJoin (m.pathOf args.dir) args.name.val

namespace NfsCall

/-- The path of the object that a call names. A symbolic link is made for the path in it, and a link
for an object that is there. -/
def path (m : Monitor) : NfsCall → Option Bytes
  | null => none
  | getattr handle | setattr handle _ _ | access handle _ | readlink handle | read handle _ _
  | write handle _ _ _ _ | link handle _ | readdir handle _ _ _ | readdirplus handle _ _ _ _
  | fsstat handle | fsinfo handle | pathconf handle | commit handle _ _ => some (m.pathOf handle)
  | lookup args | create args _ | mkdir args _ | mknod args _ | remove args | rmdir args
  | rename args _ => some (m.entryOf args)
  | symlink _ data => some data.symlinkData.val

def target (m : Monitor) : NfsCall → Option Bytes
  | symlink args _ | link _ args | rename _ args => some (m.entryOf args)
  | _ => none

end NfsCall

-- A status is shown by its name or by its digits.
def StatusText.Shows (text : StatusText) (status : Nat) : Prop :=
  text = .digits status ∨ ∃ name, nfs3ValStatMap.lookup status = some name ∧ text = .name name

structure Event.Reports (event : Event) (m : Monitor) (c : NfsCall) (status : Nat) : Prop where
  command : event.command = .nfs c.procedure
  path : event.path = c.path m
  target : ∀ path ∈ c.target m, event.target = some path
  status : ∃ text ∈ event.status, text.Shows status

/-- Nothing is raised, and of a call to NFS there is one event that reports it. The reply to NULL has no
status. -/
def Reported (m : Monitor) (call reply : Packet) (c : NfsCall) (status : Nat) : Prop :=
  ∃ event later, handlerCore m reply (some call) = .ok (some event, later) ∧
    if c = .null then event.command = .nfs .null else event.Reports m c status

namespace Packet

def Has (packet : Packet) (a : Attr) : Prop := ∃ v, packet.get a = .ok v

def NamesObject (call : Packet) (m : Monitor) (a : Attr) (handle : Counted) : Prop :=
  ∃ v, call.get a = .ok v ∧ m.getPathOf v = m.pathOf handle

/-- The directory of the field, with a name that is taken for the name of the entry, leads to the path
of the entry. -/
def NamesEntry (call : Packet) (m : Monitor) (a : Attr) (name : Value → Except Exn Bytes)
    (args : Diropargs3) : Prop :=
  call.entryPath m a name = .ok (m.entryOf args)

def Legible (call : Packet) : Prop :=
  ∃ flavor, call.get .credFlav = .ok flavor ∧
    (flavor = .int Rpc.authUnix →
      ∃ v, call.get .authSys = .ok v ∧ ∀ a, v = .auth (.packet a) → a.machineName ≠ none)

/-- There is a status, as a number or as a packet with a value that the table has a name for. -/
def ShowsStatus (reply : Packet) (status : Nat) : Prop :=
  reply.get .nfsStatus = .ok (.int status) ∨
    reply.get .nfsStatus = .ok (.nfsStatus ⟨some status⟩) ∧ status ∈ nfs3ValStatMap.map Prod.fst

end Packet

namespace NfsCall

/-- The call's packet names what the call does. There are handlers that always raise. -/
def Named (m : Monitor) (call : Packet) : NfsCall → Prop
  | null => True
  | getattr handle | readlink handle | read handle _ _ | write handle _ _ _ _
  | readdir handle _ _ _ | readdirplus handle _ _ _ _ => call.NamesObject m .handle handle
  | fsstat handle | fsinfo handle | commit handle _ _ => call.NamesObject m .root handle
  | pathconf handle => call.NamesObject m .path handle
  | access handle _ => call.NamesObject m .handle handle ∧ call.Has .checkAccess
  -- A mode that is set but cut off cannot be written out.
  | setattr handle _ _ =>
    call.NamesObject m .handle handle ∧
      ∃ v, call.get .newAttr = .ok v ∧ ∀ a, v = .sattr a → a.setMode ≠ 0 → a.mode ≠ none
  | lookup args | create args _ | mkdir args _ => call.NamesEntry m .args Value.argsFname args
  | symlink args data =>
    call.NamesEntry m .where_ Value.argsFname args ∧
      ∃ v, call.get .symlink = .ok v ∧ v.linkPath = .ok data.symlinkData.val
  | remove args | rmdir args => call.NamesEntry m .args Value.argsName args
  | rename ffrom fto =>
    call.NamesEntry m .ffrom Value.argsFname ffrom ∧ call.NamesEntry m .fto Value.argsFname fto
  | mknod _ _ | link _ _ => False

/-- The reply of a call that succeeded has what its event tells of it. -/
def Answered (reply : Packet) : NfsCall → Prop
  | access _ _ => ∃ ok, reply.succeeds = .ok ok ∧ (ok = true → reply.Has .access)
  | readlink _ => ∃ ok, reply.succeeds = .ok ok ∧ (ok = true → reply.Has .path)
  | _ => True

/-- The reply of a call that succeeded has the handle that the dictionaries take in. -/
def Identified (reply : Packet) : NfsCall → Prop
  | lookup _ => reply.succeeds = .ok true → ∃ handle, reply.get .handle = .ok (.handle handle)
  | create _ _ | mkdir _ _ | symlink _ _ =>
    reply.succeeds = .ok true → ∃ fh, reply.get .handle = .ok (.postOpFh fh)
  | _ => True

/-- NULL is always reported, and another call when both packets say what they should. -/
def Reportable (m : Monitor) (call reply : Packet) (status : Nat) (c : NfsCall) : Prop :=
  c = null ∨ (c.Named m call ∧ c.Answered reply ∧ call.Legible ∧ reply.ShowsStatus status) ∧
    c.Identified reply

end NfsCall

section Texts

variable {call reply : Packet}

theorem authStr_iff (v : Value) :
    (∃ who, v.authStr = .ok who) ↔ ∀ a, v = .auth (.packet a) → a.machineName ≠ none := by
  match v with
  | .auth (.packet a) =>
    by_cases named : a.machineName = none
    · simp [Value.authStr, named]
    · simp [Value.authStr, named]
  | .auth (.raw load) => exact iff_of_true ⟨_, rfl⟩ nofun
  | .none | .int _ | .handle _ | .text _ | .dirOpArgs _ | .symlinkData _ | .sattr _ | .nfsStatus _
  | .rpcStatus _ | .postOpFh _ | .unread => exact iff_of_true ⟨_, rfl⟩ nofun

theorem getAuthStr_iff : (∃ who, call.getAuthStr = .ok who) ↔ call.Legible := by
  simp only [Packet.getAuthStr, Packet.Legible, Except.bind_eq_ok_iff]
  rw [exists_comm]
  refine exists_congr fun flavor => ?_
  rw [exists_and_left]
  refine and_congr_right fun _ => ?_
  by_cases unix : flavor = .int Rpc.authUnix
  · rw [if_pos unix, imp_iff_right unix]
    simp only [Except.bind_eq_ok_iff]
    rw [exists_comm]
    exact exists_congr fun v => by rw [exists_and_left, authStr_iff]
  · rw [if_neg unix]
    refine iff_of_true ?_ fun same => absurd same unix
    split
    · exact ⟨_, rfl⟩
    · exact ⟨_, rfl⟩

theorem nfs3ValStatMap_inj {a b : Nat} {name : String} (first : nfs3ValStatMap.lookup a = some name)
    (second : nfs3ValStatMap.lookup b = some name) : a = b := by
  have distinct : (nfs3ValStatMap.map Prod.snd).Nodup := by decide +kernel
  have member : ∀ {v}, nfs3ValStatMap.lookup v = some name → (v, name) ∈ nfs3ValStatMap := by
    intro v found
    obtain ⟨before, after, parts, -⟩ := List.lookup_eq_some_iff.mp found
    rw [parts]
    simp
  exact congrArg Prod.fst (List.inj_on_of_nodup_map distinct (member first) (member second) rfl)

theorem statusStr_shows_iff {v status : Nat} :
    (∃ text, (Value.nfsStatus ⟨some v⟩).statusStr = .ok text ∧ text.Shows status) ↔
      v = status ∧ status ∈ nfs3ValStatMap.map Prod.fst := by
  rw [← Lists.lookup_ne_none_iff]
  simp only [Value.statusStr, Option.bind_some]
  cases named : nfs3ValStatMap.lookup v with
  | none =>
    refine iff_of_false (fun ⟨_, raised, _⟩ => nomatch raised) ?_
    rintro ⟨rfl, listed⟩
    exact listed named
  | some name =>
    constructor
    · rintro ⟨text, shown, shows⟩
      obtain rfl := Except.ok.inj shown
      obtain other | ⟨same, listed, equal⟩ := shows
      · cases other
      · obtain rfl := StatusText.name.inj equal
        obtain rfl := nfs3ValStatMap_inj named listed
        exact ⟨rfl, by simp [named]⟩
    · rintro ⟨rfl, -⟩
      exact ⟨_, rfl, .inr ⟨name, named, rfl⟩⟩

theorem nfsStatus_shows_iff (status : Nat) :
    (∃ text, reply.nfsStatus = .ok text ∧ text.Shows status) ↔ reply.ShowsStatus status := by
  simp only [Packet.nfsStatus, Packet.ShowsStatus, Except.bind_eq_ok_iff]
  constructor
  · rintro ⟨text, ⟨v, found, shown⟩, shows⟩
    rw [found]
    match v with
    | .int n =>
      obtain rfl := Except.ok.inj shown
      obtain same | ⟨name, -, same⟩ := shows
      · exact .inl (congrArg (Except.ok ∘ Value.int) (StatusText.digits.inj same))
      · cases same
    | .nfsStatus ⟨none⟩ => cases shown
    | .nfsStatus ⟨some n⟩ =>
      obtain ⟨rfl, listed⟩ := statusStr_shows_iff.mp ⟨text, shown, shows⟩
      exact .inr ⟨rfl, listed⟩
    | .none | .handle _ | .text _ | .dirOpArgs _ | .symlinkData _ | .sattr _ | .auth _
    | .rpcStatus _ | .postOpFh _ | .unread =>
      obtain rfl := Except.ok.inj shown
      obtain same | ⟨name, -, same⟩ := shows
      · cases same
      · cases same
  · rintro (found | ⟨found, listed⟩)
    · exact ⟨_, ⟨_, found, rfl⟩, .inl rfl⟩
    · obtain ⟨text, shown, shows⟩ := statusStr_shows_iff.mpr ⟨rfl, listed⟩
      exact ⟨text, ⟨_, found, shown⟩, shows⟩

end Texts

section Handlers

variable {m : Monitor} {call reply : Packet} {c : NfsCall} {status : Nat}

def Told (m : Monitor) (c : NfsCall) (status : Nat) (handled : Except Exn (Option Event)) : Prop :=
  ∃ event, handled = .ok (some event) ∧ event.Reports m c status

theorem told_bind_iff {α : Type} {x : Except Exn α} {f : α → Except Exn (Option Event)} :
    Told m c status (x >>= f) ↔ ∃ a, x = .ok a ∧ Told m c status (f a) := by
  simp only [Told, Except.bind_eq_ok_iff]
  constructor
  · rintro ⟨event, ⟨a, found, handled⟩, reports⟩
    exact ⟨a, found, event, handled, reports⟩
  · rintro ⟨a, found, event, handled, reports⟩
    exact ⟨event, ⟨a, found, handled⟩, reports⟩

theorem told_report_iff (event : Who → StatusText → Event) (path target : Option Bytes)
    (shape : ∀ who text, (event who text).command = .nfs c.procedure ∧ (event who text).path = path ∧
      (event who text).target = target ∧ (event who text).status = some text) :
    Told m c status (report call reply.nfsStatus event) ↔
      (path = c.path m ∧ ∀ p ∈ c.target m, target = some p) ∧ call.Legible ∧
        reply.ShowsStatus status := by
  rw [← getAuthStr_iff, ← nfsStatus_shows_iff]
  constructor
  · rintro ⟨e, handled, reports⟩
    obtain ⟨who, known, handled⟩ := Except.of_bind_ok handled
    obtain ⟨text, shown, handled⟩ := Except.of_bind_ok handled
    obtain rfl := Option.some.inj (Except.ok.inj handled)
    obtain ⟨-, paths, targets, statuses⟩ := shape who text
    obtain ⟨text', here, shows⟩ := reports.status
    obtain rfl : text = text' := Option.some.inj (statuses.symm.trans here)
    have aimed : ∀ p ∈ c.target m, target = some p := fun p member =>
      targets.symm.trans (reports.target p member)
    exact ⟨⟨paths.symm.trans reports.path, aimed⟩, ⟨who, known⟩, text, shown, shows⟩
  · rintro ⟨⟨named, aimed⟩, ⟨who, known⟩, text, shown, shows⟩
    obtain ⟨command, paths, targets, statuses⟩ := shape who text
    refine ⟨event who text, ?_, command, paths.trans named, fun p member => ?_, text, statuses, shows⟩
    · simp only [report, known, shown, Except.ok_bind]
      rfl
    · exact targets.trans (aimed p member)

theorem told_info_iff {procedure : Procedure} (same : procedure = c.procedure) (path : Option Bytes)
    (bare : c.target m = none) :
    Told m c status (report call reply.nfsStatus (infoEvent procedure path)) ↔
      path = c.path m ∧ call.Legible ∧ reply.ShowsStatus status := by
  subst same
  rw [told_report_iff (infoEvent c.procedure path) path none fun _ _ => ⟨rfl, rfl, rfl, rfl⟩, bare]
  simp

theorem told_object_iff {a : Attr} {handle : Counted} (path : c.path m = some (m.pathOf handle))
    (bare : c.target m = none) :
    Told m c status (handleObject c.procedure a m call reply) ↔
      call.NamesObject m a handle ∧ call.Legible ∧ reply.ShowsStatus status := by
  rw [handleObject, told_bind_iff, Packet.NamesObject, ← exists_and_right]
  refine exists_congr fun v => ?_
  rw [told_info_iff rfl _ bare, path, Option.some_inj, and_assoc]

theorem told_entry_iff {name : Value → Except Exn Bytes} {args : Diropargs3}
    (path : c.path m = some (m.entryOf args)) (bare : c.target m = none) :
    Told m c status (handleEntry c.procedure name m call reply) ↔
      call.NamesEntry m .args name args ∧ call.Legible ∧ reply.ShowsStatus status := by
  rw [handleEntry, told_bind_iff, Packet.NamesEntry]
  constructor
  · rintro ⟨found, here, told⟩
    obtain ⟨same, rest⟩ := (told_info_iff rfl _ bare).mp told
    rw [path] at same
    exact ⟨here.trans (congrArg Except.ok (Option.some.inj same)), rest⟩
  · rintro ⟨here, rest⟩
    exact ⟨_, here, (told_info_iff rfl _ bare).mpr ⟨path.symm, rest⟩⟩

theorem sattrStr_iff (v : Value) :
    (∃ text, v.sattrStr = .ok text) ↔ ∀ a, v = .sattr a → a.setMode ≠ 0 → a.mode ≠ none := by
  match v with
  | .sattr a =>
    by_cases cut : a.setMode ≠ 0 ∧ a.mode = none
    · refine iff_of_false (fun ⟨_, shown⟩ => ?_) fun whole => whole a rfl cut.1 cut.2
      rw [Value.sattrStr, if_pos cut] at shown
      cases shown
    · refine iff_of_true ⟨_, if_neg cut⟩ ?_
      rintro _ ⟨rfl⟩ set missing
      exact cut ⟨set, missing⟩
  | .auth _ | .none | .int _ | .handle _ | .text _ | .dirOpArgs _ | .symlinkData _ | .nfsStatus _
  | .rpcStatus _ | .postOpFh _ | .unread => exact iff_of_true ⟨_, rfl⟩ nofun

theorem told_setattr_iff {handle : Counted} {newAttributes : Sattr3} {guard : Sattrguard3} :
    Told m (.setattr handle newAttributes guard) status (handleNfs3Setattr m call reply) ↔
      (call.NamesObject m .handle handle ∧
        ∃ v, call.get .newAttr = .ok v ∧ ∀ a, v = .sattr a → a.setMode ≠ 0 → a.mode ≠ none) ∧
      call.Legible ∧ reply.ShowsStatus status := by
  have told : ∀ path newAttr, Told m (.setattr handle newAttributes guard) status
      (report call reply.nfsStatus fun who status =>
        { infoEvent .setattr (some path) who status with newAttr }) ↔
      path = m.pathOf handle ∧ call.Legible ∧ reply.ShowsStatus status := by
    intro path newAttr
    refine (told_report_iff _ (some path) none fun _ _ => ⟨rfl, rfl, rfl, rfl⟩).trans ?_
    simp [NfsCall.path, NfsCall.target]
  simp only [handleNfs3Setattr, told_bind_iff, told, Packet.NamesObject]
  constructor
  · rintro ⟨v, here, w, attr, text, shown, path, rest⟩
    exact ⟨⟨⟨v, here, path⟩, w, attr, (sattrStr_iff w).mp ⟨text, shown⟩⟩, rest⟩
  · rintro ⟨⟨⟨v, here, path⟩, w, attr, whole⟩, rest⟩
    obtain ⟨text, shown⟩ := (sattrStr_iff w).mpr whole
    exact ⟨v, here, w, attr, text, shown, path, rest⟩

theorem onSuccess_iff {a : Attr} :
    (∃ v, reply.onSuccess a = .ok v) ↔ ∃ ok, reply.succeeds = .ok ok ∧ (ok = true → reply.Has a) := by
  simp only [Packet.onSuccess, Except.bind_eq_ok_iff]
  rw [exists_comm]
  refine exists_congr fun ok => ?_
  rw [exists_and_left]
  refine and_congr_right fun _ => ?_
  cases ok with
  | false => exact iff_of_true ⟨_, rfl⟩ nofun
  | true =>
    rw [imp_iff_right rfl]
    constructor
    · rintro ⟨v, read⟩
      obtain ⟨w, found, -⟩ := Except.of_bind_ok read
      exact ⟨w, found⟩
    · rintro ⟨w, found⟩
      exact ⟨some w, Except.bind_eq_ok_iff.mpr ⟨w, found, rfl⟩⟩

theorem told_access_iff {handle : Counted} {check : UInt32} :
    Told m (.access handle check) status (handleNfs3Access m call reply) ↔
      (call.NamesObject m .handle handle ∧ call.Has .checkAccess) ∧
        (∃ ok, reply.succeeds = .ok ok ∧ (ok = true → reply.Has .access)) ∧
        call.Legible ∧ reply.ShowsStatus status := by
  have told : ∀ path access, Told m (.access handle check) status
      (report call reply.nfsStatus fun who status =>
        { infoEvent .access (some path) who status with access }) ↔
      path = m.pathOf handle ∧ call.Legible ∧ reply.ShowsStatus status := by
    intro path access
    refine (told_report_iff _ (some path) none fun _ _ => ⟨rfl, rfl, rfl, rfl⟩).trans ?_
    simp [NfsCall.path, NfsCall.target]
  rw [← onSuccess_iff]
  simp only [handleNfs3Access, told_bind_iff, told, Packet.NamesObject, Packet.Has]
  constructor
  · rintro ⟨v, here, checked, found, access, answered, path, rest⟩
    exact ⟨⟨⟨v, here, path⟩, checked, found⟩, ⟨access, answered⟩, rest⟩
  · rintro ⟨⟨⟨v, here, path⟩, checked, found⟩, ⟨access, answered⟩, rest⟩
    exact ⟨v, here, checked, found, access, answered, path, rest⟩

theorem told_readlink_iff {handle : Counted} :
    Told m (.readlink handle) status (handleNfs3Readlink m call reply) ↔
      call.NamesObject m .handle handle ∧
        (∃ ok, reply.succeeds = .ok ok ∧ (ok = true → reply.Has .path)) ∧
        call.Legible ∧ reply.ShowsStatus status := by
  have told : ∀ path target, Told m (.readlink handle) status
      (report call reply.nfsStatus fun who status =>
        { infoEvent .readlink (some path) who status with target }) ↔
      path = m.pathOf handle ∧ call.Legible ∧ reply.ShowsStatus status := by
    intro path target
    refine (told_report_iff _ (some path) target fun _ _ => ⟨rfl, rfl, rfl, rfl⟩).trans ?_
    simp [NfsCall.path, NfsCall.target]
  rw [← onSuccess_iff]
  simp only [handleNfs3Readlink, told_bind_iff, told, Packet.NamesObject]
  constructor
  · rintro ⟨v, here, target, answered, path, rest⟩
    exact ⟨⟨v, here, path⟩, ⟨target, answered⟩, rest⟩
  · rintro ⟨⟨v, here, path⟩, ⟨target, answered⟩, rest⟩
    exact ⟨v, here, target, answered, path, rest⟩

theorem told_symlink_iff {args : Diropargs3} {data : Symlinkdata3} :
    Told m (.symlink args data) status (handleNfs3Symlink m call reply) ↔
      (call.NamesEntry m .where_ Value.argsFname args ∧
        ∃ v, call.get .symlink = .ok v ∧ v.linkPath = .ok data.symlinkData.val) ∧
      call.Legible ∧ reply.ShowsStatus status := by
  have told : ∀ source target, Told m (.symlink args data) status
      (report call reply.nfsStatus fun who status =>
        { infoEvent .symlink (some source) who status with target := some target }) ↔
      (source = data.symlinkData.val ∧ target = m.entryOf args) ∧ call.Legible ∧
        reply.ShowsStatus status := by
    intro source target
    refine (told_report_iff _ (some source) (some target) fun _ _ => ⟨rfl, rfl, rfl, rfl⟩).trans ?_
    simp [NfsCall.path, NfsCall.target]
  simp only [handleNfs3Symlink, told_bind_iff, told, Packet.NamesEntry]
  constructor
  · rintro ⟨_, named, v, found, _, link, ⟨rfl, rfl⟩, rest⟩
    exact ⟨⟨named, v, found, link⟩, rest⟩
  · rintro ⟨⟨named, v, found, link⟩, rest⟩
    exact ⟨_, named, v, found, _, link, ⟨rfl, rfl⟩, rest⟩

theorem told_rename_iff {ffrom fto : Diropargs3} :
    Told m (.rename ffrom fto) status (handleNfs3Rename m call reply) ↔
      (call.NamesEntry m .ffrom Value.argsFname ffrom ∧
        call.NamesEntry m .fto Value.argsFname fto) ∧
      call.Legible ∧ reply.ShowsStatus status := by
  have told : ∀ fromName toName, Told m (.rename ffrom fto) status
      (report call reply.nfsStatus fun who status =>
        { infoEvent .rename (some fromName) who status with target := some toName }) ↔
      (fromName = m.entryOf ffrom ∧ toName = m.entryOf fto) ∧ call.Legible ∧
        reply.ShowsStatus status := by
    intro fromName toName
    refine (told_report_iff _ (some fromName) (some toName) fun _ _ => ⟨rfl, rfl, rfl, rfl⟩).trans ?_
    simp [NfsCall.path, NfsCall.target]
  simp only [handleNfs3Rename, told_bind_iff, told, Packet.NamesEntry]
  constructor
  · rintro ⟨_, first, _, second, ⟨rfl, rfl⟩, rest⟩
    exact ⟨⟨first, second⟩, rest⟩
  · rintro ⟨⟨first, second⟩, rest⟩
    exact ⟨_, first, _, second, ⟨rfl, rfl⟩, rest⟩

-- The name that is joined to the directory is a packet.
theorem not_told_link {file : Counted} {args : Diropargs3} :
    ¬ Told m (.link file args) status (handleNfs3Link m call reply) := by
  simp only [handleNfs3Link, told_bind_iff, Packet.entryPath, Except.bind_eq_ok_iff]
  rintro ⟨_, _, _, ⟨_, _, _, _, _, raised, _⟩, _⟩
  cases raised

theorem told_iff (other : c ≠ .null) :
    Told m c status (nfs3HandlerLookup c.procedure m call reply) ↔
      c.Named m call ∧ c.Answered reply ∧ call.Legible ∧ reply.ShowsStatus status := by
  cases c with
  | null => exact absurd rfl other
  | link => exact iff_of_false not_told_link (·.1)
  | mknod =>
    refine (told_info_iff rfl none rfl).trans (iff_of_false ?_ (·.1))
    rintro ⟨missing, -⟩
    cases missing
  | setattr => exact told_setattr_iff.trans (by simp only [NfsCall.Named, NfsCall.Answered, true_and])
  | access => exact told_access_iff
  | readlink => exact told_readlink_iff
  | symlink => exact told_symlink_iff.trans (by simp only [NfsCall.Named, NfsCall.Answered, true_and])
  | rename => exact told_rename_iff.trans (by simp only [NfsCall.Named, NfsCall.Answered, true_and])
  | lookup | create | mkdir | remove | rmdir =>
    exact (told_entry_iff rfl rfl).trans (by simp only [NfsCall.Named, NfsCall.Answered, true_and])
  | getattr | read | write | readdir | readdirplus | fsstat | fsinfo | pathconf | commit =>
    exact (told_object_iff rfl rfl).trans (by simp only [NfsCall.Named, NfsCall.Answered, true_and])

end Handlers

section Updates

variable {m : Monitor} {call reply : Packet} {program : Program}

theorem update_ignored (known : call.program = .ok program)
    (parsable : reply.isReplyParsable program = .ok false) :
    updatePacketState m call reply = .ok m := by
  simp only [updatePacketState, known, parsable, Except.ok_bind]
  rfl

theorem update_exchange {exchange : Exchange} (known : call.program = .ok program)
    (parsable : reply.isReplyParsable program = .ok true)
    (found : call.exchange reply program = .ok (some exchange)) :
    updatePacketState m call reply = (updateState m exchange).mapError .state := by
  simp only [updatePacketState, known, parsable, found, Except.ok_bind, if_true]

theorem mapError_ok_iff {x : Except Raised Monitor} :
    (∃ later, x.mapError Exn.state = .ok later) ↔ ∃ later, x = .ok later := by
  cases x with
  | error e => exact iff_of_false nofun nofun
  | ok later => exact iff_of_true ⟨_, rfl⟩ ⟨_, rfl⟩

theorem update_iff (known : call.program = .ok program)
    (parsable : reply.isReplyParsable program = .ok true) :
    (∃ later, updatePacketState m call reply = .ok later) ↔
      ∃ exchange, call.exchange reply program = .ok exchange ∧
        ∀ e ∈ exchange, ∃ later, updateState m e = .ok later := by
  cases told : call.exchange reply program with
  | error e =>
    simp only [updatePacketState, known, parsable, told, Except.ok_bind, if_true]
    exact iff_of_false nofun nofun
  | ok exchange =>
    cases exchange with
    | none =>
      refine iff_of_true ⟨m, ?_⟩ ⟨none, rfl, nofun⟩
      simp only [updatePacketState, known, parsable, told, Except.ok_bind, if_true, pure, Except.pure]
    | some e =>
      rw [update_exchange known parsable told, mapError_ok_iff]
      constructor
      · intro done
        refine ⟨some e, rfl, ?_⟩
        rintro _ ⟨rfl⟩
        exact done
      · rintro ⟨_, same, done⟩
        exact done e (Except.ok.inj same ▸ rfl)

theorem get_error {packet : Packet} {a : Attr} {e : Exn} (raised : packet.get a = .error e) :
    e = .attributeError := by
  rw [Packet.get] at raised
  split at raised
  · cases raised
  · exact (Except.error.inj raised).symm

theorem succeeds_error {e : Exn} (raised : reply.succeeds = .error e) : e = .attributeError := by
  rw [Packet.succeeds] at raised
  cases found : reply.get .nfsStatus with
  | error e' =>
    rw [found] at raised
    obtain rfl := get_error found
    exact (Except.error.inj raised).symm
  | ok v =>
    rw [found, Except.ok_bind] at raised
    match v with
    | .nfsStatus _ => cases raised
    | .none | .int _ | .handle _ | .text _ | .dirOpArgs _ | .symlinkData _ | .sattr _ | .auth _
    | .rpcStatus _ | .postOpFh _ | .unread => exact (Except.error.inj raised).symm

theorem isReplyParsable_nfs (reply : Packet) (procedure : Procedure) :
    reply.isReplyParsable (.nfs procedure) = .ok (decide (reply.succeeds = .ok true)) := by
  rw [Packet.isReplyParsable]
  cases read : reply.succeeds with
  | error e =>
    obtain rfl := succeeds_error read
    rfl
  | ok parsable => cases parsable <;> rfl

theorem following_iff {v : Value} :
    (∃ object, v.following = .ok object) ↔ ∃ fh, v = .postOpFh fh := by
  match v with
  | .postOpFh fh => exact iff_of_true ⟨_, rfl⟩ ⟨fh, rfl⟩
  | .none | .int _ | .handle _ | .text _ | .dirOpArgs _ | .symlinkData _ | .sattr _ | .auth _
  | .rpcStatus _ | .nfsStatus _ | .unread => exact iff_of_false nofun nofun

theorem dirOpArgs_of_names {a : Attr} {args : Diropargs3}
    (named : call.NamesEntry m a Value.argsFname args) :
    ∃ found, call.get a = .ok (.dirOpArgs found) := by
  obtain ⟨v, here, named⟩ := Except.of_bind_ok named
  obtain ⟨dir, read, -⟩ := Except.of_bind_ok named
  match v with
  | .dirOpArgs found => exact ⟨found, here⟩
  | .none | .int _ | .handle _ | .text _ | .postOpFh _ | .symlinkData _ | .sattr _ | .auth _
  | .rpcStatus _ | .nfsStatus _ | .unread => cases read

theorem made_eq {kind : Made} {a : Attr} {found : Nfs3.DirOpArgs} {fh : Nfs3.PostOpFh}
    (args : call.get a = .ok (.dirOpArgs found)) (legible : call.Legible)
    (handle : reply.get .handle = .ok (.postOpFh fh)) :
    made kind a call reply =
      .ok (if fh.handleFollows = 0 then none
        else some (.operation (.make kind found.handle (strText found.fname) (some fh.handle)))) := by
  obtain ⟨who, known⟩ := getAuthStr_iff.mpr legible
  simp only [made, handle, args, known, Except.ok_bind, Value.following]
  by_cases nothing : fh.handleFollows = 0
  · simp only [nothing, if_true]
    rfl
  · simp only [nothing, if_false]
    rfl

theorem made_iff {kind : Made} {a : Attr} {args : Diropargs3}
    (named : call.NamesEntry m a Value.argsFname args) (legible : call.Legible) :
    (∃ exchange, made kind a call reply = .ok exchange) ↔
      ∃ fh, reply.get .handle = .ok (.postOpFh fh) := by
  obtain ⟨found, read⟩ := dirOpArgs_of_names named
  constructor
  · rintro ⟨exchange, ran⟩
    obtain ⟨v, here, ran⟩ := Except.of_bind_ok ran
    obtain ⟨object, follows, -⟩ := Except.of_bind_ok ran
    obtain ⟨fh, rfl⟩ := following_iff.mp ⟨object, follows⟩
    exact ⟨fh, here⟩
  · rintro ⟨fh, handle⟩
    exact ⟨_, made_eq read legible handle⟩

theorem lookup_eq {found : Nfs3.DirOpArgs} {handle : Handle}
    (args : call.get .args = .ok (.dirOpArgs found)) (legible : call.Legible)
    (here : reply.get .handle = .ok (.handle handle)) :
    call.exchange reply (.nfs .lookup) =
      .ok (some (.operation (.lookup found.handle (strText found.fname) handle))) := by
  obtain ⟨who, known⟩ := getAuthStr_iff.mpr legible
  simp only [Packet.exchange, args, known, here, Except.ok_bind]
  rfl

theorem lookup_iff {args : Diropargs3} (named : call.NamesEntry m .args Value.argsFname args)
    (legible : call.Legible) :
    (∃ exchange, call.exchange reply (.nfs .lookup) = .ok exchange) ↔
      ∃ handle, reply.get .handle = .ok (.handle handle) := by
  obtain ⟨found, read⟩ := dirOpArgs_of_names named
  constructor
  · rintro ⟨exchange, ran⟩
    obtain ⟨_, -, ran⟩ := Except.of_bind_ok ran
    obtain ⟨_, -, ran⟩ := Except.of_bind_ok ran
    obtain ⟨v, here, ran⟩ := Except.of_bind_ok ran
    match v with
    | .handle handle => exact ⟨handle, here⟩
    | .none | .int _ | .dirOpArgs _ | .text _ | .postOpFh _ | .symlinkData _ | .sattr _ | .auth _
    | .rpcStatus _ | .nfsStatus _ | .unread => cases ran
  · rintro ⟨handle, here⟩
    exact ⟨_, lookup_eq read legible here⟩

theorem exchange_done {procedure : Procedure} {e : Exchange}
    (told : call.exchange reply (.nfs procedure) = .ok (some e)) :
    ∃ later, updateState m e = .ok later := by
  have of_made : ∀ {kind a}, made kind a call reply = .ok (some e) →
      ∃ later, updateState m e = .ok later := by
    intro kind a ran
    obtain ⟨v, -, ran⟩ := Except.of_bind_ok ran
    obtain ⟨object, -, ran⟩ := Except.of_bind_ok ran
    cases object with
    | none => cases ran
    | some object =>
      obtain ⟨_, -, ran⟩ := Except.of_bind_ok ran
      obtain ⟨_, -, ran⟩ := Except.of_bind_ok ran
      obtain ⟨_, -, ran⟩ := Except.of_bind_ok ran
      obtain ⟨_, -, ran⟩ := Except.of_bind_ok ran
      obtain rfl := Option.some.inj (Except.ok.inj ran)
      exact ⟨_, rfl⟩
  cases procedure with
  | create | mkdir | symlink => exact of_made told
  | lookup =>
    obtain ⟨_, -, ran⟩ := Except.of_bind_ok told
    obtain ⟨_, -, ran⟩ := Except.of_bind_ok ran
    obtain ⟨v, -, ran⟩ := Except.of_bind_ok ran
    match v with
    | .handle handle =>
      obtain ⟨_, -, ran⟩ := Except.of_bind_ok ran
      obtain ⟨_, -, ran⟩ := Except.of_bind_ok ran
      obtain rfl := Option.some.inj (Except.ok.inj ran)
      exact ⟨_, rfl⟩
    | .none | .int _ | .dirOpArgs _ | .text _ | .postOpFh _ | .symlinkData _ | .sattr _ | .auth _
    | .rpcStatus _ | .nfsStatus _ | .unread => cases ran
  | _ => cases told

theorem update_nfs_iff {c : NfsCall} (known : call.program = .ok (.nfs c.procedure))
    (named : c.Named m call) (legible : call.Legible) :
    (∃ later, updatePacketState m call reply = .ok later) ↔ c.Identified reply := by
  have parsable := isReplyParsable_nfs reply c.procedure
  by_cases ok : reply.succeeds = .ok true
  · rw [decide_eq_true ok] at parsable
    rw [update_iff known parsable]
    have done : (∃ exchange, call.exchange reply (.nfs c.procedure) = .ok exchange ∧
        ∀ e ∈ exchange, ∃ later, updateState m e = .ok later) ↔
        ∃ exchange, call.exchange reply (.nfs c.procedure) = .ok exchange := by
      refine exists_congr fun exchange => and_iff_left_of_imp fun told e member => ?_
      rw [Option.mem_def] at member
      exact exchange_done (told.trans (congrArg Except.ok member))
    rw [done]
    cases c with
    | lookup => exact (lookup_iff named legible).trans (by simp only [NfsCall.Identified, ok, true_imp_iff])
    | create | mkdir => exact (made_iff named legible).trans (by simp only [NfsCall.Identified, ok, true_imp_iff])
    | symlink => exact (made_iff named.1 legible).trans (by simp only [NfsCall.Identified, ok, true_imp_iff])
    | _ => exact iff_of_true ⟨none, rfl⟩ trivial
  · rw [decide_eq_false ok] at parsable
    refine iff_of_true ⟨m, update_ignored known parsable⟩ ?_
    cases c with
    | lookup | create | mkdir | symlink => exact fun same => absurd same ok
    | _ => trivial

end Updates

theorem handlerCore_eq_ok {m later : Monitor} {call reply : Packet} {res : Option Event} :
    handlerCore m reply (some call) = .ok (res, later) ↔
      handlePacket m call reply = .ok res ∧ updatePacketState m call reply = .ok later := by
  constructor
  · intro ran
    obtain ⟨res', handled, ran⟩ := Except.of_bind_ok ran
    obtain ⟨later', updated, ran⟩ := Except.of_bind_ok ran
    obtain ⟨rfl, rfl⟩ := Prod.mk.inj (Except.ok.inj ran)
    exact ⟨handled, updated⟩
  · rintro ⟨handled, updated⟩
    simp only [handlerCore, handled, updated, Except.ok_bind]
    rfl

theorem handlePacket_nfs {m : Monitor} {call reply : Packet} {procedure : Procedure}
    (known : call.program = .ok (.nfs procedure)) :
    handlePacket m call reply = nfs3HandlerLookup procedure m call reply := by
  rw [handlePacket, known, Except.ok_bind]

section Nfs

variable {m : Monitor} {call reply : Packet} {c : NfsCall} {status : Nat}

theorem nfs_reported_iff (known : call.program = .ok (.nfs c.procedure)) :
    Reported m call reply c status ↔ c.Reportable m call reply status := by
  by_cases null : c = .null
  · subst null
    have updated : ∃ later, updatePacketState m call reply = .ok later := by
      have parsable := isReplyParsable_nfs reply .null
      by_cases ok : reply.succeeds = .ok true
      · rw [decide_eq_true ok] at parsable
        exact (update_iff known parsable).mpr ⟨none, rfl, nofun⟩
      · rw [decide_eq_false ok] at parsable
        exact ⟨m, update_ignored known parsable⟩
    obtain ⟨later, updated⟩ := updated
    refine iff_of_true ⟨_, later, handlerCore_eq_ok.mpr ⟨handlePacket_nfs known, updated⟩, ?_⟩ (.inl rfl)
    rw [if_pos rfl]
  · rw [NfsCall.Reportable, or_iff_right null, ← told_iff null]
    constructor
    · rintro ⟨event, later, ran, reports⟩
      obtain ⟨handled, updated⟩ := handlerCore_eq_ok.mp ran
      rw [if_neg null] at reports
      have told : Told m c status (nfs3HandlerLookup c.procedure m call reply) :=
        ⟨event, (handlePacket_nfs known).symm.trans handled, reports⟩
      obtain ⟨named, -, legible, -⟩ := (told_iff null).mp told
      exact ⟨told, (update_nfs_iff known named legible).mp ⟨later, updated⟩⟩
    · rintro ⟨⟨event, handled, reports⟩, identified⟩
      obtain ⟨named, -, legible, -⟩ := (told_iff null).mp ⟨event, handled, reports⟩
      obtain ⟨later, updated⟩ := (update_nfs_iff known named legible).mpr identified
      refine ⟨event, later, handlerCore_eq_ok.mpr ⟨(handlePacket_nfs known).trans handled, updated⟩, ?_⟩
      rwa [if_neg null]

end Nfs

end VirtueSensing.Nfs
