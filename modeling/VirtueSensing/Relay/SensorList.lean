import VirtueSensing.Relay.Polls

set_option autoImplicit false

/-!
# The sensors that the relay finds

Before it polls, the relay asks for the sensors. It keeps the name and the uuid of each.
-/

namespace VirtueSensing.Relay

open JsonText Kernel

-- What `for s in ..` goes through.
def iterate : Json → Option (List Json)
  | .scalar _ => none
  | .string text => some ((Utf8.characters text).map .string)
  | .array items => some items
  | .object members => some ((members.map Prod.fst).eraseDups.map .string)

/-- Name and uuid of every sensor in the line that answers; `none` for an exception. -/
def discoverSensors (line : Bytes) : Option (List (Json × Json)) := do
  let reply ← (← parseJson line).get (ascii "reply")
  if ¬ isText (ascii "discovery") (← (item 1 reply).toOption) then none
  else do
    let sensors ← iterate (← (item 2 reply).toOption)
    sensors.mapM fun s => do pure (← (item 0 s).toOption, ← (item 1 s).toOption)

section Reading

variable {sensors : List Sensor} (named : Named sensors) {start nonce : Bytes}
  (leftover : Leftover start) (hex : HexNonce nonce)

theorem mapM_elements (sensors : List Sensor) :
    ((sensors.map Sensor.element).mapM fun s => do
      pure (← (item 0 s).toOption, ← (item 1 s).toOption) : Option (List (Json × Json))) =
      some (sensors.map fun s => (.string s.name.cString, .string (printUuid s.uuid))) := by
  induction sensors with
  | nil => rfl
  | cons s sensors ih =>
    rw [List.map_cons, List.mapM_cons, ih]
    rfl

include named leftover hex in
theorem discoverSensors_reply :
    completeLines newline [] (start ++ discoveryReply nonce (discoveryText sensors)) =
        [start ++ discoveryReply nonce (discoveryText sensors)] ∧
      discoverSensors (start ++ discoveryReply nonce (discoveryText sensors)) =
        some (sensors.map fun s => (.string s.name.cString, .string (printUuid s.uuid))) := by
  have visible : 0 ∉ nonce := fun member => (hex.sendable.plain 0 member).2.2 rfl
  have word : Sendable (ascii "discovery") := by decide
  rw [discoveryReply_line nonce named visible]
  constructor
  · have split := @split_whole (discoveryFormat sensors named) start nonce (ascii "discovery") []
      leftover hex.sendable.plain (newline_not_mem_plain word)
    rwa [List.append_nil] at split
  · rw [discoverSensors, parseJson_line _ leftover hex.sendable.plain hex.sendable.utf8 word]
    exact mapM_elements sensors

end Reading

section Controller

variable {u : Uuids} {start : Arrays} {m : KernelModule} {r : Request} (loaded : Loaded u start m)

theorem Loaded.named (loaded : Loaded u start m) : Named m.kernel.sensors := by
  obtain ⟨s, t, sensors, name, -, otherName, -⟩ := loaded.two
  simp only [Named, sensors, List.forall_mem_cons, name, otherName]
  exact ⟨by decide, by decide, by simp⟩

theorem Loaded.room (loaded : Loaded u start m) : HasRoom m.kernel.sensors ∧
    ∀ nonce : Bytes, nonce.length = 32 → discoveryLength nonce m.kernel.sensors ≤ 1022 := by
  obtain ⟨s, t, sensors, name, -, otherName, -⟩ := loaded.two
  have first : s.entryLength = 64 := by simp [Sensor.entryLength, name]; decide
  have second : t.entryLength = 62 := by simp [Sensor.entryLength, otherName]; decide
  rw [sensors]
  refine ⟨?_, fun nonce length => ?_⟩
  · have one : HasRoom [s] := (hasRoom_snoc [] s).mpr
      ⟨fun before t first => by simp at first, by rw [first]; decide⟩
    refine (hasRoom_snoc [s] t).mpr ⟨one, ?_⟩
    rw [second, entriesLength, List.map_singleton, first]
    decide
  · have short := nonce.length_cString_le
    simp only [discoveryLength, entriesLength, List.map_cons, List.map_nil, first, second, List.sum_cons,
      List.sum_nil]
    omega

theorem Loaded.listed (loaded : Loaded u start m) :
    m.kernel.sensors.map (fun s => (Json.string s.name.cString, Json.string (printUuid s.uuid))) =
      (registered u).map fun s => (.string s.name, .string (printUuid s.uuid)) := by
  obtain ⟨s, t, sensors, name, uuid, otherName, otherUuid⟩ := loaded.two
  simp only [sensors, registered, List.map_cons, List.map_nil, name, uuid, otherName, otherUuid]
  rfl

variable (allocated : r.discovery = ⟨true, true, true⟩)
  (takes : ∀ socket line, 0 ≤ r.socketWrite socket line) {nonce : Bytes} (hex : HexNonce nonce)

include loaded allocated takes hex in
theorem receive_discovery (socket : Nat) : ∃ after,
    m.receive u socket (requestLine nonce Command.discovery.word (ascii "*")) r = some (0, after) ∧
      sentTo socket m.kernel after.kernel = discoveryReply nonce (discoveryText m.kernel.sensors) := by
  obtain ⟨call, entry, entered⟩ := @entered_requestLine nonce (ascii "*") hex
    (r.environment u m.arrays) rfl .discovery (by decide) (by decide) socket m.kernel
  have run : (r.environment u m.arrays).run call entry =
      processDiscoveryRequest r.calls r.discovery call entry := by
    unfold Environment.run
    rw [entered.command]
    rfl
  have probed : m.probe u r call = some m.arrays := by
    unfold KernelModule.probe
    rw [entered.command]
    rfl
  obtain ⟨room, short⟩ := loaded.room
  have sent := processDiscoveryRequest_written r.calls r.discovery call entry allocated
    (entered.sensors ▸ room) fun reply => takes _ _
  have whole : scnprintf (connectionMaxHeader - 1) (discoveryReply nonce (discoveryText m.kernel.sensors)) =
      discoveryReply nonce (discoveryText m.kernel.sensors) := by
    refine List.take_of_length_le ?_
    rw [length_discoveryReply]
    exact short nonce hex.length
  rw [entered.asks, printedNonce_hex _ hex, entered.sensors, whole, entered.before, entered.sender] at sent
  have completed : (processDiscoveryRequest r.calls r.discovery call entry).1 = complete := rfl
  obtain ⟨opened, handled⟩ := entered.handled
  rw [run, completed, finish_complete] at handled
  refine ⟨_, receive_eq handled rfl probed, ?_⟩
  rw [sentTo_own sent (by simp)]
  simp

end Controller

/-- Whatever the controller has done before, the relay finds the two sensors, each with the uuid under
which it is polled. It makes no difference to the answer whether other lines are handled at the same
time: the handler writes its own line, not what is linked into its session, and the sensors stay. -/
theorem sensors_discovered (u : Uuids) (psSize lsofSize : Nat) (m : KernelModule)
    (reached : (controllerMachine u psSize lsofSize).Reachable m) (r : Request)
    (allocated : r.discovery = ⟨true, true, true⟩)
    (takes : ∀ socket line, 0 ≤ r.socketWrite socket line) (socket : Nat) (nonce : Bytes)
    (hex : HexNonce nonce) (unread : Bytes) (leftover : Leftover unread) : ∃ after line,
    m.receive u socket (requestLine nonce Command.discovery.word (ascii "*")) r = some (0, after) ∧
      (∀ other, other ≠ socket → sentTo other m.kernel after.kernel = []) ∧
      completeLines newline [] (unread ++ sentTo socket m.kernel after.kernel) = [line] ∧
      discoverSensors line =
        some ((registered u).map fun s => (.string s.name, .string (printUuid s.uuid))) := by
  have loaded := loaded_reachable reached
  obtain ⟨after, received, sent⟩ := receive_discovery loaded allocated takes hex socket
  obtain ⟨split, read⟩ := discoverSensors_reply loaded.named leftover hex
  rw [← sent] at split read
  rw [loaded.listed] at read
  refine ⟨after, _, received, fun other apart => ?_, split, read⟩
  exact sentTo_other (loaded.receive received).2 (Ne.symm apart)

-- After a run of the probe.
theorem sensors_discovered_probed : ∃ m after line,
    (controllerMachine twoUuids 4 4).run [.psProbe 5 bashRequest.tasks] = some m ∧
      m.receive twoUuids 0 (requestLine zeroNonce Command.discovery.word (ascii "*")) bashRequest =
        some (0, after) ∧
      completeLines newline [] (sentTo 0 m.kernel after.kernel) = [line] ∧
      discoverSensors line = some ((registered twoUuids).map fun s =>
        (.string s.name, .string (printUuid s.uuid))) := by
  obtain ⟨after, line, received, -, split, read⟩ := sensors_discovered twoUuids 4 4 _
    ⟨[.psProbe 5 bashRequest.tasks], rfl⟩ bashRequest rfl (fun _ line => Int.natCast_nonneg line.length) 0
    zeroNonce hexNonce_zeroNonce [] (by simp [Leftover])
  exact ⟨_, after, line, rfl, received, split, read⟩

end VirtueSensing.Relay
