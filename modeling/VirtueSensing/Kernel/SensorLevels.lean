import VirtueSensing.Kernel.Sessions

set_option autoImplicit false

/-!
# Levels of a sensor

What a run of state requests makes of the level and the timeout of a sensor that `init_sensor` has
set up, and what the replies say.
-/

namespace VirtueSensing.Kernel

-- The name keeps the last byte of its own allocation, which is zero.
def initSensor (kzalloc : Nat → Bool) (uuid name : Bytes) (nameSize : Nat) : Except Int Sensor :=
  if 0 < nameSize then
    if kzalloc nameSize then .ok ⟨name.take (nameSize - 1), uuid, Command.default.code, 0, 0⟩
    else .error enomem
  else .ok ⟨[], uuid, Command.default.code, 0, 0⟩

-- `ps_message` and `lsof_message`: what is not a records request goes to `state_change`.
def sensorMessage (getRecord : Sensor → Sensor × Int) (s : Sensor) : Command → Sensor × Int
  | .records => getRecord s
  | c => processStateMessage s c

def levelMachine (getRecord : Sensor → Sensor × Int) (s : Sensor) : Machine Sensor Command where
  initial := s
  step s c :=
    if cmdTable c = .stateRequest then some (sensorMessage getRecord s c).1 else none

inductive Level where
  | low
  | default
  | high
  | adversarial
  deriving DecidableEq, Repr

namespace Level

def command : Level → Command
  | low => .low
  | default => .default
  | high => .high
  | adversarial => .adversarial

-- In seconds.
def timeout : Level → Int
  | low => 3600
  | default => 300
  | high => 10
  | adversarial => 1

def raise : Level → Level
  | low => default
  | default => high
  | high => adversarial
  | adversarial => adversarial

def lower : Level → Level
  | low => low
  | default => low
  | high => default
  | adversarial => high

def after (l : Level) : Command → Level
  | .low => low
  | .default => default
  | .high => high
  | .adversarial => adversarial
  | .increase => l.raise
  | .decrease => l.lower
  | .reset => default
  | _ => l

def reported (l : Level) : Command → Command
  | .off => .off
  | .on => .on
  | c => (l.after c).command

theorem raise_code (l : Level) :
    l.raise.command.code = min (l.command.code + 1) Command.adversarial.code := by
  cases l <;> rfl

theorem lower_code (l : Level) :
    l.lower.command.code = max (l.command.code - 1) Command.low.code := by
  cases l <;> rfl

theorem code_bounds (l : Level) :
    Command.low.code ≤ l.command.code ∧ l.command.code ≤ Command.adversarial.code := by
  cases l <;> decide

end Level

def AtLevel (s : Sensor) (l : Level) : Prop := s.state = l.command.code

/-- The message function moves between the levels, and reports where it has got to. -/
structure Moves (l : Level) (s : Sensor) (c : Command) (t : Sensor × Int) : Prop where
  level : AtLevel t.1 (l.after c)
  timeout : t.1.timeout = (l.after c).timeout ∨ l.after c = l ∧ t.1.timeout = s.timeout
  switched : c = .off ∨ c = .on → t.1.timeout = s.timeout
  reply : t.2 = (l.reported c).code

theorem processStateMessage_moves {s : Sensor} {l : Level} (here : AtLevel s l) {c : Command}
    (routed : cmdTable c = .stateRequest) : Moves l s c (processStateMessage s c) := by
  obtain ⟨name, uuid, state, timeout, repeatCount⟩ := s
  obtain rfl : state = l.command.code := here
  cases c with
  | connect => cases routed
  | discovery => cases routed
  | records => cases routed
  | off => exact ⟨rfl, .inr ⟨rfl, rfl⟩, fun _ => rfl, rfl⟩
  | on => exact ⟨rfl, .inr ⟨rfl, rfl⟩, fun _ => rfl, rfl⟩
  | increase =>
    cases l with
    | adversarial => exact ⟨rfl, .inr ⟨rfl, rfl⟩, nofun, rfl⟩
    | low | default | high => exact ⟨rfl, .inl rfl, nofun, rfl⟩
  | decrease =>
    cases l with
    | low => exact ⟨rfl, .inr ⟨rfl, rfl⟩, nofun, rfl⟩
    | default | high | adversarial => exact ⟨rfl, .inl rfl, nofun, rfl⟩
  | low | default | high | adversarial | reset => exact ⟨rfl, .inl rfl, nofun, rfl⟩

/-- What a state command does to a sensor, and the reply to it. -/
structure LevelStep (s : Sensor) (c : Command) (t : Sensor × Int) : Prop where
  bounded : Command.low.code ≤ t.1.state ∧ t.1.state ≤ Command.adversarial.code
  increased : c = .increase → t.1.state = min (s.state + 1) Command.adversarial.code
  decreased : c = .decrease → t.1.state = max (s.state - 1) Command.low.code
  named : ∀ l : Level, c = l.command → t.1.state = c.code
  timeout : t.1.state ≠ s.state → ∃ l : Level, AtLevel t.1 l ∧ t.1.timeout = l.timeout
  switched : c = .off ∨ c = .on → t.1.state = s.state ∧ t.1.timeout = s.timeout
  reply : t.2 = (if c = .off ∨ c = .on then c.code else t.1.state : Nat)
  index : 0 ≤ t.2 ∧ t.2.toNat < cmdStrings.length

theorem Moves.levelStep {l : Level} {s : Sensor} {c : Command} {t : Sensor × Int}
    (here : AtLevel s l) (moves : Moves l s c t) : LevelStep s c t := by
  have state := moves.level
  unfold AtLevel at here state
  refine ⟨?_, ?_, ?_, ?_, ?_, ?_, ?_, ?_⟩
  · rw [state]
    exact (l.after c).code_bounds
  · rintro rfl
    rw [state, here]
    exact l.raise_code
  · rintro rfl
    rw [state, here]
    exact l.lower_code
  · rintro next rfl
    rw [state]
    cases next <;> rfl
  · intro changed
    refine ⟨l.after c, state, moves.timeout.resolve_right fun same => changed ?_⟩
    rw [state, here, same.1]
  · intro switch
    refine ⟨?_, moves.switched switch⟩
    rw [state, here]
    rcases switch with rfl | rfl <;> rfl
  · rw [moves.reply, state]
    cases c <;> rfl
  · rw [moves.reply]
    exact ⟨Int.natCast_nonneg _, by cases l <;> cases c <;> decide⟩

theorem initSensor_level {kzalloc : Nat → Bool} {uuid name : Bytes} {nameSize : Nat} {s : Sensor}
    (made : initSensor kzalloc uuid name nameSize = .ok s) : AtLevel s .default := by
  unfold initSensor at made
  split at made
  · split at made
    · obtain rfl := Except.ok.inj made
      rfl
    · cases made
  · obtain rfl := Except.ok.inj made
    rfl

theorem sensorMessage_routed (getRecord : Sensor → Sensor × Int) (s : Sensor) {c : Command}
    (routed : cmdTable c = .stateRequest) :
    sensorMessage getRecord s c = processStateMessage s c := by
  cases c with
  | records => cases routed
  | _ => rfl

theorem level_of_run {getRecord : Sensor → Sensor × Int} {s₀ s : Sensor} {cmds : List Command}
    (start : AtLevel s₀ .default) (reached : (levelMachine getRecord s₀).run cmds = some s) :
    ∃ l : Level, AtLevel s l := by
  apply (levelMachine getRecord s₀).invariant (motive := fun s => ∃ l : Level, AtLevel s l) ?_ ?_
    ⟨cmds, reached⟩
  · exact ⟨.default, start⟩
  · rintro s c t _ ⟨l, here⟩ moved
    simp only [levelMachine] at moved
    split at moved
    · rename_i routed
      obtain rfl := Option.some.inj moved
      rw [sensorMessage_routed getRecord s routed]
      exact ⟨l.after c, (processStateMessage_moves here routed).level⟩
    · cases moved

/-- Whatever state commands a sensor has had, the next one moves it by the table of its levels, and
the number in the reply is that of a string. -/
theorem levels_kept (getRecord : Sensor → Sensor × Int) (kzalloc : Nat → Bool) (uuid name : Bytes)
    (nameSize : Nat) (s₀ s : Sensor) (made : initSensor kzalloc uuid name nameSize = .ok s₀)
    (cmds : List Command) (reached : (levelMachine getRecord s₀).run cmds = some s) (c : Command)
    (routed : cmdTable c = .stateRequest) :
    Command.low.code ≤ s.state ∧ s.state ≤ Command.adversarial.code ∧
      LevelStep s c (sensorMessage getRecord s c) := by
  obtain ⟨l, here⟩ := level_of_run (initSensor_level made) reached
  have bounds := l.code_bounds
  rw [← here] at bounds
  refine ⟨bounds.1, bounds.2, ?_⟩
  rw [sensorMessage_routed getRecord s routed]
  exact (processStateMessage_moves here routed).levelStep here

theorem levels_kept_ps :
    ∃ s, (levelMachine (fun s => (s, 0)) ⟨ascii "ps", List.replicate 16 0, 7, 0, 0⟩).run
        [.increase, .increase, .increase, .off, .decrease] = some s ∧
      s.state = 8 ∧ s.timeout = 10 ∧ LevelStep s .increase (sensorMessage (fun s => (s, 0)) s .increase) := by
  refine ⟨_, rfl, rfl, rfl, ?_⟩
  exact (levels_kept (fun s => (s, 0)) (fun _ => true) (List.replicate 16 0) (ascii "ps") 3 _ _ rfl
    [.increase, .increase, .increase, .off, .decrease] rfl .increase rfl).2.2

end VirtueSensing.Kernel
