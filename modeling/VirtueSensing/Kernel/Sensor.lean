import VirtueSensing.Shared.Bytes

set_option autoImplicit false

/-!
# Sensors of the Linux kernel controller

`get_sensor` and `process_state_message` of `controller-common.c`. A lookup that finds the lock of
its sensor taken tries again, so the sensor it returns is the one it would have found unlocked.
-/

namespace VirtueSensing.Kernel

inductive Command where
  | connect
  | discovery
  | off
  | on
  | increase
  | decrease
  | low
  | default
  | high
  | adversarial
  | reset
  | records
  deriving DecidableEq, Repr

namespace Command

def all : List Command :=
  [connect, discovery, off, on, increase, decrease, low, default, high, adversarial, reset, records]

def code : Command → Nat
  | connect => 0
  | discovery => 1
  | off => 2
  | on => 3
  | increase => 4
  | decrease => 5
  | low => 6
  | default => 7
  | high => 8
  | adversarial => 9
  | reset => 10
  | records => 11

theorem all_getElem_code (c : Command) : all[c.code]? = some c := by
  cases c <;> rfl

end Command

def cmdStrings : List Bytes :=
  [ascii "Connect", ascii "Discovery", ascii "Off", ascii "On", ascii "Increase", ascii "Decrease",
    ascii "Low", ascii "Default", ascii "High", ascii "Adversarial", ascii "Reset", ascii "Records"]

def maxNameSize : Nat := 128
def uuidStringLen : Nat := 36
def intMax : Int := 0x7fffffff

def einval : Int := -22
def enfile : Int := -23
def enomem : Int := -12

structure Sensor where
  name : Bytes
  uuid : Bytes
  state : Nat
  timeout : Int
  repeatCount : Int
  deriving DecidableEq, Repr

def hexToBin (c : UInt8) : Option UInt8 :=
  if 48 ≤ c ∧ c ≤ 57 then some (c - 48)
  else if 97 ≤ c ∧ c ≤ 102 then some (c - 87)
  else if 65 ≤ c ∧ c ≤ 70 then some (c - 55)
  else none

def uuidIsValid (key : Bytes) : Bool :=
  (List.range uuidStringLen).all fun i =>
    match key[i]? with
    | none => false
    | some c => if i ∈ [8, 13, 18, 23] then c = 45 else (hexToBin c).isSome

def uuidOffsets : List Nat :=
  [0, 2, 4, 6, 9, 11, 14, 16, 19, 21, 24, 26, 28, 30, 32, 34]

def uuidParse (key : Bytes) : Option Bytes :=
  if uuidIsValid key then
    uuidOffsets.mapM fun i => do
      let high ← hexToBin (← key[i]?)
      let low ← hexToBin (← key[i + 1]?)
      pure (high * 16 + low)
  else none

def getSensorUuid (key : Bytes) (sensors : List Sensor) : Except Int Nat :=
  match uuidParse key with
  | none => .error einval
  | some uuid => (sensors.findIdx? fun s => s.uuid = uuid).elim (.error enfile) .ok

def getSensorName (key : Bytes) (sensors : List Sensor) : Except Int Nat :=
  if maxNameSize ≤ key.length then .error einval
  else (sensors.findIdx? fun s => s.name = key).elim (.error enfile) .ok

def getSensor (buffer : Bytes) (sensors : List Sensor) : Except Int Nat :=
  let key := buffer.cString
  if key.length = uuidStringLen ∧ uuidIsValid key ∧ (uuidParse key).isSome then
    match getSensorUuid key sensors with
    | .ok i => .ok i
    | .error _ => getSensorName key sensors
  else getSensorName key sensors

-- The level, its timeout in seconds and the state of the reply change together.
def Sensor.newState (s : Sensor) (level : Command) (timeout : Int) : Sensor × Int :=
  ({ s with state := level.code, timeout := timeout }, level.code)

def Sensor.lowNewState (s : Sensor) : Sensor × Int := s.newState .low 3600
def Sensor.defaultNewState (s : Sensor) : Sensor × Int := s.newState .default 300
def Sensor.highNewState (s : Sensor) : Sensor × Int := s.newState .high 10
def Sensor.adversarialNewState (s : Sensor) : Sensor × Int := s.newState .adversarial 1

/-- The sensor after the message, and `srep->state`, which the caller has set to zero. -/
def processStateMessage (s : Sensor) : Command → Sensor × Int
  | .off => ({ s with repeatCount := 0 }, Command.off.code)
  | .on => ({ s with repeatCount := intMax }, Command.on.code)
  | .low => s.lowNewState
  | .default => s.defaultNewState
  | .high => s.highNewState
  | .adversarial => s.adversarialNewState
  | .increase =>
    if Command.adversarial.code ≤ s.state then (s, Command.adversarial.code)
    else
      let raised := { s with state := s.state + 1 }
      if raised.state = Command.default.code then raised.defaultNewState
      else if raised.state = Command.high.code then raised.highNewState
      else if raised.state = Command.adversarial.code then raised.adversarialNewState
      else (raised, 0)
  | .decrease =>
    if s.state ≤ Command.low.code then (s, Command.low.code)
    else
      let lowered := { s with state := s.state - 1 }
      if lowered.state = Command.high.code then lowered.highNewState
      else if lowered.state = Command.default.code then lowered.defaultNewState
      else if lowered.state = Command.low.code then lowered.lowNewState
      else (lowered, 0)
  | .reset => s.defaultNewState
  | .connect | .discovery | .records => (s, einval)

end VirtueSensing.Kernel
