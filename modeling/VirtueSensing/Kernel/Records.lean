import VirtueSensing.Kernel.Request

set_option autoImplicit false

/-!
# Records requests

The loop of `process_records_request`, over the message function of the sensor that it asks. The
function works on the private data of its sensor.
-/

namespace VirtueSensing.Kernel

def enoent : Int := -2
def connectionMaxReply : Nat := 0x1000

structure RecordsRequest where
  jsonNonce : Bytes
  runProbe : Bool
  clear : Bool
  nonce : UInt64
  index : Nat
  range : Int
  deriving DecidableEq, Repr

structure RecordsReply where
  index : Int
  range : Int
  records : Bytes
  deriving DecidableEq, Repr

-- Which of the two allocations of each turn succeed.
structure Allocation where
  records : Nat → Bool
  reply : Nat → Bool

def SensorMessage (σ : Type) := RecordsRequest → RecordsReply → σ → Int × RecordsReply × σ

structure RecordsState (σ : Type) where
  ccode : Int
  reply : RecordsReply
  data : σ
  linked : List Bytes

variable {σ : Type}

def recordsLoop (message : SensorMessage σ) (alloc : Allocation) :
    Nat → RecordsRequest → RecordsState σ → Option (RecordsState σ)
  | 0, _, _ => none
  | fuel + 1, rr, s =>
    if alloc.records rr.index then
      let (ccode, reply, data) := message rr s.reply s.data
      let linked :=
        if 0 ≤ ccode ∧ alloc.reply rr.index then s.linked ++ [reply.records] else s.linked
      let s : RecordsState σ := ⟨ccode, reply, data, linked⟩
      if ccode = 0 ∧ reply.index ≠ enoent then
        recordsLoop message alloc fuel { rr with runProbe := false, index := rr.index + 1 } s
      else some s
    else some { s with ccode := enomem }

def linkRecords (message : SensorMessage σ) (alloc : Allocation) (fuel : Nat) (jsonNonce : Bytes)
    (nonce : UInt64) (data : σ) : Option (RecordsState σ) :=
  recordsLoop message alloc fuel ⟨jsonNonce, true, true, nonce, 0, -1⟩ ⟨0, ⟨0, 0, []⟩, data, []⟩

-- `none` only for a loop that needs more turns.
def processRecordsRequest (env : Environment) (message : SensorMessage σ) (alloc : Allocation)
    (fuel : Nat) (nonce : UInt64) (call : Call) (data : σ) (k : State) :
    Option (Int × State × σ) :=
  match getSensor call.session.sensorName k.sensors with
  | .error ccode => some (ccode, k, data)
  | .ok _ => do
    let s ← linkRecords message alloc fuel (printedNonce env call.session.nonce) nonce data
    let session := { call.session with replies := call.session.replies ++ s.linked }
    let (written, k) := writeSessionReplies env session k
    some (if s.ccode < 0 then s.ccode else if written < 0 then written else complete,
      k.freeSession session, s.data)

theorem recordsLoop_continues {message : SensorMessage σ} {alloc : Allocation} {fuel : Nat}
    {rr : RecordsRequest} {s : RecordsState σ} {reply : RecordsReply} {data : σ}
    (allocated : alloc.records rr.index ∧ alloc.reply rr.index)
    (answered : message rr s.reply s.data = (0, reply, data)) (more : reply.index ≠ enoent) :
    recordsLoop message alloc (fuel + 1) rr s =
      recordsLoop message alloc fuel { rr with runProbe := false, index := rr.index + 1 }
        ⟨0, reply, data, s.linked ++ [reply.records]⟩ := by
  simp [recordsLoop, allocated, answered, more]

theorem recordsLoop_ends {message : SensorMessage σ} {alloc : Allocation} {fuel : Nat}
    {rr : RecordsRequest} {s : RecordsState σ} {reply : RecordsReply} {data : σ}
    (allocated : alloc.records rr.index ∧ alloc.reply rr.index)
    (answered : message rr s.reply s.data = (0, reply, data)) (last : reply.index = enoent) :
    recordsLoop message alloc (fuel + 1) rr s =
      some ⟨0, reply, data, s.linked ++ [reply.records]⟩ := by
  simp [recordsLoop, allocated, answered, last]

end VirtueSensing.Kernel
