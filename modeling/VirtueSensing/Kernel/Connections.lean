import VirtueSensing.Kernel.Teardown
import VirtueSensing.Shared.Machine

set_option autoImplicit false

/-!
# Connections of the kernel controller

The listener and its `k_accept`, a worker thread with `k_echo_server` for each connection, and the exit of
the module, which destroys them all, in any interleaving. Kernel threads take no signals, so that only the
waits of the exiting process are interrupted.
-/

namespace VirtueSensing.Kernel

/-- Where the thread of the listener is in `k_accept`. -/
inductive AcceptThread where
  -- `kthread_run` has made it; `worker->task` is null until it runs.
  | created
  | queued
  | accepting
  | accepted
  | allocated
  -- `link_new_connection_work` has read `SHOULD_SHUTDOWN`.
  | linking
  -- The connection is on the list, and its work and its thread are still to come.
  | launching (id : Nat)
  | deciding
  | requeuing (again : Bool)
  | idle
  | stopped
  | faulted
  deriving DecidableEq, Repr

def AcceptThread.holds : AcceptThread → Bool
  | .created | .queued | .idle | .stopped => false
  | _ => true

/-- Where the worker of a connection is in `k_echo_server`. -/
inductive ServerThread where
  -- `kthread_run` is still to come.
  | absent
  | created
  | queued
  | serving
  -- Nothing could be read, and `SENSOR_CONNECT` is cleared.
  | failing
  | requeuing (again : Bool)
  -- In `close_out`, with the connection off the list.
  | closing (holding : Bool)
  -- In `destroy_sensor`, which flushes the worker that it runs on.
  | flushing
  | idle
  | stopped
  | faulted (holding : Bool)
  deriving DecidableEq, Repr

def ServerThread.holds : ServerThread → Bool
  | .serving | .failing | .requeuing _ => true
  | .closing holding | .faulted holding => holding
  | _ => false

/-- A `struct connection`, with its place on `k_sensor.connections`. -/
structure ConnectionBlock where
  thread : ServerThread
  linked : Bool
  sensorConnect : Bool
  connected : Bool
  freed : Bool
  deriving DecidableEq, Repr

/-- How a turn of `k_echo_server` ends. -/
inductive Ending where
  | served
  | rejected
  | ended
  deriving DecidableEq, Repr

inductive ServerEvent where
  | started
  | begun
  | turn (ending : Ending)
  | failed
  | closed
  | requeued
  | destroyed
  deriving DecidableEq, Repr

inductive AcceptEvent where
  | started
  | begun
  | accepted
  | acceptFailed
  | checked (allocates : Bool)
  | linkChecked
  | linked
  | launched
  | decided
  | requeued
  deriving DecidableEq, Repr

inductive CleanupEvent where
  | unload
  -- `awaken_accept_thread` has had the semaphore of the listener.
  | awaited
  -- It has no socket, or a signal.
  | unawaited
  | listenerTaken
  | listenerInterrupted
  | listenerStopped
  -- `controller_destroy_worker` finds no task.
  | listenerUnstarted
  | listenerWiped
  | picked
  | unlisted
  | checked
  | taken
  | interrupted
  | stopped
  | unstarted
  | givenBack
  deriving DecidableEq, Repr

inductive ModuleEvent where
  | accept (event : AcceptEvent)
  | server (id : Nat) (event : ServerEvent)
  | cleanup (event : CleanupEvent)
  deriving DecidableEq, Repr

/-- Where `controller_cleanup` is; `loaded` before it is called. -/
inductive Cleanup where
  | loaded
  | awakening
  | listener
  | stoppingListener
  | wipingListener
  | connections
  -- The first connection is read, and is still on the list.
  | picking (id : Nat)
  -- It is off the list, and `SENSOR_CONNECT` is still to be read.
  | checking (id : Nat)
  -- `destroy_connection` waits for the semaphore, and then for the worker if that has its thread.
  | taking (id : Nat)
  | stopping (id : Nat)
  | givingBack (id : Nat)
  | returned
  | faulted
  deriving DecidableEq, Repr

/-- The connections are in the order in which they have been linked. The listener is no allocated block:
its `destroy_connection` only overwrites it. -/
structure KernelModule where
  shouldShutdown : Bool
  accept : AcceptThread
  listenerWiped : Bool
  connections : List ConnectionBlock
  cleanup : Cleanup
  deriving DecidableEq, Repr

namespace ConnectionBlock

-- `init_connection`
def new : ConnectionBlock := ⟨.absent, true, true, true, false⟩

-- `list_del_rcu` of an entry that is off the list writes through its poisoned pointers.
def closeOut (c : ConnectionBlock) (holding : Bool) : ConnectionBlock :=
  if c.linked then { c with thread := .closing holding, linked := false }
  else { c with thread := .faulted holding }

def endTurn (shouldShutdown : Bool) (c : ConnectionBlock) : Ending → ConnectionBlock
  | .served => { c with thread := .requeuing !shouldShutdown }
  | .rejected => c.closeOut false
  | .ended => c.closeOut true

def serve (shouldShutdown : Bool) (c : ConnectionBlock) : ServerEvent → Option ConnectionBlock
  | .started => if c.thread = .created then some { c with thread := .queued } else none
  -- `kernel_recvmsg` of a socket that is gone
  | .begun =>
    if c.thread = .queued then some { c with thread := if c.connected then .serving else .faulted true } else none
  | .turn ending => if c.thread = .serving then some (c.endTurn shouldShutdown ending) else none
  | .failed =>
    if c.thread = .serving then some { c with thread := .failing, sensorConnect := false } else none
  | .closed => if c.thread = .failing then some (c.closeOut true) else none
  | .requeued =>
    match c.thread with
    | .requeuing again => some { c with thread := if again then .queued else .idle }
    | _ => none
  -- A thread that holds the semaphore itself waits in `destroy_connection` for ever.
  | .destroyed => if c.thread = .closing false then some { c with thread := .flushing, connected := false } else none

-- The worker is a part of the block, so that its thread cannot go on without it.
def step (shouldShutdown : Bool) (c : ConnectionBlock) (event : ServerEvent) : Option ConnectionBlock :=
  (c.serve shouldShutdown event).map fun after =>
    if c.freed then { c with thread := .faulted c.thread.holds } else after

end ConnectionBlock

namespace KernelModule

def set (s : KernelModule) (id : Nat) (c : ConnectionBlock) : KernelModule :=
  { s with connections := s.connections.set id c }

/-- `k_accept`, with `init_connection` and `link_new_connection_work` of what it accepts. -/
def kAccept (s : KernelModule) : AcceptEvent → Option KernelModule
  | .started => if s.accept = .created then some { s with accept := .queued } else none
  | .begun =>
    if s.accept = .queued then some { s with accept := if s.shouldShutdown then .deciding else .accepting } else none
  | .accepted => if s.accept = .accepting then some { s with accept := .accepted } else none
  | .acceptFailed => if s.accept = .accepting then some { s with accept := .idle } else none
  | .checked allocates =>
    if s.accept = .accepted then
      if s.shouldShutdown then some { s with accept := .deciding }
      else if allocates then some { s with accept := .allocated }
      else some { s with shouldShutdown := true, accept := .deciding }
    else none
  | .linkChecked =>
    if s.accept = .allocated then some { s with accept := if s.shouldShutdown then .deciding else .linking } else none
  | .linked =>
    if s.accept = .linking then
      some { s with connections := s.connections ++ [.new], accept := .launching s.connections.length }
    else none
  -- The exit may have taken the connection off the list since.
  | .launched =>
    match s.accept with
    | .launching id => do
      let c ← s.connections[id]?
      if c.freed then return { s with accept := .faulted }
      else return { s.set id { c with thread := .created } with accept := .deciding }
    | _ => none
  | .decided => if s.accept = .deciding then some { s with accept := .requeuing !s.shouldShutdown } else none
  | .requeued =>
    match s.accept with
    | .requeuing again => some { s with accept := if again then .queued else .idle }
    | _ => none

-- The worker of the listener is a part of it.
def acceptStep (s : KernelModule) (event : AcceptEvent) : Option KernelModule :=
  (s.kAccept event).map fun after => if s.listenerWiped then { s with accept := .faulted } else after

def serverStep (s : KernelModule) (id : Nat) (event : ServerEvent) : Option KernelModule := do
  let c ← s.connections[id]?
  let c ← c.step s.shouldShutdown event
  return s.set id c

-- `list_first_or_null_rcu` of the connections; each has been added at the head.
def first (s : KernelModule) : Option Nat :=
  (List.range s.connections.length).reverse.find? fun id => s.connections[id]?.any (·.linked)

/-- `controller_cleanup`, with `socket_interface_exit` and `destroy_kernel_sensor`. -/
def cleanupStep (s : KernelModule) : CleanupEvent → Option KernelModule
  | .unload => if s.cleanup = .loaded then some { s with shouldShutdown := true, cleanup := .awakening } else none
  | .awaited => if s.cleanup = .awakening ∧ !s.accept.holds then some { s with cleanup := .listener } else none
  | .unawaited => if s.cleanup = .awakening then some { s with cleanup := .listener } else none
  | .listenerTaken =>
    if s.cleanup = .listener ∧ !s.accept.holds then some { s with cleanup := .stoppingListener } else none
  | .listenerInterrupted => if s.cleanup = .listener then some { s with cleanup := .connections } else none
  | .listenerStopped =>
    if s.cleanup = .stoppingListener ∧ s.accept = .idle then
      some { s with accept := .stopped, listenerWiped := true, cleanup := .connections }
    else none
  | .listenerUnstarted =>
    if s.cleanup = .stoppingListener ∧ s.accept = .created then some { s with cleanup := .wipingListener } else none
  | .listenerWiped =>
    if s.cleanup = .wipingListener then some { s with listenerWiped := true, cleanup := .connections } else none
  | .picked =>
    if s.cleanup = .connections then
      match s.first with
      | some id => some { s with cleanup := .picking id }
      | none => some { s with cleanup := .returned }
    else none
  -- The connection may have taken itself off the list since.
  | .unlisted =>
    match s.cleanup with
    | .picking id => do
      let c ← s.connections[id]?
      if c.linked then return { s.set id { c with linked := false } with cleanup := .checking id }
      else return { s with cleanup := .faulted }
    | _ => none
  -- Without its flag it is not destroyed.
  | .checked =>
    match s.cleanup with
    | .checking id => do
      let c ← s.connections[id]?
      if c.sensorConnect then return { s with cleanup := .taking id }
      else return { s with cleanup := .connections }
    | _ => none
  | .taken =>
    match s.cleanup with
    | .taking id => do
      let c ← s.connections[id]?
      if c.thread.holds then none
      else return { s.set id { c with connected := false } with cleanup := .stopping id }
    | _ => none
  | .interrupted =>
    match s.cleanup with
    | .taking id => do
      let c ← s.connections[id]?
      return { s.set id { c with freed := true } with cleanup := .connections }
    | _ => none
  | .stopped =>
    match s.cleanup with
    | .stopping id => do
      let c ← s.connections[id]?
      if c.thread = .idle then
        return { s.set id { c with thread := .stopped, freed := true } with cleanup := .connections }
      else none
    | _ => none
  -- A worker without its thread is left as it is.
  | .unstarted =>
    match s.cleanup with
    | .stopping id => do
      let c ← s.connections[id]?
      if c.thread = .absent ∨ c.thread = .created then return { s with cleanup := .givingBack id } else none
    | _ => none
  | .givenBack =>
    match s.cleanup with
    | .givingBack id => do
      let c ← s.connections[id]?
      return { s.set id { c with freed := true } with cleanup := .connections }
    | _ => none

def step (s : KernelModule) : ModuleEvent → Option KernelModule
  | .accept event => s.acceptStep event
  | .server id event => s.serverStep id event
  | .cleanup event => s.cleanupStep event

end KernelModule

/-- The module from the end of `socket_interface_init` on. -/
def moduleMachine : Machine KernelModule ModuleEvent where
  initial := ⟨false, .created, false, [], .loaded⟩
  step s event := s.step event

section Sample

def sampleAccepts : List ModuleEvent :=
  [.accept .begun, .accept .accepted, .accept (.checked true), .accept .linkChecked, .accept .linked, .accept .launched,
    .accept .decided, .accept .requeued]

/-- Two clients, of which the first hangs up. -/
def sampleClients : List ModuleEvent :=
  .accept .started :: sampleAccepts ++ sampleAccepts ++
    [.accept .begun, .server 0 .started, .server 0 .begun, .server 0 (.turn .ended), .server 1 .started, .server 1 .begun]

def sampleExit : List ModuleEvent :=
  [.accept .accepted, .accept (.checked true), .accept .decided, .accept .requeued, .cleanup .awaited,
    .cleanup .listenerTaken, .cleanup .listenerStopped, .cleanup .picked, .cleanup .unlisted, .cleanup .checked,
    .server 1 (.turn .served), .server 1 .requeued, .cleanup .taken, .cleanup .stopped, .cleanup .picked]

def sampleClosing : ConnectionBlock := ⟨.closing true, false, true, true, false⟩

def sampleServing : KernelModule :=
  ⟨false, .accepting, false, [sampleClosing, ⟨.serving, true, true, true, false⟩], .loaded⟩

def sampleReturned : KernelModule :=
  ⟨true, .stopped, true, [sampleClosing, ⟨.stopped, false, true, false, true⟩], .returned⟩

example : moduleMachine.run sampleClients = some sampleServing := rfl

end Sample

end VirtueSensing.Kernel
