import VirtueSensing.Kernel.Framing

set_option autoImplicit false

/-!
# Teardown of a connection

A turn of `k_echo_server` again, with what its thread does to the semaphore `s_lock` of the
connection. `destroy_connection` waits for the same semaphore.
-/

namespace VirtueSensing.Kernel

inductive SemaphoreEvent where
  | interrupted
  | down
  | up
  | destroy
  -- A wait for a semaphore that only the waiting thread could release.
  | stuck
  | return
  deriving DecidableEq, Repr

def holdsSemaphore (trace : List SemaphoreEvent) : Bool :=
  trace.count .up < trace.count .down

-- The flag says whether a signal ends the wait.
def destroyConnection (signal : Bool) (before : List SemaphoreEvent) : List SemaphoreEvent :=
  if signal then [.interrupted, .return]
  else if holdsSemaphore before then [.stuck]
  else [.down, .up, .return]

def closeOut (signal : Bool) (before : List SemaphoreEvent) (c : Connection) :
    List SemaphoreEvent × Connection :=
  (before ++ .destroy :: destroyConnection signal before, c.close)

def Server.handleLocked (server : Server) (signal : Bool) (t : Turn) (read : Bytes)
    (before : List SemaphoreEvent) (c : Connection) : List SemaphoreEvent × Connection :=
  match controlOf read with
  | some control =>
    (before ++ [.up, .return], { c with kernel := server.respond control c.kernel }.again t)
  | none =>
    if newMessage t read then
      let out := parseJsonMessage server.env c.socket read c.kernel
      let c := { c with kernel := out.state, handed := c.handed ++ [read] }
      if out.ccode < 0 then closeOut signal (before ++ [.up]) c
      else (before ++ [.up, .return], c.again t)
    else closeOut signal before c

def kEchoServerLocked (server : Server) (signal : Bool) (t : Turn) (c : Connection) :
    List SemaphoreEvent × Connection :=
  if t.interrupted then closeOut signal [.interrupted] c
  else if 5 ≤ t.peeked then
    if ¬ t.allocates then closeOut signal [.down] c
    else if t.received ≤ 0 then closeOut signal [.down] c
    else
      server.handleLocked signal t (t.bytes c) [.down]
        { c with unread := c.unread.drop t.received.toNat }
  else closeOut signal [.down] c

/-- The semaphore aside, this is the turn that connections are served with. -/
theorem kEchoServerLocked_snd (server : Server) (signal : Bool) (t : Turn) (c : Connection) :
    (kEchoServerLocked server signal t c).2 = kEchoServer server t c := by
  have handled (read : Bytes) (before : List SemaphoreEvent) (c : Connection) :
      (server.handleLocked signal t read before c).2 = server.handle t read c := by
    unfold Server.handleLocked Server.handle
    cases controlOf read with
    | some control => rfl
    | none =>
      dsimp only
      split_ifs <;> rfl
  unfold kEchoServerLocked kEchoServer
  split_ifs
  · rfl
  · rfl
  · apply handled
  · rfl
  · rfl

-- The part of a turn before the connection is destroyed or the function returns.
def beforeEnd (trace : List SemaphoreEvent) : List SemaphoreEvent :=
  trace.takeWhile fun e => e ≠ .destroy ∧ e ≠ .return

/-- What was taken at entry is released once, what was not taken is not released, and the destroy
routine does not wait for its own thread. -/
structure ReleasedOnce (trace : List SemaphoreEvent) : Prop where
  taken : trace.head? = some .down → (beforeEnd trace).count .up = 1
  failed : trace.head? = some .interrupted → (beforeEnd trace).count .up = 0
  free : .destroy ∈ trace → holdsSemaphore (beforeEnd trace) = false

instance (trace : List SemaphoreEvent) : Decidable (ReleasedOnce trace) :=
  decidable_of_iff
    ((trace.head? = some .down → (beforeEnd trace).count .up = 1) ∧
      (trace.head? = some .interrupted → (beforeEnd trace).count .up = 0) ∧
      (.destroy ∈ trace → holdsSemaphore (beforeEnd trace) = false))
    ⟨fun ⟨a, b, c⟩ => ⟨a, b, c⟩, fun ⟨a, b, c⟩ => ⟨a, b, c⟩⟩

section Paths

variable (signal : Bool) (c : Connection)

theorem released_unentered : ReleasedOnce (closeOut signal [.interrupted] c).1 := by
  cases signal <;> simp [closeOut, destroyConnection] <;> decide

theorem released_closed : ReleasedOnce (closeOut signal [.down, .up] c).1 := by
  cases signal <;> simp [closeOut, destroyConnection] <;> decide

theorem released_again : ReleasedOnce [.down, .up, .return] := by
  decide

theorem not_released_closed : ¬ ReleasedOnce (closeOut signal [.down] c).1 := by
  cases signal <;> simp [closeOut, destroyConnection] <;> decide

end Paths

theorem handleLocked_released_iff (server : Server) (signal : Bool) (t : Turn) (read : Bytes)
    (c : Connection) :
    ReleasedOnce (server.handleLocked signal t read [.down] c).1 ↔
      controlOf read ≠ none ∨ newMessage t read := by
  unfold Server.handleLocked
  cases controlOf read with
  | some control => exact iff_of_true released_again (.inl (by simp))
  | none =>
    by_cases accepted : newMessage t read
    · simp only [accepted, if_true, or_true, iff_true]
      split
      · exact released_closed signal _
      · exact released_again
    · simpa [accepted] using not_released_closed signal c

theorem semaphore_released_iff (server : Server) (signal : Bool) (t : Turn) (c : Connection) :
    ReleasedOnce (kEchoServerLocked server signal t c).1 ↔
      t.interrupted ∨
        t.reads ∧ (controlOf (t.bytes c) ≠ none ∨ newMessage t (t.bytes c)) := by
  unfold kEchoServerLocked
  by_cases interrupted : t.interrupted
  · rw [if_pos interrupted]
    exact iff_of_true (released_unentered signal c) (.inl interrupted)
  rw [if_neg interrupted]
  by_cases reads : t.reads
  · obtain ⟨-, enough, allocated, received⟩ := of_decide_eq_true reads
    rw [if_pos enough, if_neg (by simpa using allocated), if_neg (Int.not_le.mpr received),
      handleLocked_released_iff]
    simp [interrupted, reads]
  · have refused : ¬ (t.interrupted = true ∨
        t.reads = true ∧ (controlOf (t.bytes c) ≠ none ∨ newMessage t (t.bytes c) = true)) := by
      simp [interrupted, reads]
    refine iff_of_false ?_ refused
    split_ifs with enough allocated failed
    · exact not_released_closed signal c
    · exact absurd (decide_eq_true ⟨interrupted, enough, allocated, Int.not_le.mp failed⟩) reads
    · exact not_released_closed signal c
    · exact not_released_closed signal c

-- The client has closed its end, so the socket has nothing to show.
def closedTurn : Turn := ⟨false, 0, true, 0, true, false⟩

theorem closed_socket_destroyed_locked :
    (kEchoServerLocked localServer false closedTurn
      ⟨0, ⟨[], 0, [kernelPs], []⟩, [], [], [], true⟩).1 = [.down, .destroy, .stuck] ∧
    ¬ ∀ (server : Server) (signal : Bool) (t : Turn) (c : Connection),
      ReleasedOnce (kEchoServerLocked server signal t c).1 := by
  have stuck : (kEchoServerLocked localServer false closedTurn
      ⟨0, ⟨[], 0, [kernelPs], []⟩, [], [], [], true⟩).1 = [.down, .destroy, .stuck] := rfl
  refine ⟨stuck, fun always => ?_⟩
  have released := always localServer false closedTurn ⟨0, ⟨[], 0, [kernelPs], []⟩, [], [], [], true⟩
  rw [stuck] at released
  exact absurd released (by decide)

end VirtueSensing.Kernel
