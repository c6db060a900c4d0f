import VirtueSensing.Kernel.CommandGrammar
import VirtueSensing.Shared.Lines
import VirtueSensing.Shared.Machine

set_option autoImplicit false

/-!
# Lines of a connection

`k_echo_server` serves a connected stream socket: each turn of the work reads what the socket has at
that moment and hands it to the parser as one message.
-/

namespace VirtueSensing.Kernel

def newline : UInt8 := 0x0a
def connectionMaxMessage : Nat := 0x1000

structure Line where
  body : Bytes
  bare : newline ∉ body

def Line.bytes (line : Line) : Bytes :=
  line.body ++ [newline]

theorem Line.isLine (line : Line) : IsLine newline line.bytes :=
  ⟨line.body, line.bare, rfl⟩

inductive Control where
  | echo
  | discover
  | session
  deriving DecidableEq, Repr

-- The arrays that the source compares the buffer with, their terminating zero included.
def Control.bytes : Control → Bytes
  | .echo => ascii "echo" ++ [0]
  | .discover => ascii "discover" ++ [0]
  | .session => ascii "\x7bVirtue-protocol-version: 0.1\x7d\n" ++ [0]

-- The buffer has one byte more than was read, and that byte is zero.
def controlOf (read : Bytes) : Option Control :=
  [Control.echo, .discover, .session].find? fun c => c.bytes.isPrefixOf (read ++ [0])

structure Turn where
  interrupted : Bool
  peeked : Int
  allocates : Bool
  received : Int
  allocatesMessage : Bool
  shutdown : Bool
  deriving DecidableEq, Repr

structure Connection where
  socket : Nat
  kernel : State
  sent : List Line
  unread : Bytes
  handed : List Bytes
  queued : Bool

structure Server where
  env : Environment
  respond : Control → State → State

def Connection.close (c : Connection) : Connection :=
  { c with queued := false }

-- Queues the work again, unless the controller shuts down.
def Connection.again (c : Connection) (t : Turn) : Connection :=
  { c with queued := !t.shutdown }

def newMessage (t : Turn) (read : Bytes) : Bool :=
  read.length ≤ maxLineLen ∧ t.allocatesMessage

def Server.handle (server : Server) (t : Turn) (read : Bytes) (c : Connection) : Connection :=
  match controlOf read with
  | some control => { c with kernel := server.respond control c.kernel }.again t
  | none =>
    if newMessage t read then
      let out := parseJsonMessage server.env c.socket read c.kernel
      let c := { c with kernel := out.state, handed := c.handed ++ [read] }
      if out.ccode < 0 then c.close else c.again t
    else c.close

def Turn.reads (t : Turn) : Bool :=
  ¬ t.interrupted ∧ 5 ≤ t.peeked ∧ t.allocates ∧ 0 < t.received

def Turn.bytes (t : Turn) (c : Connection) : Bytes :=
  c.unread.take t.received.toNat

def kEchoServer (server : Server) (t : Turn) (c : Connection) : Connection :=
  if t.interrupted then c.close
  else if 5 ≤ t.peeked then
    if ¬ t.allocates then c.close
    else if t.received ≤ 0 then c.close
    else server.handle t (t.bytes c) { c with unread := c.unread.drop t.received.toNat }
  else c.close

inductive Action where
  | write (line : Line)
  | serve (t : Turn)

/-- The client writes lines; the socket shows and delivers any part of what is unread. -/
def connectionMachine (server : Server) (socket : Nat) (k : State) : Machine Connection Action where
  initial := ⟨socket, k, [], [], [], true⟩
  step c
    | .write line =>
      if c.queued then some { c with sent := c.sent ++ [line], unread := c.unread ++ line.bytes }
      else none
    | .serve t =>
      if c.queued ∧ t.peeked ≤ c.unread.length ∧ t.peeked ≤ connectionMaxMessage ∧
          t.received ≤ t.peeked then
        some (kEchoServer server t c)
      else none

/-- The parser got the first lines of the client, each once and whole, the other bytes are still to
be read, and the service does not end before they are. -/
structure Framed (c : Connection) : Prop where
  inOrder : c.handed <+: c.sent.map Line.bytes
  kept : c.handed.flatten ++ c.unread = (c.sent.map Line.bytes).flatten
  served : c.queued = false → c.unread = []

/-- A turn reads exactly one line, which is no control message, and is not the last one before
everything is read. -/
def TakesLine (server : Server) (c : Connection) : Action → Prop
  | .write _ => True
  | .serve t =>
    if t.reads then
      IsLine newline (t.bytes c) ∧ controlOf (t.bytes c) = none ∧ t.allocatesMessage ∧
        ((parseJsonMessage server.env c.socket (t.bytes c) c.kernel).ccode < 0 ∨ t.shutdown →
          c.unread.drop t.received.toNat = [])
    else c.unread = []

theorem sent_isLine (c : Connection) : ∀ line ∈ c.sent.map Line.bytes, IsLine newline line := by
  intro line sent
  obtain ⟨l, -, rfl⟩ := List.mem_map.mp sent
  exact l.isLine

theorem Framed.all_handed {c : Connection} (framed : Framed c) (read : c.unread = []) :
    c.handed = c.sent.map Line.bytes := by
  have stream := framed.kept
  rw [read, List.append_nil] at stream
  exact eq_of_isPrefix_of_flatten (sent_isLine c) framed.inOrder stream

-- What a turn does, in the order of the checks.
inductive Served (server : Server) (t : Turn) (c : Connection) : Connection → Prop where
  | unread (stuck : ¬ t.reads) : Served server t c c.close
  | dropped (reads : t.reads) (unhanded : ¬ (controlOf (t.bytes c) = none ∧ newMessage t (t.bytes c)))
      (k : State) (queued : Bool) :
      Served server t c
        { c with kernel := k, unread := c.unread.drop t.received.toNat, queued := queued }
  | handed (reads : t.reads) (message : controlOf (t.bytes c) = none)
      (allocated : newMessage t (t.bytes c)) :
      Served server t c
        { c with
          kernel := (parseJsonMessage server.env c.socket (t.bytes c) c.kernel).state
          unread := c.unread.drop t.received.toNat
          handed := c.handed ++ [t.bytes c]
          queued := decide (0 ≤ (parseJsonMessage server.env c.socket (t.bytes c) c.kernel).ccode) &&
            !t.shutdown }

theorem kEchoServer_eq (server : Server) (t : Turn) (c : Connection) :
    kEchoServer server t c =
      if t.reads then
        server.handle t (t.bytes c) { c with unread := c.unread.drop t.received.toNat }
      else c.close := by
  unfold kEchoServer
  by_cases reads : t.reads
  · obtain ⟨interrupted, enough, allocated, received⟩ := of_decide_eq_true reads
    rw [if_neg interrupted, if_pos enough, if_neg (by simpa using allocated),
      if_neg (Int.not_le.mpr received), if_pos reads]
  · rw [if_neg reads]
    split_ifs with interrupted enough allocated failed
    · rfl
    · rfl
    · exact absurd (decide_eq_true ⟨interrupted, enough, allocated, Int.not_le.mp failed⟩) reads
    · rfl
    · rfl

theorem kEchoServer_served (server : Server) (t : Turn) (c : Connection) :
    Served server t c (kEchoServer server t c) := by
  rw [kEchoServer_eq]
  by_cases reads : t.reads
  · rw [if_pos reads, Server.handle]
    cases control : controlOf (t.bytes c) with
    | some control' => exact .dropped reads (by simp [control]) _ _
    | none =>
      by_cases message : newMessage t (t.bytes c)
      · simp only [message, if_true]
        convert Served.handed reads control message using 1
        split_ifs with rejected
        · simp [Connection.close, Int.not_le.mpr rejected]
        · simp [Connection.again, Int.not_lt.mp rejected]
      · simp only [message]
        exact .dropped reads (by simp [message]) _ _
  · rw [if_neg reads]
    exact .unread reads

section Steps

variable {server : Server} {socket : Nat} {k : State} {c after : Connection}

theorem Framed.write (framed : Framed c) (line : Line) (alive : c.queued) :
    Framed { c with sent := c.sent ++ [line], unread := c.unread ++ line.bytes } := by
  refine ⟨?_, ?_, fun closed => by simp_all⟩
  · rw [List.map_append]
    exact framed.inOrder.trans (List.prefix_append _ _)
  · rw [List.map_append, List.flatten_append, ← framed.kept]
    simp

theorem not_framed_of_dropped {t : Turn} (framed : Framed c) (reads : t.reads)
    (shown : t.received ≤ c.unread.length) {k : State} {queued : Bool} :
    ¬ Framed { c with kernel := k, unread := c.unread.drop t.received.toNat, queued := queued } := by
  intro lost
  have received := (of_decide_eq_true reads).2.2.2
  have same := congrArg List.length (framed.kept.trans lost.kept.symm)
  simp only [List.length_append, List.length_drop] at same
  omega

theorem framed_handed_iff {t : Turn} (framed : Framed c) {k : State} {queued : Bool} :
    Framed { c with
      kernel := k
      unread := c.unread.drop t.received.toNat
      handed := c.handed ++ [t.bytes c]
      queued := queued } ↔
    IsLine newline (t.bytes c) ∧ (queued = false → c.unread.drop t.received.toNat = []) := by
  constructor
  · intro handed
    have sent : t.bytes c ∈ c.sent.map Line.bytes := handed.inOrder.subset (by simp)
    exact ⟨sent_isLine c _ sent, handed.served⟩
  · rintro ⟨isLine, served⟩
    obtain ⟨tail, lines⟩ := framed.inOrder
    have stream : tail.flatten = t.bytes c ++ c.unread.drop t.received.toNat := by
      have kept := framed.kept
      rw [← lines, List.flatten_append, List.append_cancel_left_eq] at kept
      rw [← kept, Turn.bytes, List.take_append_drop]
    have tailLines : ∀ line ∈ tail, IsLine newline line := fun line mem =>
      sent_isLine c line (lines ▸ List.mem_append_right _ mem)
    obtain ⟨more, rfl, rest⟩ := isLine.head_of_flatten tailLines stream
    refine ⟨⟨more, by simp [← lines]⟩, ?_, served⟩
    rw [← lines, ← rest]
    simp

theorem step_framed_iff {a : Action} (framed : Framed c)
    (moved : (connectionMachine server socket k).step c a = some after) :
    Framed after ↔ TakesLine server c a := by
  cases a with
  | write line =>
    simp only [connectionMachine, Option.ite_none_right_eq_some, Option.some.injEq] at moved
    obtain ⟨alive, rfl⟩ := moved
    exact iff_of_true (framed.write line alive) trivial
  | serve t =>
    simp only [connectionMachine, Option.ite_none_right_eq_some, Option.some.injEq] at moved
    obtain ⟨⟨alive, shown, bound, received⟩, rfl⟩ := moved
    have fits : (t.bytes c).length ≤ maxLineLen := by
      simp only [Turn.bytes, List.length_take, maxLineLen, connectionMaxMessage] at *
      omega
    simp only [TakesLine]
    generalize result : kEchoServer server t c = after
    have served := kEchoServer_served server t c
    rw [result] at served
    cases served with
    | unread stuck =>
      rw [if_neg stuck]
      refine ⟨fun closed => closed.served rfl, fun read => ⟨framed.inOrder, framed.kept, fun _ => read⟩⟩
    | dropped reads unhanded k' queued =>
      rw [if_pos reads]
      refine iff_of_false (not_framed_of_dropped framed reads (by omega)) fun takes => ?_
      exact unhanded ⟨takes.2.1, decide_eq_true ⟨fits, takes.2.2.1⟩⟩
    | handed reads message allocated =>
      rw [if_pos reads, framed_handed_iff framed]
      have allocates : t.allocatesMessage := (of_decide_eq_true allocated).2
      have stops : (decide (0 ≤ (parseJsonMessage server.env c.socket (t.bytes c) c.kernel).ccode) &&
          !t.shutdown) = false ↔
          (parseJsonMessage server.env c.socket (t.bytes c) c.kernel).ccode < 0 ∨ t.shutdown := by
        cases t.shutdown <;> simp
      simp only [message, allocates, stops, true_and]

end Steps

theorem framed_initial (server : Server) (socket : Nat) (k : State) :
    Framed (connectionMachine server socket k).initial :=
  ⟨by simp [connectionMachine], rfl, by simp [connectionMachine]⟩

/-- Along a run the parser gets the lines of the client one by one exactly as long as every turn of
the server reads one line. -/
theorem lines_handed_iff (server : Server) (socket : Nat) (k : State) (actions : List Action)
    (c : Connection) (reached : (connectionMachine server socket k).run actions = some c) :
    (∀ first s, first <+: actions → (connectionMachine server socket k).run first = some s →
        Framed s) ↔
      (connectionMachine server socket k).Throughout (TakesLine server) actions := by
  exact (connectionMachine server socket k).along_iff_throughout (framed_initial server socket k)
    (fun _ _ _ framed moved => step_framed_iff framed moved) reached

def offLine : Line :=
  ⟨(psRequest (ascii "off")).dropLast, by decide +kernel⟩

def onLine : Line :=
  ⟨(psRequest (ascii "on")).dropLast, by decide +kernel⟩

def localServer : Server := ⟨localEnvironment, fun _ k => k⟩

def psConnection : Machine Connection Action :=
  connectionMachine localServer 0 ⟨[], 0, [kernelPs], []⟩

def Turn.receives (n : Nat) : Turn := ⟨false, n, true, n, true, false⟩

theorem lines_handed_one_by_one :
    ∃ c, psConnection.run [.write offLine, .serve (.receives offLine.bytes.length)] = some c ∧
      c.handed = [offLine.bytes] := by
  have written : psConnection.run [.write offLine] =
      some ⟨0, ⟨[], 0, [kernelPs], []⟩, [offLine], offLine.bytes, [], true⟩ := rfl
  have ended : (psConnection.run [.write offLine, .serve (.receives offLine.bytes.length)]).map
      (fun c => (c.sent.map Line.bytes, c.unread)) = some ([offLine.bytes], []) := by
    decide +kernel
  obtain ⟨c, reached, same⟩ := Option.map_eq_some_iff.mp ended
  obtain ⟨sent, read⟩ := Prod.mk.inj same
  have takes : psConnection.Throughout (TakesLine localServer)
      ([.write offLine] ++ [.serve (.receives offLine.bytes.length)]) := by
    rw [psConnection.throughout_snoc _ written]
    refine ⟨(psConnection.throughout_snoc _ rfl _).mpr ⟨psConnection.throughout_nil _, trivial⟩, ?_⟩
    exact ⟨offLine.isLine, by decide +kernel, rfl, fun _ => by decide +kernel⟩
  have framed := (lines_handed_iff localServer 0 ⟨[], 0, [kernelPs], []⟩ _ c reached).mpr takes _ c
    (List.prefix_refl _) reached
  exact ⟨c, reached, sent ▸ framed.all_handed read⟩

theorem coalesced_lines_lose_request :
    (psConnection.run [.write offLine, .write onLine,
        .serve (.receives (offLine.bytes.length + onLine.bytes.length))]).map
        (fun c => (c.handed, c.kernel.sensors)) =
      some ([offLine.bytes ++ onLine.bytes], [{ kernelPs with repeatCount := 0 }]) ∧
    ¬ ∀ first s, first <+: [.write offLine, .write onLine,
        .serve (.receives (offLine.bytes.length + onLine.bytes.length))] →
      psConnection.run first = some s → Framed s := by
  refine ⟨by decide +kernel, fun framed => ?_⟩
  have ended : (psConnection.run [.write offLine, .write onLine,
      .serve (.receives (offLine.bytes.length + onLine.bytes.length))]).map
        (fun c => (c.handed, c.sent.map Line.bytes)) =
      some ([offLine.bytes ++ onLine.bytes], [offLine.bytes, onLine.bytes]) := by
    decide +kernel
  obtain ⟨c, reached, same⟩ := Option.map_eq_some_iff.mp ended
  obtain ⟨handed, sent⟩ := Prod.mk.inj same
  have inOrder := (framed _ c (List.prefix_refl _) reached).inOrder
  rw [handed, sent] at inOrder
  exact absurd inOrder (by decide +kernel)

end VirtueSensing.Kernel
