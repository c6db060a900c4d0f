import VirtueSensing.Kernel.LockDiscipline
import VirtueSensing.Kernel.Sessions

set_option autoImplicit false

/-!
# The session of a reply

`get_session` for a message that is itself a reply: the sessions that the message is linked to, and
what the function returns for the caller to go on with.
-/

namespace VirtueSensing.Kernel

def getSessionReply (m : Message) (sessions : List Session) : SessionPointer × List Session :=
  if (m.text nonceIndex).length = 0 ∨ maxNonceSize < (m.text nonceIndex).length then
    (.null, sessions)
  else correlateReply m sessions

/-- One session with the nonce of the message gets the message and is returned. -/
inductive Correlated (m : Message) : List Session → SessionPointer × List Session → Prop where
  | found (before after : List Session) (s : Session) (nonce : s.nonce = m.text nonceIndex) :
      Correlated m (before ++ s :: after) (.session s.id, before ++ s.link m.line :: after)
  | missing (sessions : List Session) (none : ∀ s ∈ sessions, s.nonce ≠ m.text nonceIndex) :
      Correlated m sessions (.null, sessions)

theorem getSessionReply_ne_session (m : Message) (sessions : List Session) (id : Nat) :
    (getSessionReply m sessions).1 ≠ .session id := by
  unfold getSessionReply
  split
  · nofun
  · rw [correlateReply_eq]
    nofun

theorem getSessionReply_null_iff (m : Message) (sessions : List Session) :
    (getSessionReply m sessions).1 = .null ↔ m.hasNonce = false := by
  have size : m.hasNonce = false ↔
      (m.text nonceIndex).length = 0 ∨ maxNonceSize < (m.text nonceIndex).length := by
    simp only [Message.hasNonce, decide_eq_false_iff_not]
    omega
  rw [size]
  unfold getSessionReply
  split
  · exact iff_of_true rfl ‹_›
  · rw [correlateReply_eq]
    exact iff_of_false (by simp) ‹_›

theorem Correlated.refused {m : Message} {sessions : List Session}
    (correlated : Correlated m sessions (getSessionReply m sessions)) :
    m.hasNonce = false ∧ ∀ s ∈ sessions, s.nonce ≠ m.text nonceIndex := by
  generalize result : getSessionReply m sessions = r at correlated
  cases correlated with
  | found before after s nonce =>
    exact absurd (congrArg Prod.fst result) (getSessionReply_ne_session m _ s.id)
  | missing sessions none =>
    exact ⟨(getSessionReply_null_iff m sessions).mp (congrArg Prod.fst result), none⟩

theorem Correlated.of_refused {m : Message} {sessions : List Session}
    (refused : m.hasNonce = false) (none : ∀ s ∈ sessions, s.nonce ≠ m.text nonceIndex) :
    Correlated m sessions (getSessionReply m sessions) := by
  have null := (getSessionReply_null_iff m sessions).mpr refused
  unfold getSessionReply at null ⊢
  split
  · exact .missing sessions none
  · rename_i accepted
    rw [if_neg accepted, correlateReply_eq] at null
    exact absurd null nofun

/-- A reply is matched to its session exactly if its nonce is refused, so that there is none. -/
theorem reply_correlated_iff (m : Message) (sessions : List Session) :
    Correlated m sessions (getSessionReply m sessions) ↔
      m.hasNonce = false ∧ ∀ s ∈ sessions, s.nonce ≠ m.text nonceIndex := by
  constructor
  · intro correlated
    exact correlated.refused
  · rintro ⟨refused, none⟩
    exact .of_refused refused none

def virtueReply : Bytes :=
  ascii "\x7bVirtue-protocol-version: 0.1, reply: [n1, kernel-ps]\x7d\n"

-- The nonce of one session begins that of the other.
def openSessions : List Session :=
  [⟨1, 1, ascii "n12", ascii "connect", ascii "kernel-ps", []⟩,
    ⟨0, 0, ascii "n1", ascii "connect", ascii "kernel-ps", []⟩]

theorem reply_linked_twice :
    getSessionReply (localEnvironment.message 2 virtueReply) openSessions =
        (.listHead, openSessions.map fun s => s.link virtueReply) ∧
      ¬ Correlated (localEnvironment.message 2 virtueReply) openSessions
        (getSessionReply (localEnvironment.message 2 virtueReply) openSessions) := by
  have nonce : (localEnvironment.message 2 virtueReply).hasNonce = true := by decide +kernel
  refine ⟨by decide +kernel, fun correlated => ?_⟩
  rw [correlated.refused.1] at nonce
  exact absurd nonce nofun

end VirtueSensing.Kernel
