import Mathlib.Logic.Function.Basic
import Mathlib.Tactic.Common

set_option autoImplicit false

/-!
# What a kernel thread holds

The depth of its RCU read section and, for each spinlock, how often it has taken the lock more than
it has released it.
-/

namespace VirtueSensing

universe u

@[ext]
structure Locks (Spin : Type u) where
  rcuDepth : Int
  held : Spin → Int

namespace Locks

variable {Spin : Type u} [DecidableEq Spin] (l : Locks Spin)

def none : Locks Spin := ⟨0, fun _ => 0⟩

def rcuReadLock : Locks Spin := { l with rcuDepth := l.rcuDepth + 1 }

def rcuReadUnlock : Locks Spin := { l with rcuDepth := l.rcuDepth - 1 }

def spinLock (lock : Spin) : Locks Spin :=
  { l with held := Function.update l.held lock (l.held lock + 1) }

def spinUnlock (lock : Spin) : Locks Spin :=
  { l with held := Function.update l.held lock (l.held lock - 1) }

@[simp] theorem spinUnlock_spinLock (lock : Spin) : (l.spinLock lock).spinUnlock lock = l := by
  simp [spinLock, spinUnlock]

theorem spinLock_ne (lock : Spin) : l.spinLock lock ≠ l := by
  intro same
  have count := congrFun (congrArg held same) lock
  simp only [spinLock, Function.update_self] at count
  omega

omit [DecidableEq Spin] in
@[simp] theorem rcuReadUnlock_rcuReadLock : l.rcuReadLock.rcuReadUnlock = l := by
  simp [rcuReadLock, rcuReadUnlock]

omit [DecidableEq Spin] in
theorem rcuReadLock_ne : l.rcuReadLock ≠ l := by
  intro same
  have depth := congrArg rcuDepth same
  simp only [rcuReadLock] at depth
  omega

end Locks

end VirtueSensing
