import MessageBroker.Duration

/-!
# Locks with a bounded wait

A lock is held by nobody, by a number of readers, or by one writer. Whoever cannot have it within
the time allowed gives up; a reader is let in beside other readers, a writer only alone.

Model of `read_for` and `write_for`. Out of scope: the wait itself. A lock that is held when
somebody asks for it is held for as long as the wait may be.
-/

namespace MessageBroker

/-- Who holds a lock. -/
inductive Lock
  | free
  /-- One reader and `others` more. -/
  | shared (others : Nat)
  | exclusive
deriving DecidableEq, Repr

/-- A lock was not to be had in the time allowed. -/
structure LockTimeout where
  after : Duration
deriving DecidableEq, Repr

def LockTimeout.message (e : LockTimeout) : String :=
  "lock acquisition timed out after " ++ e.after.toText

namespace Lock

/-- Whether a reader is let in. -/
def admitsReader : Lock → Bool
  | exclusive => false
  | _ => true

/-- Whether a writer is let in. -/
def admitsWriter : Lock → Bool
  | free => true
  | _ => false

/-- With one reader more. -/
def enter : Lock → Lock
  | free => shared 0
  | shared n => shared (n + 1)
  | exclusive => exclusive

/-- With one reader less. -/
def leave : Lock → Lock
  | shared (n + 1) => shared n
  | shared 0 => free
  | l => l

theorem leave_enter (l : Lock) : l.enter.leave = l := by cases l <;> rfl

theorem admitsWriter_enter (l : Lock) : l.enter.admitsWriter = false := by cases l <;> rfl

theorem admitsReader_enter (l : Lock) : l.enter.admitsReader = l.admitsReader := by
  cases l <;> rfl

end Lock

end MessageBroker
