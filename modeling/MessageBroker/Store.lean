import MessageBroker.Duration
import MessageBroker.Message.Basic

/-!
# The store of unacknowledged messages

A message is kept under its number together with the time it was stored, until it is erased or
has been there long enough. Times are 64-bit signed counts of milliseconds that wrap around.

Model of `MessageStore` (specification §4.4): `store` (`insert`), `get`, `erase` and
`remove_expired`, each as one step on a table. The clock is a parameter.
-/

namespace MessageBroker

/-- A time, in milliseconds. -/
abbrev Timestamp := Int64

/-- Messages by number, each with the time it was stored. -/
structure Store where
  entries : Table MessageId (Message × Timestamp) := ∅

namespace Store

instance : EmptyCollection Store := ⟨{}⟩

/-- The message under a number. -/
def get? (s : Store) (id : MessageId) : Option Message := (s.entries.get? id).map (·.1)

/-- Puts a message under a number, in place of what was there. -/
def insert (s : Store) (id : MessageId) (m : Message) (now : Timestamp) : Store :=
  ⟨s.entries.insert id (m, now)⟩

/-- Drops the message under a number. -/
def erase (s : Store) (id : MessageId) : Store := ⟨s.entries.erase id⟩

def size (s : Store) : Nat := s.entries.size

def isEmpty (s : Store) : Bool := s.entries.isEmpty

/-- The moment up to which stored messages have expired. -/
def deadline (now : Timestamp) (expiry : Duration) : Timestamp := now - Int64.ofNat expiry.millis

/-- Drops the messages stored no later than `expiry` ago, and says how many; a zero `expiry` drops
none. -/
def removeExpired (s : Store) (now : Timestamp) (expiry : Duration) : Nat × Store :=
  if expiry.isZero then (0, s)
  else
    let kept : Store := ⟨s.entries.filter fun _ e => decide (deadline now expiry < e.2)⟩
    (s.size - kept.size, kept)

theorem get?_erase (s : Store) (id other : MessageId) :
    (s.erase id).get? other = if other = id then none else s.get? other := by
  unfold get? erase
  rw [Table.get?_erase]
  split <;> rfl

theorem get?_removeExpired (s : Store) (now : Timestamp) {expiry : Duration}
    (h : expiry.isZero = false) (id : MessageId) :
    (s.removeExpired now expiry).2.entries.get? id =
      (s.entries.get? id).filter fun e => decide (deadline now expiry < e.2) := by
  unfold removeExpired
  rw [h]
  exact Table.get?_filter _ _ _

end Store

end MessageBroker
