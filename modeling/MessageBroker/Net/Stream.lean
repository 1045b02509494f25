import MessageBroker.Bytes
import MessageBroker.Net.Address
import MessageBroker.Net.Error

/-!
# Byte streams

A stream is one end of a connection with a client, together with what the other end and the
network have in store for it: what has arrived and not been read, and how writes will fare. Reading
never waits: with nothing there, it says so, or that the other end has closed. Writing goes on until
everything is taken or something fails; then a part may have been taken.

Model of `ByteStream` (specification §6), the boundary to the transport, and of the loop of its
`write_all` over a socket, which is `push`. Whatever a socket can do is an `Arrival` or a
`WriteStep`. Out of scope: the sockets themselves and time, so a write that has waited too long is a
step (`expired`); and two writers at once, whom the stream's own lock keeps apart.

Headlines:
* **`Stream.load_read_data`**: reading takes from what has arrived.
* **`push_fst_append`**: what the socket takes is a prefix of what it is offered, all of it on
  success.
-/

namespace MessageBroker.Net

/-- What arrives in one piece. -/
inductive Arrival
  | bytes (data : Bytes)
  | failure (cause : IoFailure)
deriving DecidableEq, Repr

/-- What one write to a socket meets. -/
inductive WriteStep
  /-- At most one byte more than `extra` are taken. -/
  | take (extra : Nat)
  | interrupted
  /-- Nothing is taken yet. -/
  | blocked
  /-- Nothing is taken and the time for writing is over. -/
  | expired
  /-- Nothing will be taken any more. -/
  | refused
  | failed (cause : IoFailure)
deriving DecidableEq, Repr

/-- How writes fare. -/
inductive Outlet
  /-- The next writes meet the steps, and those behind them are taken whole. -/
  | open (steps : List WriteStep)
  /-- Every write fails at once. -/
  | failing (cause : NetError)
deriving DecidableEq, Repr

/-- A stream. -/
structure Stream where
  peer : Option Address := none
  /-- What has arrived and not been read. -/
  incoming : List Arrival := []
  /-- Nothing more will arrive. -/
  ended : Bool := false
  closed : Bool := false
  outlet : Outlet := .open []
  /-- How long a write may wait. -/
  sendTimeout : Duration := .ofSeconds 5
  /-- What the multiplexer is told when it asks for events. -/
  registers : Except IoFailure Unit := .ok ()
  /-- What has been written and not been taken by the other end, write by write. -/
  written : List Bytes := []

/-- What a read gives. -/
inductive ReadResult
  | data (bytes : Bytes)
  | ended
  | failure (cause : IoFailure)
deriving DecidableEq, Repr

/-- Offers bytes to a socket: how that ends, what was taken, and the steps that are left. -/
def push (timeout : Duration) :
    List WriteStep → Bytes → Except NetError Unit × Bytes × List WriteStep
  | steps, [] => (.ok (), [], steps)
  | [], data => (.ok (), data, [])
  | .take extra :: steps, data =>
    let (outcome, taken, steps) := push timeout steps (data.drop (extra + 1))
    (outcome, data.take (extra + 1) ++ taken, steps)
  | .interrupted :: steps, data => push timeout steps data
  | .blocked :: steps, data => push timeout steps data
  | .expired :: steps, _ => (.error (.writeTimeout timeout), [], steps)
  | .refused :: steps, _ => (.error .closed, [], steps)
  | .failed cause :: steps, _ => (.error (.io cause), [], steps)

namespace Stream

/-- How much there is to read: the bytes, and one for every piece. -/
def loadOf : List Arrival → Nat
  | [] => 0
  | .bytes data :: rest => data.length + 1 + loadOf rest
  | .failure _ :: rest => 1 + loadOf rest

/-- How much there is to read. -/
def load (s : Stream) : Nat := loadOf s.incoming

/-- How many bytes there are. -/
def bytesOf : List Arrival → Nat
  | [] => 0
  | .bytes data :: rest => data.length + bytesOf rest
  | .failure _ :: rest => bytesOf rest

/-- How many bytes have arrived and not been read. -/
def pending (s : Stream) : Nat := bytesOf s.incoming

/-- Adds bytes to what has arrived. -/
def arriveBytes (data : Bytes) : List Arrival → List Arrival
  | [] => if data.isEmpty then [] else [.bytes data]
  | [.bytes before] => [.bytes (before ++ data)]
  | a :: as => a :: arriveBytes data as

/-- Bytes arrive. -/
def feed (s : Stream) (data : Bytes) : Stream :=
  { s with incoming := arriveBytes data s.incoming }

/-- A failure arrives: reads come upon it behind the bytes before it. -/
def fail (s : Stream) (cause : IoFailure) : Stream :=
  { s with incoming := s.incoming ++ [.failure cause] }

/-- What is left of some bytes, if anything is. -/
def leftover (data : Bytes) (rest : List Arrival) : List Arrival :=
  if data.isEmpty then rest else .bytes data :: rest

/-- What reading at most `n` bytes gives, and what is left of what has arrived. -/
def readFrom (ended : Bool) (n : Nat) : List Arrival → ReadResult × List Arrival
  | [] => (if ended then .ended else .failure .wouldBlock, [])
  | .failure cause :: rest => (.failure cause, rest)
  | .bytes [] :: rest => readFrom ended n rest
  | .bytes data :: rest => (.data (data.take n), leftover (data.drop n) rest)

/-- Reads at most `n` bytes. -/
def read (s : Stream) (n : Nat) : ReadResult × Stream :=
  let (result, rest) := readFrom s.ended n s.incoming
  (result, { s with incoming := rest })

/-- Writes everything, or fails. -/
def write (s : Stream) (data : Bytes) : Except NetError Unit × Stream :=
  if s.closed then (.error .closed, s)
  else
    match s.outlet with
    | .failing cause => (.error cause, s)
    | .open steps =>
      let (outcome, taken, steps) := push s.sendTimeout steps data
      let piece := if taken.isEmpty then [] else [taken]
      (outcome, { s with outlet := .open steps, written := s.written ++ piece })

/-- Closes this end. -/
def close (s : Stream) : Stream := { s with closed := true }

/-- The other end takes what has been written. -/
def collect (s : Stream) : Bytes × Stream := (s.written.flatten, { s with written := [] })

theorem loadOf_leftover (data : Bytes) (rest : List Arrival) :
    loadOf (leftover data rest) ≤ loadOf rest + data.length + 1 := by
  unfold leftover
  split
  · omega
  · simp [loadOf]
    omega

theorem loadOf_readFrom_le {ended : Bool} {n : Nat} :
    ∀ incoming : List Arrival, loadOf (readFrom ended n incoming).2 ≤ loadOf incoming
  | [] => Nat.le_refl _
  | .failure cause :: rest => by
    simp only [readFrom, loadOf]
    omega
  | .bytes [] :: rest => by
    have := @loadOf_readFrom_le ended n rest
    simp only [readFrom, loadOf]
    omega
  | .bytes (b :: bs) :: rest => by
    have h := loadOf_leftover ((b :: bs).drop n) rest
    rw [List.length_drop] at h
    simp only [readFrom, loadOf]
    omega

/-- A read takes something, if there is anything. -/
theorem loadOf_readFrom_lt {ended : Bool} {n : Nat} (hn : 0 < n) :
    ∀ {incoming : List Arrival}, incoming ≠ [] →
      loadOf (readFrom ended n incoming).2 < loadOf incoming
  | .failure cause :: rest, _ => by
    simp only [readFrom, loadOf]
    omega
  | .bytes [] :: rest, _ => by
    have := @loadOf_readFrom_le ended n rest
    simp only [readFrom, loadOf]
    omega
  | .bytes (b :: bs) :: rest, _ => by
    have h := loadOf_leftover ((b :: bs).drop n) rest
    rw [List.length_drop, List.length_cons] at h
    simp only [readFrom, loadOf, List.length_cons]
    omega

theorem load_read_lt {s : Stream} {n : Nat} (hn : 0 < n) (h : s.incoming ≠ []) :
    (s.read n).2.load < s.load := loadOf_readFrom_lt hn h

/-- **Reading takes from what has arrived.** -/
theorem load_read_data {s s' : Stream} {n : Nat} {data : Bytes} (hn : 0 < n)
    (h : s.read n = (.data data, s')) : s'.load < s.load := by
  have hne : s.incoming ≠ [] := by
    intro he
    rw [read, he] at h
    cases hs : s.ended <;> simp [readFrom, hs] at h
  have := load_read_lt hn hne
  rwa [h] at this

theorem load_read_failure {s s' : Stream} {n : Nat} {cause : IoFailure} (hn : 0 < n)
    (hc : cause ≠ .wouldBlock) (h : s.read n = (.failure cause, s')) : s'.load < s.load := by
  have hne : s.incoming ≠ [] := by
    intro he
    rw [read, he] at h
    cases hs : s.ended with
    | true => simp [readFrom, hs] at h
    | false =>
      simp only [readFrom, hs, Prod.mk.injEq, Bool.false_eq_true, if_false,
        ReadResult.failure.injEq] at h
      exact hc h.1.symm
  have := load_read_lt hn hne
  rwa [h] at this

end Stream

/-- **What the socket takes is a prefix of what it is offered, all of it on success and only
then.** -/
theorem push_fst_append (timeout : Duration) : ∀ (steps : List WriteStep) (data : Bytes),
    ∃ rest, (push timeout steps data).2.1 ++ rest = data ∧
      ((push timeout steps data).1 = .ok () ↔ rest = [])
  | steps, [] => ⟨[], by unfold push; simp⟩
  | [], b :: bs => ⟨[], by simp [push]⟩
  | .take extra :: steps, b :: bs => by
    obtain ⟨rest, h1, h2⟩ := push_fst_append timeout steps ((b :: bs).drop (extra + 1))
    refine ⟨rest, ?_, ?_⟩
    · simp only [push]
      rw [List.append_assoc, h1]
      exact List.take_append_drop _ _
    · simpa only [push] using h2
  | .interrupted :: steps, b :: bs => by
    simpa only [push] using push_fst_append timeout steps (b :: bs)
  | .blocked :: steps, b :: bs => by
    simpa only [push] using push_fst_append timeout steps (b :: bs)
  | .expired :: steps, b :: bs => ⟨b :: bs, by simp [push]⟩
  | .refused :: steps, b :: bs => ⟨b :: bs, by simp [push]⟩
  | .failed cause :: steps, b :: bs => ⟨b :: bs, by simp [push]⟩

namespace Stream

variable {s : Stream} {data : Bytes}

/-- Whether a stream takes some bytes as they are. -/
def Accepts (s : Stream) (data : Bytes) : Prop := (s.write data).1 = .ok ()

/-- A write that goes well is there as it is, behind those before it. -/
theorem written_of_accepts (hne : data ≠ []) (h : s.Accepts data) :
    (s.write data).2.written = s.written ++ [data] := by
  unfold Accepts at h
  unfold write at h ⊢
  split
  · rename_i hc
    rw [if_pos hc] at h
    cases h
  · rename_i hc
    rw [if_neg hc] at h
    split at h
    · cases h
    · rename_i steps _
      obtain ⟨rest, hall, hok⟩ := push_fst_append s.sendTimeout steps data
      have htaken : (push s.sendTimeout steps data).2.1 = data := by
        rw [hok.mp h, List.append_nil] at hall
        exact hall
      simp [htaken, hne]

/-- Of a write that fails a part may be there, but not all of it. -/
theorem written_of_not_accepts (hne : data ≠ []) (h : ¬ s.Accepts data) :
    ∃ part, part <+: data ∧ part ≠ data ∧
      (s.write data).2.written.flatten = s.written.flatten ++ part := by
  unfold Accepts at h
  unfold write at h ⊢
  split
  · exact ⟨[], List.nil_prefix, Ne.symm hne, (List.append_nil _).symm⟩
  · rename_i hc
    rw [if_neg hc] at h
    split at h
    · exact ⟨[], List.nil_prefix, Ne.symm hne, (List.append_nil _).symm⟩
    · rename_i steps _
      obtain ⟨rest, hall, hok⟩ := push_fst_append s.sendTimeout steps data
      refine ⟨(push s.sendTimeout steps data).2.1, ⟨rest, hall⟩, fun he => ?_, ?_⟩
      · rw [he] at hall
        exact h (hok.mpr (List.append_cancel_left (hall.trans (List.append_nil _).symm)))
      · simp only
        split
        · rename_i hempty
          rw [List.isEmpty_iff.mp hempty]
          simp
        · simp

end Stream

end MessageBroker.Net
