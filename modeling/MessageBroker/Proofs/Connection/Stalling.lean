import MessageBroker.Proofs.Connection.Passes

/-!
# Where a pass stops

A pass that goes well stops at its limit, with more to read, or where reading would block. In the
second case it has read all there was in front of that place, so nothing can be overlooked until
the stream is reported again.

Headlines:
* **`Net.Stalls`**: reading comes to a place where it would block.
* **`Connection.stalls_readPass`**: a pass that neither is the last one nor stops at its limit has
  come to such a place.
-/

namespace MessageBroker

namespace Net

/-- Reading comes to a place where it would block, with nothing but bytes and interruptions in front
of it, and `rest` lies behind it. -/
inductive Stalls (ended : Bool) : List Arrival → List Arrival → Prop
  /-- Nothing is left, but more may arrive. -/
  | exhausted (h : ended = false) : Stalls ended [] []
  | blocked (rest : List Arrival) : Stalls ended (.failure .wouldBlock :: rest) rest
  | bytes {data : Bytes} {incoming rest : List Arrival} (h : Stalls ended incoming rest) :
    Stalls ended (.bytes data :: incoming) rest
  | interrupted {incoming rest : List Arrival} (h : Stalls ended incoming rest) :
    Stalls ended (.failure .interrupted :: incoming) rest

theorem Stalls.of_leftover {ended : Bool} {data : Bytes} {incoming rest : List Arrival}
    (h : Stalls ended (Stream.leftover data incoming) rest) : Stalls ended incoming rest := by
  unfold Stream.leftover at h
  split at h
  · exact h
  · cases h with
    | bytes h => exact h

/-- One read brings reading nearer to the place where it would block, or to that place. -/
theorem stalls_readFrom (ended : Bool) (n : Nat) : ∀ incoming : List Arrival,
    match Stream.readFrom ended n incoming with
    | (.data _, left) | (.failure .interrupted, left) =>
      ∀ rest, Stalls ended left rest → Stalls ended incoming rest
    | (.failure .wouldBlock, left) => Stalls ended incoming left
    | _ => True
  | [] => by
    unfold Stream.readFrom
    cases ended with
    | false => exact .exhausted rfl
    | true => trivial
  | .failure cause :: rest => by
    cases cause with
    | wouldBlock => exact .blocked rest
    | interrupted => exact fun _ => .interrupted
    | _ => trivial
  | .bytes [] :: rest => by
    have ih := stalls_readFrom ended n rest
    unfold Stream.readFrom
    split
    · rename_i hr
      rw [hr] at ih
      exact fun left h => .bytes (ih left h)
    · rename_i hr
      rw [hr] at ih
      exact fun left h => .bytes (ih left h)
    · rename_i hr
      rw [hr] at ih
      exact .bytes ih
    · trivial
  | .bytes (b :: bs) :: rest => fun _ h => .bytes h.of_leftover

end Net

namespace Connection

theorem stalls_readOn (limit taken : Nat) (c : Connection)
    (hf : (c.readOn limit taken).1.isFinal = false) (hm : (c.readOn limit taken).1.more = false) :
    Net.Stalls c.stream.ended c.stream.incoming (c.readOn limit taken).2.stream.incoming := by
  fun_induction Connection.readOn limit taken c with
  | case1 => cases hm
  | case2 taken c hl stream hr d =>
    unfold ReadPass.isFinal at hf
    rw [Bool.or_true] at hf
    cases hf
  | case3 => cases hf
  | case4 taken c hl bytes stream hr d hd hload pass c' hp ih =>
    have hs := Net.stalls_readFrom c.stream.ended chunkSize c.stream.incoming
    rw [Net.Stream.readFrom_of_read hr] at hs
    rw [hp] at ih
    rw [← Net.Stream.ended_of_read hr] at hs ⊢
    exact hs _ (ih hf hm)
  | case5 taken c hl stream hr =>
    have hs := Net.stalls_readFrom c.stream.ended chunkSize c.stream.incoming
    rwa [Net.Stream.readFrom_of_read hr] at hs
  | case6 taken c hl stream hr hload ih =>
    have hs := Net.stalls_readFrom c.stream.ended chunkSize c.stream.incoming
    rw [Net.Stream.readFrom_of_read hr] at hs
    rw [← Net.Stream.ended_of_read hr] at hs ⊢
    exact hs _ (ih hf hm)
  | case7 => cases hf

/-- **A pass that neither is the last one nor stops at its limit has read everything up to a place
where reading would block.** -/
theorem stalls_readPass {c : Connection} (hf : c.readPass.1.isFinal = false)
    (hm : c.readPass.1.more = false) :
    Net.Stalls c.stream.ended c.stream.incoming c.readPass.2.stream.incoming :=
  stalls_readOn _ 0 c hf hm

end Connection

end MessageBroker
