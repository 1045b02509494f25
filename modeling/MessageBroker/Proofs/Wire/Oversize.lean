import MessageBroker.Proofs.Wire.Draining
import MessageBroker.Proofs.Wire.Intake

/-!
# Frames that are too long

A frame is refused for its size by a length prefix, not by what the prefix announces: as soon as the
four bytes of the prefix are there, behind the blocks before it, the frame is refused, and not a
byte earlier. So a buffer that is read out whenever bytes arrive gives the messages of all frames in
front of it, and the refusal comes with the last byte of the prefix. Up to then what is waited for
is shorter than the longest frame.

Headlines:
* **`TooLong.frameLength_of_short`**, **`TooLong.frameLength_eq`**: no length is known before the
  prefix is there, and the refusal is settled when it is.
* **`AcceptedAll.drain_eq`**: what a decoder makes of frames and one that is too long.
* **`AcceptedAll.error_of_short`**: and of less than that.
* **`Settled.drain`**: a decoder and its buffer are left as they were found, fit to be used again.
* **`Settled.length_lt`**: with less in the buffer than the longest frame takes.
-/

namespace MessageBroker.Wire

/-- Messages in front of the rest, one frame behind the other. -/
inductive AcceptedAll (limit : Nat) : Bytes → List Message → Bytes → Prop
  | nil (bs : Bytes) : AcceptedAll limit bs [] bs
  | cons {bs rest rest' : Bytes} {m : Message} {ms : List Message}
    (first : Accepted limit bs m rest) (others : AcceptedAll limit rest ms rest') :
    AcceptedAll limit bs (m :: ms) rest'

/-- The front of a frame, up to the end of the first length prefix that announces more than the
limit: that of the header block, or of the body behind it. -/
inductive TooLong (limit : Nat) : Bytes → Prop
  | intro {t : MessageType} {blocks : List Bytes} {n : Nat}
    (due : blocks.length < blockCount t.layout (blocks.flatMap block ++ encodeLength n))
    (allowed : ∀ data ∈ blocks, Allowed limit data.length)
    (fits : n < lengthBound) (large : limit ≠ 0 ∧ limit < n) :
    TooLong limit (marker ++ t.toByte :: (blocks.flatMap block ++ encodeLength n))

variable {limit : Nat} {bs front extra rest : Bytes}

/-! ## The prefix that is too much -/

/-- Four bytes tell whether blocks that are optional follow. -/
theorem blockCount_append {bs : Bytes} (h : 4 ≤ bs.length) (layout : Layout) (more : Bytes) :
    blockCount layout (bs ++ more) = blockCount layout bs := by
  cases layout with
  | optionalHeaders =>
    unfold blockCount
    simp only [isPrefixOf_append (p := marker) h]
  | _ => rfl

/-- Nothing is refused in front of the last prefix. -/
theorem blocksLength_ne_error {blocks : List Bytes} {n : Nat} {q : Bytes}
    (allowed : ∀ data ∈ blocks, Allowed limit data.length)
    (hp : q <+: blocks.flatMap block ++ encodeLength n)
    (hlt : q.length < (blocks.flatMap block ++ encodeLength n).length) (k : Nat) (e : DecodeError) :
    blocksLength limit k q ≠ .error e := by
  induction blocks generalizing q k e with
  | nil =>
    rw [List.flatMap_nil, List.nil_append, length_encodeLength] at hlt
    intro he
    cases k with
    | zero => cases he
    | succ k =>
      rw [blocksLength, blockLength?_eq_none_iff.mpr hlt] at he
      cases he
  | cons data blocks ih =>
    obtain ⟨hd, hblocks⟩ := List.forall_mem_cons.mp allowed
    rw [flatMap_block_cons] at hp hlt
    intro he
    cases k with
    | zero => cases he
    | succ k =>
      unfold blocksLength at he
      cases hn : blockLength? q with
      | none =>
        rw [hn] at he
        cases he
      | some n' =>
        -- The prefix that is there is that of the first block.
        obtain ⟨more, hmore⟩ := hp
        have hn' := blockLength?_append hn more
        rw [hmore, block, List.append_assoc, blockLength?_encode hd.fits, Option.some.injEq] at hn'
        subst hn'
        have hdrop : q.drop (4 + data.length) <+: blocks.flatMap block ++ encodeLength n := by
          have := congrArg (List.drop (4 + data.length)) hmore
          rw [List.drop_append, List.drop_left' (length_block data)] at this
          exact ⟨_, this⟩
        have hshort : (q.drop (4 + data.length)).length <
            (blocks.flatMap block ++ encodeLength n).length := by
          simp only [List.length_append, List.length_drop, length_block,
            length_encodeLength] at hlt ⊢
          omega
        rw [hn] at he
        dsimp only at he
        rw [if_neg hd.not_exceeds] at he
        rcases hk : blocksLength limit k (q.drop (4 + data.length)) with e' | r
        · exact ih hblocks hdrop hshort k e' hk
        · rw [hk] at he
          cases he

namespace TooLong

/-- **The refusal is settled when the prefix is there,** whatever follows. -/
theorem frameLength_eq (h : TooLong limit front) (extra : Bytes) :
    frameLength limit (front ++ extra) = .error .sizeExceeded := by
  obtain @⟨t, blocks, n, due, allowed, fits, large⟩ := h
  have hlen : 4 ≤ (blocks.flatMap block ++ encodeLength n).length := by
    rw [List.length_append, length_encodeLength]
    omega
  rw [List.append_assoc, List.cons_append, frameLength_cons rfl, if_pos rfl,
    MessageType.ofByte?_toByte]
  dsimp only
  rw [payloadLength_eq_blocksLength, blockCount_append hlen, List.append_assoc,
    (Oversized.intro due allowed fits large).blocksLength_eq]
  rfl

/-- **No length is known before the prefix is there.** -/
theorem frameLength_of_short (h : TooLong limit front) {p : Bytes} (hp : p <+: front)
    (hlt : p.length < front.length) : frameLength limit p = .ok none := by
  obtain ⟨more, rfl⟩ := hp
  by_contra hne
  -- Otherwise it would be the refusal already, which takes the whole prefix.
  have herror : frameLength limit p = .error .sizeExceeded := by
    have := frameLength_append (more ++ []) hne
    rw [← List.append_assoc, h.frameLength_eq] at this
    exact this.symm
  by_cases hlen : p.length < headerLength
  · rw [frameLength_of_length_lt hlen] at herror
    split at herror <;> cases herror
  · obtain ⟨four, byte, q, hfour, rfl⟩ := exists_front (Nat.not_lt.mp hlen)
    generalize hf : four ++ byte :: q ++ more = front at h
    obtain @⟨t, blocks, n, due, allowed, fits, large⟩ := h
    rw [List.append_assoc, List.cons_append] at hf
    obtain ⟨rfl, hbytes⟩ := List.append_inj hf (hfour.trans rfl)
    obtain ⟨rfl, hq⟩ := List.cons.inj hbytes
    rw [frameLength_cons rfl, if_pos rfl, MessageType.ofByte?_toByte] at herror
    dsimp only at herror
    rw [payloadLength_eq_blocksLength] at herror
    have hshort : q.length < (blocks.flatMap block ++ encodeLength n).length := by
      rw [← hq, List.length_append]
      simp only [List.length_append, List.length_cons] at hlt
      omega
    rcases hk : blocksLength limit (blockCount t.layout q) q with e | r
    · exact blocksLength_ne_error allowed ⟨more, hq⟩ hshort _ e hk
    · rw [hk] at herror
      cases herror

end TooLong

/-! ## Frames in front of it -/

theorem Decoder.next_false (d : Decoder) (bs : Bytes) : d.next false bs = d.decode bs := rfl

namespace AcceptedAll

open Decoder

variable {ms : List Message}

/-- **What a decoder makes of frames and one that is too long:** their messages, and the refusal. -/
theorem drain_eq (h : AcceptedAll limit bs ms rest) (hf : TooLong limit front)
    (hr : rest = front ++ extra) :
    ((new limit).drain false bs).messages = ms ∧
      ((new limit).drain false bs).error = some .sizeExceeded := by
  induction h with
  | nil bs =>
    subst hr
    have hd : (new limit).next false (front ++ extra) =
        ⟨.error .sizeExceeded, new limit, front ++ extra⟩ := by
      rw [next_false]
      unfold decode
      simp only [new, hf.frameLength_eq extra]
    rw [drain_of_error hd]
    exact ⟨rfl, rfl⟩
  | cons first others ih =>
    obtain ⟨hms, he⟩ := ih hr
    have hd := decode_new_of_accepted first
    rw [← next_false] at hd
    rw [drain_of_message hd]
    exact ⟨congrArg _ hms, he⟩

/-- **And of less than that:** nothing is refused before the prefix is there. -/
theorem error_of_short (h : AcceptedAll limit bs ms rest) (hf : TooLong limit front)
    (hr : rest = front ++ extra) {p more : Bytes} (hp : bs = p ++ more)
    (hlt : extra.length < more.length) : ((new limit).drain false p).error = none := by
  induction h generalizing p with
  | nil bs =>
    have hprefix : p <+: front ∧ p.length < front.length := by
      have hlen := congrArg List.length (hp.symm.trans hr)
      rw [List.length_append, List.length_append] at hlen
      refine ⟨List.prefix_of_prefix_length_le ⟨more, hp.symm.trans hr⟩ ⟨extra, rfl⟩ ?_, ?_⟩
      all_goals omega
    have hd : (new limit).next false p = ⟨.ok none, new limit, p⟩ := by
      rw [next_false]
      unfold decode
      simp only [new, hf.frameLength_of_short hprefix.1 hprefix.2]
    rw [drain_of_none hd]
  | cons first others ih =>
    have hall := decode_new_of_accepted first
    rcases hd : (new limit).next false p with ⟨e | _ | m, d, left⟩
    · -- A refusal would stand, and a message is accepted.
      have hstands := decode_append ((next_false ..).symm.trans hd) (by simp) more
      rw [← hp, hall] at hstands
      simp at hstands
    · rw [drain_of_none hd]
    · have hstands := decode_append ((next_false ..).symm.trans hd) (by simp) more
      rw [← hp, hall] at hstands
      simp only [Decoded.mk.injEq] at hstands
      obtain ⟨-, rfl, hrest⟩ := hstands
      rw [drain_of_message hd]
      exact ih hr hrest

end AcceptedAll

/-! ## A decoder between arrivals -/

/-- A decoder and its buffer as they are between arrivals: all that is there has been looked at, and
a length that is remembered belongs to it. -/
structure Settled (limit : Nat) (d : Decoder) (buffer : Bytes) : Prop where
  limit_eq : d.limit = limit
  idle : d.Idle buffer
  measured : Intake.Measured limit ⟨d, buffer⟩

theorem settled_new (limit : Nat) : Settled limit (.new limit) [] :=
  ⟨rfl, rfl, Intake.measured_new limit⟩

namespace Decoder

variable {d d' : Decoder} {ended : Bool}

theorem limit_next (d : Decoder) (ended : Bool) (bs : Bytes) :
    (d.next ended bs).decoder.limit = d.limit := by
  have hframe : ∀ t payload, (d.takeFrame t payload bs).decoder.limit = d.limit := by
    intro t payload
    unfold takeFrame
    split <;> rfl
  have hmore : (d.decode bs).decoder.limit = d.limit := by
    unfold decode
    split
    · exact hframe _ _
    · split
      · rfl
      · rfl
      · exact hframe _ _
  cases ended with
  | false => exact hmore
  | true =>
    change (d.decodeEof bs).decoder.limit = d.limit
    unfold decodeEof
    split
    · rename_i d' rest hd
      rw [hd] at hmore
      split
      · split <;> exact hmore
      · exact hmore
    · exact hmore

/-- A look at a buffer that finds nothing when nothing will follow finds nothing before. -/
theorem decode_of_next_none (h : d.next ended bs = ⟨.ok none, d', rest⟩) :
    d.decode bs = ⟨.ok none, d', rest⟩ := by
  cases ended with
  | false => exact h
  | true =>
    change d.decodeEof bs = _ at h
    unfold decodeEof at h
    split at h
    · rename_i d'' rest'' hd
      split at h
      · split at h
        · cases h
        · cases h
          exact hd
        · cases h
      · cases h
        exact hd
    · exact h

end Decoder

namespace Settled

open Decoder

variable {d : Decoder} {buffer : Bytes}

/-- What holds of a decoder in use, through every look at its buffer. -/
theorem drain_of_measured {bs : Bytes} (hl : d.limit = limit)
    (hm : Intake.Measured limit ⟨d, bs⟩) (ended : Bool) (h : (d.drain ended bs).error = none) :
    Settled limit (d.drain ended bs).decoder (d.drain ended bs).rest := by
  induction hn : bs.length using Nat.strongRecOn generalizing d bs with
  | ind n ih =>
    subst hn
    have hmeasured : Intake.Measured limit (Intake.left (d.next ended bs)) := by
      cases ended with
      | false => exact hm.call (c := .decode) trivial
      | true => exact hm.call (c := .decodeEof) trivial
    have hlimit := limit_next d ended bs
    rcases hd : d.next ended bs with ⟨e | _ | m, d', rest⟩
    · rw [drain_of_error hd] at h
      cases h
    · obtain ⟨rfl, hw⟩ := decode_waiting (decode_of_next_none hd) []
      rw [List.append_nil] at hw
      rw [hd] at hmeasured hlimit
      rw [drain_of_none hd]
      exact ⟨hlimit.trans hl, hw.trans (decode_of_next_none hd), hmeasured⟩
    · rw [hd] at hmeasured hlimit
      rw [drain_of_message hd] at h ⊢
      exact ih rest.length (length_rest_lt hd) (hlimit.trans hl) hmeasured h rfl

theorem measured_append (h : Settled limit d buffer) (data : Bytes) :
    Intake.Measured limit ⟨d, buffer ++ data⟩ := h.measured.call (c := .append data) trivial

/-- **A decoder and its buffer are left as they were found,** once what arrives has been read out
without an error. -/
theorem drain (h : Settled limit d buffer) (ended : Bool) (data : Bytes)
    (he : (d.drain ended (buffer ++ data)).error = none) :
    Settled limit (d.drain ended (buffer ++ data)).decoder (d.drain ended (buffer ++ data)).rest :=
  drain_of_measured h.limit_eq (h.measured_append data) ended he

/-- What a decoder in use makes of more bytes is what a new one makes of them all. -/
theorem drain_eq_new (h : Settled limit d buffer) (data : Bytes) :
    d.drain false (buffer ++ data) = (new limit).drain false (buffer ++ data) := by
  refine drain_congr ?_
  have hm := h.measured_append data
  have hl := h.limit_eq
  change d.decode (buffer ++ data) = (new limit).decode (buffer ++ data)
  obtain ⟨limit', awaiting⟩ := d
  obtain rfl : limit' = limit := hl
  cases awaiting with
  | header => rfl
  | frame t payload =>
    have hold : decode ⟨limit', .frame t payload⟩ (buffer ++ data) =
        takeFrame ⟨limit', .frame t payload⟩ t payload (buffer ++ data) := rfl
    have hnew : (new limit').decode (buffer ++ data) =
        (new limit').takeFrame t payload (buffer ++ data) := by
      unfold decode
      simp only [new, hm.remembered t payload rfl]
    rw [hold, hnew]
    unfold takeFrame
    split <;> rfl

/-- **Less is in the buffer than the longest frame takes.** -/
theorem length_lt (h : Settled limit d buffer) (h0 : limit ≠ 0) :
    buffer.length < longestFrame limit := by
  refine (h.measured.bounded h0 false).waiting ?_
  change (d.decode buffer).result = _
  rw [h.idle]

end Settled

end MessageBroker.Wire
