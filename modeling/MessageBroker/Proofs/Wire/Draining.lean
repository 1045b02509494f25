import MessageBroker.Wire.Decoder

/-!
# Buffers that grow

What a decoder makes of a buffer is settled by the bytes it has looked at: bytes that arrive behind
them change neither a message nor a refusal, and a decoder that waits for more goes on as if they
had been there from the start.

Headlines:
* **`Decoder.decode_append`**: a message or a refusal stands, whatever arrives behind it.
* **`Decoder.decode_waiting`**: what a waiting decoder remembers makes no difference.
* **`Decoder.drain_append`**: a buffer may be read out in two steps.
-/

namespace MessageBroker.Wire

/-! ## The length of the frame in front -/

theorem blockLength?_append {bs : Bytes} {n : Nat} (h : blockLength? bs = some n) (more : Bytes) :
    blockLength? (bs ++ more) = some n := by
  obtain ⟨hbs, hn⟩ := encodeLength_of_blockLength? h
  rw [hbs, List.append_assoc]
  exact blockLength?_encode hn _

/-- A settled length of blocks does not depend on what follows. -/
theorem blocksLength_append {limit : Nat} : ∀ {k : Nat} {bs : Bytes} (more : Bytes),
    blocksLength limit k bs ≠ .ok none →
      blocksLength limit k (bs ++ more) = blocksLength limit k bs
  | 0, _, _, _ => rfl
  | k + 1, bs, more, h => by
    unfold blocksLength at h ⊢
    cases hn : blockLength? bs with
    | none => simp [hn] at h
    | some n =>
      rw [blockLength?_append hn]
      simp only [hn] at h ⊢
      by_cases hx : exceeds limit n = true
      · rw [if_pos hx, if_pos hx]
      · rw [if_neg hx] at h ⊢
        rw [if_neg hx]
        have hk : blocksLength limit k (bs.drop (4 + n)) ≠ .ok none := by
          intro he
          rw [he] at h
          exact h rfl
        rw [List.drop_append, blocksLength_append _ hk]

theorem isPrefixOf_append {p bs : Bytes} (h : p.length ≤ bs.length) (more : Bytes) :
    p.isPrefixOf (bs ++ more) = p.isPrefixOf bs := by
  rw [Bool.eq_iff_iff, List.isPrefixOf_iff_prefix, List.isPrefixOf_iff_prefix]
  exact ⟨fun hp => List.prefix_of_prefix_length_le hp (List.prefix_append _ _) h,
    fun hp => hp.trans (List.prefix_append _ _)⟩

theorem length_of_blocksLength {limit k : Nat} {bs : Bytes}
    (h : blocksLength limit (k + 1) bs ≠ .ok none) : 4 ≤ bs.length := by
  by_cases hlt : bs.length < 4
  · rw [blocksLength, blockLength?_eq_none_iff.mpr hlt] at h
    exact absurd rfl h
  · omega

theorem payloadLength_append {limit : Nat} {layout : Layout} {bs : Bytes} (more : Bytes)
    (h : payloadLength limit layout bs ≠ .ok none) :
    payloadLength limit layout (bs ++ more) = payloadLength limit layout bs := by
  cases layout with
  | empty => rfl
  | optionalHeaders =>
    unfold payloadLength at h ⊢
    have hlen : marker.length ≤ bs.length := by
      simp only at h
      split at h
      · rename_i hp
        exact (List.isPrefixOf_iff_prefix.mp hp).length_le
      · exact length_of_blocksLength h
    simp only [isPrefixOf_append hlen]
    split
    · rfl
    · rename_i hp
      simp only [hp] at h
      exact blocksLength_append more h
  | headers => exact blocksLength_append more h
  | headersAndBody => exact blocksLength_append more h

/-- The length of a frame whose type byte is there. -/
theorem frameLength_cons {limit : Nat} {front : Bytes} (hf : front.length = 4) (byte : UInt8)
    (payload : Bytes) :
    frameLength limit (front ++ byte :: payload) =
      if front = marker then
        match MessageType.ofByte? byte with
        | none => .error (.unknownType byte)
        | some t => (payloadLength limit t.layout payload).map (Option.map (t, ·))
      else .error .invalidMarker := by
  unfold frameLength
  have hp : front.isPrefixOf marker = true ↔ front = marker := by
    rw [List.isPrefixOf_iff_prefix]
    exact ⟨fun h => h.eq_of_length hf, fun h => h ▸ List.prefix_rfl⟩
  rw [List.take_left' hf, List.drop_left' hf]
  by_cases h : front = marker
  · rw [if_pos h]
    exact if_pos (hp.mpr h)
  · rw [if_neg h, if_neg fun h' => h (hp.mp h')]

/-- Four bytes and the type byte in front, if there are as many. -/
theorem exists_front {bs : Bytes} (h : headerLength ≤ bs.length) :
    ∃ front byte payload, front.length = 4 ∧ bs = front ++ byte :: payload := by
  unfold headerLength at h
  obtain ⟨byte, payload, hd⟩ : ∃ byte payload, bs.drop 4 = byte :: payload := by
    cases hd : bs.drop 4 with
    | nil =>
      have := congrArg List.length hd
      rw [List.length_drop, List.length_nil] at this
      omega
    | cons byte payload => exact ⟨byte, payload, rfl⟩
  refine ⟨bs.take 4, byte, payload, by rw [List.length_take]; omega, ?_⟩
  rw [← hd, List.take_append_drop]

/-- Before the type byte only a wrong marker is settled. -/
theorem frameLength_of_length_lt {limit : Nat} {bs : Bytes} (h : bs.length < headerLength) :
    frameLength limit bs =
      if (bs.take 4).isPrefixOf marker then .ok none else .error .invalidMarker := by
  unfold frameLength
  have hd : bs.drop 4 = [] := by
    rw [List.drop_eq_nil_iff]
    unfold headerLength at h
    omega
  rw [hd]

/-- A marker that is wrong stays wrong. -/
theorem frameLength_append_of_wrong {limit : Nat} {bs : Bytes} (more : Bytes)
    (h : ¬ (bs.take 4).isPrefixOf marker = true) :
    frameLength limit (bs ++ more) = .error .invalidMarker := by
  unfold frameLength
  rw [if_neg]
  intro hp
  rw [List.isPrefixOf_iff_prefix] at h hp
  rw [List.take_append] at hp
  exact h ((List.prefix_append _ _).trans hp)

theorem frameLength_append {limit : Nat} {bs : Bytes} (more : Bytes)
    (h : frameLength limit bs ≠ .ok none) :
    frameLength limit (bs ++ more) = frameLength limit bs := by
  by_cases hlen : headerLength ≤ bs.length
  · obtain ⟨front, byte, payload, hf, rfl⟩ := exists_front hlen
    rw [List.append_assoc, List.cons_append]
    rw [frameLength_cons hf] at h
    rw [frameLength_cons hf, frameLength_cons hf]
    split
    · rename_i hm
      rw [if_pos hm] at h
      split
      · rfl
      · rename_i t ht
        rw [ht] at h
        rw [payloadLength_append]
        intro he
        simp only [he] at h
        exact h rfl
    · rfl
  · have hlt : bs.length < headerLength := by omega
    rw [frameLength_of_length_lt hlt] at h ⊢
    split
    · rename_i hp
      rw [if_pos hp] at h
      exact absurd rfl h
    · rename_i hp
      exact frameLength_append_of_wrong more hp

/-! ## One look at a buffer -/

namespace Decoder

theorem takeFrame_append {d d' : Decoder} {t : MessageType} {payload : Nat} {bs rest : Bytes}
    {r : Except DecodeError (Option Message)} (h : d.takeFrame t payload bs = ⟨r, d', rest⟩)
    (hr : r ≠ .ok none) (more : Bytes) :
    d.takeFrame t payload (bs ++ more) = ⟨r, d', rest ++ more⟩ := by
  unfold takeFrame at h ⊢
  cases hc : cut? (headerLength + payload) bs with
  | none =>
    rw [hc] at h
    cases h
    exact absurd rfl hr
  | some p =>
    obtain ⟨frame, rest'⟩ := p
    obtain ⟨rfl, hlen⟩ := cut?_eq_some_iff.mp hc
    have hc' : cut? (headerLength + payload) (frame ++ rest' ++ more) =
        some (frame, rest' ++ more) :=
      cut?_eq_some_iff.mpr ⟨List.append_assoc .., hlen⟩
    rw [hc] at h
    cases h
    rw [hc']

/-- **A message or a refusal stands, whatever arrives behind it.** -/
theorem decode_append {d d' : Decoder} {bs rest : Bytes} {r : Except DecodeError (Option Message)}
    (h : d.decode bs = ⟨r, d', rest⟩) (hr : r ≠ .ok none) (more : Bytes) :
    d.decode (bs ++ more) = ⟨r, d', rest ++ more⟩ := by
  unfold decode at h ⊢
  split at h
  · exact takeFrame_append h hr more
  · have hf : frameLength d.limit bs ≠ .ok none := by
      intro he
      rw [he] at h
      cases h
      exact hr rfl
    rw [frameLength_append more hf]
    split at h
    · cases h
      rfl
    · cases h
      exact absurd rfl hr
    · exact takeFrame_append h hr more

theorem takeFrame_of_none {d : Decoder} {t : MessageType} {payload : Nat} {bs : Bytes}
    (h : (d.takeFrame t payload bs).result = .ok none) :
    d.takeFrame t payload bs = ⟨.ok none, { d with awaiting := .frame t payload }, bs⟩ := by
  unfold takeFrame at h ⊢
  split at h
  · rfl
  · rename_i frame rest hc
    cases hr : readPayload t (frame.drop headerLength) <;> simp [hr, Except.map] at h

/-- **What a waiting decoder remembers makes no difference.** It has taken nothing, and goes on as
it would have begun. -/
theorem decode_waiting {d d' : Decoder} {bs rest : Bytes} (h : d.decode bs = ⟨.ok none, d', rest⟩)
    (more : Bytes) : rest = bs ∧ d'.decode (bs ++ more) = d.decode (bs ++ more) := by
  have hrest : rest = bs := by
    have := @decode_rest_of_none d bs (by rw [h])
    rwa [h] at this
  refine ⟨hrest, ?_⟩
  obtain ⟨limit, awaiting⟩ := d
  cases awaiting with
  | frame t payload =>
    have ht : takeFrame ⟨limit, .frame t payload⟩ t payload bs = ⟨.ok none, d', rest⟩ := h
    have hd := takeFrame_of_none (by rw [ht])
    rw [ht] at hd
    cases hd
    rfl
  | header =>
    cases hf : frameLength limit bs with
    | error e => simp [decode, hf] at h
    | ok r =>
      cases r with
      | none =>
        simp only [decode, hf, Decoded.mk.injEq] at h
        rw [h.2.1]
      | some p =>
        obtain ⟨t, payload⟩ := p
        have hlook : ∀ bs', frameLength limit bs' = .ok (some (t, payload)) →
            decode ⟨limit, .header⟩ bs' = takeFrame ⟨limit, .header⟩ t payload bs' := by
          intro bs' hf'
          simp [decode, hf']
        have hf' : frameLength limit (bs ++ more) = .ok (some (t, payload)) := by
          rw [frameLength_append more (by rw [hf]; simp), hf]
        rw [hlook bs hf] at h
        have hd := takeFrame_of_none (by rw [h])
        rw [h] at hd
        cases hd
        rw [hlook _ hf']
        rfl

theorem length_rest_lt {d d' : Decoder} {ended : Bool} {bs rest : Bytes} {m : Message}
    (h : d.next ended bs = ⟨.ok (some m), d', rest⟩) : rest.length < bs.length := by
  have := @length_rest_of_message d ended bs m (by rw [h])
  rw [h] at this
  unfold headerLength at this
  simp only at this
  omega

/-! ## Reading a buffer out -/

/-- What is drained, with messages in front. -/
def Drained.after (x : Drained) (ms : List Message) : Drained :=
  { x with messages := ms ++ x.messages }

theorem Drained.after_after (x : Drained) (ms ms' : List Message) :
    (x.after ms).after ms' = x.after (ms' ++ ms) := by
  unfold after
  simp only [List.append_assoc]

/-- What is drained, by the first look at the buffer. -/
theorem drain_eq (d : Decoder) (ended : Bool) (bs : Bytes) :
    d.drain ended bs =
      match d.next ended bs with
      | ⟨.error e, d', rest⟩ => ⟨[], some e, d', rest⟩
      | ⟨.ok none, d', rest⟩ => ⟨[], none, d', rest⟩
      | ⟨.ok (some m), d', rest⟩ => (d'.drain ended rest).after [m] := by
  rw [drain]
  split
  · rename_i h
    simp only [h]
  · rename_i h
    simp only [h]
  · rename_i h
    simp only [h]
    rfl

theorem drain_of_message {d d' : Decoder} {ended : Bool} {bs rest : Bytes} {m : Message}
    (h : d.next ended bs = ⟨.ok (some m), d', rest⟩) :
    d.drain ended bs = (d'.drain ended rest).after [m] := by
  rw [drain_eq, h]

theorem drain_of_none {d d' : Decoder} {ended : Bool} {bs rest : Bytes}
    (h : d.next ended bs = ⟨.ok none, d', rest⟩) : d.drain ended bs = ⟨[], none, d', rest⟩ := by
  rw [drain_eq, h]

theorem drain_of_error {d d' : Decoder} {ended : Bool} {bs rest : Bytes} {e : DecodeError}
    (h : d.next ended bs = ⟨.error e, d', rest⟩) : d.drain ended bs = ⟨[], some e, d', rest⟩ := by
  rw [drain_eq, h]

/-- A drain depends on its first look only. -/
theorem drain_congr {d d' : Decoder} {ended : Bool} {bs bs' : Bytes}
    (h : d.next ended bs = d'.next ended bs') : d.drain ended bs = d'.drain ended bs' := by
  rw [drain_eq, drain_eq, h]

/-- **A refusal ends the reading, whatever arrives behind it.** -/
theorem drain_append_of_error {d : Decoder} {bs : Bytes} {e : DecodeError}
    (h : (d.drain false bs).error = some e) (more : Bytes) :
    d.drain false (bs ++ more) =
      { d.drain false bs with rest := (d.drain false bs).rest ++ more } := by
  induction hn : bs.length using Nat.strongRecOn generalizing d bs with
  | ind n ih =>
    subst hn
    rcases hd : d.next false bs with ⟨e' | _ | m, d', rest⟩
    · have ha : d.next false (bs ++ more) = ⟨.error e', d', rest ++ more⟩ :=
        decode_append hd (by simp) more
      rw [drain_of_error hd, drain_of_error ha]
    · rw [drain_of_none hd] at h
      cases h
    · have ha : d.next false (bs ++ more) = ⟨.ok (some m), d', rest ++ more⟩ :=
        decode_append hd (by simp) more
      have hlt : rest.length < bs.length := length_rest_lt hd
      rw [drain_of_message hd] at h ⊢
      rw [drain_of_message ha, ih rest.length hlt h rfl]
      rfl

/-- **A buffer may be read out in two steps.** -/
theorem drain_append {d : Decoder} {bs : Bytes} (h : (d.drain false bs).error = none)
    (more : Bytes) :
    d.drain false (bs ++ more) =
      ((d.drain false bs).decoder.drain false ((d.drain false bs).rest ++ more)).after
        (d.drain false bs).messages := by
  induction hn : bs.length using Nat.strongRecOn generalizing d bs with
  | ind n ih =>
    subst hn
    rcases hd : d.next false bs with ⟨e' | _ | m, d', rest⟩
    · rw [drain_of_error hd] at h
      cases h
    · obtain ⟨rfl, hw⟩ := decode_waiting hd more
      rw [drain_of_none hd]
      exact drain_congr hw.symm
    · have ha : d.next false (bs ++ more) = ⟨.ok (some m), d', rest ++ more⟩ :=
        decode_append hd (by simp) more
      have hlt : rest.length < bs.length := length_rest_lt hd
      rw [drain_of_message hd] at h ⊢
      rw [drain_of_message ha, ih rest.length hlt h rfl, Drained.after_after]
      rfl

/-- A decoder that has looked at all there is, and waits for more. -/
def Idle (d : Decoder) (bs : Bytes) : Prop := d.decode bs = ⟨.ok none, d, bs⟩

/-- A buffer that was read out without an error leaves the decoder idle. -/
theorem idle_drain {d : Decoder} {bs : Bytes} (h : (d.drain false bs).error = none) :
    (d.drain false bs).decoder.Idle (d.drain false bs).rest := by
  induction hn : bs.length using Nat.strongRecOn generalizing d bs with
  | ind n ih =>
    subst hn
    rcases hd : d.next false bs with ⟨e' | _ | m, d', rest⟩
    · rw [drain_of_error hd] at h
      cases h
    · obtain ⟨rfl, hw⟩ := decode_waiting hd []
      rw [List.append_nil] at hw
      rw [drain_of_none hd]
      exact hw.trans hd
    · rw [drain_of_message hd] at h ⊢
      exact ih rest.length (length_rest_lt hd) h rfl

theorem drain_of_idle {d : Decoder} {bs : Bytes} (h : d.Idle bs) :
    d.drain false bs = ⟨[], none, d, bs⟩ := by
  have hd : d.next false bs = ⟨.ok none, d, bs⟩ := h
  exact drain_of_none hd

/-! ## Reading a whole input -/

/-- What becomes of a whole input: it is read out, and once more when nothing will follow it. -/
def readOut (d : Decoder) (ended : Bool) (bs : Bytes) : Drained :=
  let x := d.drain false bs
  match x.error with
  | some _ => x
  | none => if ended then (x.decoder.drain true x.rest).after x.messages else x

theorem readOut_of_message {d d' : Decoder} {ended : Bool} {bs rest : Bytes} {m : Message}
    (h : d.next false bs = ⟨.ok (some m), d', rest⟩) :
    d.readOut ended bs = (d'.readOut ended rest).after [m] := by
  unfold readOut
  rw [drain_of_message h]
  cases he : (d'.drain false rest).error with
  | some e => simp only [Drained.after, he]
  | none => cases ended <;> simp [Drained.after, he]

theorem readOut_of_none {d d' : Decoder} {bs rest : Bytes}
    (h : d.next false bs = ⟨.ok none, d', rest⟩) : d.readOut true bs = d'.drain true rest := by
  unfold readOut
  rw [drain_of_none h]
  rfl

theorem readOut_of_idle {d : Decoder} {bs : Bytes} (h : d.Idle bs) (ended : Bool) :
    d.readOut ended bs = if ended then d.drain true bs else ⟨[], none, d, bs⟩ := by
  unfold readOut
  rw [drain_of_idle h]
  rfl

theorem readOut_append {d : Decoder} {bs : Bytes} (h : (d.drain false bs).error = none)
    (ended : Bool) (more : Bytes) :
    d.readOut ended (bs ++ more) =
      ((d.drain false bs).decoder.readOut ended ((d.drain false bs).rest ++ more)).after
        (d.drain false bs).messages := by
  unfold readOut
  rw [drain_append h]
  cases he : ((d.drain false bs).decoder.drain false ((d.drain false bs).rest ++ more)).error with
  | some e => simp only [Drained.after, he]
  | none => cases ended <;> simp [Drained.after, he]

theorem readOut_append_of_error {d : Decoder} {bs : Bytes} {e : DecodeError}
    (h : (d.drain false bs).error = some e) (ended : Bool) (more : Bytes) :
    d.readOut ended (bs ++ more) =
      { d.drain false bs with rest := (d.drain false bs).rest ++ more } := by
  unfold readOut
  rw [drain_append_of_error h]
  simp only [h]

end Decoder

end MessageBroker.Wire
