import MessageBroker.Wire.Reader
import MessageBroker.Proofs.Wire.Draining

/-!
# Reading from a blocking input

What reads from a blocking input make of its bytes, held against what looks at a buffer with the
same bytes make of them. A read finds what the first look finds. It takes the frame and no more,
but for one kind: that a frame is bare shows only in the marker behind it, so that marker is taken
as well, and is lost. What is left then starts with a type byte, and no frame starts so.

Headlines:
* **`Decoder.result_readMessage`**: a read finds what a look at the whole input finds.
* **`Decoder.readMessage_of_message`**: what is left is what the look leaves, less the next frame's
  marker if the frame is bare.
* **`Decoder.reads_of_frames`**: reading frames in a row gives their messages up to the first bare
  frame, and then fails.
-/

namespace MessageBroker.Wire

/-! ## Lengths that are not known yet -/

/-- What is known of the length of one more block. -/
theorem blocksLength_succ_eq_ok {limit k : Nat} {bs : Bytes} {r : Option Nat}
    (h : blocksLength limit (k + 1) bs = .ok r) :
    (blockLength? bs = none ∧ r = none) ∨
      ∃ n r', blockLength? bs = some n ∧ blocksLength limit k (bs.drop (4 + n)) = .ok r' ∧
        r = r'.map (4 + n + ·) := by
  unfold blocksLength at h
  cases hn : blockLength? bs with
  | none =>
    simp only [hn, Except.ok.injEq] at h
    exact .inl ⟨rfl, h.symm⟩
  | some n =>
    simp only [hn] at h
    split at h
    · cases h
    · cases hk : blocksLength limit k (bs.drop (4 + n)) with
      | error e =>
        rw [hk] at h
        cases h
      | ok r' =>
        rw [hk] at h
        exact .inr ⟨n, r', rfl, hk, (Except.ok.inj h).symm⟩

/-- Each block takes four bytes at least. -/
theorem le_of_blocksLength {limit k n : Nat} {bs : Bytes}
    (h : blocksLength limit (k + 1) bs = .ok (some n)) : 4 ≤ n := by
  obtain ⟨-, hr⟩ | ⟨n₀, r, -, -, hr⟩ := blocksLength_succ_eq_ok h
  · cases hr
  · cases r with
    | none => cases hr
    | some n' =>
      simp only [Option.map_some, Option.some.injEq] at hr
      omega

/-- Blocks whose length is not known yet are longer than what is there. -/
theorem length_lt_of_blocksLength {limit : Nat} {k n : Nat} {bs more : Bytes}
    (hw : blocksLength limit k bs = .ok none)
    (h : blocksLength limit k (bs ++ more) = .ok (some n)) : bs.length < n := by
  induction k generalizing n bs more with
  | zero => cases hw
  | succ k ih =>
    obtain ⟨hb, -⟩ | ⟨n₀, r, hb, hk, hr⟩ := blocksLength_succ_eq_ok hw
    · have := blockLength?_eq_none_iff.mp hb
      have := le_of_blocksLength h
      omega
    · cases r with
      | some n' => cases hr
      | none =>
        obtain ⟨hb', -⟩ | ⟨n₁, r', hb', hk', hr'⟩ := blocksLength_succ_eq_ok h
        · rw [blockLength?_append hb] at hb'
          cases hb'
        · obtain rfl : n₀ = n₁ := Option.some.inj ((blockLength?_append hb more).symm.trans hb')
          cases r' with
          | none => cases hr'
          | some n' =>
            simp only [Option.map_some, Option.some.injEq] at hr'
            rw [List.drop_append] at hk'
            have := ih hk hk'
            rw [List.length_drop] at this
            omega

/-- How many bytes behind a frame have to be seen before it is known that the frame ends there. -/
def lookahead (layout : Layout) (payload : Nat) : Nat :=
  if layout = .optionalHeaders ∧ payload = 0 then marker.length else 0

theorem length_lt_of_payloadLength {limit : Nat} {layout : Layout} {n : Nat} {bs more : Bytes}
    (hw : payloadLength limit layout bs = .ok none)
    (h : payloadLength limit layout (bs ++ more) = .ok (some n)) :
    bs.length < n + lookahead layout n := by
  cases layout with
  | empty => cases hw
  | headers => exact Nat.lt_add_right _ (length_lt_of_blocksLength hw h)
  | headersAndBody => exact Nat.lt_add_right _ (length_lt_of_blocksLength hw h)
  | optionalHeaders =>
    unfold payloadLength at hw h
    simp only at hw h
    split at hw
    · cases hw
    split at h
    · cases h
      -- A marker may still follow: then not even a length prefix is there.
      obtain ⟨hb, -⟩ | ⟨n₀, r, -, hk, hr⟩ := blocksLength_succ_eq_ok hw
      · have : bs.length < 4 := blockLength?_eq_none_iff.mp hb
        simpa [lookahead, marker] using this
      · cases hk
        cases hr
    · exact Nat.lt_add_right _ (length_lt_of_blocksLength hw h)

/-- Only a marker tells that optional headers are left out. -/
theorem marker_prefix_of_payloadLength {limit : Nat} {bs : Bytes}
    (h : payloadLength limit .optionalHeaders bs = .ok (some 0)) : marker <+: bs := by
  unfold payloadLength at h
  simp only at h
  split at h
  · rename_i hp
    exact List.isPrefixOf_iff_prefix.mp hp
  · have := le_of_blocksLength h
    omega

/-- What a length that is known tells of the buffer's front. -/
theorem frameLength_eq_some {limit : Nat} {bs : Bytes} {t : MessageType} {n : Nat}
    (h : frameLength limit bs = .ok (some (t, n))) :
    ∃ payload, bs = marker ++ t.toByte :: payload ∧
      payloadLength limit t.layout payload = .ok (some n) := by
  by_cases hlen : headerLength ≤ bs.length
  · obtain ⟨front, byte, payload, hf, rfl⟩ := exists_front hlen
    rw [frameLength_cons hf] at h
    split at h
    · rename_i hm
      subst hm
      split at h
      · cases h
      · rename_i t' ht
        cases hp : payloadLength limit t'.layout payload with
        | error e =>
          rw [hp] at h
          cases h
        | ok r =>
          rw [hp] at h
          cases r with
          | none => cases h
          | some n' =>
            cases h
            exact ⟨payload, by rw [MessageType.ofByte?_eq_some_iff.mp ht], hp⟩
    · cases h
  · rw [frameLength_of_length_lt (by omega)] at h
    split at h <;> cases h

theorem length_lt_of_frameLength {limit : Nat} {t : MessageType} {n : Nat} {bs more : Bytes}
    (hw : frameLength limit bs = .ok none)
    (h : frameLength limit (bs ++ more) = .ok (some (t, n))) :
    bs.length < headerLength + n + lookahead t.layout n := by
  by_cases hlen : headerLength ≤ bs.length
  · obtain ⟨front, byte, payload, hf, rfl⟩ := exists_front hlen
    obtain ⟨payload', he, hp'⟩ := frameLength_eq_some h
    rw [List.append_assoc, List.cons_append] at he
    obtain ⟨hm, he⟩ := List.append_inj he hf
    obtain ⟨rfl, rfl⟩ := List.cons.inj he
    rw [frameLength_cons hf, if_pos hm, MessageType.ofByte?_toByte] at hw
    have hp : payloadLength limit t.layout payload = .ok none := by
      cases hp : payloadLength limit t.layout payload with
      | error e =>
        simp only [hp] at hw
        cases hw
      | ok r =>
        cases r with
        | none => rfl
        | some n' =>
          simp only [hp] at hw
          cases hw
    have := length_lt_of_payloadLength hp hp'
    simp only [List.length_append, List.length_cons, hf, headerLength]
    omega
  · omega

namespace Decoder

/-! ## What a look finds -/

/-- A message that a fresh decoder finds is that of the frame it takes off. -/
theorem decode_new_eq_message {limit : Nat} {bs rest : Bytes} {m : Message} {d : Decoder}
    (h : (new limit).decode bs = ⟨.ok (some m), d, rest⟩) :
    d = new limit ∧ ∃ frame n, bs = frame ++ rest ∧ frame.length = headerLength + n ∧
      frameLength limit bs = .ok (some (m.type, n)) := by
  unfold decode at h
  simp only [new] at h
  split at h
  · cases h
  · cases h
  · rename_i t n hf
    unfold takeFrame at h
    split at h
    · cases h
    · rename_i frame rest' hc
      obtain ⟨hbs, hlen⟩ := cut?_eq_some_iff.mp hc
      cases hr : readPayload t (frame.drop headerLength) with
      | error e =>
        rw [hr] at h
        cases h
      | ok m' =>
        rw [hr] at h
        cases h
        rw [type_of_readPayload hr]
        exact ⟨rfl, frame, n, hbs, hlen, hf⟩

/-- A fresh decoder that waits knows nothing of the frame, or how much of it is missing. -/
theorem decode_new_eq_none {limit : Nat} {bs rest : Bytes} {d : Decoder}
    (h : (new limit).decode bs = ⟨.ok none, d, rest⟩) :
    (frameLength limit bs = .ok none ∧ d = new limit) ∨
      ∃ t n, frameLength limit bs = .ok (some (t, n)) ∧ bs.length < headerLength + n ∧
        d = ⟨limit, .frame t n⟩ := by
  unfold decode at h
  simp only [new] at h
  split at h
  · cases h
  · rename_i hf
    cases h
    exact .inl ⟨hf, rfl⟩
  · rename_i t n hf
    have hd := takeFrame_of_none (by rw [h])
    rw [h] at hd
    cases hd
    refine .inr ⟨t, n, hf, ?_, rfl⟩
    unfold takeFrame at h
    split at h
    · rename_i hc
      exact cut?_eq_none_iff.mp hc
    · cases hr : readPayload t _ with
      | error e =>
        rw [hr] at h
        cases h
      | ok m =>
        rw [hr] at h
        cases h

/-- A message together with the bytes that were taken off a buffer for it. -/
structure Taken where
  message : Message
  frame : Bytes

/-- Whether the frame leaves out the header block that its type could have. -/
def Taken.bare (x : Taken) : Bool :=
  decide (x.message.type.layout = .optionalHeaders ∧ x.frame.length = headerLength)

/-- How many bytes behind the frame a read takes with it. -/
def Taken.excess (x : Taken) : Nat := if x.bare then marker.length else 0

/-- A look at the buffer finds a message, and this is what it takes. -/
structure Finds (limit : Nat) (bs : Bytes) (x : Taken) (rest : Bytes) : Prop where
  decode : (new limit).decode bs = ⟨.ok (some x.message), new limit, rest⟩
  cut : bs = x.frame ++ rest

theorem finds_of_decode {limit : Nat} {bs rest : Bytes} {m : Message} {d : Decoder}
    (h : (new limit).decode bs = ⟨.ok (some m), d, rest⟩) :
    d = new limit ∧ Finds limit bs ⟨m, bs.take (bs.length - rest.length)⟩ rest := by
  obtain ⟨rfl, frame, n, rfl, -⟩ := decode_new_eq_message h
  refine ⟨rfl, h, ?_⟩
  rw [List.length_append, Nat.add_sub_cancel, List.take_left]

namespace Finds

variable {limit : Nat} {bs rest : Bytes} {x : Taken}

theorem frameLength_eq (h : Finds limit bs x rest) : ∃ n,
    x.frame.length = headerLength + n ∧ frameLength limit bs = .ok (some (x.message.type, n)) ∧
      lookahead x.message.type.layout n = x.excess := by
  obtain ⟨-, frame, n, hbs, hlen, hf⟩ := decode_new_eq_message h.decode
  obtain rfl : frame = x.frame := List.append_cancel_right (hbs.symm.trans h.cut)
  refine ⟨n, hlen, hf, ?_⟩
  have : x.frame.length = headerLength ↔ n = 0 := by omega
  simp only [lookahead, Taken.excess, Taken.bare, decide_eq_true_eq, this]

/-- Behind a bare frame stands the marker of the next one. -/
theorem marker_prefix (h : Finds limit bs x rest) (hb : x.bare = true) : marker <+: rest := by
  obtain ⟨n, hlen, hf, -⟩ := h.frameLength_eq
  simp only [Taken.bare, decide_eq_true_eq] at hb
  obtain ⟨hl, hfl⟩ := hb
  obtain rfl : n = 0 := by omega
  obtain ⟨payload, hbs, hp⟩ := frameLength_eq_some hf
  rw [h.cut, List.append_cons] at hbs
  obtain ⟨-, rfl⟩ := List.append_inj hbs hfl
  rw [hl] at hp
  exact marker_prefix_of_payloadLength hp

theorem excess_le (h : Finds limit bs x rest) : x.excess ≤ rest.length := by
  unfold Taken.excess
  split
  · rename_i hb
    exact (h.marker_prefix hb).length_le
  · exact Nat.zero_le _

/-- A look at less than a read takes finds nothing, and what is then asked for is no more than
what the read takes. -/
theorem wanting_le (h : Finds limit bs x rest) {front more : Bytes} (hbs : front ++ more = bs)
    {d : Decoder} {rest' : Bytes} (hw : (new limit).decode front = ⟨.ok none, d, rest'⟩) :
    front.length + d.wanting front ≤ x.frame.length + x.excess := by
  subst hbs
  obtain ⟨n, hlen, hf, hx⟩ := h.frameLength_eq
  obtain ⟨hfront, rfl⟩ | ⟨t, n', hfront, hlt, rfl⟩ := decode_new_eq_none hw
  · have := length_lt_of_frameLength hfront hf
    simp only [wanting, new]
    omega
  · rw [frameLength_append more (by rw [hfront]; simp), hfront] at hf
    cases hf
    simp only [wanting]
    omega

/-- A look at what finds the message has seen as much as a read takes. -/
theorem le_of_decode (h : Finds limit bs x rest) {front more : Bytes} (hbs : front ++ more = bs)
    {d : Decoder} {m : Message} {rest' : Bytes}
    (hd : (new limit).decode front = ⟨.ok (some m), d, rest'⟩) :
    m = x.message ∧ x.frame.length + x.excess ≤ front.length := by
  subst hbs
  obtain ⟨rfl, hx⟩ := finds_of_decode hd
  have ha := decode_append hd (by simp) more
  rw [h.decode] at ha
  obtain ⟨hm, -, rfl⟩ := Decoded.mk.inj ha
  obtain rfl : x.message = m := Option.some.inj (Except.ok.inj hm)
  refine ⟨rfl, ?_⟩
  have hfront := congrArg List.length hx.cut
  have hall := congrArg List.length h.cut
  simp only [List.length_append] at hfront hall
  have hsame : x.frame.length = (front.take (front.length - rest'.length)).length := by omega
  have he : Taken.excess ⟨x.message, front.take (front.length - rest'.length)⟩ = x.excess := by
    unfold Taken.excess Taken.bare
    rw [hsame]
  have := hx.excess_le
  omega

end Finds

/-! ## One read -/

theorem readBehind_of_error {d d' : Decoder} {bs rest : Bytes} {e : DecodeError}
    (h : d.decode bs = ⟨.error e, d', rest⟩) (input : Bytes) :
    d.readBehind bs input = ⟨.error e, d', input⟩ := by
  rw [readBehind]
  split <;> simp_all

theorem readBehind_of_message {d d' : Decoder} {bs rest : Bytes} {m : Message}
    (h : d.decode bs = ⟨.ok (some m), d', rest⟩) (input : Bytes) :
    d.readBehind bs input = ⟨.ok m, d', input⟩ := by
  rw [readBehind]
  split <;> simp_all

/-- A read that goes on is one by a fresh decoder that has the bytes in front of it. -/
theorem readBehind_of_none {limit : Nat} {d : Decoder} {bs rest input : Bytes}
    (h : (new limit).decode bs = ⟨.ok none, d, rest⟩) :
    (new limit).readBehind bs input =
      match cut? (d.wanting bs) input with
      | none => ⟨.error .endOfInput, d, []⟩
      | some (front, input') => (new limit).readBehind (bs ++ front) input' := by
  obtain ⟨rfl, -⟩ := decode_waiting h []
  have hgo : ∀ front input', d.readBehind (rest ++ front) input' =
      (new limit).readBehind (rest ++ front) input' := by
    intro front input'
    rw [readBehind, readBehind, (decode_waiting h front).2]
  rw [readBehind, h]
  simp only
  split
  · rename_i hc
    rw [hc]
  · rename_i front input' hc
    rw [hc]
    exact hgo front input'

/-- What a read makes of what a look finds: an input that ends before the frame does is refused. -/
def readResult : Except DecodeError (Option Message) → Except DecodeError Message
  | .error e => .error e
  | .ok none => .error .endOfInput
  | .ok (some m) => .ok m

/-- An input that gives less than is asked for changes nothing for a decoder that waits. -/
theorem decode_append_of_short {limit : Nat} {d : Decoder} {bs rest input : Bytes}
    (h : (new limit).decode bs = ⟨.ok none, d, rest⟩) (hlt : input.length < d.wanting bs) :
    ((new limit).decode (bs ++ input)).result = .ok none := by
  obtain ⟨-, rfl⟩ | ⟨t, n, -, hlen, rfl⟩ := decode_new_eq_none h
  · have : input = [] := List.eq_nil_of_length_eq_zero (by simp only [wanting, new] at hlt; omega)
    rw [this, List.append_nil, h]
  · have hshort : cut? (headerLength + n) (bs ++ input) = none := by
      rw [cut?_eq_none_iff, List.length_append]
      simp only [wanting] at hlt
      omega
    rw [← (decode_waiting h input).2]
    simp only [decode, takeFrame, hshort]

/-- A read that has taken some bytes finds what a look at all of them and the rest finds. -/
theorem result_readBehind (limit : Nat) (bs input : Bytes) :
    ((new limit).readBehind bs input).result =
      readResult ((new limit).decode (bs ++ input)).result := by
  induction hn : input.length using Nat.strongRecOn generalizing bs input with
  | ind n ih =>
    subst hn
    rcases hd : (new limit).decode bs with ⟨e | _ | m, d, rest⟩
    · rw [readBehind_of_error hd, decode_append hd (by simp) input]
      rfl
    · rw [readBehind_of_none hd]
      cases hc : cut? (d.wanting bs) input with
      | none =>
        rw [decode_append_of_short hd (cut?_eq_none_iff.mp hc)]
        rfl
      | some p =>
        obtain ⟨front, input'⟩ := p
        obtain ⟨rfl, hlen⟩ := cut?_eq_some_iff.mp hc
        have hpos := d.wanting_pos bs
        have hlt : input'.length < (front ++ input').length := by
          rw [List.length_append]
          omega
        rw [← List.append_assoc]
        exact ih input'.length hlt (bs ++ front) input' rfl
    · rw [readBehind_of_message hd, decode_append hd (by simp) input]
      rfl

/-- **A read finds what a look at the whole input finds.** -/
theorem result_readMessage (limit : Nat) (input : Bytes) :
    ((new limit).readMessage input).result = readResult ((new limit).decode input).result :=
  result_readBehind limit [] input

/-- A read that has not taken too much yet takes the frame, and what it has to see behind it. -/
theorem Finds.readBehind_eq {limit : Nat} {all rest : Bytes} {x : Taken}
    (h : Finds limit all x rest) (bs input : Bytes) (hall : bs ++ input = all)
    (hle : bs.length ≤ x.frame.length + x.excess) :
    (new limit).readBehind bs input = ⟨.ok x.message, new limit, rest.drop x.excess⟩ := by
  induction hn : input.length using Nat.strongRecOn generalizing bs input with
  | ind n ih =>
    subst hn
    rcases hd : (new limit).decode bs with ⟨e | _ | m, d, rest'⟩
    · have ha := decode_append hd (by simp) input
      rw [hall, h.decode] at ha
      cases ha
    · have hw := h.wanting_le hall hd
      have hpos := d.wanting_pos bs
      rw [readBehind_of_none hd]
      cases hc : cut? (d.wanting bs) input with
      | none =>
        have hshort := cut?_eq_none_iff.mp hc
        have hex := h.excess_le
        have hlen := congrArg List.length (hall.trans h.cut)
        simp only [List.length_append] at hlen
        omega
      | some p =>
        obtain ⟨front, input'⟩ := p
        obtain ⟨rfl, hlen⟩ := cut?_eq_some_iff.mp hc
        refine ih input'.length ?_ (bs ++ front) input' ?_ ?_ rfl
        · rw [List.length_append]
          omega
        · rw [List.append_assoc]
          exact hall
        · rw [List.length_append]
          omega
    · obtain ⟨rfl, hge⟩ := h.le_of_decode hall hd
      obtain ⟨rfl, -⟩ := finds_of_decode hd
      have hlen : bs.length = x.frame.length + x.excess := by omega
      have hinput : (bs ++ input).drop bs.length = input := List.drop_left
      rw [hall, h.cut, hlen, ← List.drop_drop, List.drop_left] at hinput
      rw [readBehind_of_message hd, hinput]

theorem Finds.readMessage_eq {limit : Nat} {input rest : Bytes} {x : Taken}
    (h : Finds limit input x rest) :
    (new limit).readMessage input = ⟨.ok x.message, new limit, rest.drop x.excess⟩ :=
  h.readBehind_eq [] input rfl (Nat.zero_le _)

/-- **What a read leaves is what the look leaves, less the next frame's marker if the frame is
bare.** -/
theorem readMessage_of_message {limit : Nat} {input rest : Bytes} {m : Message} {d : Decoder}
    (h : (new limit).decode input = ⟨.ok (some m), d, rest⟩) :
    (new limit).readMessage input = ⟨.ok m, new limit,
      if m.type.layout = .optionalHeaders ∧ input.length = headerLength + rest.length
      then rest.drop marker.length else rest⟩ := by
  obtain ⟨rfl, hx⟩ := finds_of_decode h
  rw [hx.readMessage_eq]
  have hcut := congrArg List.length hx.cut
  rw [List.length_append] at hcut
  simp only at hcut
  have hbare : (input.take (input.length - rest.length)).length = headerLength ↔
      input.length = headerLength + rest.length := by omega
  simp only [Taken.excess, Taken.bare, decide_eq_true_eq, hbare]
  split <;> rfl

/-! ## One read after another -/

/-- The messages of so many reads from one input, up to the first that fails. -/
def reads : Nat → Decoder → Bytes → List Message
  | 0, _, _ => []
  | n + 1, d, input =>
    match d.readMessage input with
    | ⟨.ok m, d', input'⟩ => m :: reads n d' input'
    | ⟨.error _, _, _⟩ => []

/-- What so many looks at one buffer take off it, up to the first that finds no message. -/
def looks : Nat → Decoder → Bytes → List Taken
  | 0, _, _ => []
  | n + 1, d, bs =>
    match d.decode bs with
    | ⟨.ok (some m), d', rest⟩ => ⟨m, bs.take (bs.length - rest.length)⟩ :: looks n d' rest
    | _ => []

/-- If as many looks as there are all find a message, the first finds the first. -/
theorem exists_finds_of_looks {limit n : Nat} {bs : Bytes}
    (h : (looks (n + 1) (new limit) bs).length = n + 1) :
    ∃ x rest, Finds limit bs x rest ∧
      looks (n + 1) (new limit) bs = x :: looks n (new limit) rest ∧
      (looks n (new limit) rest).length = n := by
  rw [looks] at h ⊢
  split at h
  · rename_i m d rest hd
    obtain ⟨rfl, hx⟩ := finds_of_decode hd
    exact ⟨_, rest, hx, rfl, Nat.succ.inj h⟩
  · cases h

/-- No frame starts with a type byte: without its marker the next frame is refused. -/
theorem reads_behind_marker {limit n : Nat} {bs : Bytes}
    (h : (looks n (new limit) bs).length = n) :
    reads n (new limit) (bs.drop marker.length) = [] := by
  cases n with
  | zero => rfl
  | succ n =>
    obtain ⟨x, rest, hx, -⟩ := exists_finds_of_looks h
    obtain ⟨k, -, hf, -⟩ := hx.frameLength_eq
    obtain ⟨payload, rfl, -⟩ := frameLength_eq_some hf
    have hwrong : frameLength limit (x.message.type.toByte :: payload) = .error .invalidMarker := by
      have hb : ¬ ([x.message.type.toByte].take 4).isPrefixOf marker = true := by
        cases x.message.type <;> decide
      exact frameLength_append_of_wrong payload hb
    have hres : ((new limit).readMessage (x.message.type.toByte :: payload)).result =
        .error .invalidMarker := by
      rw [result_readMessage]
      simp only [decode, new, hwrong, readResult]
    rw [List.drop_left]
    unfold reads
    split
    · rename_i hr
      rw [hr] at hres
      cases hres
    · rfl

/-- **Reading frames in a row gives their messages up to the first bare frame, and then fails.** -/
theorem reads_of_frames {limit n : Nat} {input : Bytes}
    (h : (looks n (new limit) input).length = n) :
    reads n (new limit) input =
      ((looks n (new limit) input).take
        ((looks n (new limit) input).findIdx Taken.bare + 1)).map Taken.message := by
  induction n generalizing input with
  | zero => rfl
  | succ n ih =>
    obtain ⟨x, rest, hx, hl, hn⟩ := exists_finds_of_looks h
    have hr : reads (n + 1) (new limit) input =
        x.message :: reads n (new limit) (rest.drop x.excess) := by
      rw [reads, hx.readMessage_eq]
    rw [hr, hl, List.findIdx_cons]
    cases hb : x.bare with
    | true =>
      have he : x.excess = marker.length := if_pos hb
      rw [he, reads_behind_marker hn]
      rfl
    | false =>
      have he : x.excess = 0 := if_neg (by simp [hb])
      rw [he, List.drop_zero, ih hn]
      rfl

/-- **Reads against looks.** A read finds what a look at the whole input finds and leaves what it
leaves, but for the marker behind a bare frame; so reads give the messages of frames in a row up to
the first bare one, and no more. -/
theorem reads_against_looks (limit : Nat) (input : Bytes) :
    ((new limit).readMessage input).result = readResult ((new limit).decode input).result ∧
      (∀ m d rest, (new limit).decode input = ⟨.ok (some m), d, rest⟩ →
        (new limit).readMessage input = ⟨.ok m, new limit,
          if m.type.layout = .optionalHeaders ∧ input.length = headerLength + rest.length
          then rest.drop marker.length else rest⟩) ∧
      ∀ n, (looks n (new limit) input).length = n →
        reads n (new limit) input =
          ((looks n (new limit) input).take
            ((looks n (new limit) input).findIdx Taken.bare + 1)).map Taken.message :=
  ⟨result_readMessage limit input, fun _ _ _ => readMessage_of_message, fun _ => reads_of_frames⟩

/-- A bare departure, and a ping behind it. -/
def departure : Bytes :=
  marker ++ [MessageType.unsubscribe.toByte] ++ (marker ++ [MessageType.ping.toByte])

theorem reads_departure :
    (looks 2 (new 0) departure).map Taken.message = [{ type := .unsubscribe }, { type := .ping }] ∧
      reads 2 (new 0) departure = [{ type := .unsubscribe }] :=
  ⟨rfl, (reads_against_looks 0 departure).2.2 2 rfl⟩

/-- The look leaves the ping, the read only its type byte. -/
theorem readMessage_departure :
    (new 0).decode departure =
        ⟨.ok (some { type := .unsubscribe }), new 0, marker ++ [MessageType.ping.toByte]⟩ ∧
      (new 0).readMessage departure =
        ⟨.ok { type := .unsubscribe }, new 0, [MessageType.ping.toByte]⟩ := by
  have hd : (new 0).decode departure =
      ⟨.ok (some { type := .unsubscribe }), new 0, marker ++ [MessageType.ping.toByte]⟩ := rfl
  exact ⟨hd, readMessage_of_message hd⟩

end Decoder

end MessageBroker.Wire
