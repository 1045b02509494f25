import MessageBroker.Proofs.Wire.Grammar

/-!
# A decoder in use

A decoder and its buffer are used for as long as a connection lasts: bytes are appended, frames are
looked for, the limit is changed, in any order. The length of a frame is worked out in one call and
used in a later one; what ties the two together is that the length always belongs to the bytes that
stand in front of the buffer (`Intake.Measured`).

Headlines:
* **`Intake.Measured.call`**: every call leaves it so.
* **`Intake.Measured.outcome`**: a call waits or refuses and takes nothing, or takes one frame.
* **`Intake.Measured.decodeEof_eq`**: at the end of the input only a bare frame is read otherwise.
* **`Intake.safe_after_calls`**: so it is in every run.
-/

namespace MessageBroker.Wire

/-! ## Frames -/

/-- The bytes of a frame: the marker, the type byte and the blocks. -/
def frameOf (t : MessageType) (blocks : List Bytes) : Bytes :=
  marker ++ t.toByte :: blocks.flatMap block

/-- How many blocks a frame may have. -/
def blockCounts : Layout → List Nat
  | .empty => [0]
  | .optionalHeaders => [0, 1]
  | .headers => [1]
  | .headersAndBody => [2]

/-- A frame is whole: it has as many blocks as its type asks for, none longer than the limit. -/
structure WholeFrame (limit : Nat) (t : MessageType) (blocks : List Bytes) : Prop where
  count : blocks.length ∈ blockCounts t.layout
  allowed : ∀ data ∈ blocks, Allowed limit data.length

variable {limit : Nat} {t : MessageType} {blocks : List Bytes} {bs rest : Bytes}

theorem blockCount_mem (layout : Layout) (behind : Bytes) :
    blockCount layout behind ∈ blockCounts layout := by
  cases layout with
  | optionalHeaders =>
    unfold blockCount blockCounts
    simp only
    split <;> simp
  | _ => simp [blockCount, blockCounts]

theorem le_two_of_mem_blockCounts {layout : Layout} {n : Nat} (h : n ∈ blockCounts layout) :
    n ≤ 2 := by
  cases layout <;> simp [blockCounts] at h <;> omega

theorem length_frameOf (t : MessageType) (blocks : List Bytes) :
    (frameOf t blocks).length = headerLength + (blocks.flatMap block).length := by
  unfold frameOf marker headerLength
  simp only [List.length_append, List.length_cons, List.length_nil]
  omega

/-- What stands in front of the rest is a frame. -/
theorem Stands.wholeFrame (h : Stands limit bs t blocks rest) :
    WholeFrame limit t blocks ∧ bs = frameOf t blocks ++ rest := by
  obtain @⟨t, behind, rest, blocks, hb⟩ := h
  refine ⟨⟨hb.count.symm ▸ blockCount_mem t.layout behind, hb.allowed⟩, ?_⟩
  rw [hb.bytes]
  simp [frameOf]

theorem Allowed.unlimited {n : Nat} (h : Allowed limit n) : Allowed 0 n := ⟨h.fits, .inl rfl⟩

theorem WholeFrame.unlimited (h : WholeFrame limit t blocks) : WholeFrame 0 t blocks :=
  ⟨h.count, fun data hd => (h.allowed data hd).unlimited⟩

/-- Allowed blocks are no longer than as many longest ones. -/
theorem length_flatMap_block_le (h0 : limit ≠ 0) (h : ∀ data ∈ blocks, Allowed limit data.length) :
    (blocks.flatMap block).length ≤ blocks.length * (4 + limit) := by
  induction blocks with
  | nil => simp
  | cons data blocks ih =>
    have hd := (h data List.mem_cons_self).within.resolve_left h0
    have htail := ih fun x hx => h x (List.mem_cons_of_mem _ hx)
    rw [List.flatMap_cons, List.length_append, length_block, List.length_cons, Nat.succ_mul]
    omega

/-- The longest frame that the limit allows. -/
def longestFrame (limit : Nat) : Nat := headerLength + 2 * (4 + limit)

theorem WholeFrame.length_le (h0 : limit ≠ 0) (h : WholeFrame limit t blocks) :
    (frameOf t blocks).length ≤ longestFrame limit := by
  have hle := length_flatMap_block_le h0 h.allowed
  have hcount := Nat.mul_le_mul_right (4 + limit) (le_two_of_mem_blockCounts h.count)
  rw [length_frameOf]
  unfold longestFrame
  omega

/-- Blocks that run out are shorter than as many longest ones. -/
theorem Short.length_lt (h0 : limit ≠ 0) {k : Nat} (h : Short limit k bs) :
    bs.length < k * (4 + limit) := by
  have hmul : ∀ {j : Nat}, j < k → j * (4 + limit) + (4 + limit) ≤ k * (4 + limit) := by
    intro j hj
    rw [← Nat.succ_mul]
    exact Nat.mul_le_mul_right _ hj
  cases h with
  | @inLength blocks behind missing allowed short =>
    have := length_flatMap_block_le h0 allowed
    have := hmul missing
    rw [List.length_append]
    omega
  | @inData blocks n behind missing allowed next short =>
    have := length_flatMap_block_le h0 allowed
    have := hmul missing
    have := next.within.resolve_left h0
    simp only [List.length_append, length_encodeLength]
    omega

/-- A buffer that ends within a frame is shorter than the longest frame. -/
theorem Unfinished.length_lt (h0 : limit ≠ 0) (h : Unfinished limit bs) :
    bs.length < longestFrame limit := by
  unfold longestFrame headerLength
  cases h with
  | marker h =>
    have hle := h.length_le
    have hm : Wire.marker.length = 4 := rfl
    omega
  | @blocks t behind h =>
    have hlt := h.length_lt h0
    have hcount := Nat.mul_le_mul_right (4 + limit)
      (le_two_of_mem_blockCounts (blockCount_mem t.layout behind))
    simp only [List.length_append, List.length_cons, Wire.marker, List.length_nil]
    omega

/-! ## Lengths that the limit did not refuse -/

theorem blocksLength_unlimited : ∀ {k n : Nat} {bs : Bytes},
    blocksLength limit k bs = .ok (some n) → blocksLength 0 k bs = .ok (some n)
  | 0, _, _, h => h
  | k + 1, n, bs, h => by
    unfold blocksLength at h ⊢
    cases hb : blockLength? bs with
    | none => simp [hb] at h
    | some l =>
      simp only [hb] at h ⊢
      have h0 : exceeds 0 l = false := rfl
      by_cases hx : exceeds limit l = true
      · rw [if_pos hx] at h
        cases h
      · rw [if_neg hx] at h
        rw [h0, if_neg Bool.false_ne_true]
        rcases hk : blocksLength limit k (bs.drop (4 + l)) with e | _ | m
        · rw [hk] at h
          cases h
        · rw [hk] at h
          cases h
        · rw [hk] at h
          rw [blocksLength_unlimited hk]
          exact h

/-- A length that was found under some limit is the one found without a limit. -/
theorem frameLength_unlimited {x : MessageType × Nat} (h : frameLength limit bs = .ok (some x)) :
    frameLength 0 bs = .ok (some x) := by
  unfold frameLength at h ⊢
  split at h
  · rename_i hm
    rw [if_pos hm]
    split at h
    · cases h
    · rename_i byte payload _
      split at h
      · cases h
      · rename_i t ht
        simp only [payloadLength_eq_blocksLength] at h ⊢
        rcases hk : blocksLength limit (blockCount t.layout payload) payload with e | _ | n
        · rw [hk] at h
          cases h
        · rw [hk] at h
          cases h
        · rw [hk] at h
          rw [blocksLength_unlimited hk]
          exact h
  · cases h

/-! ## A decoder and its buffer -/

/-- What may be done with a decoder and its buffer. -/
inductive Call
  | append (data : Bytes)
  | decode
  | decodeEof
  | setLimit (limit : Nat)

/-- A call that leaves the limit as it is; a limit of zero stands for any. -/
def Call.Allows (limit : Nat) : Call → Prop
  | .setLimit limit' => limit = 0 ∨ limit' = limit
  | _ => True

/-- A decoder and the buffer that it reads from. -/
structure Intake where
  decoder : Decoder
  buffer : Bytes := []

namespace Intake

/-- A decoder that has seen nothing, and an empty buffer. -/
def new (limit : Nat) : Intake := { decoder := .new limit }

/-- What one look at the buffer comes to, with more bytes to come or not. -/
def look (s : Intake) (ended : Bool) : Decoded := s.decoder.next ended s.buffer

/-- What a look at the buffer leaves. -/
def left (x : Decoded) : Intake := ⟨x.decoder, x.rest⟩

/-- A decoder and its buffer after a call. -/
def call (s : Intake) : Call → Intake
  | .append data => { s with buffer := s.buffer ++ data }
  | .decode => left (s.look false)
  | .decodeEof => left (s.look true)
  | .setLimit limit => { s with decoder := { s.decoder with limit } }

/-- A decoder and its buffer after a number of calls. -/
def calls (s : Intake) (cs : List Call) : Intake := cs.foldl call s

/-- A length that is remembered belongs to the bytes in front of the buffer; `limit` is what blocks
were held against, none if that has changed. -/
structure Measured (limit : Nat) (s : Intake) : Prop where
  limited : limit = 0 ∨ s.decoder.limit = limit
  remembered : ∀ t payload, s.decoder.awaiting = .frame t payload →
    frameLength limit s.buffer = .ok (some (t, payload))

theorem measured_new (limit : Nat) : Measured limit (new limit) :=
  ⟨.inr rfl, fun _ _ h => nomatch h⟩

variable {s : Intake}

/-- What holds with the limit holds with none. -/
theorem Measured.unlimited (h : Measured limit s) : Measured 0 s :=
  ⟨.inl rfl, fun t payload hw => frameLength_unlimited (h.remembered t payload hw)⟩

theorem eq_new_of_header (h : s.decoder.awaiting = .header) : s.decoder = .new s.decoder.limit := by
  rcases hd : s.decoder with ⟨limit, awaiting⟩
  rw [hd] at h
  cases h
  rfl

/-- **A decoder that remembers a length does what one does that has seen nothing.** -/
theorem Measured.decode_eq (h : Measured limit s) : ∃ limit', (limit = 0 ∨ limit' = limit) ∧
    (s.decoder.decode s.buffer).result = ((Decoder.new limit').decode s.buffer).result ∧
    (s.decoder.decode s.buffer).rest = ((Decoder.new limit').decode s.buffer).rest := by
  cases ha : s.decoder.awaiting with
  | header => exact ⟨s.decoder.limit, h.limited, by rw [← eq_new_of_header ha], by
      rw [← eq_new_of_header ha]⟩
  | frame t payload =>
    have hold : s.decoder.decode s.buffer = s.decoder.takeFrame t payload s.buffer := by
      unfold Decoder.decode
      rw [ha]
    have hnew : (Decoder.new limit).decode s.buffer =
        (Decoder.new limit).takeFrame t payload s.buffer := by
      unfold Decoder.decode
      simp only [Decoder.new, h.remembered t payload ha]
    refine ⟨limit, .inr rfl, ?_⟩
    rw [hold, hnew]
    unfold Decoder.takeFrame
    split <;> exact ⟨rfl, rfl⟩

/-- Only what a complete frame holds is refused when it is read. -/
theorem error_of_readPayload {payload : Bytes} {e : DecodeError}
    (h : readPayload t payload = .error e) :
    e = .invalidLength ∨ e = .notUtf8 ∨ e = .malformedHeader := by
  unfold readPayload at h
  split at h
  · cases h
  · split at h
    · cases h
      exact .inl rfl
    · rename_i block rest _
      split at h
      · rename_i hr
        cases h
        unfold readHeaders at hr
        split at hr
        · cases hr
          exact .inr (.inl rfl)
        · split at hr
          · cases hr
            exact .inr (.inr rfl)
          · cases hr
      · split at h
        · split at h
          · cases h
            exact .inl rfl
          · cases h
        · cases h

/-- A refusal before the frame is complete takes nothing. -/
theorem rest_of_refused {e : DecodeError} (h : Refused limit bs e)
    (hlines : e ≠ .malformedHeader) (hutf8 : e ≠ .notUtf8) :
    ((Decoder.new limit).decode bs).rest = bs := by
  have hlength : e ≠ .invalidLength := by
    rintro rfl
    cases h
  have hresult := Decoder.result_of_refused h
  unfold Decoder.decode at hresult ⊢
  simp only [Decoder.new] at hresult ⊢
  split at hresult
  · rfl
  · rfl
  · unfold Decoder.takeFrame at hresult ⊢
    split at hresult
    · rfl
    · rename_i frame rest _
      cases hp : readPayload _ (frame.drop headerLength) with
      | ok m =>
        rw [hp] at hresult
        cases hresult
      | error e' =>
        rw [hp] at hresult
        cases hresult
        rcases error_of_readPayload hp with rfl | rfl | rfl <;> contradiction

/-- A call's outcome and what it took off the buffer: nothing where it waits or refuses before a
frame is complete, and otherwise one frame, whose message or whose fault it tells. -/
inductive Outcome (limit : Nat) (bs : Bytes) : Except DecodeError (Option Message) → Bytes → Prop
  | waits : Outcome limit bs (.ok none) bs
  | wrongMarker : Outcome limit bs (.error .invalidMarker) bs
  | wrongType (byte : UInt8) : Outcome limit bs (.error (.unknownType byte)) bs
  | tooLong : Outcome limit bs (.error .sizeExceeded) bs
  | message {t : MessageType} {blocks : List Bytes} {m : Message} {rest : Bytes}
    (frame : WholeFrame limit t blocks) (bytes : bs = frameOf t blocks ++ rest)
    (tells : Tells t blocks m) : Outcome limit bs (.ok (some m)) rest
  | notUtf8 {t : MessageType} {data : Bytes} {more : List Bytes} {rest : Bytes}
    (frame : WholeFrame limit t (data :: more)) (bytes : bs = frameOf t (data :: more) ++ rest)
    (faulty : ∀ text, data ≠ utf8 text) : Outcome limit bs (.error .notUtf8) rest
  | malformed {t : MessageType} {text : String} {more : List Bytes} {ls : List (List Char)}
    {rest : Bytes} (frame : WholeFrame limit t (utf8 text :: more))
    (bytes : bs = frameOf t (utf8 text :: more) ++ rest) (lines : Lines text.toList ls)
    (faulty : ¬ WellFormed ls) : Outcome limit bs (.error .malformedHeader) rest

/-- What a decoder that has seen nothing makes of a buffer. -/
theorem outcome_new (limit : Nat) (bs : Bytes) : Outcome limit bs
    ((Decoder.new limit).decode bs).result ((Decoder.new limit).decode bs).rest := by
  obtain ⟨m, rest, ha⟩ | ⟨e, hr⟩ | hu := Decoder.decode_new_cases limit bs
  · obtain ⟨t, blocks, hs, ht⟩ := ha
    rw [Decoder.decode_new_of_accepted ⟨t, blocks, hs, ht⟩]
    exact .message hs.wholeFrame.1 hs.wholeFrame.2 ht
  · have hresult := Decoder.result_of_refused hr
    have hrest := rest_of_refused hr
    rw [hresult]
    cases hr with
    | marker h => rw [hrest nofun nofun]; exact .wrongMarker
    | type h => rw [hrest nofun nofun]; exact .wrongType _
    | size h => rw [hrest nofun nofun]; exact .tooLong
    | text stands h =>
      rw [Decoder.decode_new_of_stands stands]
      exact .notUtf8 stands.wholeFrame.1 stands.wholeFrame.2 h
    | lines stands lines h =>
      rw [Decoder.decode_new_of_stands stands]
      exact .malformed stands.wholeFrame.1 stands.wholeFrame.2 lines h
  · have hresult := Decoder.result_of_unfinished hu
    rw [hresult, Decoder.decode_rest_of_none hresult]
    exact .waits

theorem Outcome.unlimited {r : Except DecodeError (Option Message)} (h : Outcome limit bs r rest) :
    Outcome 0 bs r rest := by
  cases h with
  | waits => exact .waits
  | wrongMarker => exact .wrongMarker
  | wrongType byte => exact .wrongType byte
  | tooLong => exact .tooLong
  | message frame bytes tells => exact .message frame.unlimited bytes tells
  | notUtf8 frame bytes faulty => exact .notUtf8 frame.unlimited bytes faulty
  | malformed frame bytes lines faulty => exact .malformed frame.unlimited bytes lines faulty

theorem Measured.outcome_more (h : Measured limit s) :
    Outcome limit s.buffer (s.look false).result (s.look false).rest := by
  obtain ⟨limit', hlimit, hresult, hrest⟩ := h.decode_eq
  have hnew := outcome_new limit' s.buffer
  rw [← hresult, ← hrest] at hnew
  rcases hlimit with rfl | rfl
  · exact hnew.unlimited
  · exact hnew

/-! ## The end of the input -/

/-- A buffer that holds the five bytes of a bare frame and nothing else. -/
def IsBare (t : MessageType) (bs : Bytes) : Prop := t.layout = .optionalHeaders ∧ bs = frameOf t []

theorem frameLength_of_isBare (h : IsBare t bs) : frameLength limit bs = .ok none := by
  obtain ⟨hl, rfl⟩ := h
  unfold frameOf
  rw [frameLength_cons rfl, if_pos rfl, MessageType.ofByte?_toByte]
  simp only [hl]
  rfl

/-- A bare frame is no frame yet while bytes may follow. -/
theorem Measured.decode_of_isBare (h : Measured limit s) (hb : IsBare t s.buffer) :
    s.decoder.awaiting = .header ∧ s.look false = ⟨.ok none, s.decoder, s.buffer⟩ := by
  cases ha : s.decoder.awaiting with
  | frame t' payload =>
    have := h.remembered t' payload ha
    rw [frameLength_of_isBare hb] at this
    cases this
  | header =>
    refine ⟨rfl, ?_⟩
    unfold look Decoder.next Decoder.decode
    rw [if_neg Bool.false_ne_true, ha]
    simp only [frameLength_of_isBare hb]

/-- A decoder that waits and remembers nothing has found no length. -/
theorem frameLength_of_waiting {d d' : Decoder} (h : d.decode bs = ⟨.ok none, d', rest⟩)
    (ha : d'.awaiting = .header) : frameLength d.limit bs = .ok none := by
  have htake : ∀ t payload, d.takeFrame t payload bs ≠ ⟨.ok none, d', rest⟩ := by
    intro t payload he
    have hwait := Decoder.takeFrame_of_none (by rw [he])
    rw [he] at hwait
    cases hwait
    cases ha
  unfold Decoder.decode at h
  split at h
  · exact absurd h (htake _ _)
  · split at h
    · cases h
    · assumption
    · exact absurd h (htake _ _)

/-- Where a decoder that awaits a header waits for more, a bare message in the buffer is a bare
frame. -/
theorem isBare_of_bareMessage? {r : Except DecodeError (Option Message)}
    (h : frameLength limit bs = .ok none) (hr : Decoder.bareMessage? bs = r) (hne : r ≠ .ok none) :
    ∃ t, IsBare t bs := by
  subst hr
  unfold Decoder.bareMessage? at hne
  split at hne
  · rename_i a b c d byte
    have hf := @frameLength_cons limit [a, b, c, d] rfl byte []
    rw [List.cons_append, List.cons_append, List.cons_append, List.cons_append, List.nil_append,
      h] at hf
    split at hf
    · rename_i hm
      cases ht : MessageType.ofByte? byte with
      | none =>
        rw [ht] at hf
        cases hf
      | some t =>
        rw [ht] at hne
        obtain rfl := MessageType.ofByte?_eq_some_iff.mp ht
        by_cases hl : t.layout = .optionalHeaders
        · exact ⟨t, hl, by rw [frameOf, ← hm]; rfl⟩
        · exact absurd (by simp only [if_neg hl]) hne
    · cases hf
  · exact absurd rfl hne

/-- **At the end of the input a bare frame is a message,** and every other buffer is read as if more
could follow. -/
theorem Measured.decodeEof_eq (h : Measured limit s) :
    (∀ t, IsBare t s.buffer → s.look true = ⟨.ok (some { type := t }), s.decoder, []⟩) ∧
      ((∀ t, ¬ IsBare t s.buffer) → s.look true = s.look false) := by
  constructor
  · intro t hb
    obtain ⟨ha, hd⟩ := h.decode_of_isBare hb
    obtain ⟨hl, hbytes⟩ := hb
    have hbare : Decoder.bareMessage? s.buffer = .ok (some { type := t }) := by
      rw [hbytes]
      unfold frameOf marker Decoder.bareMessage?
      simp [hl]
    unfold look Decoder.next at hd ⊢
    rw [if_neg Bool.false_ne_true] at hd
    rw [if_pos rfl]
    unfold Decoder.decodeEof
    rw [hd]
    simp only [ha, if_true, hbare]
  · intro hno
    have heof : s.look true = s.decoder.decodeEof s.buffer := rfl
    have hmore : s.look false = s.decoder.decode s.buffer := rfl
    rw [heof, hmore]
    unfold Decoder.decodeEof
    split
    · rename_i d' rest hd
      have hrest : rest = s.buffer := by
        have := @Decoder.decode_rest_of_none s.decoder s.buffer (by rw [hd])
        rwa [hd] at this
      subst hrest
      split
      · rename_i ha'
        have hbare : Decoder.bareMessage? s.buffer = .ok none := by
          by_contra hne
          obtain ⟨t, hb⟩ := isBare_of_bareMessage? (frameLength_of_waiting hd ha') rfl hne
          exact hno t hb
        rw [hbare, hd]
      · exact hd.symm
    · rfl

/-- **A call waits or refuses and takes nothing, or takes one whole frame.** -/
theorem Measured.outcome (h : Measured limit s) (ended : Bool) :
    Outcome limit s.buffer (s.look ended).result (s.look ended).rest := by
  cases ended with
  | false => exact h.outcome_more
  | true =>
    by_cases hb : ∃ t, IsBare t s.buffer
    · obtain ⟨t, hb⟩ := hb
      have frame : WholeFrame limit t [] := ⟨by rw [hb.1]; simp [blockCounts], nofun⟩
      rw [h.decodeEof_eq.1 t hb]
      exact .message frame (by rw [List.append_nil, ← hb.2]) .bare
    · rw [h.decodeEof_eq.2 fun t hb' => hb ⟨t, hb'⟩]
      exact h.outcome_more

/-! ## Runs -/

/-- A length that a look leaves behind is that of the bytes it left in the buffer. -/
theorem Measured.left_look (h : Measured limit s) : Measured limit (left (s.look false)) := by
  have hlimit : ∀ t payload, (s.decoder.takeFrame t payload s.buffer).decoder.limit =
      s.decoder.limit := by
    intro t payload
    unfold Decoder.takeFrame
    split <;> rfl
  -- A frame whose length is known is either taken or remembered.
  have htake : ∀ t payload, frameLength limit s.buffer = .ok (some (t, payload)) →
      Measured limit (left (s.decoder.takeFrame t payload s.buffer)) := by
    intro t payload hf
    refine ⟨?_, fun t' payload' ha => ?_⟩
    · unfold left
      rw [hlimit]
      exact h.limited
    · unfold left Decoder.takeFrame at ha ⊢
      split at ha
      · cases ha
        exact hf
      · cases ha
  unfold look Decoder.next Decoder.decode
  rw [if_neg Bool.false_ne_true]
  split
  · exact htake _ _ (h.remembered _ _ ‹_›)
  · split
    · exact h
    · exact h
    · rename_i t payload hf
      refine htake t payload ?_
      rcases h.limited with rfl | hl
      · exact frameLength_unlimited hf
      · rwa [hl] at hf

/-- **Every call leaves the length that is remembered with the bytes it belongs to.** -/
theorem Measured.call (h : Measured limit s) {c : Call} (hc : c.Allows limit) :
    Measured limit (s.call c) := by
  cases c with
  | append data =>
    refine ⟨h.limited, fun t payload ha => ?_⟩
    have hf := h.remembered t payload ha
    unfold Intake.call
    rw [frameLength_append data (by rw [hf]; nofun), hf]
  | decode => exact h.left_look
  | decodeEof =>
    change Measured limit (left (s.look true))
    by_cases hb : ∃ t, IsBare t s.buffer
    · obtain ⟨t, hb⟩ := hb
      rw [h.decodeEof_eq.1 t hb]
      refine ⟨h.limited, fun t' payload ha => ?_⟩
      rw [left, (h.decode_of_isBare hb).1] at ha
      cases ha
    · rw [h.decodeEof_eq.2 fun t hb' => hb ⟨t, hb'⟩]
      exact h.left_look
  | setLimit limit' => exact ⟨hc, h.remembered⟩

theorem Measured.calls (h : Measured limit s) {cs : List Call} (hcs : ∀ c ∈ cs, c.Allows limit) :
    Measured limit (s.calls cs) := by
  induction cs generalizing s with
  | nil => exact h
  | cons c cs ih =>
    exact ih (h.call (hcs c List.mem_cons_self)) fun c' hc' => hcs c' (List.mem_cons_of_mem _ hc')

/-- Looking for a frame is safe. -/
structure Safe (limit : Nat) (bs : Bytes) (x : Decoded) : Prop where
  /-- The blocks of a frame always fill it. -/
  filled : x.result ≠ .error .invalidLength
  /-- Waiting for more, and refusing before a frame is complete, take nothing. -/
  untouched : x.result = .ok none ∨ x.result = .error .invalidMarker ∨
    (∃ byte, x.result = .error (.unknownType byte)) ∨ x.result = .error .sizeExceeded → x.rest = bs
  /-- A message and a refusal of its headers take one frame of at least five bytes. -/
  taken : (∃ m, x.result = .ok (some m)) ∨ x.result = .error .malformedHeader ∨
    x.result = .error .notUtf8 → ∃ t blocks, WholeFrame limit t blocks ∧
      bs = frameOf t blocks ++ x.rest ∧ x.result = (ofBlocks t blocks).map some ∧
      headerLength ≤ (frameOf t blocks).length
  /-- There is nothing else that a look may come to. -/
  nothingElse : x.result ≠ .error .endOfInput

theorem Outcome.safe {x : Decoded} (h : Outcome limit bs x.result x.rest) : Safe limit bs x := by
  obtain ⟨r, d, rest⟩ := x
  have hlong : ∀ t blocks, headerLength ≤ (frameOf t blocks).length := fun t blocks =>
    length_frameOf t blocks ▸ Nat.le_add_right ..
  cases h with
  | waits => exact ⟨by simp, fun _ => rfl, by simp, by simp⟩
  | wrongMarker => exact ⟨by simp, fun _ => rfl, by simp, by simp⟩
  | wrongType byte => exact ⟨by simp, fun _ => rfl, by simp, by simp⟩
  | tooLong => exact ⟨by simp, fun _ => rfl, by simp, by simp⟩
  | message frame bytes tells =>
    refine ⟨by simp, by simp, fun _ => ⟨_, _, frame, bytes, ?_, hlong _ _⟩, by simp⟩
    rw [ofBlocks_eq_ok_iff.mpr tells]
    rfl
  | notUtf8 frame bytes faulty =>
    refine ⟨by simp, by simp, fun _ => ⟨_, _, frame, bytes, ?_, hlong _ _⟩, by simp⟩
    rw [ofBlocks, readHeaders_eq_notUtf8_iff.mpr faulty]
    rfl
  | @malformed t text more ls rest frame bytes lines faulty =>
    refine ⟨by simp, by simp, fun _ => ⟨_, _, frame, bytes, ?_, hlong _ _⟩, by simp⟩
    rw [ofBlocks, readHeaders_eq_malformed_iff.mpr ⟨text, ls, rfl, lines, faulty⟩]
    rfl

/-- No frame is longer than the longest one, and less than that is waited for. -/
structure Bounded (max : Nat) (bs : Bytes) (x : Decoded) : Prop where
  taken : bs.length ≤ max + x.rest.length
  waiting : x.result = .ok none → bs.length < max

theorem Outcome.length_le {r : Except DecodeError (Option Message)} (h0 : limit ≠ 0)
    (h : Outcome limit bs r rest) : bs.length ≤ longestFrame limit + rest.length := by
  have hframe : ∀ {t blocks rest}, WholeFrame limit t blocks → bs = frameOf t blocks ++ rest →
      bs.length ≤ longestFrame limit + rest.length := by
    rintro t blocks rest frame rfl
    rw [List.length_append]
    exact Nat.add_le_add_right (frame.length_le h0) _
  cases h with
  | message frame bytes _ => exact hframe frame bytes
  | notUtf8 frame bytes _ => exact hframe frame bytes
  | malformed frame bytes _ _ => exact hframe frame bytes
  | _ => exact Nat.le_add_left ..

theorem Measured.bounded (h : Measured limit s) (h0 : limit ≠ 0) (ended : Bool) :
    Bounded (longestFrame limit) s.buffer (s.look ended) := by
  have hmore : (s.look false).result = .ok none → s.buffer.length < longestFrame limit := by
    intro hw
    obtain ⟨limit', hlimit, hresult, -⟩ := h.decode_eq
    obtain rfl := hlimit.resolve_left h0
    have hnew : ((Decoder.new limit').decode s.buffer).result = .ok none := hresult ▸ hw
    exact ((Decoder.decode_new_iff limit' s.buffer).2.2.mp hnew).length_lt h0
  refine ⟨(h.outcome ended).length_le h0, fun hw => ?_⟩
  cases ended with
  | false => exact hmore hw
  | true =>
    by_cases hb : ∃ t, IsBare t s.buffer
    · obtain ⟨t, hb⟩ := hb
      rw [h.decodeEof_eq.1 t hb] at hw
      cases hw
    · rw [h.decodeEof_eq.2 fun t hb' => hb ⟨t, hb'⟩] at hw
      exact hmore hw

/-- **In every run looking for a frame is safe,** at the end of the input only a bare frame is read
otherwise, and where the limit is never changed, what a look takes and what it waits for are bounded
by the longest frame. -/
theorem safe_after_calls (limit : Nat) (cs : List Call) :
    let s := (new limit).calls cs
    (∀ ended, Safe 0 s.buffer (s.look ended)) ∧
      (∀ t, IsBare t s.buffer → s.look false = ⟨.ok none, s.decoder, s.buffer⟩ ∧
        s.look true = ⟨.ok (some { type := t }), s.decoder, []⟩) ∧
      ((∀ t, ¬ IsBare t s.buffer) → s.look true = s.look false) ∧
      (limit ≠ 0 → (∀ limit', .setLimit limit' ∈ cs → limit' = limit) →
        ∃ max, s.decoder.maxFrameLength = some max ∧
          ∀ ended, Safe limit s.buffer (s.look ended) ∧ Bounded max s.buffer (s.look ended)) := by
  intro s
  have h : Measured 0 s := (measured_new limit).unlimited.calls fun c _ => by
    cases c <;> simp [Call.Allows]
  refine ⟨fun ended => (h.outcome ended).safe, fun t hb => ⟨(h.decode_of_isBare hb).2,
    h.decodeEof_eq.1 t hb⟩, h.decodeEof_eq.2, fun h0 hcs => ?_⟩
  have h' : Measured limit s := (measured_new limit).calls fun c hc => by
    cases c with
    | setLimit limit' => exact .inr (hcs limit' hc)
    | _ => trivial
  refine ⟨longestFrame limit, ?_, fun ended => ⟨(h'.outcome ended).safe, h'.bounded h0 ended⟩⟩
  unfold Decoder.maxFrameLength
  rw [h'.limited.resolve_left h0, if_neg h0]
  rfl

end Intake

end MessageBroker.Wire
