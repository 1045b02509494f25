import MessageBroker.Proofs.Wire.HeaderText

/-!
# The grammar of the wire

What a buffer may hold, for a decoder that has seen nothing yet, said without the decoder. A frame
is the marker, a type byte and as many blocks as its type asks for. A buffer has such a frame in
front, and then it is accepted if its header block is well-formed text; or it breaks a rule, and the
first rule it breaks is the one it is refused by; or it ends before either shows.

Headlines:
* **`blocks_cases`**: blocks stand in front, or one is too long, or the bytes run out.
* **`Decoder.decode_new_cases`**: every buffer is accepted, refused or unfinished.
* **`Decoder.decode_new_iff`**: a decoder finds a message, an error or nothing accordingly.
-/

namespace MessageBroker

/-! ## Type bytes -/

namespace MessageType

theorem toNat_toByte_lt (t : MessageType) : t.toByte.toNat < all.length := by
  cases t <;> decide

theorem toNat_toByte_getElem (i : Fin all.length) : (all[i]).toByte.toNat = i := by
  revert i
  decide

/-- The bytes up to eleven are the type bytes. -/
theorem ofByte?_eq_none_iff {b : UInt8} : ofByte? b = none ↔ 11 < b.toNat := by
  have hall : all.length = 12 := rfl
  constructor
  · intro h
    by_contra hle
    have hb : b.toNat < all.length := by omega
    have heq : b = (all[b.toNat]).toByte := UInt8.toNat_inj.mp (toNat_toByte_getElem ⟨_, hb⟩).symm
    rw [heq, ofByte?_toByte] at h
    cases h
  · intro h
    cases ht : ofByte? b with
    | none => rfl
    | some t =>
      have := t.toNat_toByte_lt
      rw [toByte_of_ofByte? ht] at this
      omega

end MessageType

namespace Wire

/-! ## Blocks -/

/-- A length that a prefix can announce and the limit allows. -/
structure Allowed (limit n : Nat) : Prop where
  fits : n < lengthBound
  within : limit = 0 ∨ n ≤ limit

/-- So many blocks stand in front of the rest. -/
structure Blocks (limit k : Nat) (bs : Bytes) (blocks : List Bytes) (rest : Bytes) : Prop where
  bytes : bs = blocks.flatMap block ++ rest
  count : blocks.length = k
  allowed : ∀ data ∈ blocks, Allowed limit data.length

/-- Of so many blocks the first that is not allowed announces more than the limit. -/
inductive Oversized (limit k : Nat) : Bytes → Prop
  | intro {blocks : List Bytes} {n : Nat} {behind : Bytes} (missing : blocks.length < k)
    (allowed : ∀ data ∈ blocks, Allowed limit data.length)
    (fits : n < lengthBound) (large : limit ≠ 0 ∧ limit < n) :
    Oversized limit k (blocks.flatMap block ++ (encodeLength n ++ behind))

/-- The bytes run out within one of so many blocks: in its length, or in what that announces. -/
inductive Short (limit k : Nat) : Bytes → Prop
  | inLength {blocks : List Bytes} {behind : Bytes} (missing : blocks.length < k)
    (allowed : ∀ data ∈ blocks, Allowed limit data.length) (short : behind.length < 4) :
    Short limit k (blocks.flatMap block ++ behind)
  | inData {blocks : List Bytes} {n : Nat} {behind : Bytes} (missing : blocks.length < k)
    (allowed : ∀ data ∈ blocks, Allowed limit data.length) (next : Allowed limit n)
    (short : behind.length < n) :
    Short limit k (blocks.flatMap block ++ (encodeLength n ++ behind))

section BlocksInFront

variable {limit k : Nat} {bs : Bytes}

theorem exceeds_eq_true_iff {n : Nat} : exceeds limit n = true ↔ limit ≠ 0 ∧ limit < n := by
  simp [exceeds]

theorem Allowed.not_exceeds {n : Nat} (h : Allowed limit n) : ¬ exceeds limit n = true := by
  rw [exceeds_eq_true_iff]
  rintro ⟨h0, hn⟩
  rcases h.within with h' | h'
  · exact h0 h'
  · omega

theorem allowed_of_not_exceeds {n : Nat} (hn : n < lengthBound) (h : ¬ exceeds limit n = true) :
    Allowed limit n := by
  rw [exceeds_eq_true_iff] at h
  exact ⟨hn, by omega⟩

/-- A block in front of the bytes. -/
theorem flatMap_block_cons (data : Bytes) (blocks : List Bytes) (rest : Bytes) :
    (data :: blocks).flatMap block ++ rest = block data ++ (blocks.flatMap block ++ rest) := by
  rw [List.flatMap_cons, List.append_assoc]

theorem forall_allowed_cons {data : Bytes} {blocks : List Bytes} (hd : Allowed limit data.length)
    (h : ∀ data ∈ blocks, Allowed limit data.length) :
    ∀ data' ∈ data :: blocks, Allowed limit data'.length :=
  List.forall_mem_cons.mpr ⟨hd, h⟩

theorem Oversized.cons {data : Bytes} (hd : Allowed limit data.length) (h : Oversized limit k bs) :
    Oversized limit (k + 1) (block data ++ bs) := by
  obtain ⟨missing, allowed, fits, large⟩ := h
  rw [← flatMap_block_cons]
  exact .intro (Nat.succ_lt_succ missing) (forall_allowed_cons hd allowed) fits large

theorem Short.cons {data : Bytes} (hd : Allowed limit data.length) (h : Short limit k bs) :
    Short limit (k + 1) (block data ++ bs) := by
  cases h with
  | inLength missing allowed short =>
    rw [← flatMap_block_cons]
    exact .inLength (Nat.succ_lt_succ missing) (forall_allowed_cons hd allowed) short
  | inData missing allowed next short =>
    rw [← flatMap_block_cons]
    exact .inData (Nat.succ_lt_succ missing) (forall_allowed_cons hd allowed) next short

theorem Blocks.cons {data rest : Bytes} {blocks : List Bytes} (hd : Allowed limit data.length)
    (h : Blocks limit k bs blocks rest) :
    Blocks limit (k + 1) (block data ++ bs) (data :: blocks) rest where
  bytes := by rw [h.bytes, flatMap_block_cons]
  count := congrArg (· + 1) h.count
  allowed := forall_allowed_cons hd h.allowed

/-- One block stands in front, or its length is too much, or the bytes run out. -/
theorem block_cases (limit : Nat) (bs : Bytes) :
    (∃ data rest, bs = block data ++ rest ∧ Allowed limit data.length) ∨
      Oversized limit 1 bs ∨ Short limit 1 bs := by
  cases hb : blockLength? bs with
  | none => exact .inr (.inr (@Short.inLength limit 1 [] bs Nat.zero_lt_one nofun
      (blockLength?_eq_none_iff.mp hb)))
  | some n =>
    obtain ⟨hbs, hn⟩ := encodeLength_of_blockLength? hb
    rw [hbs]
    by_cases hx : exceeds limit n = true
    · exact .inr (.inl (@Oversized.intro limit 1 [] n (bs.drop 4) Nat.zero_lt_one nofun hn
        (exceeds_eq_true_iff.mp hx)))
    · have ha := allowed_of_not_exceeds hn hx
      by_cases hlen : (bs.drop 4).length < n
      · exact .inr (.inr (@Short.inData limit 1 [] n (bs.drop 4) Nat.zero_lt_one nofun ha hlen))
      · have hdata : ((bs.drop 4).take n).length = n := by
          rw [List.length_take]
          omega
        refine .inl ⟨(bs.drop 4).take n, (bs.drop 4).drop n, ?_, hdata.symm ▸ ha⟩
        rw [block, hdata, List.append_assoc, List.take_append_drop]

theorem Oversized.mono {k' : Nat} (hk : k ≤ k') (h : Oversized limit k bs) :
    Oversized limit k' bs := by
  obtain ⟨missing, allowed, fits, large⟩ := h
  exact .intro (Nat.lt_of_lt_of_le missing hk) allowed fits large

theorem Short.mono {k' : Nat} (hk : k ≤ k') (h : Short limit k bs) : Short limit k' bs := by
  cases h with
  | inLength missing allowed short =>
    exact .inLength (Nat.lt_of_lt_of_le missing hk) allowed short
  | inData missing allowed next short =>
    exact .inData (Nat.lt_of_lt_of_le missing hk) allowed next short

/-- **Blocks stand in front, or one is too long, or the bytes run out.** -/
theorem blocks_cases (limit k : Nat) (bs : Bytes) :
    (∃ blocks rest, Blocks limit k bs blocks rest) ∨ Oversized limit k bs ∨ Short limit k bs := by
  induction k generalizing bs with
  | zero => exact .inl ⟨[], bs, rfl, rfl, nofun⟩
  | succ k ih =>
    obtain ⟨data, rest, rfl, hd⟩ | hover | hshort := block_cases limit bs
    · obtain ⟨blocks, rest', h⟩ | h | h := ih rest
      · exact .inl ⟨_, _, h.cons hd⟩
      · exact .inr (.inl (h.cons hd))
      · exact .inr (.inr (h.cons hd))
    · exact .inr (.inl (hover.mono (by omega)))
    · exact .inr (.inr (hshort.mono (by omega)))

/-! ## Their length -/

theorem blocksLength_encodeLength {n : Nat} (hn : n < lengthBound) (behind : Bytes) :
    blocksLength limit (k + 1) (encodeLength n ++ behind) =
      if exceeds limit n then .error .sizeExceeded
      else (blocksLength limit k (behind.drop n)).map (Option.map (4 + n + ·)) := by
  rw [blocksLength, blockLength?_encode hn]
  have hdrop : (encodeLength n ++ behind).drop (4 + n) = behind.drop n := by
    rw [← List.drop_drop, List.drop_left' (length_encodeLength n)]
  simp only [hdrop]

/-- Allowed blocks in front add their length to what is known of the others. -/
theorem blocksLength_flatMap_block {blocks : List Bytes}
    (h : ∀ data ∈ blocks, Allowed limit data.length) (k : Nat) (bs : Bytes) :
    blocksLength limit (blocks.length + k) (blocks.flatMap block ++ bs) =
      (blocksLength limit k bs).map (Option.map ((blocks.flatMap block).length + ·)) := by
  induction blocks with
  | nil =>
    simp only [List.flatMap_nil, List.length_nil, List.nil_append, Nat.zero_add]
    rcases blocksLength limit k bs with e | _ | n <;> simp [Except.map]
  | cons data blocks ih =>
    have hd := h data List.mem_cons_self
    have hk : (data :: blocks).length + k = blocks.length + k + 1 := by
      rw [List.length_cons]
      omega
    rw [flatMap_block_cons, hk, block, List.append_assoc, blocksLength_encodeLength hd.fits,
      if_neg hd.not_exceeds, List.drop_left, ih fun x hx => h x (List.mem_cons_of_mem _ hx),
      List.flatMap_cons, List.length_append, length_block]
    rcases blocksLength limit k bs with e | _ | n
    · rfl
    · rfl
    · simp only [Except.map, Option.map_some, Nat.add_assoc]

theorem Blocks.blocksLength_eq {blocks : List Bytes} {rest : Bytes}
    (h : Blocks limit k bs blocks rest) :
    blocksLength limit k bs = .ok (some (blocks.flatMap block).length) := by
  have := blocksLength_flatMap_block h.allowed 0 rest
  rwa [Nat.add_zero, h.count, ← h.bytes] at this

theorem Oversized.blocksLength_eq (h : Oversized limit k bs) :
    blocksLength limit k bs = .error .sizeExceeded := by
  obtain @⟨blocks, n, behind, missing, allowed, fits, large⟩ := h
  obtain ⟨j, rfl⟩ := Nat.exists_eq_add_of_lt missing
  rw [Nat.add_assoc, blocksLength_flatMap_block allowed, blocksLength_encodeLength fits,
    if_pos (exceeds_eq_true_iff.mpr large)]
  rfl

/-- What runs out has no length yet, or one that is more than what is there. -/
theorem Short.blocksLength_eq (h : Short limit k bs) :
    blocksLength limit k bs = .ok none ∨
      ∃ n, blocksLength limit k bs = .ok (some n) ∧ bs.length < n := by
  cases h with
  | @inLength blocks behind missing allowed short =>
    obtain ⟨j, rfl⟩ := Nat.exists_eq_add_of_lt missing
    left
    rw [Nat.add_assoc, blocksLength_flatMap_block allowed, blocksLength,
      blockLength?_eq_none_iff.mpr short]
    rfl
  | @inData blocks n behind missing allowed next short =>
    obtain ⟨j, rfl⟩ := Nat.exists_eq_add_of_lt missing
    rw [Nat.add_assoc, blocksLength_flatMap_block allowed, blocksLength_encodeLength next.fits,
      if_neg next.not_exceeds, List.drop_of_length_le (Nat.le_of_lt short)]
    cases j with
    | zero =>
      refine .inr ⟨_, rfl, ?_⟩
      simp only [List.length_append, length_encodeLength]
      omega
    | succ j => exact .inl rfl

end BlocksInFront

/-! ## Frames -/

/-- How many blocks follow the type byte: none where they are optional and the next frame's marker
stands there. -/
def blockCount (layout : Layout) (behind : Bytes) : Nat :=
  match layout with
  | .empty => 0
  | .optionalHeaders => if marker.isPrefixOf behind then 0 else 1
  | .headers => 1
  | .headersAndBody => 2

/-- A frame of the type stands in front of the rest: the marker, the type byte and its blocks. -/
inductive Stands (limit : Nat) : Bytes → MessageType → List Bytes → Bytes → Prop
  | intro {t : MessageType} {behind rest : Bytes} {blocks : List Bytes}
    (h : Blocks limit (blockCount t.layout behind) behind blocks rest) :
    Stands limit (marker ++ t.toByte :: behind) t blocks rest

/-- The headers of a message are those that the lines give, the destination apart from them. -/
structure Carries (ls : List (List Char)) (m : Message) : Prop where
  destination : ∀ value, m.destination = some value ↔ Gives ls Header.destination.name value
  headers : ∀ name value, m.headers.get? name = some value ↔
    name ≠ Header.destination.name ∧ Gives ls name value

/-- What the blocks of a frame tell: the first is the text of the headers, the second the body. -/
inductive Tells (t : MessageType) : List Bytes → Message → Prop
  | bare : Tells t [] { type := t }
  | headers {data : Bytes} {more : List Bytes} {m : Message} {text : String}
    {ls : List (List Char)} (type : m.type = t) (decoded : data = utf8 text)
    (lines : Lines text.toList ls) (wellFormed : WellFormed ls) (carries : Carries ls m)
    (body : m.body = more.head?) : Tells t (data :: more) m

/-- A buffer is accepted as a message in front of the rest. -/
def Accepted (limit : Nat) (bs : Bytes) (m : Message) (rest : Bytes) : Prop :=
  ∃ t blocks, Stands limit bs t blocks rest ∧ Tells t blocks m

/-- A buffer is refused, by the first rule it breaks: the marker, as far as it is there; the type;
the length of the header block, and behind that block the length of the body; and once the frame is
there, the text of the header block and its lines. -/
inductive Refused (limit : Nat) : Bytes → DecodeError → Prop
  | marker {bs : Bytes} (h : ¬ bs.take 4 <+: marker) : Refused limit bs .invalidMarker
  | type {byte : UInt8} {behind : Bytes} (h : 11 < byte.toNat) :
    Refused limit (Wire.marker ++ byte :: behind) (.unknownType byte)
  | size {t : MessageType} {behind : Bytes}
    (h : Oversized limit (blockCount t.layout behind) behind) :
    Refused limit (Wire.marker ++ t.toByte :: behind) .sizeExceeded
  | text {bs data rest : Bytes} {t : MessageType} {more : List Bytes}
    (stands : Stands limit bs t (data :: more) rest) (h : ∀ text, data ≠ utf8 text) :
    Refused limit bs .notUtf8
  | lines {bs rest : Bytes} {t : MessageType} {more : List Bytes} {text : String}
    {ls : List (List Char)} (stands : Stands limit bs t (utf8 text :: more) rest)
    (lines : Lines text.toList ls) (h : ¬ WellFormed ls) : Refused limit bs .malformedHeader

/-- A buffer ends before the frame in front does, with no rule broken so far: within the marker or
right behind it, or within the blocks. -/
inductive Unfinished (limit : Nat) : Bytes → Prop
  | marker {bs : Bytes} (h : bs <+: marker) : Unfinished limit bs
  | blocks {t : MessageType} {behind : Bytes}
    (h : Short limit (blockCount t.layout behind) behind) :
    Unfinished limit (Wire.marker ++ t.toByte :: behind)

/-! ## Messages -/

/-- The message of the blocks of a frame, or why there is none. -/
def ofBlocks (t : MessageType) : List Bytes → Except DecodeError Message
  | [] => .ok { type := t }
  | data :: more => (readHeaders data).map fun headers =>
    { type := t
      headers := headers.erase Header.destination.name
      destination := headers.get? Header.destination.name
      body := more.head? }

theorem ofBlocks_eq_ok_iff {t : MessageType} {blocks : List Bytes} {m : Message} :
    ofBlocks t blocks = .ok m ↔ Tells t blocks m := by
  constructor
  · intro h
    cases blocks with
    | nil =>
      cases h
      exact .bare
    | cons data more =>
      cases hr : readHeaders data with
      | error e =>
        rw [ofBlocks, hr] at h
        cases h
      | ok headers =>
        rw [ofBlocks, hr] at h
        cases h
        obtain ⟨text, ls, hd, hls, hw, hg⟩ := readHeaders_eq_ok_iff.mp hr
        refine .headers rfl hd hls hw ⟨fun value => hg _ value, fun name value => ?_⟩ rfl
        rw [Table.get?_erase, ← hg]
        split <;> simp_all
  · intro h
    cases h with
    | bare => rfl
    | @headers data more m text ls type decoded lines wellFormed carries body =>
      have hr := readHeaders_eq_ok_iff.mpr
        ⟨text, ls, decoded, lines, wellFormed, get?_ofList_filterMap ls⟩
      have hm : m.headers =
          (Table.ofList (ls.filterMap readLine?)).erase Header.destination.name := by
        refine Table.ext fun name => Option.ext fun value => ?_
        rw [carries.headers, Table.get?_erase, ← get?_ofList_filterMap]
        split <;> simp_all
      have hd : m.destination =
          (Table.ofList (ls.filterMap readLine?)).get? Header.destination.name :=
        Option.ext fun value => by rw [carries.destination, get?_ofList_filterMap]
      rw [ofBlocks, hr]
      simp only [Except.map, ← type, ← hm, ← hd, ← body]

/-- A complete frame is refused for its header block only. -/
theorem refused_of_ofBlocks {limit : Nat} {bs rest : Bytes} {t : MessageType} {blocks : List Bytes}
    {e : DecodeError} (hs : Stands limit bs t blocks rest) (h : ofBlocks t blocks = .error e) :
    Refused limit bs e := by
  cases blocks with
  | nil => cases h
  | cons data more =>
    cases hr : readHeaders data with
    | ok headers =>
      rw [ofBlocks, hr] at h
      cases h
    | error e' =>
      rw [ofBlocks, hr] at h
      cases h
      cases ht : ofUtf8? data with
      | none =>
        have he : readHeaders data = .error .notUtf8 := by unfold readHeaders; rw [ht]
        rw [he] at hr
        cases hr
        exact .text hs (readHeaders_eq_notUtf8_iff.mp he)
      | some text =>
        have hm : e = .malformedHeader := by
          unfold readHeaders at hr
          rw [ht] at hr
          simp only at hr
          split at hr <;> cases hr
          rfl
        subst hm
        obtain ⟨text, ls, rfl, hls, hw⟩ := readHeaders_eq_malformed_iff.mp hr
        exact .lines hs hls hw

theorem payloadLength_eq_blocksLength (limit : Nat) (layout : Layout) (bs : Bytes) :
    payloadLength limit layout bs = blocksLength limit (blockCount layout bs) bs := by
  cases layout with
  | empty => rfl
  | optionalHeaders =>
    unfold payloadLength blockCount
    simp only
    split <;> rfl
  | headers => rfl
  | headersAndBody => rfl

theorem layout_of_blockCount_zero {layout : Layout} {behind : Bytes}
    (h : blockCount layout behind = 0) : layout = .empty ∨ layout = .optionalHeaders := by
  cases layout with
  | empty => exact .inl rfl
  | optionalHeaders => exact .inr rfl
  | headers => cases h
  | headersAndBody => cases h

theorem layout_of_blockCount_one {layout : Layout} {behind : Bytes}
    (h : blockCount layout behind = 1) : layout ≠ .empty ∧ layout ≠ .headersAndBody := by
  constructor <;> (rintro rfl; cases h)

theorem layout_of_one_lt_blockCount {layout : Layout} {behind : Bytes}
    (h : 1 < blockCount layout behind) :
    layout = .headersAndBody ∧ blockCount layout behind = 2 := by
  cases layout with
  | optionalHeaders =>
    unfold blockCount at h
    simp only at h
    split at h <;> omega
  | headersAndBody => exact ⟨rfl, rfl⟩
  | _ => exact absurd h (by simp [blockCount])

/-- A block that is not the text of headers is refused as it is. -/
theorem readPayload_block_error {t : MessageType} {data : Bytes} {e : DecodeError}
    (hne : t.layout ≠ .empty) (hd : data.length < lengthBound) (hr : readHeaders data = .error e)
    (more : Bytes) : readPayload t (block data ++ more) = .error e := by
  have hno : ¬ (t.layout = .empty ∨ t.layout = .optionalHeaders ∧ block data ++ more = []) := by
    rintro (h | ⟨-, h⟩)
    · exact hne h
    · exact block_ne_nil data (List.append_eq_nil_iff.mp h).1
  rw [readPayload, if_neg hno, takeBlock?_block hd]
  simp only [hr]

/-- The blocks of a complete frame are read as its message. -/
theorem readPayload_blocks {limit : Nat} {t : MessageType} {behind rest : Bytes}
    {blocks : List Bytes} (h : Blocks limit (blockCount t.layout behind) behind blocks rest) :
    readPayload t (blocks.flatMap block) = ofBlocks t blocks := by
  have hcount := h.count
  cases blocks with
  | nil =>
    rw [readPayload, if_pos ((layout_of_blockCount_zero hcount.symm).imp_right fun h => ⟨h, rfl⟩)]
    rfl
  | cons data more =>
    have hd := (h.allowed data List.mem_cons_self).fits
    have hne : t.layout ≠ .empty := fun he => by
      rw [he] at hcount
      cases hcount
    rw [List.flatMap_cons, ofBlocks]
    cases hr : readHeaders data with
    | error e => rw [readPayload_block_error hne hd hr]; rfl
    | ok headers =>
      rw [readPayload_block hne hd hr]
      cases more with
      | nil =>
        rw [if_neg (layout_of_blockCount_one hcount.symm).2]
        rfl
      | cons body more =>
        obtain ⟨hl, htwo⟩ := layout_of_one_lt_blockCount
          (show 1 < blockCount t.layout behind by simp only [← hcount, List.length_cons]; omega)
        obtain rfl : more = [] := by
          rw [htwo] at hcount
          exact List.length_eq_zero_iff.mp (by simpa using hcount)
        have hb := (h.allowed body (by simp)).fits
        have ht : takeBlock? ([body].flatMap block) = some (body, []) := by
          simpa using takeBlock?_block hb []
        rw [if_pos hl, ht]
        rfl

/-! ## The decoder -/

namespace Decoder

variable {limit : Nat} {bs rest : Bytes}

/-- A buffer with a marker and a type in front, by the length of its blocks. -/
theorem decode_new_type (limit : Nat) (t : MessageType) (behind : Bytes) :
    (new limit).decode (marker ++ t.toByte :: behind) =
      match blocksLength limit (blockCount t.layout behind) behind with
      | .error e => ⟨.error e, new limit, marker ++ t.toByte :: behind⟩
      | .ok none => ⟨.ok none, new limit, marker ++ t.toByte :: behind⟩
      | .ok (some n) => (new limit).takeFrame t n (marker ++ t.toByte :: behind) := by
  have hf : frameLength limit (marker ++ t.toByte :: behind) =
      (blocksLength limit (blockCount t.layout behind) behind).map (Option.map (t, ·)) := by
    rw [frameLength_cons rfl, if_pos rfl, MessageType.ofByte?_toByte]
    simp only [payloadLength_eq_blocksLength]
  unfold decode
  simp only [new, hf]
  rcases blocksLength limit (blockCount t.layout behind) behind with e | _ | n <;> rfl

/-- A complete frame is taken off the buffer. -/
theorem decode_new_of_stands {t : MessageType} {blocks : List Bytes}
    (h : Stands limit bs t blocks rest) :
    (new limit).decode bs = ⟨(ofBlocks t blocks).map some, new limit, rest⟩ := by
  obtain @⟨t, behind, rest, blocks, hb⟩ := h
  have hcut : cut? (headerLength + (blocks.flatMap block).length)
      (marker ++ t.toByte :: behind) = some (marker ++ t.toByte :: blocks.flatMap block, rest) := by
    rw [cut?_eq_some_iff, hb.bytes]
    refine ⟨by simp, ?_⟩
    simp only [List.length_append, List.length_cons, marker, headerLength, List.length_nil]
    omega
  rw [decode_new_type, hb.blocksLength_eq]
  simp only [takeFrame, hcut]
  rw [← readPayload_blocks hb]
  rfl

theorem decode_new_of_accepted {m : Message} (h : Accepted limit bs m rest) :
    (new limit).decode bs = ⟨.ok (some m), new limit, rest⟩ := by
  obtain ⟨t, blocks, hs, ht⟩ := h
  rw [decode_new_of_stands hs, ofBlocks_eq_ok_iff.mpr ht]
  rfl

theorem result_of_refused {e : DecodeError} (h : Refused limit bs e) :
    ((new limit).decode bs).result = .error e := by
  cases h with
  | marker h =>
    have hf : frameLength limit bs = .error .invalidMarker := by
      rw [← List.append_nil bs]
      exact frameLength_append_of_wrong [] (by rwa [List.isPrefixOf_iff_prefix])
    unfold decode
    simp only [new, hf]
  | @type byte behind h =>
    have hf : frameLength limit (Wire.marker ++ byte :: behind) = .error (.unknownType byte) := by
      rw [frameLength_cons rfl, if_pos rfl, MessageType.ofByte?_eq_none_iff.mpr h]
    unfold decode
    simp only [new, hf]
  | size h => rw [decode_new_type, h.blocksLength_eq]
  | @text _ data rest t more stands h =>
    rw [decode_new_of_stands stands, ofBlocks, readHeaders_eq_notUtf8_iff.mpr h]
    rfl
  | @lines _ rest t more text ls stands lines h =>
    rw [decode_new_of_stands stands, ofBlocks,
      readHeaders_eq_malformed_iff.mpr ⟨text, ls, rfl, lines, h⟩]
    rfl

theorem result_of_unfinished (h : Unfinished limit bs) :
    ((new limit).decode bs).result = .ok none := by
  cases h with
  | marker h =>
    have hlen : bs.length < headerLength := Nat.lt_succ_of_le h.length_le
    have hf : frameLength limit bs = .ok none := by
      rw [frameLength_of_length_lt hlen, if_pos]
      rw [List.isPrefixOf_iff_prefix]
      exact (List.take_prefix 4 bs).trans h
    unfold decode
    simp only [new, hf]
  | @blocks t behind h =>
    rw [decode_new_type]
    obtain hn | ⟨n, hn, hlt⟩ := h.blocksLength_eq
    · rw [hn]
    · have hcut : cut? (headerLength + n) (Wire.marker ++ t.toByte :: behind) = none := by
        rw [cut?_eq_none_iff]
        simp only [List.length_append, List.length_cons, marker, headerLength, List.length_nil]
        omega
      rw [hn]
      simp only [takeFrame, hcut]

/-- **Every buffer is accepted, refused or unfinished.** -/
theorem decode_new_cases (limit : Nat) (bs : Bytes) :
    (∃ m rest, Accepted limit bs m rest) ∨ (∃ e, Refused limit bs e) ∨ Unfinished limit bs := by
  by_cases hlen : headerLength ≤ bs.length
  · obtain ⟨front, byte, behind, hf, rfl⟩ := exists_front hlen
    by_cases hm : front = marker
    · subst hm
      cases ht : MessageType.ofByte? byte with
      | none => exact .inr (.inl ⟨_, .type (MessageType.ofByte?_eq_none_iff.mp ht)⟩)
      | some t =>
        obtain rfl := MessageType.ofByte?_eq_some_iff.mp ht
        obtain ⟨blocks, rest, hb⟩ | hover | hshort :=
          blocks_cases limit (blockCount t.layout behind) behind
        · cases ho : ofBlocks t blocks with
          | ok m => exact .inl ⟨m, rest, t, blocks, ⟨hb⟩, ofBlocks_eq_ok_iff.mp ho⟩
          | error e => exact .inr (.inl ⟨e, refused_of_ofBlocks ⟨hb⟩ ho⟩)
        · exact .inr (.inl ⟨_, .size hover⟩)
        · exact .inr (.inr (.blocks hshort))
    · refine .inr (.inl ⟨_, .marker ?_⟩)
      rw [List.take_left' hf]
      exact fun h => hm (h.eq_of_length hf)
  · have htake : bs.take 4 = bs := by
      apply List.take_of_length_le
      unfold headerLength at hlen
      omega
    by_cases hm : bs <+: marker
    · exact .inr (.inr (.marker hm))
    · exact .inr (.inl ⟨_, .marker (htake.symm ▸ hm)⟩)

/-- **A decoder that has seen nothing finds a message exactly in a buffer that the grammar accepts,
and leaves the rest; it fails exactly with the error of the first rule broken; and it waits exactly
while neither shows.** -/
theorem decode_new_iff (limit : Nat) (bs : Bytes) :
    (∀ m rest, ((new limit).decode bs).result = .ok (some m) ∧
        ((new limit).decode bs).rest = rest ↔ Accepted limit bs m rest) ∧
      (∀ e, ((new limit).decode bs).result = .error e ↔ Refused limit bs e) ∧
      (((new limit).decode bs).result = .ok none ↔ Unfinished limit bs) := by
  have hall := decode_new_cases limit bs
  refine ⟨fun m rest => ⟨?_, fun h => ?_⟩, fun e => ⟨fun h => ?_, result_of_refused⟩,
    fun h => ?_, result_of_unfinished⟩
  · rintro ⟨h, rfl⟩
    obtain ⟨m', rest', ha⟩ | ⟨e, hr⟩ | hu := hall
    · rw [decode_new_of_accepted ha] at h ⊢
      cases h
      exact ha
    · rw [result_of_refused hr] at h
      cases h
    · rw [result_of_unfinished hu] at h
      cases h
  · rw [decode_new_of_accepted h]
    exact ⟨rfl, rfl⟩
  · obtain ⟨m', rest', ha⟩ | ⟨e', hr⟩ | hu := hall
    · rw [decode_new_of_accepted ha] at h
      cases h
    · rw [result_of_refused hr] at h
      cases h
      exact hr
    · rw [result_of_unfinished hu] at h
      cases h
  · obtain ⟨m', rest', ha⟩ | ⟨e', hr⟩ | hu := hall
    · rw [decode_new_of_accepted ha] at h
      cases h
    · rw [result_of_refused hr] at h
      cases h
    · exact hu

end Decoder

end Wire

end MessageBroker
