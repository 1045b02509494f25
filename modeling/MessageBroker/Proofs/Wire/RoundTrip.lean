import MessageBroker.Proofs.Wire.Draining
import MessageBroker.Proofs.Wire.HeaderBlock

/-!
# What is written is read back

Frames that are written one behind the other are read back as the messages they were written from.
Of a message a frame keeps what its type has room for: `Outgoing.arrival`. A bare frame of a type
whose headers are optional is told from a longer one by the marker of the next frame, or by the end
of the input.

Headlines:
* **`encodeInto_eq_ok`**: what is appended to a buffer when a message can be written.
* **`Outgoing.decode_frame`**: a frame is read back, if it is not bare or another frame follows.
* **`Outgoing.readOut_frames`**: frames in a row are read back as their messages, in order.
-/

namespace MessageBroker.Wire

/-! ## Written frames -/

/-- What follows the type byte, for a header block and a body. -/
def payload (layout : Layout) (headers body : Bytes) : Bytes :=
  match layout with
  | .empty => []
  | .optionalHeaders => block headers
  | .headers => block headers
  | .headersAndBody => block headers ++ block body

/-- The blocks that a layout asks for fit their prefixes. -/
def Fits (layout : Layout) (headers body : Bytes) : Prop :=
  (layout ≠ .empty → headers.length < lengthBound) ∧
    (layout = .headersAndBody → body.length < lengthBound)

theorem putBlock_eq_ok {data buffer : Bytes} (h : (putBlock data buffer).outcome = .ok ()) :
    putBlock data buffer = ⟨buffer ++ block data, .ok ()⟩ ∧ data.length < lengthBound := by
  unfold putBlock at h ⊢
  split
  · rename_i hlt
    exact ⟨rfl, hlt⟩
  · rename_i hlt
    rw [if_neg hlt] at h
    cases h

/-- **What is appended to a buffer when a message can be written.** -/
theorem encodeInto_eq_ok {destination : String} {m : Message} {headers : List (String × String)}
    {buffer : Bytes} (h : (encodeInto destination m headers buffer).outcome = .ok ()) :
    ∃ text, headerText destination m headers = .ok text ∧
      Fits (writtenLayout m.type text) (utf8 (String.ofList text)) (m.body.getD []) ∧
      (encodeInto destination m headers buffer).buffer = buffer ++ (marker ++ m.type.toByte ::
        payload (writtenLayout m.type text) (utf8 (String.ofList text)) (m.body.getD [])) := by
  cases ht : headerText destination m headers with
  | error e =>
    unfold encodeInto at h
    rw [ht] at h
    cases h
  | ok text =>
    refine ⟨text, rfl, ?_⟩
    unfold encodeInto at h ⊢
    rw [ht] at h ⊢
    simp only at h ⊢
    cases hl : writtenLayout m.type text with
    | empty => exact ⟨⟨fun h => absurd rfl h, fun h => absurd h (by decide)⟩, by simp [payload]⟩
    | optionalHeaders =>
      rw [hl] at h
      obtain ⟨he, hlt⟩ := putBlock_eq_ok h
      refine ⟨⟨fun _ => hlt, fun h => absurd h (by decide)⟩, ?_⟩
      simp [he, payload]
    | headers =>
      rw [hl] at h
      obtain ⟨he, hlt⟩ := putBlock_eq_ok h
      refine ⟨⟨fun _ => hlt, fun h => absurd h (by decide)⟩, ?_⟩
      simp [he, payload]
    | headersAndBody =>
      rw [hl] at h
      simp only at h ⊢
      rcases hp : putBlock (utf8 (String.ofList text)) (buffer ++ (marker ++ [m.type.toByte])) with
        ⟨b, _ | _⟩
      · rw [hp] at h
        cases h
      · obtain ⟨he, hlt⟩ := putBlock_eq_ok (by rw [hp])
        rw [hp] at h
        obtain ⟨he', hlt'⟩ := putBlock_eq_ok h
        rw [hp] at he
        cases he
        refine ⟨⟨fun _ => hlt, fun _ => hlt'⟩, ?_⟩
        simp only
        rw [he']
        simp [payload]

/-! ## One frame -/

theorem blocksLength_block {data : Bytes} (h : data.length < lengthBound) (k : Nat) (rest : Bytes) :
    blocksLength 0 (k + 1) (block data ++ rest) =
      (blocksLength 0 k rest).map (Option.map (4 + data.length + ·)) := by
  have hd : (block data ++ rest).drop (4 + data.length) = rest := by
    apply List.drop_left'
    simp [block]
  have hb : blockLength? (block data ++ rest) = some data.length := by
    rw [block, List.append_assoc]
    exact blockLength?_encode h _
  rw [blocksLength, hb]
  simp only [exceeds, bne_self_eq_false, Bool.false_and, Bool.false_eq_true, if_false, hd]

theorem length_block (data : Bytes) : (block data).length = 4 + data.length := by
  unfold block
  rw [List.length_append, length_encodeLength]

theorem blocksLength_one {data : Bytes} (h : data.length < lengthBound) (rest : Bytes) :
    blocksLength 0 1 (block data ++ rest) = .ok (some (block data).length) := by
  rw [blocksLength_block h, length_block]
  rfl

theorem blocksLength_two {data body : Bytes} (h : data.length < lengthBound)
    (hb : body.length < lengthBound) (rest : Bytes) :
    blocksLength 0 2 (block data ++ block body ++ rest) =
      .ok (some (block data ++ block body).length) := by
  rw [List.append_assoc, blocksLength_block h, blocksLength_one hb, List.length_append,
    length_block data]
  rfl

theorem block_ne_nil (data : Bytes) : block data ≠ [] := by
  unfold block encodeLength
  simp

/-- What is read behind the type byte when it starts with a block of headers. -/
theorem readPayload_block {t : MessageType} {data : Bytes} {headers : Headers}
    (hl : t.layout ≠ .empty) (hd : data.length < lengthBound)
    (hh : readHeaders data = .ok headers) (rest : Bytes) :
    readPayload t (block data ++ rest) =
      if t.layout = .headersAndBody then
        (takeBlock? rest).elim (.error .invalidLength) fun body => .ok
          { type := t
            headers := headers.erase Header.destination.name
            destination := headers.get? Header.destination.name
            body := some body.1 }
      else .ok
        { type := t
          headers := headers.erase Header.destination.name
          destination := headers.get? Header.destination.name } := by
  have hc : ¬ (t.layout = .empty ∨ t.layout = .optionalHeaders ∧ block data ++ rest = []) := by
    rintro (h | ⟨-, h⟩)
    · exact hl h
    · exact block_ne_nil data (List.append_eq_nil_iff.mp h).1
  unfold readPayload
  rw [if_neg hc, takeBlock?_block hd]
  simp only [hh]
  cases takeBlock? rest with
  | none => rfl
  | some body => rfl

/-- The length whose prefix reads as the marker. -/
def markerLength : Nat := 0x4d53473a

theorem eq_markerLength_of_isPrefixOf {data rest : Bytes} (h : data.length < lengthBound)
    (hp : marker.isPrefixOf (block data ++ rest) = true) : data.length = markerLength := by
  obtain ⟨more, hm⟩ := List.isPrefixOf_iff_prefix.mp hp
  have h1 : blockLength? (block data ++ rest) = some data.length := by
    rw [block, List.append_assoc]
    exact blockLength?_encode h _
  rw [← hm] at h1
  exact (Option.some.inj h1).symm

/-- A message on its way to a destination, and the order in which its headers come up. -/
structure Outgoing where
  destination : String
  message : Message
  order : List (String × String)
  perm : order.Perm message.headers.entries

namespace Outgoing

/-- The frame, and whether there is one. -/
def written (o : Outgoing) : Written := encodeInto o.destination o.message o.order []

def frame (o : Outgoing) : Bytes := o.written.buffer

/-- The text of the header block. -/
def text (o : Outgoing) : Except EncodeError (List Char) :=
  headerText o.destination o.message o.order

/-- The length of an optional header block reads as the marker of a frame. -/
def SpellsMarker (o : Outgoing) : Prop :=
  o.message.type.layout = .optionalHeaders ∧
    ∃ text, o.text = .ok text ∧ (utf8 (String.ofList text)).length = markerLength

/-- The message that arrives: the headers and the body that the type has room for, and the
destination it was sent to. -/
def arrival (o : Outgoing) : Message :=
  match o.message.type.layout with
  | .empty => { type := o.message.type }
  | layout =>
    { type := o.message.type
      headers := o.message.headers.erase Header.destination.name
      destination := if o.destination.isEmpty then none else some o.destination
      body := if layout = .headersAndBody then some (o.message.body.getD []) else none }

/-- The headers on the lines of the frame. -/
def lines (o : Outgoing) : List (String × String) := frameHeaders o.destination o.order

theorem keys_order_nodup (o : Outgoing) : (o.order.map (·.1)).Nodup :=
  (o.perm.map _).nodup_iff.mpr o.message.headers.keys_nodup

theorem keys_lines_nodup (o : Outgoing) : (o.lines.map (·.1)).Nodup := by
  have hf : ((o.order.filter fun e => e.1 != Header.destination.name).map (·.1)).Nodup :=
    o.keys_order_nodup.sublist ((List.filter_sublist).map _)
  unfold lines frameHeaders
  split
  · exact hf
  · rw [List.singleton_append, List.map_cons, List.nodup_cons]
    refine ⟨fun hm => ?_, hf⟩
    obtain ⟨e, he, hn⟩ := List.mem_map.mp hm
    have := (List.mem_filter.mp he).2
    rw [hn] at this
    simp at this

theorem mem_lines {o : Outgoing} {e : String × String} : e ∈ o.lines ↔
    e = (Header.destination.name, o.destination) ∧ o.destination.isEmpty = false ∨
      e.1 ≠ Header.destination.name ∧ o.message.headers.get? e.1 = some e.2 := by
  have ho : e ∈ o.order ↔ o.message.headers.get? e.1 = some e.2 := by
    rw [o.perm.mem_iff, ← Table.mem_entries]
  unfold lines frameHeaders
  rw [List.mem_append, List.mem_filter, ho]
  cases hd : o.destination.isEmpty <;> simp [and_comm]

/-- The lines give the headers of the message back, the one for the destination aside. -/
theorem erase_ofList_lines (o : Outgoing) :
    (Table.ofList o.lines).erase Header.destination.name =
      o.message.headers.erase Header.destination.name := by
  apply Table.ext
  intro name
  rw [Table.get?_erase, Table.get?_erase]
  split
  · rfl
  · rename_i hn
    apply Option.ext
    intro value
    rw [Table.get?_ofList o.keys_lines_nodup, mem_lines]
    simp [hn]

theorem get?_ofList_lines (o : Outgoing) :
    (Table.ofList o.lines).get? Header.destination.name =
      if o.destination.isEmpty then none else some o.destination := by
  apply Option.ext
  intro value
  rw [Table.get?_ofList o.keys_lines_nodup, mem_lines]
  cases hd : o.destination.isEmpty <;> simp [eq_comm]

theorem writeLines_lines {o : Outgoing} {text : List Char} (h : o.text = .ok text)
    (hl : o.message.type.layout ≠ .empty) : writeLines o.lines = .ok text := by
  unfold Outgoing.text headerText at h
  split at h
  · cases h
  · exact h

/-- The header block is that of the lines, for a type that has one. -/
theorem readHeaders_text {o : Outgoing} {text : List Char} (h : o.text = .ok text)
    (hl : o.message.type.layout ≠ .empty) :
    readHeaders (utf8 (String.ofList text)) = .ok (Table.ofList o.lines) := by
  obtain ⟨hw, rfl⟩ := writeLines_eq_ok_iff.mp (writeLines_lines h hl)
  exact readHeaders_lines hw

/-- Without a text there are no lines. -/
theorem lines_of_text_eq_nil {o : Outgoing} (h : o.text = .ok [])
    (hl : o.message.type.layout ≠ .empty) : o.lines = [] := by
  obtain ⟨-, hf⟩ := writeLines_eq_ok_iff.mp (writeLines_lines h hl)
  exact flatMap_line_eq_nil_iff.mp hf.symm

/-- The message of a type and the headers on the lines, with a body. -/
theorem arrival_eq {o : Outgoing} (hl : o.message.type.layout ≠ .empty) :
    o.arrival =
      { type := o.message.type
        headers := (Table.ofList o.lines).erase Header.destination.name
        destination := (Table.ofList o.lines).get? Header.destination.name
        body := if o.message.type.layout = .headersAndBody then some (o.message.body.getD [])
          else none } := by
  rw [erase_ofList_lines, get?_ofList_lines]
  unfold arrival
  split
  · rename_i he
    exact absurd he hl
  · rfl

/-- The layout on the wire: a type whose headers are optional goes bare if it has none. -/
def Bare (o : Outgoing) : Prop := o.message.type.layout = .optionalHeaders ∧ o.text = .ok []

theorem arrival_of_bare {o : Outgoing} (h : o.Bare) : o.arrival = { type := o.message.type } := by
  obtain ⟨hl, ht⟩ := h
  have hne : o.message.type.layout ≠ .empty := by rw [hl]; decide
  rw [arrival_eq hne, lines_of_text_eq_nil ht hne, hl]
  rfl

theorem readPayload_eq {o : Outgoing} {text : List Char} (h : o.text = .ok text)
    (hf : Fits (writtenLayout o.message.type text) (utf8 (String.ofList text))
      (o.message.body.getD [])) :
    readPayload o.message.type (payload (writtenLayout o.message.type text)
      (utf8 (String.ofList text)) (o.message.body.getD [])) = .ok o.arrival := by
  by_cases he : o.message.type.layout = .empty
  · have hw : writtenLayout o.message.type text = .empty := by simp [writtenLayout, he]
    have ha : o.arrival = { type := o.message.type } := by simp [arrival, he]
    rw [hw, ha, readPayload, if_pos (Or.inl he)]
  · by_cases hb : o.message.type.layout = .optionalHeaders ∧ text = []
    · have hw : writtenLayout o.message.type text = .empty := by simp [writtenLayout, hb]
      rw [hw, arrival_of_bare ⟨hb.1, hb.2 ▸ h⟩, readPayload, if_pos (Or.inr ⟨hb.1, rfl⟩)]
    · have hw : writtenLayout o.message.type text = o.message.type.layout := if_neg hb
      have hh := readHeaders_text h he
      rw [hw] at hf ⊢
      rw [arrival_eq he]
      by_cases hm : o.message.type.layout = .headersAndBody
      · rw [hm, payload, readPayload_block he (hf.1 he) hh, if_pos hm, if_pos rfl,
          ← List.append_nil (block (o.message.body.getD [])), takeBlock?_block (hf.2 hm),
          Option.elim_some]
      · have hp : payload o.message.type.layout (utf8 (String.ofList text))
            (o.message.body.getD []) = block (utf8 (String.ofList text)) ++ [] := by
          cases hl : o.message.type.layout <;> simp_all [payload]
        rw [hp, readPayload_block he (hf.1 he) hh, if_neg hm, if_neg hm]

/-- The bytes behind the type byte tell how long the blocks are, unless the frame is bare: then the
next frame has to follow. -/
theorem payloadLength_eq {o : Outgoing} {text : List Char} (h : o.text = .ok text)
    (hf : Fits (writtenLayout o.message.type text) (utf8 (String.ofList text))
      (o.message.body.getD [])) (hm : ¬ o.SpellsMarker) {rest : Bytes}
    (hr : o.Bare → marker <+: rest) :
    payloadLength 0 o.message.type.layout (payload (writtenLayout o.message.type text)
      (utf8 (String.ofList text)) (o.message.body.getD []) ++ rest) =
        .ok (some (payload (writtenLayout o.message.type text)
          (utf8 (String.ofList text)) (o.message.body.getD [])).length) := by
  cases hl : o.message.type.layout with
  | empty =>
    have hw : writtenLayout o.message.type text = .empty := by simp [writtenLayout, hl]
    rw [hw]
    rfl
  | optionalHeaders =>
    by_cases ht : text = []
    · have hw : writtenLayout o.message.type text = .empty := by simp [writtenLayout, hl, ht]
      rw [hw, payload, payloadLength, List.nil_append,
        if_pos (List.isPrefixOf_iff_prefix.mpr (hr ⟨hl, ht ▸ h⟩))]
      rfl
    · have hw : writtenLayout o.message.type text = .optionalHeaders := by
        simp [writtenLayout, hl, ht]
      rw [hw] at hf ⊢
      have hd := hf.1 (by decide)
      rw [payload, payloadLength, if_neg, blocksLength_one hd]
      intro hp
      exact hm ⟨hl, text, h, eq_markerLength_of_isPrefixOf hd hp⟩
  | headers =>
    have hw : writtenLayout o.message.type text = .headers := by simp [writtenLayout, hl]
    rw [hw] at hf ⊢
    exact blocksLength_one (hf.1 (by decide)) rest
  | headersAndBody =>
    have hw : writtenLayout o.message.type text = .headersAndBody := by simp [writtenLayout, hl]
    rw [hw] at hf ⊢
    exact blocksLength_two (hf.1 (by decide)) (hf.2 rfl) rest

/-- **A frame is read back, if it is not bare or another frame follows.** -/
theorem decode_frame {o : Outgoing} (h : o.written.outcome = .ok ()) (hm : ¬ o.SpellsMarker)
    {rest : Bytes} (hr : o.Bare → marker <+: rest) :
    (Decoder.new 0).decode (o.frame ++ rest) = ⟨.ok (some o.arrival), Decoder.new 0, rest⟩ := by
  obtain ⟨text, ht, hf, hb⟩ := encodeInto_eq_ok h
  let p := payload (writtenLayout o.message.type text) (utf8 (String.ofList text))
    (o.message.body.getD [])
  have hframe : o.frame = marker ++ o.message.type.toByte :: p := hb
  have hlen : frameLength 0 (o.frame ++ rest) = .ok (some (o.message.type, p.length)) := by
    rw [hframe, List.append_assoc, List.cons_append, frameLength_cons rfl, if_pos rfl,
      MessageType.ofByte?_toByte]
    simp only
    rw [payloadLength_eq ht hf hm hr]
    rfl
  have hcut : cut? (headerLength + p.length) (o.frame ++ rest) = some (o.frame, rest) := by
    rw [cut?_eq_some_iff, hframe]
    refine ⟨rfl, ?_⟩
    simp only [List.length_append, List.length_cons, marker, headerLength, List.length_nil]
    omega
  have hread : readPayload o.message.type (o.frame.drop headerLength) = .ok o.arrival := by
    rw [hframe]
    exact readPayload_eq ht hf
  unfold Decoder.decode Decoder.takeFrame
  simp only [Decoder.new, hlen, hcut, hread]
  rfl

/-! ## Frames in a row -/

theorem marker_prefix_frame {o : Outgoing} (h : o.written.outcome = .ok ()) :
    marker <+: o.frame := by
  obtain ⟨text, -, -, hb⟩ := encodeInto_eq_ok h
  have hframe : o.frame = [] ++ (marker ++ _) := hb
  rw [hframe]
  exact List.prefix_append _ _

theorem frame_of_bare {o : Outgoing} (h : o.written.outcome = .ok ()) (hb : o.Bare) :
    o.frame = marker ++ [o.message.type.toByte] := by
  obtain ⟨text, ht, -, hf⟩ := encodeInto_eq_ok h
  obtain ⟨hl, ht'⟩ := hb
  have : text = [] := Except.ok.inj (ht.symm.trans ht')
  have hw : writtenLayout o.message.type text = .empty := by simp [writtenLayout, hl, this]
  rw [hw] at hf
  exact hf

/-- A bare frame that nothing follows is known when the input ends. -/
theorem readOut_bare {t : MessageType} (h : t.layout = .optionalHeaders) :
    (Decoder.new 0).readOut true (marker ++ [t.toByte]) =
      ⟨[{ type := t }], none, Decoder.new 0, []⟩ := by
  have hlen : frameLength 0 (marker ++ [t.toByte]) = .ok none := by
    rw [frameLength_cons rfl, if_pos rfl, MessageType.ofByte?_toByte]
    simp only [h]
    rfl
  have hd : (Decoder.new 0).decode (marker ++ [t.toByte]) =
      ⟨.ok none, Decoder.new 0, marker ++ [t.toByte]⟩ := by
    unfold Decoder.decode
    simp only [Decoder.new, hlen]
  have hbare : Decoder.bareMessage? (marker ++ [t.toByte]) = .ok (some { type := t }) := by
    simp only [marker, Decoder.bareMessage?, List.cons_append, List.nil_append,
      MessageType.ofByte?_toByte, h, if_true]
  have he : (Decoder.new 0).next true (marker ++ [t.toByte]) =
      ⟨.ok (some { type := t }), Decoder.new 0, []⟩ := by
    show (Decoder.new 0).decodeEof (marker ++ [t.toByte]) = _
    unfold Decoder.decodeEof
    rw [hd]
    simp only [Decoder.new, if_true, hbare]
  have hw : (Decoder.new 0).next false (marker ++ [t.toByte]) =
      ⟨.ok none, Decoder.new 0, marker ++ [t.toByte]⟩ := hd
  have hn : (Decoder.new 0).next true [] = ⟨.ok none, Decoder.new 0, []⟩ := rfl
  rw [Decoder.readOut_of_none hw, Decoder.drain_of_message he, Decoder.drain_of_none hn]
  rfl

/-- **Frames in a row are read back as their messages, in order,** whatever order their headers are
written in. -/
theorem readOut_frames (os : List Outgoing) (hw : ∀ o ∈ os, o.written.outcome = .ok ())
    (hm : ∀ o ∈ os, ¬ o.SpellsMarker) :
    (Decoder.new 0).readOut true (os.flatMap frame) =
      ⟨os.map arrival, none, Decoder.new 0, []⟩ := by
  induction os with
  | nil =>
    have hn : ∀ ended, (Decoder.new 0).next ended [] = ⟨.ok none, Decoder.new 0, []⟩ := by
      intro ended
      cases ended <;> rfl
    rw [List.flatMap_nil, Decoder.readOut_of_none (hn false), Decoder.drain_of_none (hn true)]
    rfl
  | cons o os ih =>
    have ho := hw o List.mem_cons_self
    have ih := ih (fun o h => hw o (List.mem_cons_of_mem _ h))
      (fun o h => hm o (List.mem_cons_of_mem _ h))
    by_cases hlast : o.Bare ∧ os = []
    · obtain ⟨hb, rfl⟩ := hlast
      rw [List.flatMap_cons, List.flatMap_nil, List.append_nil, frame_of_bare ho hb,
        readOut_bare hb.1, List.map_cons, arrival_of_bare hb, List.map_nil]
    · have hr : o.Bare → marker <+: os.flatMap frame := by
        intro hb
        cases os with
        | nil => exact absurd ⟨hb, rfl⟩ hlast
        | cons o' os =>
          have := marker_prefix_frame (hw o' (List.mem_cons_of_mem _ List.mem_cons_self))
          exact this.trans (List.prefix_append _ _)
      have hd : (Decoder.new 0).next false (o.frame ++ os.flatMap frame) =
          ⟨.ok (some o.arrival), Decoder.new 0, os.flatMap frame⟩ :=
        decode_frame ho (hm o List.mem_cons_self) hr
      rw [List.flatMap_cons, Decoder.readOut_of_message hd, ih]
      rfl

/-- A departure, a note whose header has a colon at the end of its name and a separator in its value,
and an acknowledgement that names nothing. -/
def farewell : List Outgoing :=
  [⟨"", { type := .unsubscribe }, [], .refl _⟩,
    ⟨"news", { type := .message, headers := (∅ : Headers).insert "to:" "all: you" },
      [("to:", "all: you")], .refl _⟩,
    ⟨"", { type := .ack }, [], .refl _⟩]

theorem readOut_farewell :
    (∀ o ∈ farewell, o.written.outcome = .ok ()) ∧ (∀ o ∈ farewell, ¬ o.SpellsMarker) ∧
      (Decoder.new 0).readOut true (farewell.flatMap frame) =
        ⟨farewell.map arrival, none, Decoder.new 0, []⟩ := by
  have hw : ∀ o ∈ farewell, o.written.outcome = .ok () := by
    intro o ho
    simp only [farewell, List.mem_cons, List.not_mem_nil, or_false] at ho
    rcases ho with rfl | rfl | rfl
    · rfl
    · rfl
    · rfl
  have hm : ∀ o ∈ farewell, ¬ o.SpellsMarker := by
    rintro o ho ⟨hl, text, ht, hlen⟩
    simp only [farewell, List.mem_cons, List.not_mem_nil, or_false] at ho
    rcases ho with rfl | rfl | rfl
    · cases ht
      exact absurd hlen (by decide)
    · exact absurd hl (by decide)
    · cases ht
      exact absurd hlen (by decide)
  exact ⟨hw, hm, readOut_frames farewell hw hm⟩

end Outgoing

end MessageBroker.Wire
