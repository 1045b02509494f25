import Mathlib.Data.List.Flatten
import Mathlib.Data.List.Perm.Subperm
import MessageBroker.Proofs.Wire.Writability

/-!
# What was found can be sent on

Reading is laxer than writing: empty lines, lines that a later one overrides, a last line without an
end and an empty header block are all read, and none of them is written. Nothing of a message
depends on them, though. So a message that a decoder found can be sent to where it was headed, and
is found again; only a destination that was there but empty is gone. The new frame has a line for
each header that counted, and those stood in the old one, at most the last of them without its end.

Headlines:
* **`decodeEof_of_wholeFrame`**: what a frame tells is found at the end of the input.
* **`length_headerBlock_le`**: a block written anew has at most one byte more.
* **`Received.reissue`**: a message that a frame could have brought is written and found again.
* **`Intake.reissued`**: so is every message that a decoder finds, in every run.
-/

namespace MessageBroker

namespace Message

/-- The message without a destination that says nothing. -/
def settled (m : Message) : Message := { m with destination := m.address? }

theorem address?_eq (m : Message) : m.address? =
    if (m.destination.getD "").isEmpty then none else some (m.destination.getD "") := by
  unfold address?
  cases m.destination with
  | none => rfl
  | some d => cases hd : d.isEmpty <;> simp [Option.filter, hd]

/-- It is sent to the same place. -/
theorem getD_address? (m : Message) : m.address?.getD "" = m.destination.getD "" := by
  rw [address?_eq]
  split
  · rename_i he
    rw [String.isEmpty_iff.mp he]
    rfl
  · rfl

@[simp] theorem settled_settled (m : Message) : m.settled.settled = m.settled := by
  unfold settled address?
  simp

end Message

namespace Wire

variable {limit : Nat} {t : MessageType} {blocks : List Bytes} {m : Message}

/-! ## A frame at the end of the input -/

theorem isBare_frameOf {t' : MessageType} (h : Intake.IsBare t' (frameOf t blocks)) :
    t.layout = .optionalHeaders ∧ blocks = [] := by
  obtain ⟨hl, hb⟩ := h
  unfold frameOf at hb
  obtain ⟨ht, hblocks⟩ := List.cons.inj (List.append_cancel_left hb)
  have htype : t = t' := by
    have := congrArg MessageType.ofByte? ht
    simpa using this
  refine ⟨htype ▸ hl, List.eq_nil_iff_forall_not_mem.mpr fun data hd => ?_⟩
  exact block_ne_nil data (List.flatMap_eq_nil_iff.mp hblocks data hd)

/-- A frame with blocks, the length of an optional one not to be taken for a marker. -/
theorem WholeFrame.stands (h : WholeFrame limit t blocks)
    (hm : t.layout = .optionalHeaders → ∀ data ∈ blocks, data.length ≠ markerLength)
    (hne : ¬ (t.layout = .optionalHeaders ∧ blocks = [])) :
    Stands limit (frameOf t blocks) t blocks [] := by
  refine .intro ⟨(List.append_nil _).symm, ?_, h.allowed⟩
  have hcount := h.count
  cases hl : t.layout with
  | empty =>
    rw [hl] at hcount
    simpa [blockCounts, blockCount] using hcount
  | headers =>
    rw [hl] at hcount
    simpa [blockCounts, blockCount] using hcount
  | headersAndBody =>
    rw [hl] at hcount
    simpa [blockCounts, blockCount] using hcount
  | optionalHeaders =>
    rw [hl] at hcount
    have hone : blocks.length = 1 := by
      have hsome := mt List.length_eq_zero_iff.mp fun hb => hne ⟨hl, hb⟩
      simp only [blockCounts, List.mem_cons, List.not_mem_nil, or_false] at hcount
      exact hcount.resolve_left hsome
    obtain ⟨data, rfl⟩ := List.length_eq_one_iff.mp hone
    have hmarker : ¬ marker.isPrefixOf ([data].flatMap block) = true := fun hp =>
      hm hl data (List.mem_singleton_self _) (eq_markerLength_of_isPrefixOf
        (h.allowed data (List.mem_singleton_self _)).fits hp)
    unfold blockCount
    simp only [if_neg hmarker, List.length_singleton]

/-- **What a frame tells is found at the end of the input,** and nothing is left. -/
theorem decodeEof_of_wholeFrame (h : WholeFrame limit t blocks)
    (hm : t.layout = .optionalHeaders → ∀ data ∈ blocks, data.length ≠ markerLength)
    (ht : Tells t blocks m) :
    (Decoder.new limit).decodeEof (frameOf t blocks) = ⟨.ok (some m), .new limit, []⟩ := by
  let s : Intake := ⟨.new limit, frameOf t blocks⟩
  have hs : Intake.Measured limit s := ⟨.inr rfl, fun _ _ h => nomatch h⟩
  by_cases hb : t.layout = .optionalHeaders ∧ blocks = []
  · obtain ⟨hl, rfl⟩ := hb
    cases ht
    exact hs.decodeEof_eq.1 t ⟨hl, rfl⟩
  · have hmore : s.look true = s.look false :=
      hs.decodeEof_eq.2 fun t' hbare => hb (isBare_frameOf hbare)
    exact hmore.trans (Decoder.decode_new_of_accepted ⟨t, blocks, h.stands hm hb, ht⟩)

/-! ## The length of a block written anew -/

/-- A line with its end, as octets. -/
def lineBytes (l : List Char) : Bytes := (l ++ ['\n']).flatMap String.utf8EncodeChar

theorem headerBlock_eq (es : List (String × String)) :
    headerBlock es = (es.map lineText).flatMap lineBytes := by
  unfold headerBlock
  rw [utf8_ofList, List.flatMap_assoc, List.flatMap_map]
  simp only [line_eq]
  rfl

/-- A text is its lines, but for the end of the last one. -/
theorem Lines.flatMap_end {text : List Char} {ls : List (List Char)} (h : Lines text ls) :
    ls.flatMap (· ++ ['\n']) = text ++ ['\n'] := by
  induction h with
  | last h => simp
  | next h rest ih =>
    rw [List.flatMap_cons, ih]
    simp

theorem Lines.length_flatMap_lineBytes {text : String} {ls : List (List Char)}
    (h : Lines text.toList ls) : (ls.flatMap lineBytes).length = (utf8 text).length + 1 := by
  have hchars : ls.flatMap lineBytes =
      (ls.flatMap (· ++ ['\n'])).flatMap String.utf8EncodeChar := by
    rw [List.flatMap_assoc]
    rfl
  have hend : String.utf8EncodeChar '\n' = [10] := by decide
  rw [hchars, h.flatMap_end, List.flatMap_append, List.length_append, ← utf8_ofList,
    String.ofList_toList]
  simp [hend]

theorem length_flatMap_lineBytes_le {ls ls' : List (List Char)} (hn : ls.Nodup) (hs : ls ⊆ ls') :
    (ls.flatMap lineBytes).length ≤ (ls'.flatMap lineBytes).length := by
  obtain ⟨l, hperm, hsub⟩ := hn.subperm hs
  rw [← (hperm.flatMap_right lineBytes).length_eq]
  exact (hsub.flatMap lineBytes).length_le

/-- Headers that a line can carry are told apart by their lines. -/
theorem nodup_map_lineText {es : List (String × String)} (hn : es.Nodup)
    (hw : ∀ e ∈ es, isWritable e = true) : (es.map lineText).Nodup := by
  have hread : ∀ e ∈ es, readLine? (lineText e) = some e := fun e he =>
    readLine?_line (Bool.and_eq_true_iff.mp (hw e he)).1
  refine List.Nodup.map_on (fun e he e' he' heq => ?_) hn
  have := hread e he
  rw [heq, hread e' he'] at this
  exact (Option.some.inj this).symm

/-- **A block written anew has at most one byte more** than the one its lines were read from. -/
theorem length_headerBlock_le {text : String} {ls : List (List Char)}
    {es : List (String × String)} (h : Lines text.toList ls) (hn : es.Nodup)
    (hw : ∀ e ∈ es, isWritable e = true) (hs : ∀ e ∈ es, lineText e ∈ ls) :
    (headerBlock es).length ≤ (utf8 text).length + 1 := by
  have hsub : es.map lineText ⊆ ls := by
    intro l hl
    obtain ⟨e, he, rfl⟩ := List.mem_map.mp hl
    exact hs e he
  rw [headerBlock_eq, ← h.length_flatMap_lineBytes]
  exact length_flatMap_lineBytes_le (nodup_map_lineText hn hw) hsub

/-- What a line gives under a name stands there as it is written. -/
theorem Gives.lineText_mem {ls : List (List Char)} {name value : String} (h : Gives ls name value) :
    lineText (name, value) ∈ ls := by
  obtain ⟨before, l, after, rfl, hl, -⟩ := h
  have : lineText (name, value) = l := hl.split.symm
  simp [this]

/-! ## Messages that a frame brought -/

/-- A message is as a frame could have brought it, down to what its type has no room for. -/
structure Received (m : Message) : Prop extends Readable m where
  noBody : m.type.layout ≠ .headersAndBody → m.body = none
  noHeaders : m.type.layout = .empty → m = { type := m.type }

theorem length_blocks_of_wholeFrame (h : WholeFrame limit t blocks) :
    (t.layout = .empty → blocks = []) ∧ (t.layout ≠ .headersAndBody → blocks.length ≤ 1) := by
  have hcount := h.count
  constructor
  · intro hl
    rw [hl] at hcount
    exact List.length_eq_zero_iff.mp (by simpa [blockCounts] using hcount)
  · intro hl
    cases hlayout : t.layout with
    | headersAndBody => exact absurd hlayout hl
    | _ =>
      rw [hlayout] at hcount
      simp only [blockCounts, List.mem_cons, List.not_mem_nil, or_false] at hcount
      omega

theorem received_of_tells (hr : Readable m) (hf : WholeFrame limit t blocks)
    (ht : Tells t blocks m) : Received m := by
  obtain ⟨hempty, hone⟩ := length_blocks_of_wholeFrame hf
  refine { hr with noBody := ?_, noHeaders := ?_ }
  · cases ht with
    | bare => exact fun _ => rfl
    | @headers data more m text ls type decoded lines wellFormed carries body =>
      intro hl
      have hmore := hone (type ▸ hl)
      have hnil : more = [] := List.eq_nil_of_length_eq_zero (by simpa using hmore)
      rw [body, hnil]
      rfl
  · cases ht with
    | bare => exact fun _ => rfl
    | headers type => exact fun hl => nomatch hempty (type ▸ hl)

/-- Its headers and its destination can stand on lines. -/
theorem Received.not_obstructs (h : Received m) (name : String) :
    ¬ Obstructs (m.destination.getD "") m name := by
  intro ho
  cases ho with
  | destination broken =>
    cases hd : m.destination with
    | none =>
      rw [hd] at broken
      cases broken
    | some d =>
      have hw := h.destination hd
      rw [hd] at broken
      simp only [isWritableValue, List.contains_eq_mem, Bool.not_eq_true',
        decide_eq_false_iff_not] at hw
      exact hw broken
  | header listed other unfit =>
    have hw := h.headers listed
    rw [isWritable_eq_false_iff.mpr unfit] at hw
    cases hw

/-- Its body fits its prefix. -/
theorem Received.length_body_lt (h : Received m) : (m.body.getD []).length < lengthBound := by
  by_cases hl : m.type.layout = .headersAndBody
  · obtain ⟨body, hb, hlt⟩ := h.body hl
    rwa [hb]
  · rw [h.noBody hl]
    decide

/-- Without the destination that says nothing it is one that a frame could have brought, too. -/
theorem Received.settled (h : Received m) : Received m.settled where
  headers := h.headers
  apart := h.apart
  destination _ hd := h.destination (Option.filter_eq_some_iff.mp hd).1
  body := h.body
  noBody := h.noBody
  noHeaders hl := by
    rw [h.noHeaders hl]
    rfl

/-- Behind the header block stands what stood there. -/
theorem length_blocksOf_cons_le {data : Bytes} {more : List Bytes} (hm : m.type = t)
    (hf : WholeFrame limit t (data :: more)) (hb : m.body = more.head?)
    (es : List (String × String)) : ((blocksOf m es).flatMap block).length ≤
      (block (headerBlock es)).length + (more.flatMap block).length := by
  have hcount := hf.count
  unfold blocksOf
  rw [hm]
  cases hl : t.layout with
  | empty => simp
  | headers => simp
  | optionalHeaders => by_cases hes : es = [] <;> simp [hes]
  | headersAndBody =>
    rw [hl] at hcount
    have hone : more.length = 1 := by simpa [blockCounts] using hcount
    obtain ⟨body, rfl⟩ := List.length_eq_one_iff.mp hone
    simp [hb]

/-- A frame without blocks has no room for lines, and its message none to fill it with. -/
theorem blocksOf_bare (hf : WholeFrame limit t []) : blocksOf { type := t } [] = [] := by
  have hcount := hf.count
  unfold blocksOf
  simp only
  cases hl : t.layout with
  | empty => rfl
  | optionalHeaders => rfl
  | headers =>
    rw [hl] at hcount
    simp [blockCounts] at hcount
  | headersAndBody =>
    rw [hl] at hcount
    simp [blockCounts] at hcount

/-- **The blocks written anew are at most one byte longer** than those that were read. -/
theorem length_blocksOf_le {es : List (String × String)} (hm : m.type = t)
    (hf : WholeFrame limit t blocks) (ht : Tells t blocks m) (hn : es.Nodup)
    (hw : ∀ e ∈ es, isWritable e = true) (hs : ∀ e ∈ es, Shows (m.destination.getD "") m e) :
    ((blocksOf m es).flatMap block).length ≤ (blocks.flatMap block).length + 1 := by
  cases ht with
  | bare =>
    have hes : es = [] := List.eq_nil_iff_forall_not_mem.mpr fun e he => by
      rcases hs e he with ⟨-, hne⟩ | ⟨-, hlisted⟩
      · exact hne rfl
      · cases hlisted
    rw [hes, blocksOf_bare hf]
    exact Nat.zero_le _
  | @headers data more m text ls type decoded lines wellFormed carries body =>
    -- What is written anew stood in the text as it is.
    have hmem : ∀ e ∈ es, lineText e ∈ ls := by
      rintro ⟨name, value⟩ he
      rcases hs _ he with ⟨heq, hne⟩ | ⟨hother, hlisted⟩
      · cases heq
        refine Gives.lineText_mem ((carries.destination _).mp ?_)
        cases hd : m.destination with
        | none =>
          rw [hd] at hne
          exact absurd rfl hne
        | some d => rfl
      · exact ((carries.headers _ _).mp hlisted).2.lineText_mem
    have hblock := length_headerBlock_le lines hn hw hmem
    have hall := length_blocksOf_cons_le hm hf body es
    rw [length_block] at hall
    rw [List.flatMap_cons, List.length_append, length_block, decoded]
    omega

/-! ## Sent on -/

namespace Outgoing

variable {o : Outgoing}

/-- A message is written, and at the end of the input it is found as `m` by every decoder that has
seen nothing and allows its blocks. -/
structure Arrives (o : Outgoing) (m : Message) : Prop where
  written : o.written.outcome = .ok ()
  found : ∀ limit, limit = 0 ∨ headerBlockLength o.destination o.message.headers.entries ≤ limit ∧
      (o.message.body.getD []).length ≤ limit →
    (Decoder.new limit).decodeEof o.frame = ⟨.ok (some m), .new limit, []⟩

theorem writable_of_received (h : Received o.message)
    (hd : o.destination = o.message.destination.getD "") : ∀ e ∈ o.lines, isWritable e = true := by
  intro e he
  refine Bool.not_eq_false _ ▸ fun hw => h.not_obstructs e.1 ?_
  rw [← hd]
  exact obstructs_iff.mpr ⟨e, he, hw, rfl⟩

/-- Sent to where it was headed, it arrives as it is. -/
theorem arrival_of_received (h : Received o.message)
    (hd : o.destination = o.message.destination.getD "") : o.arrival = o.message.settled := by
  by_cases hl : o.message.type.layout = .empty
  · have hbare : o.message.settled = { type := o.message.type } := by
      rw [h.noHeaders hl]
      rfl
    rw [hbare, arrival, hl]
  · have hno : Header.destination.name ∉ o.message.headers := by
      rw [Table.mem_iff, h.apart]
      exact Bool.false_ne_true
    have hbody : (if o.message.type.layout = .headersAndBody then
        some (o.message.body.getD []) else none) = o.message.body := by
      split
      · rename_i hl'
        obtain ⟨body, hb, -⟩ := h.body hl'
        rw [hb, Option.getD_some]
      · rename_i hl'
        exact (h.noBody hl').symm
    rw [arrival_eq hl, erase_ofList_lines, get?_ofList_lines, Table.erase_of_not_mem hno, hd,
      ← Message.address?_eq, hbody]
    rfl

/-- The blocks of the frame tell what arrives. -/
theorem tells_arrival (hw : ∀ e ∈ o.lines, isWritable e = true) :
    Tells o.message.type (blocksOf o.message o.lines) o.arrival := by
  rw [← ofBlocks_eq_ok_iff]
  by_cases hl : o.message.type.layout = .empty
  · rw [arrival, blocksOf, hl]
    rfl
  · have hread := readHeaders_lines hw
    rw [arrival_eq hl]
    unfold blocksOf headerBlock
    cases hlayout : o.message.type.layout with
    | empty => exact absurd hlayout hl
    | optionalHeaders =>
      by_cases hes : o.lines = []
      · simp only [hes, if_true]
        rfl
      · simp only [hes, if_false, ofBlocks, hread]
        rfl
    | headers =>
      simp only [ofBlocks, hread]
      rfl
    | headersAndBody =>
      simp only [ofBlocks, hread]
      rfl

theorem frame_of_received (h : Received o.message)
    (hd : o.destination = o.message.destination.getD "") (ha : ¬ Astray o.destination o.message)
    (hs : headerBlockLength o.destination o.message.headers.entries < lengthBound) :
    o.written = ⟨frameOf o.message.type (blocksOf o.message o.lines), .ok ()⟩ :=
  onto_of_sound ha (fun _ name => hd ▸ h.not_obstructs name) hs h.length_body_lt []

/-- **A message that a frame could have brought is written and found again,** sent to where it was
headed, if its header block fits its prefix and the length is not to be taken for a marker. -/
theorem arrives_of_received (h : Received o.message)
    (hd : o.destination = o.message.destination.getD "") (ha : ¬ Astray o.destination o.message)
    (hs : headerBlockLength o.destination o.message.headers.entries < lengthBound)
    (hm : o.message.type.layout = .optionalHeaders →
      headerBlockLength o.destination o.message.headers.entries ≠ markerLength) :
    o.Arrives o.message.settled := by
  have hwritten := frame_of_received h hd ha hs
  refine ⟨by rw [hwritten], fun limit hlimit => ?_⟩
  have hframe : o.frame = frameOf o.message.type (blocksOf o.message o.lines) :=
    congrArg Written.buffer hwritten
  have htells := tells_arrival (writable_of_received h hd)
  rw [arrival_of_received h hd] at htells
  rw [← length_headerBlock_lines] at hs hm hlimit
  rw [hframe]
  refine decodeEof_of_wholeFrame (wholeFrame_blocksOf ⟨hs, hlimit.imp_right And.left⟩
    ⟨h.length_body_lt, hlimit.imp_right And.right⟩) (fun hl data hdata => ?_) htells
  unfold blocksOf at hdata
  simp only [hl] at hdata
  split at hdata
  · cases hdata
  · rw [List.mem_singleton.mp hdata]
    exact hm hl

/-- Its frame is at most one byte longer than the one that brought it. -/
theorem length_frame_le (h : Received o.message)
    (hd : o.destination = o.message.destination.getD "") (ha : ¬ Astray o.destination o.message)
    (hs : headerBlockLength o.destination o.message.headers.entries < lengthBound)
    (hm : o.message.type = t) (hf : WholeFrame limit t blocks) (ht : Tells t blocks o.message) :
    o.frame.length ≤ (frameOf t blocks).length + 1 := by
  have hframe : o.frame = frameOf o.message.type (blocksOf o.message o.lines) :=
    congrArg Written.buffer (frame_of_received h hd ha hs)
  have hblocks := length_blocksOf_le hm hf ht o.nodup_lines (writable_of_received h hd)
    fun e he => hd ▸ mem_lines_iff.mp he
  rw [hframe, length_frameOf, length_frameOf]
  omega

end Outgoing

/-- A message can be sent on to where it was headed, and from there again: its headers in any order,
in a frame at most one byte longer than the one that brought it. -/
structure SentOn (m : Message) (frame : Bytes) : Prop where
  own : encodeOwn m = .ok (Outgoing.own m).frame
  arrives : ∀ o : Outgoing, o.message = m → o.destination = m.destination.getD "" →
    o.Arrives m.settled
  length_le : ∀ o : Outgoing, o.message = m → o.destination = m.destination.getD "" →
    o.frame.length ≤ frame.length + 1
  again : ∀ o : Outgoing, o.message = m.settled → o.destination = m.settled.destination.getD "" →
    o.Arrives m.settled

namespace Intake

theorem measured_calls (limit : Nat) (cs : List Call) : Measured 0 ((new limit).calls cs) :=
  (measured_new limit).unlimited.calls fun c _ => by
    cases c <;> simp [Call.Allows]

/-- What a look at the buffer finds is what the frame in front of it tells. -/
theorem Measured.found {s : Intake} {ended : Bool} (h : Measured limit s)
    (hm : (s.look ended).result = .ok (some m)) : ∃ t blocks, WholeFrame limit t blocks ∧
      s.buffer = frameOf t blocks ++ (s.look ended).rest ∧ Tells t blocks m := by
  have ho := h.outcome ended
  rw [hm] at ho
  cases ho with
  | message frame bytes tells => exact ⟨_, _, frame, bytes, tells⟩

/-- **Every message that a decoder finds can be sent on,** in every run, if it has a destination
where its type asks for one, its header block fits its prefix and the length of an optional one is
not to be taken for a marker. -/
theorem reissued (limit : Nat) (cs : List Call) (ended : Bool) (m : Message)
    (h : (((new limit).calls cs).look ended).result = .ok (some m))
    (ha : ¬ Astray (m.destination.getD "") m)
    (hs : headerBlockLength (m.destination.getD "") m.headers.entries < lengthBound)
    (hm : m.type.layout = .optionalHeaders →
      headerBlockLength (m.destination.getD "") m.headers.entries ≠ markerLength) :
    ∃ frame, ((new limit).calls cs).buffer = frame ++ (((new limit).calls cs).look ended).rest ∧
      SentOn m frame := by
  obtain ⟨t, blocks, hf, hbytes, htells⟩ := (measured_calls limit cs).found h
  have hr : Received m := received_of_tells (readable_of_next h) hf htells
  have htype : m.type = t := by
    cases htells with
    | bare => rfl
    | headers type => exact type
  have harrives : ∀ o : Outgoing, o.message = m → o.destination = m.destination.getD "" →
      o.Arrives m.settled := by
    rintro o rfl hd
    rw [← hd] at ha hs hm
    exact Outgoing.arrives_of_received hr hd ha hs hm
  refine ⟨frameOf t blocks, hbytes, ?_, harrives, ?_, ?_⟩
  · exact Outgoing.encodeOwn_of_written (harrives (.own m) rfl rfl).written
  · rintro o rfl hd
    rw [← hd] at ha hs
    exact Outgoing.length_frame_le hr hd ha hs htype hf htells
  · -- The settled message has the type, the headers and the address of the message.
    intro o ho hd
    have hdest : o.destination = m.destination.getD "" := hd.trans m.getD_address?
    rw [← hdest] at ha hs hm
    have := Outgoing.arrives_of_received (o := o)
      (ho ▸ hr.settled) (ho ▸ hd) (ho ▸ ha) (ho ▸ hs) (ho ▸ hm)
    rwa [ho, m.settled_settled] at this

/-- The last words of a subscriber as nobody would write them: a header that is overridden, an empty
line, a destination that says nothing, and no end of the last line. -/
def mumbled : String := "to:: me\nto:: all: you\n\ndestination: "

/-- What they say. -/
def mumble : Message :=
  { type := .unsubscribe
    headers := (∅ : Headers).insert "to:" "all: you"
    destination := some "" }

theorem reissued_mumble :
    (((new 64).calls [.append (frameOf .unsubscribe [utf8 mumbled])]).look false).result =
        .ok (some mumble) ∧
      ¬ Astray (mumble.destination.getD "") mumble ∧
      headerBlockLength (mumble.destination.getD "") mumble.headers.entries < lengthBound ∧
      (mumble.type.layout = .optionalHeaders →
        headerBlockLength (mumble.destination.getD "") mumble.headers.entries ≠ markerLength) ∧
      ∃ frame, frameOf .unsubscribe [utf8 mumbled] = frame ++ [] ∧ SentOn mumble frame := by
  have hlines : readLines? mumbled.toList =
      some (mumble.headers.insert Header.destination.name "") := by decide +kernel
  have hread : ofBlocks .unsubscribe [utf8 mumbled] = .ok mumble := by
    unfold ofBlocks readHeaders
    simp only [ofUtf8?_utf8, hlines, Except.map, Except.ok.injEq]
    decide +kernel
  have hframe : WholeFrame 64 .unsubscribe [utf8 mumbled] :=
    ⟨by decide, by simpa using ⟨by decide +kernel, .inr (by decide +kernel)⟩⟩
  have hstands := hframe.stands (fun _ => by simpa using by decide +kernel) (by simp)
  have hlook : ((new 64).calls [.append (frameOf .unsubscribe [utf8 mumbled])]).look false =
      ⟨.ok (some mumble), .new 64, []⟩ := by
    have hcalls : ((new 64).calls [.append (frameOf .unsubscribe [utf8 mumbled])]) =
        ⟨.new 64, frameOf .unsubscribe [utf8 mumbled]⟩ := rfl
    unfold look Decoder.next
    rw [hcalls, if_neg Bool.false_ne_true, Decoder.decode_new_of_stands hstands, hread]
    rfl
  have hfound : (((new 64).calls [.append (frameOf .unsubscribe [utf8 mumbled])]).look false).result
      = .ok (some mumble) := by rw [hlook]
  have hhere : ¬ Astray (mumble.destination.getD "") mumble := by
    rintro ⟨-, h | h⟩ <;> cases h
  have hfits : headerBlockLength (mumble.destination.getD "") mumble.headers.entries <
      lengthBound := by decide +kernel
  have hmarker : headerBlockLength (mumble.destination.getD "") mumble.headers.entries ≠
      markerLength := by decide +kernel
  have := reissued 64 [.append (frameOf .unsubscribe [utf8 mumbled])] false mumble hfound hhere
    hfits fun _ => hmarker
  rw [hlook] at this
  exact ⟨hfound, hhere, hfits, fun _ => hmarker, this⟩

end Intake

end Wire

end MessageBroker
