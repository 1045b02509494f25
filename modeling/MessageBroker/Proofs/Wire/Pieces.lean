import MessageBroker.Connection
import MessageBroker.Proofs.Wire.Forwarding
import MessageBroker.Proofs.Wire.Grammar

/-!
# Pieces of what was written

What a connection has been sent is there write by write. Each write is of one frame, and a write
that failed may have left a part of it: so a piece is a whole frame, or the front of one, which
reads as nothing.

Headlines:
* **`eq_of_frameIn?`**: a piece of a frame that reads as a frame is all of it.
* **`type_of_frameIn?`**: and it tells the type of what was sent.
* **`Puts`**: what sending a message leaves on the wire; **`Connection.written_send`**: so it does.
* **`Puts.frames_eq`**: the other end reads the message if it was sent, and nothing otherwise.
-/

namespace MessageBroker

namespace Wire

/-- The message that a piece is the frame of, if it is one frame and nothing else. -/
def frameIn? (piece : Bytes) : Option Message :=
  match (Decoder.new 0).decode piece with
  | ⟨.ok (some m), _, []⟩ => some m
  | _ => none

variable {m m' : Message} {frame part : Bytes}

theorem frameIn?_eq_some : frameIn? part = some m ↔
    ((Decoder.new 0).decode part).result = .ok (some m) ∧
      ((Decoder.new 0).decode part).rest = [] := by
  unfold frameIn?
  rcases (Decoder.new 0).decode part with ⟨e | _ | m', d, _ | ⟨b, rest⟩⟩ <;> simp

/-- What can be written has been written to its own destination. -/
theorem written_of_encodeOwn (h : encodeOwn m = .ok frame) :
    (Outgoing.own m).written.outcome = .ok () ∧ frame = (Outgoing.own m).frame := by
  have he : encodeOwn m = (Outgoing.own m).written.outcome.map fun _ => (Outgoing.own m).frame :=
    rfl
  rw [he] at h
  cases ho : (Outgoing.own m).written.outcome with
  | error e =>
    rw [ho] at h
    cases h
  | ok _ =>
    rw [ho] at h
    cases h
    exact ⟨rfl, rfl⟩

/-- The message that arrives when one is sent to its own destination. -/
def arrived (m : Message) : Message := (Outgoing.own m).arrival

/-- Where headers are not optional, a frame is read back. -/
theorem decode_of_encodeOwn (hl : m.type.layout ≠ .optionalHeaders) (h : encodeOwn m = .ok frame) :
    (Decoder.new 0).decode frame = ⟨.ok (some (arrived m)), .new 0, []⟩ := by
  obtain ⟨hw, rfl⟩ := written_of_encodeOwn h
  have := @Outgoing.decode_frame _ hw (fun hx => hl hx.1) [] fun hx => absurd hx.1 hl
  rwa [List.append_nil] at this

/-- **A piece of a frame that reads as a frame is all of it.** -/
theorem eq_of_frameIn? (hl : m.type.layout ≠ .optionalHeaders) (h : encodeOwn m = .ok frame)
    (hp : part <+: frame) (hm : frameIn? part = some m') : part = frame ∧ m' = arrived m := by
  obtain ⟨more, rfl⟩ := hp
  obtain ⟨hresult, hrest⟩ := frameIn?_eq_some.mp hm
  have hpart : (Decoder.new 0).decode part =
      ⟨.ok (some m'), ((Decoder.new 0).decode part).decoder, []⟩ := by
    rw [← hresult, ← hrest]
  have hall := Decoder.decode_append hpart (by simp) more
  rw [decode_of_encodeOwn hl h, List.nil_append] at hall
  simp only [Decoded.mk.injEq, Except.ok.injEq, Option.some.injEq] at hall
  rw [← hall.2.2, List.append_nil]
  exact ⟨rfl, hall.1.symm⟩

theorem frameIn?_of_encodeOwn (hl : m.type.layout ≠ .optionalHeaders)
    (h : encodeOwn m = .ok frame) : frameIn? frame = some (arrived m) := by
  rw [frameIn?_eq_some, decode_of_encodeOwn hl h]
  exact ⟨rfl, rfl⟩

/-- A frame starts with the marker and the byte of its type. -/
theorem starts_of_encodeOwn (h : encodeOwn m = .ok frame) :
    ∃ behind, frame = marker ++ m.type.toByte :: behind := by
  obtain ⟨hw, rfl⟩ := written_of_encodeOwn h
  obtain ⟨text, -, -, hb⟩ := encodeInto_eq_ok hw
  exact ⟨_, hb⟩

theorem Tells.type_eq {t : MessageType} {blocks : List Bytes} (h : Tells t blocks m) :
    m.type = t := by
  cases h with
  | bare => rfl
  | headers type => exact type

/-- **A piece that reads as a frame tells the type of what was sent.** -/
theorem type_of_frameIn? (h : encodeOwn m = .ok frame) (hp : part <+: frame)
    (hm : frameIn? part = some m') : m'.type = m.type := by
  obtain ⟨behind, rfl⟩ := starts_of_encodeOwn h
  obtain ⟨t, blocks, hs, ht⟩ :=
    ((Decoder.decode_new_iff 0 part).1 m' []).mp (frameIn?_eq_some.mp hm)
  obtain @⟨t, behind', rest, blocks, -⟩ := hs
  obtain ⟨more, hmore⟩ := hp
  rw [List.append_assoc] at hmore
  have hbyte : t.toByte = m.type.toByte := (List.cons.inj (List.append_cancel_left hmore)).1
  have htype : MessageType.ofByte? t.toByte = MessageType.ofByte? m.type.toByte := by rw [hbyte]
  rw [MessageType.ofByte?_toByte, MessageType.ofByte?_toByte] at htype
  exact ht.type_eq.trans (Option.some.inj htype)

/-- What sending a message leaves on the wire: its frame if that goes well, and otherwise nothing or
a part of the frame that is not all of it. -/
inductive Puts (m : Message) : Bool → List Bytes → Prop
  | nothing : Puts m false []
  | torn {frame part : Bytes} (encoded : encodeOwn m = .ok frame) (front : part <+: frame)
    (short : part ≠ frame) : Puts m false [part]
  | whole {frame : Bytes} (encoded : encodeOwn m = .ok frame) : Puts m true [frame]

namespace Puts

variable {ok : Bool} {pieces : List Bytes}

/-- Whatever reads as a frame has the type of what was sent. -/
theorem type_eq (h : Puts m ok pieces) (hm : m' ∈ pieces.filterMap frameIn?) :
    m'.type = m.type := by
  obtain ⟨piece, hp, hread⟩ := List.mem_filterMap.mp hm
  cases h with
  | nothing => cases hp
  | torn encoded front =>
    obtain rfl := List.mem_singleton.mp hp
    exact type_of_frameIn? encoded front hread
  | whole encoded =>
    obtain rfl := List.mem_singleton.mp hp
    exact type_of_frameIn? encoded List.prefix_rfl hread

/-- **The other end reads the message if it was sent, and nothing otherwise.** -/
theorem frames_eq (hl : m.type.layout ≠ .optionalHeaders) (h : Puts m ok pieces) :
    pieces.filterMap frameIn? = if ok then [arrived m] else [] := by
  cases h with
  | nothing => rfl
  | torn encoded front short =>
    have hno : frameIn? _ = none := Option.eq_none_iff_forall_ne_some.mpr fun m' hm' =>
      short (eq_of_frameIn? hl encoded front hm').1
    exact List.filterMap_cons_none hno
  | whole encoded => exact List.filterMap_cons_some (frameIn?_of_encodeOwn hl encoded)

end Puts

end Wire

namespace Net.Stream

/-- What a write that fails leaves is nothing, or one piece from the front of what was to be
written that is not all of it. -/
theorem piece_of_not_accepts {s : Stream} {data : Bytes} (h : ¬ s.Accepts data) :
    (s.write data).2.written = s.written ∨
      ∃ part, part <+: data ∧ part ≠ data ∧
        (s.write data).2.written = s.written ++ [part] := by
  unfold Accepts at h
  unfold write at h ⊢
  split
  · exact .inl rfl
  · rename_i hc
    rw [if_neg hc] at h
    split at h
    · exact .inl rfl
    · rename_i steps _
      obtain ⟨rest, hall, hok⟩ := push_fst_append s.sendTimeout steps data
      dsimp only
      split
      · exact .inl (List.append_nil _)
      · refine .inr ⟨_, ⟨rest, hall⟩, fun he => h (hok.mpr ?_), rfl⟩
        rw [he] at hall
        exact List.append_cancel_left (hall.trans (List.append_nil _).symm)

end Net.Stream

namespace Connection

/-- **Sending a message leaves its frame, a part of it or nothing.** -/
theorem written_send (c : Connection) (m : Message) :
    ∃ pieces, (c.send m).2.stream.written = c.stream.written ++ pieces ∧
      Wire.Puts m (c.send m).1.isOk pieces := by
  unfold send
  split
  · exact ⟨[], (List.append_nil _).symm, .nothing⟩
  · cases hf : Wire.encodeOwn m with
    | error e => exact ⟨[], (List.append_nil _).symm, .nothing⟩
    | ok frame =>
      have hne : frame ≠ [] := by
        obtain ⟨behind, rfl⟩ := Wire.starts_of_encodeOwn hf
        simp [Wire.marker]
      by_cases ha : c.stream.Accepts frame
      · have hw := Net.Stream.written_of_accepts hne ha
        unfold Net.Stream.Accepts at ha
        rcases hr : c.stream.write frame with ⟨outcome, stream⟩
        rw [hr] at ha hw
        cases ha
        simp only [hr]
        exact ⟨[frame], hw, .whole hf⟩
      · have hw := Net.Stream.piece_of_not_accepts ha
        unfold Net.Stream.Accepts at ha
        rcases hr : c.stream.write frame with ⟨e | _, stream⟩
        · rw [hr] at hw
          simp only [hr]
          rcases hw with hw | ⟨part, hfront, hshort, hw⟩
          · exact ⟨[], hw.trans (List.append_nil _).symm, .nothing⟩
          · exact ⟨[part], hw, .torn hf hfront hshort⟩
        · rw [hr] at ha
          exact absurd rfl ha

end Connection

end MessageBroker
