import MessageBroker.Connection
import MessageBroker.Proofs.Wire.Forwarding

/-!
# What a connection puts on the wire

A send puts the frame of its message on the wire, whole if it succeeds; if it fails, a part of the
frame may be there. The connection stays open then: whether it is written to again is left to
those who send. Answers give a connection up that could not be written to, deliveries do not, and
the next message that is delivered stands behind a torn frame as if it were the rest of it.

Headlines:
* **`Connection.framing`**: what the sends of one connection put on the wire; it is whole frames
  and at most one part behind them, if nothing follows a part, and so if the connection is closed
  on it.
* **`Connection.wire_behind_torn`**: a frame may be torn anywhere, and another one put behind it.
* **`Connection.tornAnswers_not_framed`**: then the wire cannot be cut into frames.
-/

namespace MessageBroker

namespace Wire

/-! ## Frames in a row -/

/-- The bytes are the frame of a message, whatever the order of its headers. -/
def IsFrame (bs : Bytes) : Prop := ∃ o : Outgoing, o.written.outcome = .ok () ∧ o.frame = bs

/-- The bytes are whole frames in a row, and behind them perhaps a part of one more. -/
def Framed (bs : Bytes) : Prop :=
  ∃ (frames : List Bytes) (part : Bytes), bs = frames.flatten ++ part ∧
    (∀ f ∈ frames, IsFrame f) ∧ (part = [] ∨ ∃ f, IsFrame f ∧ part <+: f ∧ part ≠ f)

theorem isFrame_of_encodeOwn {m : Message} {frame : Bytes} (h : encodeOwn m = .ok frame) :
    IsFrame frame := by
  have he : encodeOwn m = (Outgoing.own m).written.outcome.map fun _ => (Outgoing.own m).frame :=
    rfl
  refine ⟨Outgoing.own m, ?_⟩
  rw [he] at h
  cases ho : (Outgoing.own m).written.outcome with
  | error e =>
    rw [ho] at h
    cases h
  | ok u =>
    rw [ho] at h
    exact ⟨rfl, Except.ok.inj h⟩

theorem IsFrame.starts {bs : Bytes} (h : IsFrame bs) : marker <+: bs := by
  obtain ⟨o, ho, rfl⟩ := h
  exact Outgoing.marker_prefix_frame ho

theorem IsFrame.ne_nil {bs : Bytes} (h : IsFrame bs) : bs ≠ [] := by
  rintro rfl
  exact absurd (List.prefix_nil.mp h.starts) (by decide)

theorem framed_nil : Framed [] := ⟨[], [], rfl, nofun, .inl rfl⟩

theorem framed_part {part frame : Bytes} (hf : IsFrame frame) (hp : part <+: frame)
    (hne : part ≠ frame) : Framed part :=
  ⟨[], part, rfl, nofun, .inr ⟨frame, hf, hp, hne⟩⟩

theorem Framed.cons {frame bs : Bytes} (hf : IsFrame frame) (h : Framed bs) :
    Framed (frame ++ bs) := by
  obtain ⟨frames, part, rfl, hframes, hpart⟩ := h
  refine ⟨frame :: frames, part, ?_, List.forall_mem_cons.mpr ⟨hf, hframes⟩, hpart⟩
  rw [List.flatten_cons, List.append_assoc]

/-- Frames in a row start with the marker, as far as there are bytes. -/
theorem Framed.take_prefix {bs : Bytes} (h : Framed bs) : bs.take marker.length <+: marker := by
  obtain ⟨frames, part, rfl, hframes, hpart⟩ := h
  -- Two prefixes of the same bytes, the shorter one first.
  have hfront : ∀ {front whole : Bytes}, front <+: whole → marker <+: whole →
      front.take marker.length <+: marker := fun hw hm =>
    List.prefix_of_prefix_length_le ((List.take_prefix _ _).trans hw) hm
      (List.length_take_le _ _)
  cases frames with
  | nil =>
    rcases hpart with rfl | ⟨f, hf, hp, -⟩
    · exact List.nil_prefix
    · exact hfront hp hf.starts
  | cons f frames =>
    have hm := (hframes f List.mem_cons_self).starts
    rw [List.flatten_cons, List.append_assoc]
    exact hfront List.prefix_rfl (hm.trans (List.prefix_append _ _))

end Wire

namespace Connection

/-! ## One send -/

/-- Everything that the connection has put on the wire. -/
def wire (c : Connection) : Bytes := c.stream.written.flatten

/-- A send: the message, how it ended, and what it put on the wire. -/
structure Sending where
  message : Message
  outcome : Except BrokerError Unit
  taken : Bytes

/-- What a send of the connection comes to. -/
def sending (c : Connection) (m : Message) : Sending :=
  ⟨m, (c.send m).1, (c.send m).2.wire.drop c.wire.length⟩

namespace Sending

/-- A send that succeeds put its frame on the wire; one that fails put at most a part of it there,
and none of it if there is no frame. -/
structure Honest (x : Sending) : Prop where
  whole : x.outcome = .ok () → Wire.encodeOwn x.message = .ok x.taken
  part : x.outcome ≠ .ok () → x.taken = [] ∨
    ∃ frame, Wire.encodeOwn x.message = .ok frame ∧ x.taken <+: frame ∧ x.taken ≠ frame

/-- The send failed with a part of its frame on the wire. -/
def Torn (x : Sending) : Prop := x.outcome ≠ .ok () ∧ x.taken ≠ []

/-- Nothing is put on the wire behind a torn frame. -/
def NothingBehindTorn (xs : List Sending) : Prop :=
  xs.Pairwise fun x y => x.Torn → y.taken = []

/-- **Frames that nothing tears apart make a wire that can be cut into frames.** -/
theorem framed_of_nothingBehindTorn {xs : List Sending} (hh : ∀ x ∈ xs, x.Honest)
    (h : NothingBehindTorn xs) : Wire.Framed (xs.flatMap taken) := by
  induction xs with
  | nil => exact Wire.framed_nil
  | cons x xs ih =>
    obtain ⟨hx, hxs⟩ := List.pairwise_cons.mp h
    obtain ⟨hhx, hhxs⟩ := List.forall_mem_cons.mp hh
    rw [List.flatMap_cons]
    by_cases hok : x.outcome = .ok ()
    · exact (ih hhxs hxs).cons (Wire.isFrame_of_encodeOwn (hhx.whole hok))
    · by_cases hnone : x.taken = []
      · rw [hnone, List.nil_append]
        exact ih hhxs hxs
      · -- The torn frame is the last that is put on the wire.
        have hrest : xs.flatMap taken = [] :=
          List.flatMap_eq_nil_iff.mpr fun y hy => hx y hy ⟨hok, hnone⟩
        obtain hno | ⟨frame, hf, hp, hne⟩ := hhx.part hok
        · exact absurd hno hnone
        · rw [hrest, List.append_nil]
          exact Wire.framed_part (Wire.isFrame_of_encodeOwn hf) hp hne

end Sending

variable {c : Connection} {m : Message}

theorem send_of_closed (h : c.isClosed = true) (m : Message) :
    c.send m = (.error (.net .closed), c) := by
  unfold send
  rw [if_pos h]

theorem send_of_open (h : c.isClosed = false) {frame : Bytes}
    (hf : Wire.encodeOwn m = .ok frame) :
    c.send m =
      ((c.stream.write frame).1.mapError .net, { c with stream := (c.stream.write frame).2 }) :=
  send_of_encoded (Bool.or_eq_false_iff.mp h).1 hf

theorem taken_of_closed (h : c.isClosed = true) (m : Message) : (c.sending m).taken = [] := by
  unfold sending
  rw [send_of_closed h]
  exact List.drop_length

/-- A send adds to the wire what it says it does. -/
theorem wire_send_and_honest (c : Connection) (m : Message) :
    (c.send m).2.wire = c.wire ++ (c.sending m).taken ∧ (c.sending m).Honest := by
  by_cases hc : c.isClosed = true
  · have ht := taken_of_closed hc m
    refine ⟨?_, fun hok => ?_, fun _ => .inl ht⟩
    · rw [ht, send_of_closed hc, List.append_nil]
    · have hok' : (c.send m).1 = .ok () := hok
      rw [send_of_closed hc] at hok'
      cases hok'
  · rw [Bool.not_eq_true] at hc
    cases hf : Wire.encodeOwn m with
    | error e =>
      have hs : c.send m = (.error (.encode e), c) := by
        unfold send
        rw [hc, if_neg Bool.false_ne_true, hf]
      have ht : (c.sending m).taken = [] := by
        unfold sending
        rw [hs]
        exact List.drop_length
      refine ⟨?_, fun hok => ?_, fun _ => .inl ht⟩
      · rw [ht, hs, List.append_nil]
      · have hok' : (c.send m).1 = .ok () := hok
        rw [hs] at hok'
        cases hok'
    | ok frame =>
      have hs := send_of_open hc hf
      have hne : frame ≠ [] := (Wire.isFrame_of_encodeOwn hf).ne_nil
      have hw : (c.send m).2.wire = (c.stream.write frame).2.written.flatten := by
        rw [hs]
        rfl
      by_cases hok : (c.stream.write frame).1 = .ok ()
      · have ht : (c.sending m).taken = frame := by
          show (c.send m).2.wire.drop c.wire.length = frame
          rw [hw, Net.Stream.written_of_accepts hne hok, List.flatten_append]
          simp [wire]
        refine ⟨?_, fun _ => ?_, fun hno => absurd ?_ hno⟩
        · rw [ht, hw, Net.Stream.written_of_accepts hne hok, List.flatten_append]
          simp [wire]
        · rw [ht]
          exact hf
        · show (c.send m).1 = .ok ()
          rw [hs, hok]
          rfl
      · obtain ⟨part, hp, hpne, hpart⟩ := Net.Stream.written_of_not_accepts hne hok
        have ht : (c.sending m).taken = part := by
          show (c.send m).2.wire.drop c.wire.length = part
          rw [hw, hpart]
          exact List.drop_left
        refine ⟨?_, fun hyes => absurd ?_ hok, fun _ => .inr ⟨frame, hf, ht ▸ hp, ht ▸ hpne⟩⟩
        · rw [ht, hw, hpart]
          rfl
        · have hyes' : (c.send m).1 = .ok () := hyes
          rw [hs] at hyes'
          cases hr : (c.stream.write frame).1 with
          | ok u => rfl
          | error e =>
            rw [hr] at hyes'
            cases hyes'

/-! ## All of them -/

/-- What bears on the writing of a connection. -/
inductive Deed
  /-- A message is sent, and its write fares so. -/
  | send (m : Message) (outlet : Net.Outlet)
  | close
  /-- The stream closes under the connection. -/
  | lose

/-- The connection, with a socket that is about to take writes so. -/
def facing (c : Connection) (outlet : Net.Outlet) : Connection :=
  { c with stream := { c.stream with outlet } }

/-- What becomes of the connection. -/
def after (c : Connection) : Deed → Connection
  | .send m outlet => ((c.facing outlet).send m).2
  | .close => c.close.2
  | .lose => { c with stream := c.stream.close }

theorem after_send (c : Connection) (m : Message) (outlet : Net.Outlet) :
    c.after (.send m outlet) = ((c.facing outlet).send m).2 := rfl

/-- What becomes of it in the end. -/
def afterAll (c : Connection) (deeds : List Deed) : Connection := deeds.foldl after c

/-- The sends among the deeds, as they go. -/
def sendings (c : Connection) : List Deed → List Sending
  | [] => []
  | .send m outlet :: deeds =>
    (c.facing outlet).sending m :: (c.after (.send m outlet)).sendings deeds
  | .close :: deeds => (c.after .close).sendings deeds
  | .lose :: deeds => (c.after .lose).sendings deeds

/-- Whoever tears a frame closes the connection before anything else is sent. -/
def ClosedOnTorn (c : Connection) : List Deed → Prop
  | [] => True
  | .send m outlet :: deeds =>
    (((c.facing outlet).sending m).Torn → deeds.head?.all (fun d => d matches .close | .lose)) ∧
      (c.after (.send m outlet)).ClosedOnTorn deeds
  | .close :: deeds => (c.after .close).ClosedOnTorn deeds
  | .lose :: deeds => (c.after .lose).ClosedOnTorn deeds

theorem wire_close (c : Connection) : (c.after .close).wire = c.wire := by
  unfold after close
  simp only
  split <;> rfl

theorem isClosed_close (c : Connection) : (c.after .close).isClosed = true := by
  unfold after close isClosed
  simp only
  split
  · rename_i h
    rw [h]
    rfl
  · rfl

theorem isClosed_lose (c : Connection) : (c.after .lose).isClosed = true := Bool.or_true _

/-- What is closed stays closed, and takes nothing. -/
theorem taken_sendings_of_closed {deeds : List Deed} (h : c.isClosed = true) :
    ∀ x ∈ c.sendings deeds, x.taken = [] := by
  induction deeds generalizing c with
  | nil => exact List.forall_mem_nil _
  | cons d deeds ih =>
    cases d with
    | send m outlet =>
      have hf : (c.facing outlet).isClosed = true := h
      have ha : (c.after (.send m outlet)).isClosed = true := by
        rw [after_send, send_of_closed hf]
        exact hf
      exact List.forall_mem_cons.mpr ⟨taken_of_closed hf m, ih ha⟩
    | close => exact ih (isClosed_close c)
    | lose => exact ih (isClosed_lose c)

/-- A connection that is closed on a torn frame puts nothing behind it. -/
theorem nothingBehindTorn_of_closedOnTorn {deeds : List Deed} (h : c.ClosedOnTorn deeds) :
    Sending.NothingBehindTorn (c.sendings deeds) := by
  induction deeds generalizing c with
  | nil => exact .nil
  | cons d deeds ih =>
    cases d with
    | close => exact ih h
    | lose => exact ih h
    | send m outlet =>
      obtain ⟨hclosed, h⟩ := h
      refine .cons (fun y hy htorn => ?_) (ih h)
      have hhead := hclosed htorn
      cases deeds with
      | nil => cases hy
      | cons d deeds =>
        cases d with
        | send m' outlet' => cases hhead
        | close => exact taken_sendings_of_closed (isClosed_close _) y hy
        | lose => exact taken_sendings_of_closed (isClosed_lose _) y hy

theorem honest_sendings (deeds : List Deed) (c : Connection) :
    ∀ x ∈ c.sendings deeds, x.Honest := by
  induction deeds generalizing c with
  | nil => exact List.forall_mem_nil _
  | cons d deeds ih =>
    cases d with
    | send m outlet => exact List.forall_mem_cons.mpr ⟨(wire_send_and_honest _ m).2, ih _⟩
    | close => exact ih _
    | lose => exact ih _

theorem wire_afterAll (deeds : List Deed) (c : Connection) :
    (c.afterAll deeds).wire = c.wire ++ (c.sendings deeds).flatMap Sending.taken := by
  induction deeds generalizing c with
  | nil => exact (List.append_nil _).symm
  | cons d deeds ih =>
    have hstep : (c.afterAll (d :: deeds)).wire = ((c.after d).afterAll deeds).wire := rfl
    rw [hstep, ih]
    cases d with
    | send m outlet =>
      have hw : (c.after (.send m outlet)).wire = c.wire ++ ((c.facing outlet).sending m).taken :=
        (wire_send_and_honest (c.facing outlet) m).1
      rw [hw, List.append_assoc]
      rfl
    | close =>
      rw [wire_close]
      rfl
    | lose => rfl

/-- **What the sends of one connection put on the wire,** whatever the socket does to each of them:
the whole frame of each that succeeds, at most a part of the frame of each that fails, in their
order and nothing else. If nothing is put behind a part, the wire can be cut into frames, with at
most one part behind them; and so it is if the connection is closed on a torn frame. -/
theorem framing (deeds : List Deed) (c : Connection) :
    (∀ x ∈ c.sendings deeds, x.Honest) ∧
      (c.afterAll deeds).wire = c.wire ++ (c.sendings deeds).flatMap Sending.taken ∧
      (Sending.NothingBehindTorn (c.sendings deeds) →
        Wire.Framed ((c.sendings deeds).flatMap Sending.taken)) ∧
      (c.ClosedOnTorn deeds → Sending.NothingBehindTorn (c.sendings deeds)) :=
  ⟨honest_sendings deeds c, wire_afterAll deeds c,
    Sending.framed_of_nothingBehindTorn (honest_sendings deeds c),
    nothingBehindTorn_of_closedOnTorn⟩

/-! ## Torn frames -/

/-- A socket that takes what it is offered takes the frame. -/
theorem wire_of_whole (hc : c.isClosed = false) {frame : Bytes}
    (hf : Wire.encodeOwn m = .ok frame) :
    (c.after (.send m (.open []))).wire = c.wire ++ frame := by
  have ho : (c.facing (.open [])).isClosed = false := hc
  have hs : c.stream.closed = false := (Bool.or_eq_false_iff.mp hc).2
  obtain ⟨b, bs, rfl⟩ := List.exists_cons_of_ne_nil (Wire.isFrame_of_encodeOwn hf).ne_nil
  rw [after_send, send_of_open ho hf]
  simp [facing, Net.Stream.write, hs, Net.push, wire]

/-- A socket whose time is over behind a part has taken that part. -/
theorem push_of_torn (timeout : Duration) {data : Bytes} {k : Nat} (hk : k + 1 < data.length) :
    Net.push timeout [.take k, .expired] data =
      (.error (.writeTimeout timeout), data.take (k + 1), []) := by
  obtain ⟨b, bs, rfl⟩ := List.exists_cons_of_ne_nil
    (List.ne_nil_of_length_pos (Nat.zero_lt_of_lt hk))
  have hrest : 0 < ((b :: bs).drop (k + 1)).length := by
    rw [List.length_drop]
    omega
  obtain ⟨b', bs', hd⟩ := List.exists_cons_of_ne_nil (List.ne_nil_of_length_pos hrest)
  simp only [Net.push, hd, List.append_nil]

/-- The part is on the wire then, and the connection is open. -/
theorem wire_of_torn (hc : c.isClosed = false) {frame : Bytes} (hf : Wire.encodeOwn m = .ok frame)
    {k : Nat} (hk : k + 1 < frame.length) :
    (c.after (.send m (.open [.take k, .expired]))).wire = c.wire ++ frame.take (k + 1) ∧
      (c.after (.send m (.open [.take k, .expired]))).isClosed = false := by
  have ho : (c.facing (.open [.take k, .expired])).isClosed = false := hc
  have hs : c.stream.closed = false := (Bool.or_eq_false_iff.mp hc).2
  have hne : (frame.take (k + 1)).isEmpty = false := by
    rw [List.isEmpty_eq_false_iff, ← List.length_pos_iff, List.length_take]
    omega
  rw [after_send, send_of_open ho hf]
  simp only [facing, Net.Stream.write, hs, push_of_torn _ hk, hne, wire, Bool.false_eq_true,
    if_false]
  refine ⟨by simp, ?_⟩
  unfold isClosed at hc ⊢
  simpa [hs] using hc

/-- **A frame may be torn anywhere, and the next one is put behind it:** the connection goes on, so
a socket that has run out of time on the first takes the second whole. -/
theorem wire_behind_torn (hc : c.isClosed = false) {m' : Message} {frame frame' : Bytes}
    (hf : Wire.encodeOwn m = .ok frame) (hf' : Wire.encodeOwn m' = .ok frame') {k : Nat}
    (hk : k + 1 < frame.length) :
    (c.afterAll [.send m (.open [.take k, .expired]), .send m' (.open [])]).wire =
      c.wire ++ frame.take (k + 1) ++ frame' := by
  obtain ⟨hwire, hopen⟩ := wire_of_torn hc hf hk
  simp only [afterAll, List.foldl_cons, List.foldl_nil]
  rw [wire_of_whole hopen hf', hwire]

/-- The acknowledgement of a ping, torn behind its first three bytes, and another one. -/
def tornAnswers : List Deed :=
  [.send { type := .pingAck } (.open [.take 2, .expired]), .send { type := .pingAck } (.open [])]

/-- **Then the wire cannot be cut into frames.** -/
theorem tornAnswers_not_framed :
    ((Connection.new 1 {} 0).afterAll tornAnswers).wire =
        [0x4d, 0x53, 0x47, 0x4d, 0x53, 0x47, 0x3a, 0x0b] ∧
      ¬ Sending.NothingBehindTorn ((Connection.new 1 {} 0).sendings tornAnswers) ∧
      ¬ Wire.Framed ((Connection.new 1 {} 0).afterAll tornAnswers).wire := by
  have hw : ((Connection.new 1 {} 0).afterAll tornAnswers).wire =
      [0x4d, 0x53, 0x47, 0x4d, 0x53, 0x47, 0x3a, 0x0b] := by decide
  have hnot : ¬ Wire.Framed ((Connection.new 1 {} 0).afterAll tornAnswers).wire := by
    intro h
    have := h.take_prefix
    rw [hw] at this
    exact absurd this (by decide)
  refine ⟨hw, fun h => hnot ?_, hnot⟩
  have hf := (framing tornAnswers (Connection.new 1 {} 0)).2.2.1 h
  rw [wire_afterAll]
  exact hf

end Connection

end MessageBroker
