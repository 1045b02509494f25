import MessageBroker.Proofs.Connection.Passes

/-!
# What passes leave behind

A pass that is not the last one takes some bytes off what arrives, and the connection it leaves is
the one that a decoder leaves that has been given these bytes. So what is left of a connection in
the end, once all that arrives has been read, is the same from each pass to the next.

Headlines:
* **`Connection.takes_readPass`**: what a pass that is not the last one takes.
* **`Connection.residue_readPass`**: what is left in the end is the same after it as before.
-/

namespace MessageBroker

namespace Net

/-! ## What arrives -/

/-- Something arrives. -/
def Stream.arrive (s : Stream) : Arrival → Stream
  | .bytes data => s.feed data
  | .failure cause => s.fail cause

/-- What reading comes to in the end depends on what it comes to behind the first part. -/
theorem yieldOf_append_congr {later later' : List Arrival} (h : yieldOf later = yieldOf later')
    (incoming : List Arrival) : yieldOf (incoming ++ later) = yieldOf (incoming ++ later') := by
  induction incoming with
  | nil => exact h
  | cons a incoming ih =>
    cases a with
    | bytes data => exact congrArg (Yield.after · data) ih
    | failure cause =>
      simp only [List.cons_append, yieldOf, ih]

theorem yieldOf_arriveBytes (data : Bytes) (incoming later : List Arrival) :
    yieldOf (Stream.arriveBytes data incoming ++ later) =
      yieldOf (incoming ++ .bytes data :: later) := by
  fun_induction Stream.arriveBytes data incoming with
  | case1 h =>
    rw [List.isEmpty_iff] at h
    subst h
    rfl
  | case2 => rfl
  | case3 before => exact (Yield.after_after (yieldOf later) before data).symm
  | case4 a incoming _ ih =>
    cases a with
    | bytes before => exact congrArg (Yield.after · before) ih
    | failure cause =>
      simp only [List.cons_append, yieldOf, ih]

/-- What arrives is read behind what has arrived before. -/
theorem yieldOf_arrive (s : Stream) (a : Arrival) (later : List Arrival) :
    yieldOf ((s.arrive a).incoming ++ later) = yieldOf (s.incoming ++ a :: later) := by
  cases a with
  | bytes data => exact yieldOf_arriveBytes data s.incoming later
  | failure cause =>
    exact congrArg yieldOf (List.append_assoc s.incoming [.failure cause] later)

/-- Bytes that arrive in pieces come to the same as at once. -/
theorem yieldOf_pieces (pieces : List Bytes) :
    yieldOf (pieces.map .bytes) = ⟨pieces.flatten, none⟩ := by
  induction pieces with
  | nil => rfl
  | cons piece pieces ih =>
    rw [List.map_cons, yieldOf, ih]
    rfl

end Net

namespace Connection

/-! ## One pass -/

/-- A pass takes bytes off what reading comes to, and the decoder makes the messages of them. -/
structure Takes (c c' : Connection) (messages : List Message) (taken : Bytes) : Prop where
  yield : ∀ later, Net.yieldOf (c.stream.incoming ++ later) =
    (Net.yieldOf (c'.stream.incoming ++ later)).after taken
  drained : c.decoder.drain false (c.buffer ++ taken) = ⟨messages, none, c'.decoder, c'.buffer⟩

theorem takes_readOn (limit taken : Nat) {c : Connection} (hi : c.IsIdle)
    (hf : (c.readOn limit taken).1.isFinal = false) :
    ∃ bytes, c.Takes (c.readOn limit taken).2 (c.readOn limit taken).1.messages bytes := by
  have hnothing : c.decoder.drain false (c.buffer ++ []) = ⟨[], none, c.decoder, c.buffer⟩ := by
    rw [List.append_nil]
    exact Wire.Decoder.drain_of_idle hi
  fun_induction readOn limit taken c with
  | case1 taken c hl => exact ⟨[], fun _ => rfl, hnothing⟩
  | case2 taken c hl stream hr d => cases (Bool.or_true _).symm.trans hf
  | case3 taken c hl bytes stream hr d e hd => cases hf
  | case4 taken c hl bytes stream hr d hd hload pass c' hp ih =>
    have hidle := Wire.Decoder.idle_drain hd
    have hf' : pass.isFinal = false := hf
    rw [hp] at ih
    obtain ⟨more, hyield, hdrained⟩ := ih hidle hf' (by
      rw [List.append_nil]
      exact Wire.Decoder.drain_of_idle hidle)
    refine ⟨bytes ++ more, fun later => ?_, ?_⟩
    · rw [Net.Stream.yieldOf_read_data hr later, hyield later, Net.Yield.after_after]
    · rw [← List.append_assoc, Wire.Decoder.drain_append hd, hdrained]
      rfl
  | case5 taken c hl stream hr =>
    exact ⟨[], fun later => Net.Stream.yieldOf_read_failure hr later, hnothing⟩
  | case6 taken c hl stream hr hload ih =>
    obtain ⟨more, hyield, hdrained⟩ := ih hi hf hnothing
    exact ⟨more, fun later => (Net.Stream.yieldOf_read_failure hr later).trans (hyield later),
      hdrained⟩
  | case7 taken c hl cause stream hw hint hr => cases hf

/-- **What a pass that is not the last one takes.** -/
theorem takes_readPass {c : Connection} (hi : c.IsIdle) (hf : c.readPass.1.isFinal = false) :
    ∃ bytes, c.Takes c.readPass.2 c.readPass.1.messages bytes :=
  takes_readOn _ 0 hi hf

/-- A pass that says that the other end has closed has come to that end. -/
theorem ended_readOn (limit taken : Nat) (c : Connection)
    (h : (c.readOn limit taken).1.ended = true) : c.stream.ended = true := by
  fun_induction readOn limit taken c with
  | case1 taken c hl => cases h
  | case2 taken c hl stream hr d => exact (Net.Stream.yieldOf_read_ended hr []).1
  | case3 taken c hl bytes stream hr d e hd => cases h
  | case4 taken c hl bytes stream hr d hd hload pass c' hp ih =>
    rw [hp] at ih
    exact (Net.Stream.ended_of_read hr).symm.trans (ih h)
  | case5 taken c hl stream hr => cases h
  | case6 taken c hl stream hr hload ih => exact (Net.Stream.ended_of_read hr).symm.trans (ih h)
  | case7 taken c hl cause stream hw hint hr => cases h

theorem ended_readPass {c : Connection} (h : c.readPass.1.ended = true) :
    c.stream.ended = true := ended_readOn _ 0 c h

/-- Reading changes nothing but what is left to read and what is left of what was read. -/
theorem exists_readOn_eq (limit taken : Nat) (c : Connection) :
    ∃ incoming decoder buffer, (c.readOn limit taken).2 =
      { c with stream := { c.stream with incoming }, decoder, buffer } := by
  have hread : ∀ {s s' : Net.Stream} {r : Net.ReadResult}, s.read chunkSize = (r, s') →
      s' = { s with incoming := s'.incoming } := by
    intro s s' r h
    cases h
    rfl
  fun_induction readOn limit taken c with
  | case1 taken c hl => exact ⟨_, _, _, rfl⟩
  | case2 taken c hl stream hr d =>
    rw [hread hr]
    exact ⟨_, _, _, rfl⟩
  | case3 taken c hl bytes stream hr d e hd =>
    rw [hread hr]
    exact ⟨_, _, _, rfl⟩
  | case4 taken c hl bytes stream hr d hd hload pass c' hp ih =>
    rw [hp] at ih
    obtain ⟨incoming, decoder, buffer, he⟩ := ih
    refine ⟨incoming, decoder, buffer, he.trans ?_⟩
    rw [hread hr]
  | case5 taken c hl stream hr =>
    rw [hread hr]
    exact ⟨_, _, _, rfl⟩
  | case6 taken c hl stream hr hload ih =>
    obtain ⟨incoming, decoder, buffer, he⟩ := ih
    refine ⟨incoming, decoder, buffer, he.trans ?_⟩
    rw [hread hr]
  | case7 taken c hl cause stream hw hint hr =>
    rw [hread hr]
    exact ⟨_, _, _, rfl⟩

/-- Where nothing is there to read, a pass comes to the end of it. -/
theorem more_readPass {c : Connection} (h : c.stream.incoming = []) :
    c.readPass.1.more = false := by
  have hread : c.stream.read chunkSize =
      (if c.stream.ended then .ended else .failure .wouldBlock,
        { c.stream with incoming := [] }) := by
    rw [Net.Stream.read, h]
    rfl
  unfold readPass
  rw [readOn, if_neg (Nat.not_le.mpr (passLimit_pos _))]
  split
  -- Neither data nor an interruption is there.
  case h_2 hr =>
    rw [hread] at hr
    split at hr <;> cases hr
  case h_4 hr =>
    rw [hread] at hr
    split at hr <;> cases hr
  all_goals rfl

/-! ## What is left in the end -/

/-- The decoder and the bytes that are no whole frame, once all that is there and will come has been
read. -/
def residue (c : Connection) (later : List Net.Arrival) : Wire.Decoder × Bytes :=
  let d := c.decoder.drain false (c.buffer ++ (Net.yieldOf (c.stream.incoming ++ later)).bytes)
  (d.decoder, d.rest)

/-- **What is left in the end is the same after a pass as before.** -/
theorem residue_readPass {c : Connection} (hi : c.IsIdle) (hf : c.readPass.1.isFinal = false)
    (later : List Net.Arrival) : c.readPass.2.residue later = c.residue later := by
  obtain ⟨bytes, hyield, hdrained⟩ := takes_readPass hi hf
  have hnone : (c.decoder.drain false (c.buffer ++ bytes)).error = none := by rw [hdrained]
  have hsplit := Wire.Decoder.drain_append hnone
    (Net.yieldOf (c.readPass.2.stream.incoming ++ later)).bytes
  rw [hdrained, List.append_assoc] at hsplit
  unfold residue
  rw [hyield later]
  unfold Net.Yield.after
  dsimp only
  rw [hsplit]
  rfl

theorem residue_congr {c : Connection} {later later' : List Net.Arrival}
    (h : Net.yieldOf later = Net.yieldOf later') : c.residue later = c.residue later' := by
  unfold residue
  rw [Net.yieldOf_append_congr h]

/-- Where nothing is left to read, it is what is there. -/
theorem residue_of_nothing {c : Connection} (hi : c.IsIdle) (h : c.stream.incoming = []) :
    c.residue [] = (c.decoder, c.buffer) := by
  have hd : c.decoder.drain false (c.buffer ++ []) = ⟨[], none, c.decoder, c.buffer⟩ := by
    rw [List.append_nil]
    exact Wire.Decoder.drain_of_idle hi
  unfold residue
  rw [h]
  change ((c.decoder.drain false (c.buffer ++ [])).decoder,
    (c.decoder.drain false (c.buffer ++ [])).rest) = _
  rw [hd]

theorem prospect_congr {c : Connection} {later later' : List Net.Arrival}
    (h : Net.yieldOf later = Net.yieldOf later') (ended : Bool) :
    c.prospect later ended = c.prospect later' ended := by
  unfold prospect
  rw [Net.yieldOf_append_congr h]

end Connection

end MessageBroker
