import MessageBroker.Proofs.Connection.Passes
import MessageBroker.Proofs.Wire.Oversize

/-!
# What a pass may take

A pass reads chunk by chunk until it has taken as many bytes as the longest frame has, and stops
then even if more is there. It leaves less than that in the buffer. A frame that is too long does
not get so far: it is refused with the chunk in which its length arrives, and nothing behind this
chunk is read. So neither the time nor the space that a client can take up in one pass depends on
what it sends.

Headlines:
* **`Net.Stream.Gives.pending`**: reads take from a stream what they give.
* **`Connection.account_readOn`**: what a pass reads, and what it says of that.
* **`Connection.readOn_of_goesOn`**: a pass goes on through data and interruptions.
* **`Connection.settled_readOn`**: a pass that tells of no decoding error leaves a reader as it was.
* **`Connection.readPass_moderate`**: what every pass takes, leaves and refuses.
-/

namespace MessageBroker

namespace Net

/-! ## Reads in a row -/

/-- The bytes that a read gives. -/
def ReadResult.bytes : ReadResult → Bytes
  | .data bytes => bytes
  | _ => []

/-- A read behind which reading goes on at once. -/
def ReadResult.goesOn : ReadResult → Bool
  | .data _ => true
  | .failure .interrupted => true
  | _ => false

/-- The bytes that reads give. -/
def bytesRead (rs : List ReadResult) : Bytes := rs.flatMap ReadResult.bytes

theorem bytesRead_cons (r : ReadResult) (rs : List ReadResult) :
    bytesRead (r :: rs) = r.bytes ++ bytesRead rs := List.flatMap_cons ..

namespace Stream

/-- Reads of at most `n` bytes, one after the other: what they give, and the stream behind them. -/
inductive Gives (n : Nat) : Stream → List ReadResult → Stream → Prop
  | nil (s : Stream) : Gives n s [] s
  | cons {s s' s'' : Stream} {r : ReadResult} {rs : List ReadResult} (first : s.read n = (r, s'))
    (others : Gives n s' rs s'') : Gives n s (r :: rs) s''

theorem bytesOf_leftover (data : Bytes) (rest : List Arrival) :
    bytesOf (leftover data rest) = data.length + bytesOf rest := by
  unfold leftover
  split
  · rename_i h
    rw [List.isEmpty_iff.mp h, List.length_nil, Nat.zero_add]
  · rfl

/-- A read takes from what has arrived the bytes that it gives, no more than it may. -/
theorem bytesOf_readFrom (ended : Bool) (n : Nat) : ∀ incoming : List Arrival,
    bytesOf incoming = (readFrom ended n incoming).1.bytes.length +
        bytesOf (readFrom ended n incoming).2 ∧
      (readFrom ended n incoming).1.bytes.length ≤ n
  | [] => by
    unfold readFrom
    cases ended <;> exact ⟨rfl, Nat.zero_le n⟩
  | .failure cause :: rest => ⟨(Nat.zero_add _).symm, Nat.zero_le n⟩
  | .bytes [] :: rest => by
    have ih := bytesOf_readFrom ended n rest
    refine ⟨?_, ih.2⟩
    rw [bytesOf, List.length_nil, Nat.zero_add]
    exact ih.1
  | .bytes (b :: bs) :: rest => by
    simp only [readFrom, ReadResult.bytes, bytesOf, bytesOf_leftover]
    have := congrArg List.length (List.take_append_drop n (b :: bs))
    rw [List.length_append] at this
    exact ⟨by omega, List.length_take_le n _⟩

theorem pending_of_read {s s' : Stream} {n : Nat} {r : ReadResult} (h : s.read n = (r, s')) :
    s.pending = r.bytes.length + s'.pending ∧ r.bytes.length ≤ n := by
  have hb := bytesOf_readFrom s.ended n s.incoming
  rwa [readFrom_of_read h] at hb

/-- **Reads take from a stream what they give.** -/
theorem Gives.pending {n : Nat} {s s' : Stream} {rs : List ReadResult} (h : Gives n s rs s') :
    s.pending = (bytesRead rs).length + s'.pending := by
  induction h with
  | nil s => exact (Nat.zero_add _).symm
  | cons first others ih =>
    rw [(pending_of_read first).1, ih, bytesRead_cons, List.length_append, Nat.add_assoc]

theorem Gives.split {n : Nat} {s s'' : Stream} {rs rs' : List ReadResult}
    (h : Gives n s (rs ++ rs') s'') : ∃ s', Gives n s rs s' ∧ Gives n s' rs' s'' := by
  induction rs generalizing s with
  | nil => exact ⟨s, .nil s, h⟩
  | cons r rs ih =>
    cases h with
    | cons first others =>
      obtain ⟨s', hs, hs'⟩ := ih others
      exact ⟨s', .cons first hs, hs'⟩

end Stream

end Net

namespace Connection

open Net (bytesRead)

/-! ## What a pass reads -/

/-- What a pass reads and what it says of that. -/
structure Account (limit taken : Nat) (c : Connection) (p : ReadPass × Connection)
    (reads : List Net.ReadResult) : Prop where
  gives : c.stream.Gives chunkSize reads p.2.stream
  /-- It takes less than a chunk more than the limit. -/
  few : taken + (bytesRead reads).length < limit + chunkSize
  /-- It says that there may be more just if it stops for having taken enough. -/
  more_iff : p.1.more = true ↔ limit ≤ taken + (bytesRead reads).length ∧
    (∀ r ∈ reads, r.goesOn = true) ∧ ∀ e, p.1.error ≠ some (.decode e)
  ended_iff : p.1.ended = true ↔ .ended ∈ reads
  failed_iff : ∀ cause, p.1.error = some (.net (.io cause)) ↔
    cause.isPassing = false ∧ .failure cause ∈ reads

/-- One read more in front, behind which the pass goes on. -/
theorem Account.cons {limit taken : Nat} {c : Connection} {stream : Net.Stream}
    {decoder : Wire.Decoder} {buffer : Bytes} {p : ReadPass × Connection}
    {reads : List Net.ReadResult} {r : Net.ReadResult} (ms : List Message)
    (hr : c.stream.read chunkSize = (r, stream)) (hgo : r.goesOn = true)
    (h : Account limit (taken + r.bytes.length) { c with stream, decoder, buffer } p reads) :
    Account limit taken c ({ p.1 with messages := ms ++ p.1.messages }, p.2) (r :: reads) where
  gives := .cons hr h.gives
  few := by
    rw [Net.bytesRead_cons, List.length_append, ← Nat.add_assoc]
    exact h.few
  more_iff := by
    rw [Net.bytesRead_cons, List.length_append, ← Nat.add_assoc, List.forall_mem_cons,
      and_iff_right hgo]
    exact h.more_iff
  ended_iff := by
    rw [List.mem_cons, or_iff_right]
    · exact h.ended_iff
    · rintro rfl
      cases hgo
  failed_iff cause := by
    rw [List.mem_cons]
    have hnot : cause.isPassing = false → ¬ .failure cause = r := by
      rintro hc rfl
      cases cause <;> simp [Net.ReadResult.goesOn, IoFailure.isPassing] at hgo hc
    exact (h.failed_iff cause).trans
      (and_congr_right fun hc => (or_iff_right (hnot hc)).symm)

/-- **What a pass reads, and what it says of that.** -/
theorem account_readOn {limit taken : Nat} (htaken : taken < limit + chunkSize) (c : Connection) :
    ∃ reads, Account limit taken c (c.readOn limit taken) reads := by
  have hread : ∀ {s s' : Net.Stream} {r : Net.ReadResult}, s.read chunkSize = (r, s') →
      s.Gives chunkSize [r] s' := fun h => .cons h (.nil _)
  fun_induction readOn limit taken c with
  | case1 taken c hl => exact ⟨[], .nil _, htaken, by simp [hl, bytesRead], by simp, by simp⟩
  | case2 taken c hl stream hr d =>
    exact ⟨[.ended], hread hr, htaken, by simp [Net.ReadResult.goesOn], by simp, by simp⟩
  | case3 taken c hl bytes stream hr d e hd =>
    have hlen : bytes.length ≤ chunkSize := (Net.Stream.pending_of_read hr).2
    refine ⟨[.data bytes], hread hr, ?_, by simp, by simp, by simp⟩
    simp only [bytesRead, List.flatMap_cons, List.flatMap_nil, List.append_nil,
      Net.ReadResult.bytes]
    omega
  | case4 taken c hl bytes stream hr d hd hload pass c' hp ih =>
    have hlen : bytes.length ≤ chunkSize := (Net.Stream.pending_of_read hr).2
    obtain ⟨reads, h⟩ := ih (by omega)
    rw [hp] at h
    exact ⟨_, h.cons d.messages hr rfl⟩
  | case5 taken c hl stream hr =>
    refine ⟨[.failure .wouldBlock], hread hr, htaken, by simp [Net.ReadResult.goesOn], by simp, ?_⟩
    intro cause
    cases cause <;> simp [IoFailure.isPassing]
  | case6 taken c hl stream hr hload ih =>
    obtain ⟨reads, h⟩ := ih htaken
    exact ⟨_, h.cons [] hr rfl⟩
  | case7 taken c hl cause stream hw hint hr =>
    have hpassing : cause.isPassing = false := by
      cases cause <;> first | rfl | exact absurd rfl hw | exact absurd rfl hint
    have hgo : (Net.ReadResult.failure cause).goesOn = false := by
      cases cause <;> first | rfl | exact absurd rfl hint
    refine ⟨[.failure cause], hread hr, htaken, by simp [hgo], by simp, fun other => ?_⟩
    simp only [Option.some.injEq, BrokerError.net.injEq, NetError.io.injEq, List.mem_singleton,
      Net.ReadResult.failure.injEq]
    constructor
    · rintro rfl
      exact ⟨hpassing, rfl⟩
    · exact fun h => h.2.symm

/-- **A pass goes on through data and interruptions,** as long as it has not taken enough and
nothing is refused. -/
theorem readOn_of_goesOn {limit taken : Nat} {c : Connection} {stream : Net.Stream}
    {reads : List Net.ReadResult} (h : c.stream.Gives chunkSize reads stream)
    (hgo : ∀ r ∈ reads, r.goesOn = true) (hfew : taken + (bytesRead reads).length < limit)
    (hi : c.IsIdle) (hd : (c.decoder.drain false (c.buffer ++ bytesRead reads)).error = none) :
    c.readOn limit taken =
      let x := c.decoder.drain false (c.buffer ++ bytesRead reads)
      let p := readOn limit (taken + (bytesRead reads).length)
        { c with stream, decoder := x.decoder, buffer := x.rest }
      ({ p.1 with messages := x.messages ++ p.1.messages }, p.2) := by
  generalize hs : c.stream = s at h
  induction h generalizing c taken with
  | nil s =>
    subst hs
    have hnone : c.decoder.drain false (c.buffer ++ bytesRead []) =
        ⟨[], none, c.decoder, c.buffer⟩ := by
      rw [bytesRead, List.flatMap_nil, List.append_nil]
      exact Wire.Decoder.drain_of_idle hi
    rw [hnone]
    rfl
  | @cons s s' s'' r rs first others ih =>
    subst hs
    obtain ⟨hr, hrs⟩ := List.forall_mem_cons.mp hgo
    rw [Net.bytesRead_cons] at hd hfew ⊢
    rw [List.length_append] at hfew
    rw [readOn, if_neg (by omega)]
    cases r with
    | ended => cases hr
    | data bytes =>
      have hfirst : (c.decoder.drain false (c.buffer ++ bytes)).error = none := by
        by_contra hne
        obtain ⟨e, he⟩ := Option.ne_none_iff_exists'.mp hne
        have := Wire.Decoder.drain_append_of_error he (bytesRead rs)
        rw [List.append_assoc] at this
        rw [Net.ReadResult.bytes, this] at hd
        exact hne hd
      have hsplit := Wire.Decoder.drain_append hfirst (bytesRead rs)
      rw [List.append_assoc] at hsplit
      rw [Net.ReadResult.bytes, hsplit] at hd ⊢
      split
      all_goals
        rename_i hread
        rw [first] at hread
        cases hread
      dsimp only
      rw [hfirst]
      have htail := @ih (taken + bytes.length)
        { c with
          stream := s'
          decoder := (c.decoder.drain false (c.buffer ++ bytes)).decoder
          buffer := (c.decoder.drain false (c.buffer ++ bytes)).rest }
        hrs (by rw [Net.ReadResult.bytes] at hfew; omega) (Wire.Decoder.idle_drain hfirst) hd rfl
      dsimp only at htail ⊢
      rw [htail]
      simp only [Wire.Decoder.Drained.after, List.append_assoc, List.length_append, Nat.add_assoc]
    | failure cause =>
      obtain rfl : cause = .interrupted := by
        cases cause <;> first | rfl | cases hr
      split
      all_goals
        rename_i hread
        rw [first] at hread
        cases hread
      · exact @ih taken { c with stream := s' } hrs (by omega) hi hd rfl
      · contradiction

/-- A chunk with which something is refused ends a pass. -/
theorem readOn_of_refused {limit taken : Nat} {c : Connection} {stream : Net.Stream} {chunk : Bytes}
    {e : DecodeError} (hl : ¬ limit ≤ taken)
    (hread : c.stream.read chunkSize = (.data chunk, stream))
    (he : (c.decoder.drain false (c.buffer ++ chunk)).error = some e) :
    c.readOn limit taken =
      let x := c.decoder.drain false (c.buffer ++ chunk)
      ({ messages := x.messages, error := some (.decode e) },
        { c with stream, decoder := x.decoder, buffer := x.rest }) := by
  rw [readOn, if_neg hl]
  split
  all_goals
    rename_i hr
    rw [hread] at hr
    cases hr
  dsimp only
  rw [he]

/-! ## What a pass leaves -/

/-- A pass leaves the decoder and the buffer fit for the next one, unless it tells of a decoding
error. -/
theorem settled_readOn (limit taken : Nat) {largest : Nat} {c : Connection}
    (h : Wire.Settled largest c.decoder c.buffer)
    (he : ∀ e, (c.readOn limit taken).1.error ≠ some (.decode e)) :
    Wire.Settled largest (c.readOn limit taken).2.decoder (c.readOn limit taken).2.buffer := by
  fun_induction readOn limit taken c with
  | case1 taken c hl => exact h
  | case2 taken c hl stream hr d =>
    have hd : (c.decoder.drain true (c.buffer ++ [])).error = none := by
      rw [List.append_nil]
      by_contra hne
      obtain ⟨e, hx⟩ := Option.ne_none_iff_exists'.mp hne
      exact he e (congrArg (Option.map BrokerError.decode) hx)
    have := h.drain true [] hd
    rwa [List.append_nil] at this
  | case3 taken c hl bytes stream hr d e hd => exact absurd rfl (he e)
  | case4 taken c hl bytes stream hr d hd hload pass c' hp ih =>
    rw [hp] at ih
    exact ih (h.drain false bytes hd) he
  | case5 taken c hl stream hr => exact h
  | case6 taken c hl stream hr hload ih => exact ih h he
  | case7 taken c hl cause stream hw hint hr => exact h

/-- A decoder and a buffer that passes have left behind, each of them over any stream and none of
them with a decoding error. -/
inductive Passed (largest : Nat) : Wire.Decoder → Bytes → Prop
  | new : Passed largest (.new largest) []
  | pass {c : Connection} (before : Passed largest c.decoder c.buffer)
    (h : ∀ e, c.readPass.1.error ≠ some (.decode e)) :
    Passed largest c.readPass.2.decoder c.readPass.2.buffer

theorem Passed.settled {largest : Nat} {d : Wire.Decoder} {buffer : Bytes}
    (h : Passed largest d buffer) : Wire.Settled largest d buffer := by
  induction h with
  | new => exact Wire.settled_new largest
  | pass before he ih => exact settled_readOn _ 0 ih he

/-! ## Moderation -/

/-- How much a pass may have read before it stops, where blocks may be no longer than `limit`. -/
def allowance (limit : Nat) : Nat := if limit = 0 then 524288 else max 8192 (13 + 2 * limit)

theorem passLimit_eq (d : Wire.Decoder) : passLimit d = allowance d.limit := by
  unfold passLimit allowance Wire.Decoder.maxFrameLength
  split
  · rfl
  · unfold Wire.headerLength chunkSize
    simp only [Option.getD_some]
    omega

/-- A frame that is too long is refused where its length arrives: reads `earlier` have given frames
`ms` and not the whole of the length, and the next read gives the rest of it. -/
structure Arrives (largest : Nat) (c : Connection) (earlier : List Net.ReadResult) (chunk : Bytes)
    (stream : Net.Stream) (ms : List Message) : Prop where
  gives : c.stream.Gives chunkSize (earlier ++ [.data chunk]) stream
  goesOn : ∀ r ∈ earlier, r.goesOn = true
  few : (bytesRead earlier).length < allowance largest
  frames : ∃ front extra, Wire.TooLong largest front ∧ extra.length < chunk.length ∧
    Wire.AcceptedAll largest (c.buffer ++ bytesRead earlier ++ chunk) ms (front ++ extra)

/-- A pass takes little, leaves little, and refuses early. -/
structure Moderate (largest : Nat) (c : Connection) : Prop where
  /-- What it reads is gone from the stream, and no more is. -/
  takes : ∃ reads, Account (allowance largest) 0 c c.readPass reads ∧
    c.stream.pending = (bytesRead reads).length + c.readPass.2.stream.pending
  /-- What is left in the buffer is shorter than the longest frame. -/
  leaves : largest ≠ 0 → c.readPass.1.error = none → c.readPass.2.buffer.length < 13 + 2 * largest
  /-- It ends with the chunk that completes a length that is too much, with all messages before. -/
  refuses : ∀ earlier chunk stream ms, Arrives largest c earlier chunk stream ms →
    c.readPass.1 = { messages := ms, error := some (.decode .sizeExceeded) } ∧
      c.readPass.2.stream = stream

variable {largest : Nat} {c : Connection}

theorem refuses_of_arrives (h : Wire.Settled largest c.decoder c.buffer)
    {earlier : List Net.ReadResult} {chunk : Bytes} {stream : Net.Stream} {ms : List Message}
    (ha : Arrives largest c earlier chunk stream ms) :
    c.readPass.1 = { messages := ms, error := some (.decode .sizeExceeded) } ∧
      c.readPass.2.stream = stream := by
  obtain ⟨front, extra, hfront, hextra, hall⟩ := ha.frames
  obtain ⟨before, hgives, hlast⟩ := ha.gives.split
  -- The reads before leave the decoder waiting for the rest of the length.
  have hearly : (c.decoder.drain false (c.buffer ++ bytesRead earlier)).error = none := by
    rw [h.drain_eq_new]
    exact hall.error_of_short hfront rfl rfl hextra
  have hfew : 0 + (bytesRead earlier).length < passLimit c.decoder := by
    rw [Nat.zero_add, passLimit_eq, h.limit_eq]
    exact ha.few
  have hpass := readOn_of_goesOn hgives ha.goesOn hfew h.idle hearly
  -- The last one completes it.
  have hwhole : (c.decoder.drain false (c.buffer ++ bytesRead earlier ++ chunk)).messages = ms ∧
      (c.decoder.drain false (c.buffer ++ bytesRead earlier ++ chunk)).error =
        some .sizeExceeded := by
    rw [List.append_assoc, h.drain_eq_new, ← List.append_assoc]
    exact hall.drain_eq hfront rfl
  rw [Wire.Decoder.drain_append hearly] at hwhole
  obtain ⟨hms, herror⟩ := hwhole
  have hread : before.read chunkSize = (.data chunk, stream) := by
    cases hlast with
    | cons first others =>
      cases others
      exact first
  have hrefused := @readOn_of_refused (passLimit c.decoder) (0 + (bytesRead earlier).length)
    { c with
      stream := before
      decoder := (c.decoder.drain false (c.buffer ++ bytesRead earlier)).decoder
      buffer := (c.decoder.drain false (c.buffer ++ bytesRead earlier)).rest }
    stream chunk .sizeExceeded (Nat.not_le.mpr hfew) hread herror
  unfold readPass
  dsimp only at hpass hrefused
  rw [hpass, hrefused]
  exact ⟨congrArg (ReadPass.mk · _ _ _) hms, rfl⟩

/-- **What every pass takes, leaves and refuses,** over whatever stream and behind whatever passes
before it. It takes less than a chunk more than its allowance, and says that there may be more just
if it stops for that. If it goes well it leaves less than the longest frame in the buffer. A frame
that is too long ends it with the chunk in which the length arrives, with the messages of the frames
before. -/
theorem readPass_moderate (h : Passed largest c.decoder c.buffer) : Moderate largest c where
  takes := by
    have hs := h.settled
    obtain ⟨reads, ha⟩ := @account_readOn (passLimit c.decoder) 0
      (Nat.lt_of_lt_of_le (passLimit_pos _) (Nat.le_add_right ..)) c
    change Account _ 0 c c.readPass reads at ha
    rw [passLimit_eq, hs.limit_eq] at ha
    exact ⟨reads, ha, ha.gives.pending⟩
  leaves h0 he := by
    have hs := settled_readOn (passLimit c.decoder) 0 h.settled (fun e hd => by
      have he' : (c.readOn (passLimit c.decoder) 0).1.error = none := he
      rw [he'] at hd
      cases hd)
    have := hs.length_lt h0
    unfold Wire.longestFrame Wire.headerLength at this
    change (c.readOn (passLimit c.decoder) 0).2.buffer.length < _
    omega
  refuses _ _ _ _ := refuses_of_arrives h.settled

/-- A new connection whose client sends a ping and the front of a frame with too long a header
block, whose length arrives in two pieces. -/
def greedy : Connection :=
  .new 1 { incoming := [.bytes (Wire.frameOf .ping [] ++ Wire.marker ++ [3, 0, 0]),
    .bytes [0, 17, 1], .bytes [2]] } 16

theorem arrives_greedy :
    Arrives 16 greedy [.data (Wire.frameOf .ping [] ++ Wire.marker ++ [3, 0, 0])] [0, 17, 1]
      { incoming := [.bytes [2]] } [{ type := .ping }] where
  gives := .cons rfl (.cons rfl (.nil _))
  goesOn := by simp [Net.ReadResult.goesOn]
  few := by decide
  frames := by
    refine ⟨Wire.marker ++ MessageType.message.toByte ::
      (([] : List Bytes).flatMap Wire.block ++ Wire.encodeLength 17), [1], ?_, by decide, ?_⟩
    · exact .intro (by decide) nofun (by decide) (by decide)
    · exact .cons ⟨.ping, [], .intro ⟨rfl, rfl, nofun⟩, .bare⟩ (.nil _)

theorem readPass_moderate_greedy : Passed 16 greedy.decoder greedy.buffer ∧ Moderate 16 greedy ∧
    greedy.readPass.1 =
        { messages := [{ type := .ping }], error := some (.decode .sizeExceeded) } ∧
      greedy.readPass.2.stream = { incoming := [.bytes [2]] } :=
  ⟨.new, readPass_moderate .new, (readPass_moderate .new).refuses _ _ _ _ arrives_greedy⟩

end Connection

end MessageBroker
