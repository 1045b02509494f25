import MessageBroker.Connection
import MessageBroker.Proofs.Wire.Draining

/-!
# Read passes in a row

What a client sends comes to a connection in pieces, with pauses and interruptions between them, and
is read in passes that stop where nothing is left, where the limit of a pass is reached, or where
the input ends. None of that can be told from the messages: the passes together give what one
decoder makes of all the bytes at once.

Headlines:
* **`Net.yieldOf_readFrom`**: one read takes its bytes from the front of what reading comes to.
* **`Connection.tells_readOn`**: what a pass gives and what is left after it make up what was there
  before.
* **`Connection.follow_new`**: passes in a row give what a decoder makes of the whole input.
-/

namespace MessageBroker

/-- A failed read that may simply be tried again, at once or later. -/
def IoFailure.isPassing : IoFailure → Bool
  | interrupted => true
  | wouldBlock => true
  | _ => false

namespace Net

/-! ## What reading comes to -/

/-- What reading comes to: the bytes in front of the first failure that stays, and that failure. -/
structure Yield where
  bytes : Bytes := []
  failure : Option IoFailure := none

/-- With bytes in front. -/
def Yield.after (y : Yield) (data : Bytes) : Yield := { y with bytes := data ++ y.bytes }

/-- What reading comes to when all that has arrived is read. -/
def yieldOf : List Arrival → Yield
  | [] => {}
  | .bytes data :: rest => (yieldOf rest).after data
  | .failure cause :: rest => if cause.isPassing then yieldOf rest else { failure := some cause }

theorem Yield.after_after (y : Yield) (data more : Bytes) :
    (y.after more).after data = y.after (data ++ more) := by
  unfold after
  rw [List.append_assoc]

theorem yieldOf_leftover (data : Bytes) (rest : List Arrival) :
    yieldOf (Stream.leftover data rest) = (yieldOf rest).after data := by
  unfold Stream.leftover
  split
  · rename_i h
    rw [List.isEmpty_iff] at h
    subst h
    rfl
  · rfl

theorem leftover_append (data : Bytes) (rest later : List Arrival) :
    Stream.leftover data rest ++ later = Stream.leftover data (rest ++ later) := by
  unfold Stream.leftover
  split <;> rfl

/-- **One read takes its bytes from the front of what reading comes to,** whatever arrives later. -/
theorem yieldOf_readFrom (ended : Bool) (n : Nat) (later : List Arrival) :
    ∀ incoming : List Arrival,
      match Stream.readFrom ended n incoming with
      | (.data data, rest) => yieldOf (incoming ++ later) = (yieldOf (rest ++ later)).after data
      | (.ended, rest) => ended = true ∧ rest = [] ∧ yieldOf (incoming ++ later) = yieldOf later
      | (.failure cause, rest) =>
        yieldOf (incoming ++ later) =
          if cause.isPassing then yieldOf (rest ++ later) else { failure := some cause }
  | [] => by
    unfold Stream.readFrom
    cases ended <;> simp [IoFailure.isPassing]
  | .failure cause :: rest => rfl
  | .bytes [] :: rest => yieldOf_readFrom ended n later rest
  | .bytes (b :: bs) :: rest => by
    simp only [Stream.readFrom]
    rw [leftover_append, yieldOf_leftover, Yield.after_after, List.take_append_drop]
    rfl

namespace Stream

variable {s s' : Stream} {n : Nat}

theorem readFrom_of_read {r : ReadResult} (h : s.read n = (r, s')) :
    readFrom s.ended n s.incoming = (r, s'.incoming) := by
  cases h
  rfl

theorem ended_of_read {r : ReadResult} (h : s.read n = (r, s')) : s'.ended = s.ended := by
  cases h
  rfl

theorem yieldOf_read_data {data : Bytes} (h : s.read n = (.data data, s'))
    (later : List Arrival) :
    yieldOf (s.incoming ++ later) = (yieldOf (s'.incoming ++ later)).after data := by
  have hy := yieldOf_readFrom s.ended n later s.incoming
  rwa [readFrom_of_read h] at hy

theorem yieldOf_read_ended (h : s.read n = (.ended, s')) (later : List Arrival) :
    s.ended = true ∧ yieldOf (s.incoming ++ later) = yieldOf later := by
  have hy := yieldOf_readFrom s.ended n later s.incoming
  rw [readFrom_of_read h] at hy
  exact ⟨hy.1, hy.2.2⟩

theorem yieldOf_read_failure {cause : IoFailure} (h : s.read n = (.failure cause, s'))
    (later : List Arrival) :
    yieldOf (s.incoming ++ later) =
      if cause.isPassing then yieldOf (s'.incoming ++ later) else { failure := some cause } := by
  have hy := yieldOf_readFrom s.ended n later s.incoming
  rwa [readFrom_of_read h] at hy

end Stream

end Net

/-! ## One pass -/

/-- What a connection was told: the messages in order, and what went wrong behind them. -/
structure Reading where
  messages : List Message
  error : Option BrokerError

/-- With messages in front. -/
def Reading.after (r : Reading) (ms : List Message) : Reading :=
  { r with messages := ms ++ r.messages }

/-- What a decoder makes of a buffer and of what reading comes to: an error of its own, or else the
failure that ended the reading. -/
def outcome (d : Wire.Decoder) (buffer : Bytes) (y : Net.Yield) (ended : Bool) : Reading :=
  let x := d.readOut (ended && y.failure.isNone) (buffer ++ y.bytes)
  { messages := x.messages
    error := (x.error.map .decode).or (y.failure.map fun cause => .net (.io cause)) }

theorem outcome_after {d : Wire.Decoder} {buffer data : Bytes}
    (h : (d.drain false (buffer ++ data)).error = none) (y : Net.Yield) (ended : Bool) :
    outcome d buffer (y.after data) ended =
      (outcome (d.drain false (buffer ++ data)).decoder (d.drain false (buffer ++ data)).rest y
        ended).after (d.drain false (buffer ++ data)).messages := by
  unfold outcome Net.Yield.after
  simp only
  rw [← List.append_assoc, Wire.Decoder.readOut_append h]
  rfl

theorem outcome_after_of_error {d : Wire.Decoder} {buffer data : Bytes} {e : DecodeError}
    (h : (d.drain false (buffer ++ data)).error = some e) (y : Net.Yield) (ended : Bool) :
    outcome d buffer (y.after data) ended =
      ⟨(d.drain false (buffer ++ data)).messages, some (.decode e)⟩ := by
  unfold outcome Net.Yield.after
  simp only
  rw [← List.append_assoc, Wire.Decoder.readOut_append_of_error h]
  simp only [h]
  rfl

theorem outcome_of_failure {d : Wire.Decoder} {buffer : Bytes} (h : d.Idle buffer)
    (cause : IoFailure) (ended : Bool) :
    outcome d buffer { failure := some cause } ended = ⟨[], some (.net (.io cause))⟩ := by
  unfold outcome
  simp only [List.append_nil, Option.isNone_some, Bool.and_false]
  rw [Wire.Decoder.readOut_of_idle h]
  rfl

theorem outcome_of_nothing {d : Wire.Decoder} {buffer : Bytes} (h : d.Idle buffer)
    (ended : Bool) :
    outcome d buffer {} ended =
      if ended then ⟨(d.drain true buffer).messages, (d.drain true buffer).error.map .decode⟩
      else ⟨[], none⟩ := by
  unfold outcome
  simp only [List.append_nil, Option.isNone_none, Bool.and_true]
  rw [Wire.Decoder.readOut_of_idle h]
  cases ended <;> simp

/-- After the pass there is nothing more to read. -/
def ReadPass.isFinal (p : ReadPass) : Bool := p.error.isSome || p.ended

namespace Connection

/-- All that was read has been looked at. -/
def IsIdle (c : Connection) : Prop := c.decoder.Idle c.buffer

/-- What reading comes to from here on, with what will arrive later. -/
def prospect (c : Connection) (later : List Net.Arrival) (ended : Bool) : Reading :=
  outcome c.decoder c.buffer (Net.yieldOf (c.stream.incoming ++ later)) ended

/-- A pass tells what reading comes to, or a part of it and the connection left the rest. -/
def Tells (c : Connection) (later : List Net.Arrival) (ended : Bool)
    (p : ReadPass × Connection) : Prop :=
  if p.1.isFinal then c.prospect later ended = ⟨p.1.messages, p.1.error⟩
  else
    p.2.IsIdle ∧ p.2.stream.ended = c.stream.ended ∧
      c.prospect later ended = (p.2.prospect later ended).after p.1.messages

section Tells

variable {c c' : Connection} {later : List Net.Arrival} {ended : Bool} {p : ReadPass × Connection}

theorem Tells.of_final (hf : p.1.isFinal = true)
    (h : c.prospect later ended = ⟨p.1.messages, p.1.error⟩) : c.Tells later ended p := by
  unfold Tells
  rwa [if_pos hf]

theorem Tells.of_more (hf : p.1.isFinal = false) (hi : p.2.IsIdle)
    (he : p.2.stream.ended = c.stream.ended)
    (h : c.prospect later ended = (p.2.prospect later ended).after p.1.messages) :
    c.Tells later ended p := by
  unfold Tells
  rw [hf]
  exact ⟨hi, he, h⟩

/-- What was told before the rest of a pass is told by the pass. -/
theorem Tells.after {ms : List Message} (he : c'.stream.ended = c.stream.ended)
    (hp : c.prospect later ended = (c'.prospect later ended).after ms)
    (h : c'.Tells later ended p) :
    c.Tells later ended ({ p.1 with messages := ms ++ p.1.messages }, p.2) := by
  cases hf : p.1.isFinal with
  | true =>
    rw [Tells, if_pos hf] at h
    refine Tells.of_final hf ?_
    rw [hp, h]
    rfl
  | false =>
    rw [Tells, hf] at h
    obtain ⟨hi, he', hp'⟩ := h
    refine Tells.of_more hf hi (he'.trans he) ?_
    rw [hp, hp']
    unfold Reading.after
    simp only [List.append_assoc]

end Tells

/-- **What a pass gives and what is left after it make up what was there before.** -/
theorem tells_readOn (limit taken : Nat) (c : Connection) {later : List Net.Arrival} {ended : Bool}
    (hi : c.IsIdle) (he : c.stream.ended = true → later = [] ∧ ended = true) :
    c.Tells later ended (c.readOn limit taken) := by
  fun_induction Connection.readOn limit taken c with
  | case1 => exact .of_more rfl hi rfl rfl
  | case2 taken c hl stream hr d =>
    refine .of_final (Bool.or_true _) ?_
    obtain ⟨hs, hy⟩ := Net.Stream.yieldOf_read_ended hr later
    obtain ⟨rfl, rfl⟩ := he hs
    unfold prospect
    rw [hy]
    exact outcome_of_nothing hi true
  | case3 taken c hl bytes stream hr d e hd =>
    refine .of_final rfl ?_
    unfold prospect
    rw [Net.Stream.yieldOf_read_data hr]
    exact outcome_after_of_error hd _ _
  | case4 taken c hl bytes stream hr d hd hload pass c' hp ih =>
    have hs := Net.Stream.ended_of_read hr
    have ht := ih (Wire.Decoder.idle_drain hd) (fun h => he (hs.symm.trans h))
    rw [hp] at ht
    refine Tells.after hs ?_ ht
    unfold prospect
    rw [Net.Stream.yieldOf_read_data hr]
    exact outcome_after hd _ _
  | case5 taken c hl stream hr =>
    refine .of_more rfl hi (Net.Stream.ended_of_read hr) ?_
    unfold prospect
    rw [Net.Stream.yieldOf_read_failure hr]
    rfl
  | case6 taken c hl stream hr hload ih =>
    have hs := Net.Stream.ended_of_read hr
    have hp : c.prospect later ended =
        (({ c with stream } : Connection).prospect later ended).after [] := by
      unfold prospect
      rw [Net.Stream.yieldOf_read_failure hr]
      rfl
    exact Tells.after hs hp (ih hi (fun h => he (hs.symm.trans h)))
  | case7 taken c hl cause stream hw hint hr =>
    refine .of_final rfl ?_
    have hc : cause.isPassing = false := by
      cases cause <;> first | rfl | exact absurd rfl hw | exact absurd rfl hint
    unfold prospect
    rw [Net.Stream.yieldOf_read_failure hr, hc]
    exact outcome_of_failure hi cause ended

/-! ## Passes in a row -/

theorem load_of_read {s s' : Net.Stream} {r : Net.ReadResult} (h : s.read chunkSize = (r, s')) :
    s'.load ≤ s.load ∧ (s.incoming ≠ [] → s'.load < s.load) := by
  cases h
  exact ⟨Net.Stream.loadOf_readFrom_le _, Net.Stream.load_read_lt (by decide)⟩

theorem load_readOn (limit taken : Nat) (c : Connection) :
    (c.readOn limit taken).2.stream.load ≤ c.stream.load ∧
      (taken < limit → c.stream.incoming ≠ [] →
        (c.readOn limit taken).2.stream.load < c.stream.load) := by
  fun_induction Connection.readOn limit taken c with
  | case1 taken c hl => exact ⟨Nat.le_refl _, fun h => absurd hl (Nat.not_le.mpr h)⟩
  | case2 taken c hl stream hr d => exact (load_of_read hr).imp_right fun h _ => h
  | case3 taken c hl bytes stream hr d e hd => exact (load_of_read hr).imp_right fun h _ => h
  | case4 taken c hl bytes stream hr d hd hload pass c' hp ih =>
    rw [hp] at ih
    have hlt := Nat.lt_of_le_of_lt ih.1 hload
    exact ⟨Nat.le_of_lt hlt, fun _ _ => hlt⟩
  | case5 taken c hl stream hr => exact (load_of_read hr).imp_right fun h _ => h
  | case6 taken c hl stream hr hload ih =>
    have hlt := Nat.lt_of_le_of_lt ih.1 hload
    exact ⟨Nat.le_of_lt hlt, fun _ _ => hlt⟩
  | case7 taken c hl cause stream hw hint hr => exact (load_of_read hr).imp_right fun h _ => h

theorem passLimit_pos (d : Wire.Decoder) : 0 < passLimit d := by
  unfold passLimit chunkSize
  omega

/-- A pass reads something, if there is anything. -/
theorem load_readPass_lt {c : Connection} (h : c.stream.incoming ≠ []) :
    c.readPass.2.stream.load < c.stream.load :=
  (load_readOn _ 0 c).2 (passLimit_pos _) h

/-- Where the input has ended, a pass is the last one. -/
theorem isFinal_readPass {c : Connection} (h : c.stream.incoming = []) (he : c.stream.ended = true) :
    c.readPass.1.isFinal = true := by
  have hr : Net.Stream.readFrom c.stream.ended chunkSize c.stream.incoming = (.ended, []) := by
    rw [h, he]
    rfl
  have hread : c.stream.read chunkSize = (.ended, { c.stream with incoming := [] }) := by
    rw [Net.Stream.read, hr]
  unfold readPass
  rw [readOn, if_neg (Nat.not_le.mpr (passLimit_pos _))]
  split
  · exact Bool.or_true _
  all_goals
    rename_i hr'
    rw [hread] at hr'
    cases hr'

/-- Passes until one is the last, or all that has arrived is read. -/
def exhaust (c : Connection) : Reading :=
  if c.stream.incoming = [] ∧ c.stream.ended = false then ⟨[], none⟩
  else if c.readPass.1.isFinal then ⟨c.readPass.1.messages, c.readPass.1.error⟩
  else c.readPass.2.exhaust.after c.readPass.1.messages
termination_by c.stream.load
decreasing_by
  rename_i hs hf
  refine load_readPass_lt fun h => hf (isFinal_readPass h ?_)
  cases he : c.stream.ended with
  | true => rfl
  | false => exact absurd ⟨h, he⟩ hs

/-- What happens between a broker and the network. -/
inductive Happening
  /-- Something arrives. -/
  | arrival (a : Net.Arrival)
  /-- The connection is read from. -/
  | pass
deriving DecidableEq, Repr

/-- What arrives. -/
def Happening.arrivals : List Happening → List Net.Arrival
  | [] => []
  | .arrival a :: hs => a :: arrivals hs
  | .pass :: hs => arrivals hs

/-- Something arrives. -/
def receive (c : Connection) (a : Net.Arrival) : Connection :=
  { c with stream := { c.stream with incoming := c.stream.incoming ++ [a] } }

/-- What the passes give while this happens, and those after it, if the input then ends or not. -/
def follow (ended : Bool) : List Happening → Connection → Reading
  | [], c => exhaust { c with stream := { c.stream with ended } }
  | .arrival a :: hs, c => follow ended hs (c.receive a)
  | .pass :: hs, c =>
    if c.readPass.1.isFinal then ⟨c.readPass.1.messages, c.readPass.1.error⟩
    else (follow ended hs c.readPass.2).after c.readPass.1.messages

theorem tells_readPass {c : Connection} {later : List Net.Arrival} {ended : Bool}
    (hi : c.IsIdle) (he : c.stream.ended = true → later = [] ∧ ended = true) :
    c.Tells later ended c.readPass :=
  tells_readOn _ 0 c hi he

/-- A pass that was not the last one leaves nothing in the buffer that has not been looked at. -/
theorem isIdle_readPass {c : Connection} (hi : c.IsIdle) (hf : c.readPass.1.isFinal = false) :
    c.readPass.2.IsIdle := by
  have ht := c.tells_readPass hi (fun he => ⟨@rfl _ [], he⟩)
  rw [Tells, hf] at ht
  exact ht.1

theorem exhaust_eq (c : Connection) (hi : c.IsIdle) :
    c.exhaust = c.prospect [] c.stream.ended := by
  fun_induction exhaust c with
  | case1 c hs =>
    unfold prospect
    rw [hs.1, hs.2]
    exact (outcome_of_nothing hi false).symm
  | case2 c hs hf =>
    have ht := tells_readPass hi (fun h => ⟨@rfl _ [], h⟩)
    rw [Tells, if_pos hf] at ht
    exact ht.symm
  | case3 c hs hf ih =>
    have ht := tells_readPass hi (fun h => ⟨@rfl _ [], h⟩)
    rw [Tells, if_neg hf] at ht
    obtain ⟨hi', he', hp⟩ := ht
    rw [hp, ih hi', he']

theorem prospect_receive (c : Connection) (a : Net.Arrival) (later : List Net.Arrival)
    (ended : Bool) : (c.receive a).prospect later ended = c.prospect (a :: later) ended := by
  unfold prospect receive
  rw [List.append_assoc, List.singleton_append]

theorem follow_eq (ended : Bool) (hs : List Happening) {c : Connection} (hi : c.IsIdle)
    (he : c.stream.ended = false) :
    follow ended hs c = c.prospect (Happening.arrivals hs) ended := by
  induction hs generalizing c with
  | nil => exact exhaust_eq { c with stream := { c.stream with ended } } hi
  | cons happening hs ih =>
    cases happening with
    | arrival a =>
      have hi' : (c.receive a).IsIdle := hi
      rw [follow, ih hi' he, prospect_receive]
      rfl
    | pass =>
      have ht := @tells_readPass c (Happening.arrivals hs) ended hi
        (fun h => absurd (he.symm.trans h) Bool.false_ne_true)
      rw [follow]
      split
      · rename_i hf
        rw [Tells, if_pos hf] at ht
        exact ht.symm
      · rename_i hf
        rw [Tells, if_neg hf] at ht
        obtain ⟨hi', he', hp⟩ := ht
        rw [ih hi' (he'.trans he)]
        exact hp.symm

theorem isIdle_new (id : ConnectionId) {stream : Net.Stream} (limit : Nat) :
    (new id stream limit).IsIdle := rfl

/-- **Passes in a row give what a decoder makes of the whole input:** neither the pieces in which it
arrives nor the pauses, interruptions and limits of passes between them can be told from it. -/
theorem follow_new (id : ConnectionId) (stream : Net.Stream) (limit : Nat) (hs : List Happening)
    (ended : Bool) :
    follow ended hs (new id { stream with incoming := [], ended := false } limit) =
      outcome (.new limit) [] (Net.yieldOf (Happening.arrivals hs)) ended :=
  follow_eq ended hs (isIdle_new id limit) rfl

end Connection

end MessageBroker
