import MessageBroker.Proofs.Broker.Inlets
import MessageBroker.Proofs.Broker.Views
import MessageBroker.Proofs.Connection.Residue

/-!
# What a pass comes to

To serve a connection is to read a pass, to handle its messages, and to see to it that the
connection is read again, or ends. Behind a veil over what is left to read and over the tasks and
the watch of the connection, only the messages are seen, and what ended the reading behind them. So
messages may be read in one pass or in several.

Headlines:
* **`Broker.digest`**: what comes of messages and of what went wrong behind them;
  **`Broker.digest_after`**: the messages in front may be handled first.
* **`Broker.Roll.serve_veiled`**: what is seen of a broker that has served a connection is what
  comes of its pass.
* **`Broker.Roll.departs_serve`**, **`Broker.Roll.resumes_serve`**: a connection that has been
  served has gone, or it can be served again and will be.
-/

namespace MessageBroker

/-! ## A veil -/

/-- Hides what a connection has yet to read and what has been read of it, the tasks that read it,
its watch, and the time as far as `time` does. -/
def View.veil (id : ConnectionId) (time : Timestamp → Timestamp) : View where
  incoming other arrivals := if other = id then [] else arrivals
  ended other ended := if other = id then false else ended
  decoder other d := if other = id then .new 0 else d
  buffer other bytes := if other = id then [] else bytes
  time
  tasks tasks := tasks.filter fun t => t ≠ .serve id
  watches m := m.forget id
  forget m other := by
    unfold Net.Multiplexer.forget
    simp only [Table.erase_comm]

namespace Broker

variable {accepted : List ConnectionId} {b b' : Broker} {c c' : Connection} {id : ConnectionId}
  {v : View} {time : Timestamp → Timestamp}

/-- A connection may be replaced by one that looks the same. -/
theorem putConnection_veiled (hc : b.connection? c.id = some c) (he : c'.through v = c.through v) :
    (b.putConnection c').through v = b.through v := by
  have hc' : (b.through v).registry.connections.get? c.id = some (c.through v) := by
    have := b.connection?_through (v := v) c.id
    rw [hc] at this
    exact this
  rw [← putConnection_through, he]
  unfold putConnection
  rw [Connection.id_through, Table.insert_of_get? hc']

/-- What is left to read and what has been read are hidden. -/
theorem through_veil_eq {incoming : List Net.Arrival} {ended : Bool} {decoder : Wire.Decoder}
    {buffer : Bytes} (c : Connection) :
    ({ c with stream := { c.stream with incoming, ended }, decoder, buffer } : Connection).through
      (.veil c.id time) = c.through (.veil c.id time) := by
  unfold Connection.through Net.Stream.through View.veil
  simp only [if_true]

theorem through_veil_readPass (c : Connection) :
    c.readPass.2.through (.veil c.id time) = c.through (.veil c.id time) := by
  obtain ⟨incoming, decoder, buffer, he⟩ :=
    c.exists_readOn_eq (Connection.passLimit c.decoder) 0
  unfold Connection.readPass
  rw [he]
  exact through_veil_eq c

/-! ## What comes of a reading -/

/-- What comes of a reading whose messages have been handled, if the connection is still there: what
went wrong behind them ends it, and the end of the input does. -/
def lapse (id : ConnectionId) (error : Option BrokerError) (ended : Bool) (b : Broker) : Broker :=
  match b.connection? id with
  | none => b
  | some c =>
    match error with
    | some e => (b.report (.ended c.name e)).tearDown id true
    | none => if ended then b.tearDown id true else b

/-- What comes of a reading of a connection. -/
def digest (id : ConnectionId) (r : Reading) (ended : Bool) (b : Broker) : Broker :=
  let handled := handleAll id r.messages b
  if handled.1 then handled.2.lapse id r.error ended else handled.2

theorem lapse_through (id : ConnectionId) (error : Option BrokerError) (ended : Bool)
    (b : Broker) : (b.through v).lapse id error ended = (b.lapse id error ended).through v := by
  unfold lapse
  rw [connection?_through]
  cases b.connection? id with
  | none => rfl
  | some c =>
    dsimp only [Option.map_some]
    cases error with
    | some e =>
      dsimp only
      rw [Connection.name_through, report_through, tearDown_through]
    | none =>
      dsimp only
      split
      · exact tearDown_through ..
      · rfl

theorem handleAll_append (id : ConnectionId) (ms ms' : List Message) (b : Broker) :
    handleAll id (ms ++ ms') b =
      match handleAll id ms b with
      | (true, b) => handleAll id ms' b
      | (false, b) => (false, b) := by
  induction ms generalizing b with
  | nil => rfl
  | cons m ms ih =>
    simp only [List.cons_append, handleAll]
    cases b.connection? id with
    | none => rfl
    | some c =>
      dsimp only
      rcases b.handle c m with ⟨e | flow, b'⟩
      · dsimp only
        cases e.isFatal with
        | true => rfl
        | false => exact ih _
      · cases flow with
        | «continue» => exact ih b'
        | disconnect => rfl

/-- **The messages in front may be handled first.** -/
theorem digest_after (r : Reading) (ms : List Message) (ended : Bool) (b : Broker) :
    b.digest id (r.after ms) ended =
      match handleAll id ms b with
      | (true, b) => b.digest id r ended
      | (false, b) => b := by
  unfold digest Reading.after
  rw [handleAll_append]
  rcases handleAll id ms b with ⟨_ | _, b'⟩ <;> rfl

/-- Nothing comes of a reading of nothing. -/
theorem digest_of_nothing (b : Broker) : b.digest id ⟨[], none⟩ false = b := by
  unfold digest handleAll lapse
  dsimp only
  rw [if_pos rfl]
  cases b.connection? id <;> rfl

/-- Nor where the connection has gone. -/
theorem digest_of_gone (hc : b.connection? id = none) (r : Reading) (ended : Bool) :
    b.digest id r ended = b := by
  unfold digest
  cases r.messages with
  | nil =>
    unfold handleAll lapse
    dsimp only
    rw [hc, if_pos rfl]
  | cons m ms =>
    unfold handleAll
    rw [hc]
    exact if_neg Bool.false_ne_true

/-! ## Serving -/

/-- A connection is live and open, and there are workers and watches to serve it. -/
structure Ready (b : Broker) (c : Connection) : Prop where
  live : b.connection? c.id = some c
  pool : b.poolStopped = false
  events : b.multiplexer.stopped = false
  /-- Nor will they be stopped while it is read. -/
  unhalted : b.halts.get? c.id = none
  unclosed : c.stream.closed = false
  /-- Its stream can be put under watch. -/
  registers : c.stream.registers = .ok ()

/-- A connection will be read again: a task waits for it, or its stream is under watch and armed. -/
def Attended (b : Broker) (id : ConnectionId) : Prop :=
  .serve id ∈ b.tasks ∨
    b.multiplexer.watched.get? id = some { data := id, trigger := .oneShot }

theorem Ready.reading (hr : b.Ready c) : b.reading c = b.putConnection c.readPass.2 := by
  unfold Broker.reading applyHalt
  rw [hr.unhalted]

theorem Ready.isClosed (hr : b.Ready c) (h : Roll accepted b) : c.isClosed = false := by
  unfold Connection.isClosed
  rw [(h.registered hr.live).2, hr.unclosed]
  rfl

/-- What follows a pass that was not the last one: a task waits, or the stream is under watch. -/
theorem goOn_of_ready (hr : b.Ready c) {pass : ReadPass} (hf : pass.isFinal = false) :
    b.goOn c pass =
      if pass.more then { b with tasks := b.tasks ++ [.serve c.id] }
      else { b with multiplexer := { b.multiplexer with
        watched := b.multiplexer.watched.insert c.id { data := c.id, trigger := .oneShot } } } := by
  obtain ⟨he, hend⟩ := Bool.or_eq_false_iff.mp hf
  rw [Option.isSome_eq_false_iff, Option.isNone_iff_eq_none] at he
  have hexecute : b.execute (.serve c.id) = .ok { b with tasks := b.tasks ++ [.serve c.id] } := by
    unfold execute
    rw [if_neg (by rw [hr.pool]; exact Bool.false_ne_true)]
  have hwatch : b.multiplexer.watch c.id c.stream.registers c.id .oneShot =
      .ok { b.multiplexer with
        watched := b.multiplexer.watched.insert c.id { data := c.id, trigger := .oneShot } } := by
    unfold Net.Multiplexer.watch
    rw [if_neg (by rw [hr.events]; exact Bool.false_ne_true), hr.registers]
  unfold goOn
  rw [he, hend, hexecute, hwatch]
  rfl

/-- Behind the veil nothing is seen of what follows a pass but the end of the connection. -/
theorem goOn_veiled (hr : b.Ready c) (pass : ReadPass) :
    (b.goOn c pass).through (.veil c.id time) =
      (b.through (.veil c.id time)).lapse c.id pass.error pass.ended := by
  rw [lapse_through]
  unfold lapse
  rw [hr.live]
  dsimp only
  cases he : pass.error with
  | some e =>
    unfold goOn
    rw [he]
  | none =>
    dsimp only
    cases hend : pass.ended with
    | true =>
      unfold goOn
      rw [he, hend]
      rfl
    | false =>
      have hf : pass.isFinal = false := by
        unfold ReadPass.isFinal
        rw [he, hend]
        rfl
      rw [goOn_of_ready hr hf, if_neg Bool.false_ne_true]
      unfold through View.veil
      dsimp only
      split
      · rw [List.filter_append]
        simp
      · unfold Net.Multiplexer.forget
        simp only [Table.erase_insert_self]

/-- A connection stays ready where neither what drives the broker nor its stream has changed. -/
theorem Ready.of_sameDrive (hr : b.Ready c) (hd : b.SameDrive b')
    (hc' : b'.connection? c.id = some c') (hi : c'.id = c.id)
    (hclosed : c'.stream.closed = c.stream.closed)
    (hregisters : c'.stream.registers = c.stream.registers) : b'.Ready c' where
  live := hi.symm ▸ hc'
  pool := hd.poolStopped.trans hr.pool
  events := by rw [hd.multiplexer, hr.events]
  unhalted := by rw [hd.halts, hi, hr.unhalted]
  unclosed := hclosed.trans hr.unclosed
  registers := hregisters.trans hr.registers

/-- A connection that goes on after its frames is as ready as before. -/
theorem Ready.handled (hr : b.Ready c) (h : Roll accepted b) {ms : List Message}
    (hh : handleAll c.id ms b = (true, b')) (hc' : b'.connection? c.id = some c') :
    b'.Ready c' ∧ c'.id = c.id ∧ c'.inlet = c.inlet := by
  have hd := (h.goesOn_handleAll hr.live hh).1
  have hk := h.keepsInlets_handleAll c.id ms
  have hall := h.trail (h.trail_handleAll c.id ms)
  rw [hh] at hk hall
  obtain ⟨hi, -⟩ := hall.registered hc'
  obtain ⟨x, hx, he⟩ := hk hc'
  rw [show b.registry.connections.get? c.id = some c from hr.live] at hx
  cases hx
  exact ⟨hr.of_sameDrive hd hc' hi (congrArg Inlet.closed he) (congrArg Inlet.registers he), hi, he⟩

theorem Ready.sameDrive_reading (hr : b.Ready c) : b.SameDrive (b.reading c) :=
  hr.reading ▸ ⟨rfl, rfl, rfl, rfl⟩

theorem Ready.reading_ready (hr : b.Ready c) : (b.reading c).Ready c.readPass.2 := by
  obtain ⟨incoming, decoder, buffer, he⟩ :=
    c.exists_readOn_eq (Connection.passLimit c.decoder) 0
  refine hr.of_sameDrive hr.sameDrive_reading (b.connection?_reading c) c.id_readPass ?_ ?_
  · unfold Connection.readPass
    rw [he]
  · unfold Connection.readPass
    rw [he]

/-- **What is seen of a broker that has served a connection is what comes of its pass.** -/
theorem Roll.serve_veiled (h : Roll accepted b) (hr : b.Ready c)
    (hm : ∀ m ∈ c.readPass.1.messages, (View.veil c.id time).Admits m) :
    (b.serve c.id).through (.veil c.id time) =
      (b.through (.veil c.id time)).digest c.id ⟨c.readPass.1.messages, c.readPass.1.error⟩
        c.readPass.1.ended := by
  have hread : (b.reading c).through (.veil c.id time) = b.through (.veil c.id time) := by
    rw [hr.reading]
    exact putConnection_veiled hr.live (through_veil_readPass c)
  have hroll := h.steady (steady_reading hr.live)
  have hready := hr.reading_ready
  have hserve := serve_of_open hr.live (hr.isClosed h)
  dsimp only at hserve
  unfold digest
  dsimp only
  rw [← hread, handleAll_through c.id hm]
  dsimp only
  rcases hh : handleAll c.id c.readPass.1.messages (b.reading c) with ⟨goes, b'⟩
  rw [hh] at hserve
  cases goes with
  | false =>
    rw [hserve]
    rfl
  | true =>
    obtain ⟨-, c', hc'⟩ := hroll.goesOn_handleAll (b.connection?_reading c) hh
    rw [← c.id_readPass] at hh hc'
    obtain ⟨hready', hi, -⟩ := hready.handled hroll hh hc'
    rw [c.id_readPass] at hc' hi
    rw [if_pos rfl, hc'] at hserve
    rw [hserve, if_pos rfl, ← hi]
    exact goOn_veiled hready' c.readPass.1

/-- What becomes of a connection that is ready, once it has been served: it has gone, or its pass
was not the last one, all its frames have been handled, and it will be read again. -/
theorem Roll.serve_of_ready (h : Roll accepted b) (hr : b.Ready c) :
    Departs c.id b (b.serve c.id) ∨ c.readPass.1.isFinal = false ∧
      ∃ b' c', b.SameDrive b' ∧ b'.Ready c' ∧ c'.id = c.id ∧ c'.inlet = c.readPass.2.inlet ∧
        b.serve c.id =
          if c.readPass.1.more then { b' with tasks := b'.tasks ++ [.serve c'.id] }
          else { b' with multiplexer := { b'.multiplexer with
            watched := b'.multiplexer.watched.insert c'.id
              { data := c'.id, trigger := .oneShot } } } := by
  have hroll := h.steady (steady_reading hr.live)
  obtain ⟨-, hgone | ⟨hf, b', c', hh, hc', hserve⟩⟩ := h.serve_cases hr.live (hr.isClosed h)
  · exact .inl (hr.sameDrive_reading.departs hgone.departs)
  · have hdrive := hr.sameDrive_reading.trans
      (hroll.goesOn_handleAll (b.connection?_reading c) hh).1
    rw [← c.id_readPass] at hh hc'
    obtain ⟨hready, hi, he⟩ := hr.reading_ready.handled hroll hh hc'
    exact .inr ⟨hf, b', c', hdrive, hready, hi.trans c.id_readPass, he,
      hserve.trans (goOn_of_ready hready hf)⟩

/-- A connection that is live no more has gone with its watch. -/
theorem Roll.departs_serve (h : Roll accepted b) (hr : b.Ready c)
    (hgone : (b.serve c.id).connection? c.id = none) : Departs c.id b (b.serve c.id) := by
  rcases h.serve_of_ready hr with ha | ⟨-, b', c', -, hready, hi, -, hserve⟩
  · exact ha
  · have hlive : (b.serve c.id).connection? c.id = some c' := by
      rw [hserve, ← hi]
      split <;> exact hready.live
    rw [hgone] at hlive
    cases hlive

/-- A connection that goes on once it has been served: it can be served again, with what its pass
has left, and it will be. -/
structure Resumes (b : Broker) (c : Connection) (b' : Broker) (c' : Connection) : Prop where
  ready : b'.Ready c'
  inlet : c'.inlet = c.readPass.2.inlet
  unfinished : c.readPass.1.isFinal = false
  tasks : b'.tasks = b.tasks ++ if c.readPass.1.more then [.serve c.id] else []
  attended : b'.Attended c.id
  pending : b'.multiplexer.pending = b.multiplexer.pending

/-- **A connection that is live once it has been served goes on.** -/
theorem Roll.resumes_serve (h : Roll accepted b) (hr : b.Ready c)
    (hc' : (b.serve c.id).connection? c.id = some c') : b.Resumes c (b.serve c.id) c' := by
  rcases h.serve_of_ready hr with hgone | ⟨hf, b', c'', hdrive, hready, hi, he, hserve⟩
  · rw [hgone.gone] at hc'
    cases hc'
  · have hpending : b'.multiplexer.pending = b.multiplexer.pending := by rw [hdrive.multiplexer]
    have hlive : (b.serve c.id).connection? c.id = some c'' := by
      rw [hserve, ← hi]
      split <;> exact hready.live
    rw [hc'] at hlive
    cases hlive
    rw [hserve]
    cases hmore : c.readPass.1.more with
    | true =>
      rw [if_pos rfl]
      refine ⟨{ hready with }, he, hf, ?_, .inl ?_, hpending⟩
      · dsimp only
        rw [hmore, if_pos rfl, hdrive.tasks, hi]
      · rw [hi]
        exact List.mem_append_right _ List.mem_cons_self
    | false =>
      rw [if_neg Bool.false_ne_true]
      refine ⟨{ hready with }, he, hf, ?_, .inr ?_, hpending⟩
      · dsimp only
        rw [hmore, if_neg Bool.false_ne_true, hdrive.tasks, List.append_nil]
      · rw [hi]
        exact Table.get?_insert_self _ _ _

end Broker

end MessageBroker
