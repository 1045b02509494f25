import MessageBroker.Proofs.Broker.Tending

/-!
# How what a client sends is cut into passes

What a client sends arrives in pieces, between which time passes and the connection is read. However
the pieces and the passes fall, once no read task waits and all that arrived has been read, the
broker has come to the same state: each pass handles the messages that it reads, and what is still
to be read can be left to the passes that follow.

Headlines:
* **`Broker.Foresees.follow`**: what is seen of a broker while its client sends something is what
  comes of reading all of it at once.
* **`Broker.play_segmented`**: passes enough come to an end, and two ways to cut the same input come
  to the same broker.
-/

namespace MessageBroker.Broker

variable {accepted : List ConnectionId} {b b' : Broker} {c c' : Connection} {id : ConnectionId}
  {time : Timestamp → Timestamp} {hs rest : List Happening} {ended : Bool}
  {pending : Table Net.StreamId Unit} {x : Happening} {later later' : List Net.Arrival}

/-! ## What all of the input comes to -/

/-- What a connection will tell, if it is live. -/
def tidings (b : Broker) (id : ConnectionId) (later : List Net.Arrival) (ended : Bool) : Reading :=
  match b.connection? id with
  | none => ⟨[], none⟩
  | some c => c.prospect later ended

/-- What will be seen of the broker if all that is there and all that comes later is read at
once. -/
def forecast (time : Timestamp → Timestamp) (id : ConnectionId) (later : List Net.Arrival)
    (ended : Bool) (b : Broker) : Broker :=
  (b.through (.veil id time)).digest id (b.tidings id later ended) ended

theorem tidings_of_gone (hc : b.connection? id = none) (later : List Net.Arrival) (ended : Bool) :
    b.tidings id later ended = ⟨[], none⟩ := by
  unfold tidings
  rw [hc]

theorem tidings_of_live (hc : b.connection? id = some c) (later : List Net.Arrival)
    (ended : Bool) : b.tidings id later ended = c.prospect later ended := by
  unfold tidings
  rw [hc]

/-- Of a connection that has gone nothing more will be seen. -/
theorem digest_veiled_of_gone (hc : b.connection? id = none) (r : Reading) (ended : Bool) :
    (b.through (.veil id time)).digest id r ended = b.through (.veil id time) := by
  refine digest_of_gone ?_ _ _
  rw [connection?_through, hc]
  rfl

/-! ## Serving -/

theorem error_of_not_final {pass : ReadPass} (hf : pass.isFinal = false) :
    pass.error = none ∧ pass.ended = false := by
  obtain ⟨he, hend⟩ := Bool.or_eq_false_iff.mp hf
  exact ⟨Option.isNone_iff_eq_none.mp (Option.isSome_eq_false_iff.mp he), hend⟩

/-- What a pass that is not the last one tells may be handled before the rest, by serving the
connection. -/
theorem Roll.digest_serve (h : Roll accepted b) (hr : b.Ready c)
    (hf : c.readPass.1.isFinal = false)
    (hm : ∀ m ∈ c.readPass.1.messages, (View.veil c.id time).Admits m) (r : Reading)
    (ended : Bool) :
    (b.through (.veil c.id time)).digest c.id (r.after c.readPass.1.messages) ended =
      ((b.serve c.id).through (.veil c.id time)).digest c.id r ended := by
  obtain ⟨he, hend⟩ := error_of_not_final hf
  have hpass : (⟨c.readPass.1.messages, none⟩ : Reading) =
      (⟨[], none⟩ : Reading).after c.readPass.1.messages := by
    unfold Reading.after
    rw [List.append_nil]
  have hserve := h.serve_veiled hr hm
  rw [he, hend, hpass, digest_after] at hserve
  rw [digest_after]
  rcases hh : handleAll c.id c.readPass.1.messages (b.through (.veil c.id time)) with ⟨goes, b'⟩
  rw [hh] at hserve
  cases goes with
  | true =>
    dsimp only at hserve ⊢
    rw [digest_of_nothing] at hserve
    rw [hserve]
  | false =>
    dsimp only at hserve ⊢
    -- A connection that goes on would have gone on behind the veil.
    obtain ⟨-, hgone | ⟨-, b₁, c₁, hb₁, -⟩⟩ := h.serve_cases hr.live (hr.isClosed h)
    · rw [digest_veiled_of_gone hgone.departs.gone, hserve]
    · have hread : (b.reading c).through (.veil c.id time) = b.through (.veil c.id time) := by
        rw [hr.reading]
        exact putConnection_veiled hr.live (through_veil_readPass c)
      rw [← hread, handleAll_through c.id hm, hb₁] at hh
      cases hh

/-- **To serve a connection changes nothing about what will be seen.** -/
theorem Roll.forecast_serve (h : Roll accepted b) (hr : b.Ready c) (hi : c.IsIdle)
    (hstops : c.stream.ended = true → later = [] ∧ ended = true)
    (hm : ∀ m ∈ (c.prospect later ended).messages, (View.veil c.id time).Admits m) :
    (b.serve c.id).forecast time c.id later ended = b.forecast time c.id later ended := by
  have htells := @Connection.tells_readPass c later ended hi hstops
  unfold forecast
  rw [tidings_of_live hr.live]
  cases hf : c.readPass.1.isFinal with
  | true =>
    rw [Connection.Tells, if_pos hf] at htells
    rw [htells] at hm
    obtain ⟨-, hgone | ⟨hno, -⟩⟩ := h.serve_cases hr.live (hr.isClosed h)
    · rw [digest_veiled_of_gone hgone.departs.gone, h.serve_veiled hr hm, htells]
      -- A pass that ends without an error has come to the end of the input.
      cases he : c.readPass.1.error with
      | some e => rfl
      | none =>
        unfold ReadPass.isFinal at hf
        rw [he] at hf
        have hend : c.readPass.1.ended = true := hf
        rw [hend, (hstops (Connection.ended_readPass hend)).2]
    · rw [hf] at hno
      cases hno
  | false =>
    rw [Connection.Tells, hf] at htells
    obtain ⟨-, -, hp⟩ := htells
    have hm' : ∀ m ∈ c.readPass.1.messages, (View.veil c.id time).Admits m := fun m hin =>
      hm m (by rw [hp]; exact List.mem_append_left _ hin)
    rw [hp, h.digest_serve hr hf hm']
    cases hc' : (b.serve c.id).connection? c.id with
    | none => rw [digest_veiled_of_gone hc', digest_veiled_of_gone hc']
    | some c' =>
      rw [tidings_of_live hc', prospect_of_inlet (h.resumes_serve hr hc').inlet]

/-- A connection that goes on has told nothing that it would not have told otherwise. -/
theorem Roll.mem_tidings_serve (h : Roll accepted b) (hr : b.Ready c) (hi : c.IsIdle)
    (hstops : c.stream.ended = true → later = [] ∧ ended = true) {m : Message}
    (hm : m ∈ ((b.serve c.id).tidings c.id later ended).messages) :
    m ∈ (b.tidings c.id later ended).messages := by
  rw [tidings_of_live hr.live]
  cases hc' : (b.serve c.id).connection? c.id with
  | none =>
    rw [tidings_of_gone hc'] at hm
    cases hm
  | some c' =>
    have hresumes := h.resumes_serve hr hc'
    have htells := @Connection.tells_readPass c later ended hi hstops
    rw [Connection.Tells, hresumes.unfinished] at htells
    rw [tidings_of_live hc', prospect_of_inlet hresumes.inlet] at hm
    rw [htells.2.2]
    exact List.mem_append_right _ hm

/-! ## What stays the same while something happens -/

/-- What has arrived of a stream is not seen. -/
theorem modifyStream_veiled (h : Roll accepted b) {f : Net.Stream → Net.Stream}
    (hf : Feeds x rest f) :
    (b.modifyStream id f).through (.veil id time) = b.through (.veil id time) := by
  unfold modifyStream
  cases hc : b.connection? id with
  | none =>
    have hs : ∀ s, (f s).through (.veil id time) id = s.through (.veil id time) id := by
      intro s
      rw [hf.keeps s]
      unfold Net.Stream.through View.veil
      simp only [if_true]
    have hd : (b.departed.modify id f).mapValues (fun k s => s.through (.veil id time) k) =
        b.departed.mapValues fun k s => s.through (.veil id time) k := by
      refine Table.ext fun k => ?_
      rw [Table.get?_mapValues, Table.get?_mapValues, Table.get?_modify]
      split
      · rename_i e
        subst e
        rw [Option.map_map]
        exact Option.map_congr fun s _ => hs s
      · rfl
    unfold through
    dsimp only
    rw [hd]
  | some c =>
    obtain ⟨rfl, -⟩ := h.registered hc
    refine putConnection_veiled hc ?_
    rw [hf.keeps c.stream]
    exact through_veil_eq c

/-- A task that reads the connection is not seen. -/
theorem dequeue_veiled (b : Broker) (id : ConnectionId) :
    (b.dequeue id).through (.veil id time) = b.through (.veil id time) := by
  have htasks : (b.tasks.erase (.serve id)).filter (fun t => t ≠ .serve id) =
      b.tasks.filter fun t => t ≠ .serve id := by
    rw [← List.erase_filter]
    exact List.erase_of_not_mem (by simp)
  unfold dequeue through View.veil
  dsimp only
  rw [htasks]

theorem tidings_modifyStream (h : Roll accepted b) {f : Net.Stream → Net.Stream}
    (hf : Feeds x rest f) :
    (b.modifyStream id f).tidings id (arrivals rest) ended =
      b.tidings id (arrivals (x :: rest)) ended := by
  unfold tidings
  rw [connection?_modifyStream h id f]
  cases b.connection? id with
  | none => rfl
  | some c =>
    dsimp only [Option.map_some]
    unfold Connection.prospect
    dsimp only
    rw [hf.yield]

/-- What happens changes nothing about what will be seen of the broker, and what the connection will
tell it would have told before. -/
structure Foreseen (id : ConnectionId) (time : Timestamp → Timestamp) (ended : Bool)
    (later : List Net.Arrival) (b : Broker) (later' : List Net.Arrival) (b' : Broker) : Prop where
  seen : b'.forecast time id later' ended = b.forecast time id later ended
  told : ∀ m ∈ (b'.tidings id later' ended).messages, m ∈ (b.tidings id later ended).messages

/-- Where the same is seen and the same will be told. -/
theorem Foreseen.of_eq (hseen : b'.through (.veil id time) = b.through (.veil id time))
    (htold : b'.tidings id later' ended = b.tidings id later ended) :
    Foreseen id time ended later b later' b' where
  seen := by
    unfold forecast
    rw [hseen, htold]
  told m hm := htold ▸ hm

/-- What can be said of a broker that is tended when the happenings `rest` are still to come:
handling what is to be read does not depend on the time that passes. -/
structure Foresees (accepted : List ConnectionId) (id : ConnectionId)
    (time : Timestamp → Timestamp) (ended : Bool) (pending : Table Net.StreamId Unit)
    (rest : List Happening) (b : Broker) : Prop extends
    Tended accepted id ended pending rest b where
  admits : ∀ m ∈ (b.tidings id (arrivals rest) ended).messages, (View.veil id time).Admits m
  times : ∀ now, .tick now ∈ rest → ∀ t, time now = time t

theorem Foresees.foreseen_serve (h : Foresees accepted id time ended pending (.pass :: rest) b) :
    Foreseen id time ended (arrivals rest) b (arrivals rest) (b.serve id) := by
  cases hc : b.connection? id with
  | none =>
    rw [serve_of_gone hc]
    exact .of_eq rfl rfl
  | some c =>
    obtain ⟨rfl, -⟩ := h.roll.registered hc
    have hr := h.ready hc
    have hm : ∀ m ∈ (c.prospect (arrivals rest) ended).messages,
        (View.veil c.id time).Admits m := by
      rw [← tidings_of_live hc]
      exact h.admits
    exact ⟨h.roll.forecast_serve hr (h.idle hc) (h.stops hc) hm,
      fun m => h.roll.mem_tidings_serve hr (h.idle hc) (h.stops hc)⟩

theorem Foresees.dequeue (h : Foresees accepted id time ended pending (.pass :: rest) b) :
    Foresees accepted id time ended pending (.pass :: rest) (b.dequeue id) :=
  { h.toTended.dequeue with
    admits := h.admits
    times := h.times }

/-- What happens next changes nothing about what will be seen. -/
theorem Foresees.foreseen (h : Foresees accepted id time ended pending (x :: rest) b) :
    Foreseen id time ended (arrivals (x :: rest)) b (arrivals rest) (b.happen id x) := by
  cases x with
  | arrival a =>
    have hf := feeds_arrival a rest
    exact .of_eq (modifyStream_veiled h.roll hf) (tidings_modifyStream h.roll hf)
  | hangUp =>
    have hf := feeds_hangUp rest
    exact .of_eq (modifyStream_veiled h.roll hf) (tidings_modifyStream h.roll hf)
  | tick now =>
    refine .of_eq ?_ rfl
    have htime : (View.veil id time).time now = (View.veil id time).time b.clock :=
      h.times now List.mem_cons_self b.clock
    unfold happen through
    dsimp only
    rw [htime]
  | pass =>
    have hbefore : Foreseen id time ended (arrivals rest) b (arrivals rest) (b.dequeue id) :=
      .of_eq (dequeue_veiled b id) rfl
    have hserve := h.dequeue.foreseen_serve
    exact ⟨hserve.seen.trans hbefore.seen, fun m hm => hbefore.told m (hserve.told m hm)⟩

theorem Foresees.happen (h : Foresees accepted id time ended pending (x :: rest) b) :
    Foresees accepted id time ended pending rest (b.happen id x) :=
  { h.toTended.happen.1 with
    admits := fun m hm => h.admits m (h.foreseen.told m hm)
    times := fun now hin => h.times now (List.mem_cons_of_mem _ hin) }

/-- **What will be seen of a broker stays the same, whatever happens between it and its client.** -/
theorem Foresees.follow (h : Foresees accepted id time ended pending hs b) :
    (b.follow id hs).forecast time id [] ended = b.forecast time id (arrivals hs) ended := by
  induction hs generalizing b with
  | nil => rfl
  | cons x hs ih => exact (ih h.happen).trans h.foreseen.seen

/-- Where nothing is left to do, what will be seen is what is seen now. -/
theorem Tended.forecast_of_done (h : Tended accepted id ended pending [] b) (hd : b.Done id) :
    b.forecast time id [] ended = b.through (.veil id time) := by
  unfold forecast
  cases hc : b.connection? id with
  | none => exact digest_veiled_of_gone hc _ _
  | some c =>
    obtain ⟨hin, hopen⟩ := hd.read hc
    have hended : ended = false := by
      rw [← Bool.not_eq_true]
      intro he
      rcases h.ends he hc with hend | hin
      · rw [hopen] at hend
        cases hend
      · cases hin
    have htold : b.tidings id [] ended = ⟨[], none⟩ := by
      rw [tidings_of_live hc, Connection.prospect, hin, hended]
      exact outcome_of_nothing (h.idle hc) false
    rw [htold, hended]
    exact digest_of_nothing _

/-! ## The same state -/

/-- Two brokers are in the same state, but for the time and the times at which messages were stored,
and for what a connection that has gone has not read. -/
structure SameState (id : ConnectionId) (b b' : Broker) : Prop where
  settings : b'.settings = b.settings
  /-- The connections with their sessions, their destinations, what has been written to them and
  what is left in their buffers, the destinations with their members in turn, and the client ids. -/
  registry : b'.registry = b.registry
  /-- The messages that are kept, each under its number. -/
  store : ∀ n, b'.store.get? n = b.store.get? n
  nextId : b'.nextId = b.nextId
  /-- What is under watch, and whether it is armed. -/
  multiplexer : b'.multiplexer = b.multiplexer
  tasks : b'.tasks = b.tasks
  poolStopped : b'.poolStopped = b.poolStopped
  halts : b'.halts = b.halts
  displaced : b'.displaced = b.displaced
  notices : b'.notices = b.notices
  /-- What has been written to every stream, live or departed, write by write. -/
  written : ∀ other, b'.written other = b.written other
  departed : ∀ other, other ≠ id → b'.departed.get? other = b.departed.get? other

theorem written_through (v : View) (b : Broker) (id : ConnectionId) :
    (b.through v).written id = b.written id := by
  unfold written
  rw [connection?_through]
  cases b.connection? id with
  | none =>
    have hd : (b.through v).departed.get? id =
        (b.departed.get? id).map fun s => s.through v id := Table.get?_mapValues _ _ _
    rw [Option.map_none]
    dsimp only
    rw [hd, Option.map_map]
    rfl
  | some c => rfl

/-- Other connections are seen as they are. -/
theorem through_veil_of_ne (h : c.id ≠ id) : c.through (.veil id time) = c := by
  unfold Connection.through Net.Stream.through View.veil
  simp only [if_neg h]

/-- A connection is known by what is seen of it, what it has yet to read and what is left of what it
has read. -/
theorem eq_of_veiled (h : c.through (.veil id time) = c'.through (.veil id time))
    (hincoming : c'.stream.incoming = c.stream.incoming)
    (hended : c'.stream.ended = c.stream.ended) (hdecoder : c'.decoder = c.decoder)
    (hbuffer : c'.buffer = c.buffer) : c' = c := by
  obtain ⟨i, ⟨peer, incoming, ended, closed, outlet, timeout, registers, written⟩, session,
    destinations, decoder, buffer, shut⟩ := c
  obtain ⟨i', ⟨peer', incoming', ended', closed', outlet', timeout', registers', written'⟩,
    session', destinations', decoder', buffer', shut'⟩ := c'
  simp only [Connection.through, Net.Stream.through, Connection.mk.injEq, Net.Stream.mk.injEq] at *
  obtain ⟨rfl, ⟨rfl, -, -, rfl, rfl, rfl, rfl, rfl⟩, rfl, rfl, -, -, rfl⟩ := h
  exact ⟨rfl, ⟨rfl, hincoming, hended, rfl, rfl, rfl, rfl, rfl⟩, rfl, rfl, hdecoder, hbuffer, rfl⟩

/-- What is not hidden is the same where brokers look the same. -/
theorem eq_of_plain (hseen : b'.through (.veil id time) = b.through (.veil id time)) {α : Type}
    (f : Broker → α) (hf : ∀ x, f (x.through (.veil id time)) = f x) : f b' = f b := by
  rw [← hf b', hseen, hf]

/-- A connection is the same in brokers that look the same: others are seen as they are, and of this
one nothing is left to read and the same is left of what was read. -/
theorem Tended.connection?_eq (h : Tended accepted id ended pending [] b)
    (h' : Tended accepted id ended pending [] b') (hd : b.Done id) (hd' : b'.Done id)
    (hseen : b'.through (.veil id time) = b.through (.veil id time))
    (hleft : ∀ ⦃c c'⦄, b.connection? id = some c → b'.connection? id = some c' →
      c'.residue [] = c.residue []) (k : ConnectionId) : b'.connection? k = b.connection? k := by
  have hk : (b'.connection? k).map (·.through (.veil id time)) =
      (b.connection? k).map (·.through (.veil id time)) := by
    rw [← connection?_through, hseen, connection?_through]
  cases hc : b.connection? k with
  | none =>
    rw [hc, Option.map_none, Option.map_eq_none_iff] at hk
    exact hk
  | some c =>
    rw [hc, Option.map_some, Option.map_eq_some_iff] at hk
    obtain ⟨c', hc', he⟩ := hk
    rw [hc']
    obtain ⟨rfl, -⟩ := h.roll.registered hc
    by_cases hne : c.id = id
    · subst hne
      obtain ⟨hin, hopen⟩ := hd.read hc
      obtain ⟨hin', hopen'⟩ := hd'.read hc'
      have hres := hleft hc hc'
      rw [Connection.residue_of_nothing (h'.idle hc') hin',
        Connection.residue_of_nothing (h.idle hc) hin] at hres
      obtain ⟨hdecoder, hbuffer⟩ := Prod.mk.inj hres
      exact congrArg some (eq_of_veiled he.symm (hin'.trans hin.symm) (hopen'.trans hopen.symm)
        hdecoder hbuffer)
    · have hi : c'.id = c.id := (h'.roll.registered hc').1
      rw [through_veil_of_ne hne, through_veil_of_ne (hi.symm ▸ hne)] at he
      rw [he]

/-- The tasks of others are seen, and none of this connection waits. -/
theorem Done.tasks_eq (hd : b.Done id) (hd' : b'.Done id)
    (hseen : b'.through (.veil id time) = b.through (.veil id time)) : b'.tasks = b.tasks := by
  have hall : ∀ {x : Broker}, x.Done id → x.tasks.filter (fun t => t ≠ .serve id) = x.tasks := by
    intro x hx
    refine List.filter_eq_self.mpr fun t ht => ?_
    simp only [ne_eq, decide_not, Bool.not_eq_eq_eq_not, Bool.not_true, decide_eq_false_iff_not]
    rintro rfl
    exact hx.tasks ht
  have hfilter : b'.tasks.filter (fun t => t ≠ .serve id) =
      b.tasks.filter fun t => t ≠ .serve id := congrArg Broker.tasks hseen
  rwa [hall hd, hall hd'] at hfilter

/-- Where nothing is left to do, a live connection is under watch and armed. -/
theorem Tended.armed (h : Tended accepted id ended pending [] b) (hd : b.Done id)
    (hc : b.connection? id = some c) :
    b.multiplexer.watched.get? id = some { data := id, trigger := .oneShot } := by
  rcases h.attended hc with (hin | hw) | hno
  · exact absurd hin hd.tasks
  · exact hw
  · cases hno

/-- The watches of others are seen; this connection is under watch if it is live, and only then. -/
theorem Tended.multiplexer_eq (h : Tended accepted id ended pending [] b)
    (h' : Tended accepted id ended pending [] b') (hd : b.Done id) (hd' : b'.Done id)
    (hseen : b'.through (.veil id time) = b.through (.veil id time))
    (hconnection : b'.connection? id = b.connection? id) : b'.multiplexer = b.multiplexer := by
  have hforget : b'.multiplexer.forget id = b.multiplexer.forget id :=
    congrArg Broker.multiplexer hseen
  cases hc : b.connection? id with
  | none => rw [← h.unwatched hc, ← h'.unwatched (hconnection.trans hc), hforget]
  | some c =>
    have hc' : b'.connection? id = some c := hconnection.trans hc
    have hwatched : b'.multiplexer.watched = b.multiplexer.watched := by
      have herase := congrArg Net.Multiplexer.watched hforget
      refine Table.ext fun k => ?_
      by_cases hk : k = id
      · subst hk
        rw [h'.armed hd' hc', h.armed hd hc]
      · have hk' := congrArg (Table.get? · k) herase
        dsimp only [Net.Multiplexer.forget] at hk'
        rwa [Table.get?_erase_of_ne _ hk, Table.get?_erase_of_ne _ hk] at hk'
    have hpending := (h'.pending hc').trans (h.pending hc).symm
    have hstopped := eq_of_plain hseen (·.multiplexer.stopped) fun _ => rfl
    change (⟨b'.multiplexer.watched, b'.multiplexer.pending, b'.multiplexer.stopped⟩ :
      Net.Multiplexer ConnectionId) = _
    rw [hwatched, hpending, hstopped]

/-- **Where nothing is left to do,** brokers that look the same are in the same state. -/
theorem Tended.sameState (h : Tended accepted id ended pending [] b)
    (h' : Tended accepted id ended pending [] b') (hd : b.Done id) (hd' : b'.Done id)
    (hseen : b'.through (.veil id time) = b.through (.veil id time))
    (hleft : ∀ ⦃c c'⦄, b.connection? id = some c → b'.connection? id = some c' →
      c'.residue [] = c.residue []) : SameState id b b' := by
  have hconnections := h.connection?_eq h' hd hd' hseen hleft
  have hregistry : b'.registry = b.registry := by
    have htable : b'.registry.connections = b.registry.connections := Table.ext hconnections
    change (⟨b'.registry.lockTimeout, b'.registry.connections, b'.registry.subscriptions,
      b'.registry.clientIds⟩ : Registry) = _
    rw [htable, eq_of_plain hseen (·.registry.subscriptions) fun _ => rfl,
      eq_of_plain hseen (·.registry.clientIds) fun _ => rfl,
      eq_of_plain hseen (·.registry.lockTimeout) fun _ => rfl]
  refine {
    settings := eq_of_plain hseen Broker.settings fun _ => rfl
    registry := hregistry
    store := fun n => ?store
    nextId := eq_of_plain hseen Broker.nextId fun _ => rfl
    multiplexer := h.multiplexer_eq h' hd hd' hseen (hconnections id)
    tasks := hd.tasks_eq hd' hseen
    poolStopped := eq_of_plain hseen Broker.poolStopped fun _ => rfl
    halts := eq_of_plain hseen Broker.halts fun _ => rfl
    displaced := eq_of_plain hseen Broker.displaced fun _ => rfl
    notices := eq_of_plain hseen Broker.notices fun _ => rfl
    written := fun other => ?written
    departed := fun other hne => ?departed }
  case store =>
    have hstore : b'.store.through (.veil id time) = b.store.through (.veil id time) :=
      congrArg Broker.store hseen
    rw [← Store.get?_through (v := .veil id time), hstore, Store.get?_through]
  case written => rw [← written_through (.veil id time) b', hseen, written_through]
  case departed =>
    have hk := congrArg (fun x : Broker => x.departed.get? other) hseen
    have hsame : (fun s : Net.Stream => s.through (.veil id time) other) = fun s => s := by
      funext s
      unfold Net.Stream.through View.veil
      simp only [if_neg hne]
    dsimp only [through] at hk
    rw [Table.get?_mapValues, Table.get?_mapValues, hsame, Option.map_id_fun'] at hk
    exact hk

/-! ## Ways to cut an input -/

/-- What happens to a connection in order: nothing arrives behind the end of the input. -/
structure InOrder (c : Connection) (hs : List Happening) : Prop where
  order : hs.Pairwise fun x y => x = .hangUp → y.isArrival = false
  closed : c.stream.ended = true → arrivals hs = []

/-- A way to cut what a client sends: the connection is read at least once, and in the end nothing
is left to do. -/
structure Cuts (b : Broker) (c : Connection) (hs : List Happening) : Prop extends
    InOrder c hs where
  read : .pass ∈ hs
  done : (b.follow c.id hs).Done c.id

/-- Whether the input of a connection ends. -/
def endsIn (c : Connection) (hs : List Happening) : Bool :=
  c.stream.ended || decide (.hangUp ∈ hs)

/-- Passes may follow. -/
theorem InOrder.passes (h : InOrder c hs) (n : Nat) :
    InOrder c (hs ++ List.replicate n .pass) := by
  have hpasses : ∀ y ∈ List.replicate n Happening.pass, y.isArrival = false := fun y hy =>
    (List.eq_of_mem_replicate hy) ▸ rfl
  refine ⟨List.pairwise_append.mpr ⟨h.order, ?_, fun _ _ y hy _ => hpasses y hy⟩, fun he => ?_⟩
  · exact List.pairwise_of_forall_mem_list fun _ _ y hy _ => hpasses y hy
  · rw [arrivals_append, h.closed he, arrivals_eq_nil hpasses, List.append_nil]

/-- A connection that is ready is tended, if it is read at all. -/
theorem InOrder.tended (h : InOrder c hs) (hpass : .pass ∈ hs) (hroll : Roll accepted b)
    (hidle : b.Idle) (hr : b.Ready c) :
    Tended accepted c.id (endsIn c hs) b.multiplexer.pending hs b := by
  have hlive : ∀ ⦃x⦄, b.connection? c.id = some x → x = c := by
    intro x hx
    rw [hr.live] at hx
    exact (Option.some.inj hx).symm
  refine {
    roll := hroll
    idle := hidle
    ready := fun x hx => hlive hx ▸ hr
    unwatched := fun hgone => ?unwatched
    pending := fun _ _ => rfl
    attended := fun _ _ => .inr hpass
    order := h.order
    ending := fun hin => ?ending
    stops := fun x hx he => ?stops
    ends := fun he x hx => ?ends }
  case unwatched =>
    rw [hr.live] at hgone
    cases hgone
  case ending =>
    unfold endsIn
    rw [decide_eq_true hin, Bool.or_true]
  case stops =>
    obtain rfl := hlive hx
    refine ⟨h.closed he, ?_⟩
    unfold endsIn
    rw [he, Bool.true_or]
  case ends =>
    obtain rfl := hlive hx
    exact (Bool.or_eq_true_iff.mp he).imp_right of_decide_eq_true

/-- **Passes enough make of whatever happens in order a way to cut the input.** -/
theorem Roll.exists_cuts (hroll : Roll accepted b) (hidle : b.Idle) (hr : b.Ready c)
    (h : InOrder c hs) : ∃ n, b.Cuts c (hs ++ List.replicate n .pass) := by
  have hread : Happening.pass ∈ hs ++ List.replicate 1 .pass :=
    List.mem_append_right _ List.mem_cons_self
  obtain ⟨n, hn⟩ := ((h.passes 1).tended hread hroll hidle hr).follow.1.exists_done
  have hsum : hs ++ List.replicate (1 + n) .pass =
      (hs ++ List.replicate 1 .pass) ++ List.replicate n .pass := by
    rw [List.append_assoc, List.replicate_append_replicate]
  refine ⟨1 + n, { h.passes (1 + n) with read := ?_, done := ?_ }⟩
  · rw [hsum]
    exact List.mem_append_left _ hread
  · rw [hsum, Broker.follow, List.foldl_append]
    exact hn

/-- Two ways to cut the same input come to brokers that look the same and are in the same state. -/
theorem Roll.segmented (hroll : Roll accepted b) (hidle : b.Idle) (hr : b.Ready c)
    {hs hs' : List Happening} (h : b.Cuts c hs) (h' : b.Cuts c hs')
    (hinput : Net.yieldOf (arrivals hs') = Net.yieldOf (arrivals hs))
    (hend : .hangUp ∈ hs' ↔ .hangUp ∈ hs)
    (hm : ∀ m ∈ (c.prospect (arrivals hs) (endsIn c hs)).messages, (View.veil c.id time).Admits m)
    (htimes : ∀ now, .tick now ∈ hs → ∀ t, time now = time t)
    (htimes' : ∀ now, .tick now ∈ hs' → ∀ t, time now = time t) :
    SameState c.id (b.follow c.id hs) (b.follow c.id hs') ∧
      (b.follow c.id hs').through (.veil c.id time) =
        (b.follow c.id hs).through (.veil c.id time) := by
  have hends : endsIn c hs' = endsIn c hs := by
    unfold endsIn
    rw [decide_eq_decide.mpr hend]
  have htold : b.tidings c.id (arrivals hs') (endsIn c hs) =
      b.tidings c.id (arrivals hs) (endsIn c hs) := by
    rw [tidings_of_live hr.live, tidings_of_live hr.live, Connection.prospect_congr hinput]
  have htended := h.tended h.read hroll hidle hr
  have htended' := h'.tended h'.read hroll hidle hr
  rw [hends] at htended'
  have hforesees : Foresees accepted c.id time (endsIn c hs) b.multiplexer.pending hs b :=
    { htended with
      admits := by rwa [tidings_of_live hr.live]
      times := htimes }
  have hforesees' : Foresees accepted c.id time (endsIn c hs) b.multiplexer.pending hs' b :=
    { htended' with
      admits := by rwa [htold, tidings_of_live hr.live]
      times := htimes' }
  obtain ⟨hlast, hleft⟩ := htended.follow
  obtain ⟨hlast', hleft'⟩ := htended'.follow
  have hsame : (b.follow c.id hs').through (.veil c.id time) =
      (b.follow c.id hs).through (.veil c.id time) :=
    calc (b.follow c.id hs').through (.veil c.id time)
      _ = (b.follow c.id hs').forecast time c.id [] (endsIn c hs) :=
        (hlast'.forecast_of_done h'.done).symm
      _ = b.forecast time c.id (arrivals hs') (endsIn c hs) := hforesees'.follow
      _ = b.forecast time c.id (arrivals hs) (endsIn c hs) := by
        unfold forecast
        rw [htold]
      _ = (b.follow c.id hs).forecast time c.id [] (endsIn c hs) := hforesees.follow.symm
      _ = (b.follow c.id hs).through (.veil c.id time) := hlast.forecast_of_done h.done
  refine ⟨hlast.sameState hlast' h.done h'.done hsame fun x x' hx hx' => ?_, hsame⟩
  obtain ⟨y, hy, he⟩ := hleft hx
  obtain ⟨y', hy', he'⟩ := hleft' hx'
  rw [hr.live] at hy hy'
  cases hy
  cases hy'
  rw [he, he', Connection.residue_congr hinput]

/-- **However what a client sends is cut into pieces and passes,** the broker comes to the same
state, from every state that a run leaves it in while there are workers and watches, if a login
among it names its client id: whatever happens in order comes to an end after passes enough, and two
ways to cut the same input have the same end. Where no time passes either, messages are stored at
the same times. -/
theorem play_segmented (settings : Settings) (clock : Timestamp) {turns : List Turn}
    (hn : (acceptedIn turns).Nodup) {c : Connection}
    (hr : ((Broker.new settings clock).play turns).Ready c) :
    let start := (Broker.new settings clock).play turns
    (∀ hs, InOrder c hs → ∃ n, start.Cuts c (hs ++ List.replicate n .pass)) ∧
      ∀ hs hs', start.Cuts c hs → start.Cuts c hs' →
        Net.yieldOf (arrivals hs') = Net.yieldOf (arrivals hs) →
        (.hangUp ∈ hs' ↔ .hangUp ∈ hs) →
        (∀ m ∈ (c.prospect (arrivals hs) (endsIn c hs)).messages, m.type = .connect →
          m.NamesClient) →
        SameState c.id (start.follow c.id hs) (start.follow c.id hs') ∧
          ((∀ now, .tick now ∉ hs) → (∀ now, .tick now ∉ hs') →
            (start.follow c.id hs').store = (start.follow c.id hs).store) := by
  intro start
  have hroll : Roll (acceptedIn turns) start := Roll.play settings clock hn
  have hidle : start.Idle := play_idle settings clock hn
  refine ⟨fun hs h => hroll.exists_cuts hidle hr h,
    fun hs hs' h h' hinput hend hnamed => ⟨?_, fun hno hno' => ?_⟩⟩
  · exact (@Roll.segmented _ _ c (fun _ => 0) hroll hidle hr hs hs' h h' hinput hend
      (fun m hin ht => .inr (hnamed m hin ht)) (fun _ _ _ => rfl) (fun _ _ _ => rfl)).1
  · have hsame := (@Roll.segmented _ _ c (fun t => t) hroll hidle hr hs hs' h h' hinput hend
      (fun _ _ _ => .inl fun _ => rfl) (fun now hin => absurd hin (hno now))
      (fun now hin => absurd hin (hno' now))).2
    have hstore := congrArg Broker.store hsame
    change Store.through _ _ = Store.through _ _ at hstore
    rwa [Store.through_of_time (fun _ => rfl), Store.through_of_time (fun _ => rfl)] at hstore

/-- A client has joined a destination, and another one has been accepted. -/
def lobby : List Turn :=
  [.event (.accept 1 {}), .event (.sent 1 (.connect "ada")), .event (.sent 1 (.subscribe "news")),
    .event (.perform (.serve 1)), .event (.accept 2 {})]

/-- The other one, as it is then. -/
def visitor : Connection := (((Broker.new {} 0).play lobby).connection? 2).getD (.new 2 {} 0)

/-- It logs in, publishes something and logs out, and garbage follows. -/
def farewell : Bytes :=
  ([.connect "bob", .publish "news" (utf8 "rain"), { type := .disconnect }] : List Message).flatMap
    (fun m => (Wire.encodeOwn m).toOption.getD []) ++ utf8 "garbage"

/-- All of it is read at once. -/
def farewellAtOnce : List Happening := [.arrival (.bytes farewell), .pass]

/-- It is cut within the second frame and within the third, and time passes. -/
def farewellInPieces : List Happening :=
  [.arrival (.bytes (farewell.take 40)), .pass, .tick 5,
    .arrival (.bytes ((farewell.drop 40).take 21)), .pass,
    .arrival (.bytes (farewell.drop 61)), .pass]

theorem farewell_segmented :
    let start := (Broker.new {} 0).play lobby
    (acceptedIn lobby).Nodup ∧ start.Ready visitor ∧ start.Cuts visitor farewellAtOnce ∧
      start.Cuts visitor farewellInPieces ∧
      Net.yieldOf (arrivals farewellInPieces) = Net.yieldOf (arrivals farewellAtOnce) ∧
      (.hangUp ∈ farewellInPieces ↔ .hangUp ∈ farewellAtOnce) ∧
      (∀ m ∈ (visitor.prospect (arrivals farewellAtOnce) (endsIn visitor farewellAtOnce)).messages,
        m.type = .connect → m.NamesClient) ∧
      SameState visitor.id (start.follow visitor.id farewellAtOnce)
        (start.follow visitor.id farewellInPieces) := by
  intro start
  have hn : (acceptedIn lobby).Nodup := by decide
  have hid : visitor.id = 2 := by decide +kernel
  have hr : start.Ready visitor := by
    have hlive : (start.connection? 2).isSome = true := by decide +kernel
    obtain ⟨c, hc⟩ := Option.isSome_iff_exists.mp hlive
    have hv : visitor = c := by
      unfold visitor
      rw [hc, Option.getD_some]
    exact ⟨by rw [hid, hv, hc], by decide +kernel, by decide +kernel, by decide +kernel,
      by decide +kernel, by decide +kernel⟩
  have hopen : visitor.stream.ended = false := by decide +kernel
  have hgone : ∀ {hs}, ((start.follow visitor.id hs).connection? visitor.id).isNone = true →
      .serve visitor.id ∉ (start.follow visitor.id hs).tasks →
      (start.follow visitor.id hs).Done visitor.id := by
    intro hs hnone htasks
    refine ⟨htasks, fun c hc => ?_⟩
    rw [hc] at hnone
    cases hnone
  have hcuts : start.Cuts visitor farewellAtOnce :=
    ⟨⟨by decide +kernel, fun he => absurd (hopen.symm.trans he) Bool.false_ne_true⟩,
      by decide +kernel, hgone (by decide +kernel) (by decide +kernel)⟩
  have hcuts' : start.Cuts visitor farewellInPieces :=
    ⟨⟨by decide +kernel, fun he => absurd (hopen.symm.trans he) Bool.false_ne_true⟩,
      by decide +kernel, hgone (by decide +kernel) (by decide +kernel)⟩
  have hinput : Net.yieldOf (arrivals farewellInPieces) =
      Net.yieldOf (arrivals farewellAtOnce) := by
    have hpieces := Net.yieldOf_pieces
      [farewell.take 40, (farewell.drop 40).take 21, farewell.drop 61]
    have hwhole := Net.yieldOf_pieces [farewell]
    refine hpieces.trans (Eq.trans ?_ hwhole.symm)
    rw [show [farewell.take 40, (farewell.drop 40).take 21, farewell.drop 61].flatten =
      [farewell].flatten by decide +kernel]
  have hend : .hangUp ∈ farewellInPieces ↔ .hangUp ∈ farewellAtOnce := by decide +kernel
  have hnamed : ∀ m ∈ (visitor.prospect (arrivals farewellAtOnce)
      (endsIn visitor farewellAtOnce)).messages, m.type = .connect → m.NamesClient := by
    decide +kernel
  exact ⟨hn, hr, hcuts, hcuts', hinput, hend, hnamed,
    ((play_segmented {} 0 hn hr).2 _ _ hcuts hcuts' hinput hend hnamed).1⟩

end MessageBroker.Broker
