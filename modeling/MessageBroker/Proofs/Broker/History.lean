import MessageBroker.Proofs.Broker.Run

/-!
# The history of a run

A run is driven by events, and one event may make a broker handle many frames, end a connection and
publish its last will. The history of a run lists the acts in it that may touch the store or give
out a number, one by one and in order, each with the broker that it found.

Headlines:
* **`Broker.Sound.spans_run`**: between the acts of its history a run neither touches the store nor
  gives out a number, and whenever one happens the tables agree.
* **`Broker.Sound.comesBy`**: so it is up to each moment of it.
-/

namespace MessageBroker.Broker

/-- What may touch the store or give out a number. -/
inductive Act
  /-- A frame of a connection is handled. -/
  | frame (c : Connection) (m : Message)
  /-- The end of a connection is concluded, with its last will if it is abnormal. -/
  | conclude (c : Connection) (abnormal : Bool)
  | publish (m : Message)
  | sweep (expiry : Duration)

/-- An act, and the broker that it found. -/
structure Moment where
  broker : Broker
  act : Act

/-- The broker that an act left. -/
def Moment.after (x : Moment) : Broker :=
  match x.act with
  | .frame c m => (x.broker.handle c m).2
  | .conclude c abnormal => x.broker.conclude c abnormal
  | .publish m => (x.broker.publish m).2
  | .sweep expiry => (x.broker.sweep expiry).2

/-! ## The acts of an event -/

/-- The acts of ending a connection. -/
def momentsOfTearDown (b : Broker) (id : ConnectionId) (abnormal : Bool) : List Moment :=
  match b.connection? id with
  | none =>
    match b.displaced.get? id with
    | none => []
    | some c =>
      [⟨{ b with
          displaced := b.displaced.erase id
          multiplexer := b.multiplexer.forget id }, .conclude c abnormal⟩]
  | some c =>
    match c.close with
    | (false, _) => []
    | (true, c) => [⟨(b.putConnection c).withdraw c, .conclude c abnormal⟩]

/-- The acts of handling frames in order. -/
def momentsOfFrames (id : ConnectionId) : List Message → Broker → List Moment
  | [], _ => []
  | m :: ms, b =>
    match b.connection? id with
    | none => []
    | some c =>
      ⟨b, .frame c m⟩ ::
        match b.handle c m with
        | (.ok .continue, b) => momentsOfFrames id ms b
        | (.ok .disconnect, b) => b.momentsOfTearDown id false
        | (.error e, b) =>
          let who := match b.connection? id with
            | some c => c.name
            | none => c.name
          if e.isFatal then (b.report (.ended who e)).momentsOfTearDown id true
          else momentsOfFrames id ms (b.report (.refused who e))

/-- The acts that follow a pass after which the connection goes on. -/
def momentsOfGoingOn (b : Broker) (c : Connection) (pass : ReadPass) : List Moment :=
  match pass.error with
  | some e => (b.report (.ended c.name e)).momentsOfTearDown c.id true
  | none =>
    if pass.ended then b.momentsOfTearDown c.id true
    else if pass.more then
      match b.execute (.serve c.id) with
      | .ok _ => []
      | .error e =>
        (b.report (.notRequeued c.name e)).momentsOfTearDown c.id (!b.multiplexer.stopped)
    else
      match b.multiplexer.watch c.id c.stream.registers c.id .oneShot with
      | .ok _ => []
      | .error e =>
        (b.report (.notRearmed c.name e)).momentsOfTearDown c.id (!b.multiplexer.stopped)

/-- The acts of reading what a connection has sent. -/
def momentsOfServing (b : Broker) (id : ConnectionId) : List Moment :=
  match b.connection? id with
  | none => []
  | some c =>
    if c.isClosed then []
    else
      let (pass, c) := c.readPass
      let b := (b.applyHalt id).putConnection c
      let (goes, b') := handleAll id pass.messages b
      momentsOfFrames id pass.messages b ++
        if goes then
          match b'.connection? id with
          | none => []
          | some c => b'.momentsOfGoingOn c pass
        else []

/-- The acts of a task. -/
def momentsOfTask (b : Broker) : Task → List Moment
  | .serve id => b.momentsOfServing id
  | .abort id => b.momentsOfTearDown id true

/-- The acts of an event. -/
def moments (b : Broker) : Event → List Moment
  | .work =>
    match b.tasks with
    | [] => []
    | t :: ts => { b with tasks := ts }.momentsOfTask t
  | .perform t => b.momentsOfTask t
  | .tearDown id abnormal => b.momentsOfTearDown id abnormal
  | .publish m => [⟨b, .publish m⟩]
  | .sweep expiry => [⟨b, .sweep expiry⟩]
  | _ => []

/-- The acts of a run, in the order in which they happen. -/
def history (b : Broker) : List Event → List Moment
  | [] => []
  | e :: events => b.moments e ++ (b.apply e).history events

/-! ## Nothing else matters -/

/-- The store and the next number are the same. -/
structure Untouched (b b' : Broker) : Prop where
  store : b'.store = b.store
  nextId : b'.nextId = b.nextId

/-- The acts lead from one broker to the other: between them nothing touches the store or gives out
a number, and whenever one happens the tables agree. -/
inductive Spans : Broker → List Moment → Broker → Prop
  | done {b b' : Broker} (h : b.Untouched b') : Spans b [] b'
  | act {b b' : Broker} {x : Moment} {xs : List Moment} (before : b.Untouched x.broker)
      (coherent : x.broker.registry.Coherent) (rest : Spans x.after xs b') : Spans b (x :: xs) b'

variable {accepted : List ConnectionId} {b b' b'' : Broker}

theorem Untouched.refl (b : Broker) : b.Untouched b := ⟨rfl, rfl⟩

theorem Untouched.trans (h : b.Untouched b') (h' : b'.Untouched b'') : b.Untouched b'' :=
  ⟨h'.store.trans h.store, h'.nextId.trans h.nextId⟩

theorem Untouched.spans (h : b.Untouched b') {xs : List Moment} (hs : Spans b' xs b'') :
    Spans b xs b'' := by
  cases hs with
  | done h' => exact .done (h.trans h')
  | act before coherent rest => exact .act (h.trans before) coherent rest

theorem Spans.append {xs ys : List Moment} (h : Spans b xs b') (h' : Spans b' ys b'') :
    Spans b (xs ++ ys) b'' := by
  induction h with
  | done h => exact h.spans h'
  | act before coherent _ ih => exact .act before coherent (ih h')

/-- The tables agree at every moment. -/
theorem Spans.coherent {xs : List Moment} (hs : Spans b xs b') {x : Moment} (hx : x ∈ xs) :
    x.broker.registry.Coherent := by
  induction hs with
  | done _ => cases hx
  | act _ coherent _ ih =>
    rcases List.mem_cons.mp hx with rfl | hx
    · exact coherent
    · exact ih hx

/-- One act by itself. -/
theorem spans_moment (x : Moment) (h : x.broker.registry.Coherent) : Spans x.broker [x] x.after :=
  .act (.refl _) h (.done (.refl _))

/-! ## What touches nothing -/

theorem untouched_report (b : Broker) (n : Notice) : b.Untouched (b.report n) := ⟨rfl, rfl⟩

theorem untouched_applyHalt (b : Broker) (id : ConnectionId) : b.Untouched (b.applyHalt id) := by
  unfold applyHalt
  split
  · exact .refl b
  · rename_i halt _
    cases halt.events <;> cases halt.pool <;> exact ⟨rfl, rfl⟩

theorem untouched_execute {t : Task} (h : b.execute t = .ok b') : b.Untouched b' := by
  unfold execute at h
  split at h
  · cases h
  · cases h
    exact ⟨rfl, rfl⟩

theorem untouched_onEvent (b : Broker) (flags : Net.Flags) (id : ConnectionId) :
    b.Untouched (onEvent b flags id).state := by
  unfold onEvent
  split
  · rename_i he
    exact untouched_execute he
  · exact b.untouched_report _

theorem untouched_signal (b : Broker) (id : ConnectionId) (flags : Net.Flags) :
    b.Untouched (b.signal id flags) := by
  unfold signal
  split
  · exact .refl b
  · have h := Net.Multiplexer.poll_rel Untouched.refl Untouched.trans untouched_onEvent
      (fun _ => false) (.ok [(id, flags)]) b b.multiplexer
    exact ⟨h.store, h.nextId⟩

theorem untouched_accept (b : Broker) (id : ConnectionId) (stream : Net.Stream) :
    b.Untouched (b.accept id stream).2 := by
  have hd : b.Untouched (b.displace id) := by
    unfold displace
    split <;> exact ⟨rfl, rfl⟩
  unfold accept
  dsimp only
  split <;> exact ⟨hd.store, hd.nextId⟩

theorem untouched_modifyStream (b : Broker) (id : ConnectionId) (f : Net.Stream → Net.Stream) :
    b.Untouched (b.modifyStream id f) := by
  unfold modifyStream
  split <;> exact ⟨rfl, rfl⟩

/-! ## What a broker does is what its history tells -/

theorem Sound.spans_tearDown (h : Sound accepted b) (id : ConnectionId) (abnormal : Bool) :
    Spans b (b.momentsOfTearDown id abnormal) (b.tearDown id abnormal) := by
  unfold momentsOfTearDown
  cases hc : b.connection? id with
  | none =>
    rw [tearDown_of_gone h.displaced hc, h.displaced]
    exact .done (.refl b)
  | some c =>
    obtain ⟨rfl, ho⟩ := h.registry.registered hc
    have hw := @withdraw_put b h.registry c { c with closed := true, stream := c.stream.close }
      hc rfl rfl rfl
    have hf : Sound accepted (b.without c) :=
      h.forgetting hc rfl rfl (fun _ hw => not_mem_forget hw) rfl
    rw [tearDown_of_live h.registry hc]
    simp only [Connection.close, ho, Bool.false_eq_true, if_false]
    rw [hw]
    have hu : b.Untouched (b.without c) := ⟨rfl, rfl⟩
    exact hu.spans (spans_moment ⟨b.without c, .conclude _ abnormal⟩ hf.registry)

theorem Sound.spans_handleAll (h : Sound accepted b) (id : ConnectionId) (ms : List Message) :
    Spans b (momentsOfFrames id ms b) (Broker.handleAll id ms b).2 := by
  induction ms generalizing b with
  | nil => exact .done (.refl b)
  | cons m ms ih =>
    unfold momentsOfFrames Broker.handleAll
    cases hc : b.connection? id with
    | none => exact .done (.refl b)
    | some c =>
      have hci : c.id = id := (h.registry.registered hc).1
      have hk := h.keeps (keeps_handle (hci.symm ▸ hc) m)
      refine .act (.refl b) h.registry ?_
      change Spans (b.handle c m).2 _ _
      dsimp only
      rcases he : b.handle c m with ⟨e | flow, b'⟩
      · rw [he] at hk
        have hreport : ∀ n, Sound accepted (b'.report n) := fun n => hk.keeps (b'.keeps_report n)
        dsimp only
        split
        · exact (b'.untouched_report _).spans ((hreport _).spans_tearDown id true)
        · exact (b'.untouched_report _).spans (ih (hreport _))
      · rw [he] at hk
        cases flow with
        | «continue» => exact ih hk
        | disconnect => exact hk.spans_tearDown id false

theorem Sound.spans_goOn (h : Sound accepted b) (c : Connection) (pass : ReadPass) :
    Spans b (b.momentsOfGoingOn c pass) (b.goOn c pass) := by
  have hend : ∀ n abnormal, Spans b ((b.report n).momentsOfTearDown c.id abnormal)
      ((b.report n).tearDown c.id abnormal) := fun n abnormal =>
    (b.untouched_report n).spans ((h.keeps (keeps_report _ n)).spans_tearDown c.id abnormal)
  unfold momentsOfGoingOn Broker.goOn
  cases pass.error with
  | some e => exact hend _ true
  | none =>
    dsimp only
    split
    · exact h.spans_tearDown c.id true
    · split
      · cases he : b.execute (.serve c.id) with
        | ok b' => exact .done (untouched_execute he)
        | error e => exact hend _ _
      · cases b.multiplexer.watch c.id c.stream.registers c.id .oneShot with
        | ok multiplexer => exact .done ⟨rfl, rfl⟩
        | error e => exact hend _ _

theorem Sound.spans_serve (h : Sound accepted b) (id : ConnectionId) :
    Spans b (b.momentsOfServing id) (b.serve id) := by
  unfold momentsOfServing Broker.serve
  cases hc : b.connection? id with
  | none => exact .done (.refl b)
  | some c =>
    dsimp only
    split
    · exact .done (.refl b)
    · have hc' : (b.applyHalt id).connection? id = some c := by
        unfold connection?
        rwa [registry_applyHalt]
      have hread := (h.keeps (b.keeps_applyHalt id)).keeps
        (keeps_putConnection hc' c.standing_readPass)
      have hu : b.Untouched ((b.applyHalt id).putConnection c.readPass.2) :=
        have ⟨hs, hn⟩ := b.untouched_applyHalt id
        ⟨hs, hn⟩
      refine hu.spans ((hread.spans_handleAll id c.readPass.1.messages).append ?_)
      have hall := hread.handleAll id c.readPass.1.messages
      generalize Broker.handleAll id c.readPass.1.messages
        ((b.applyHalt id).putConnection c.readPass.2) = handled at hall ⊢
      obtain ⟨goes, b'⟩ := handled
      cases goes with
      | false => exact .done (.refl b')
      | true =>
        simp only [if_true]
        cases b'.connection? id with
        | none => exact .done (.refl b')
        | some c' => exact hall.spans_goOn c' c.readPass.1

theorem Sound.spans_perform (h : Sound accepted b) (t : Task) :
    Spans b (b.momentsOfTask t) (b.perform t) := by
  cases t with
  | serve id => exact h.spans_serve id
  | abort id => exact h.spans_tearDown id true

/-- One event does what its moments tell. -/
theorem Sound.spans_apply (h : Sound accepted b) (e : Event) :
    Spans b (b.moments e) (b.apply e) := by
  cases e with
  | accept id stream => exact .done (b.untouched_accept id stream)
  | change id f => exact .done (b.untouched_modifyStream id f)
  | signal id flags => exact .done (b.untouched_signal id flags)
  | work =>
    unfold moments Broker.apply Broker.work
    cases ht : b.tasks with
    | nil => exact .done (.refl b)
    | cons t ts =>
      have hk : b.Keeps { b with tasks := ts } := keeps_of_registry (.refl _) rfl rfl rfl
      have hu : b.Untouched { b with tasks := ts } := ⟨rfl, rfl⟩
      exact hu.spans ((h.keeps hk).spans_perform t)
  | perform t => exact h.spans_perform t
  | tearDown id abnormal => exact h.spans_tearDown id abnormal
  | publish m => exact spans_moment ⟨b, .publish m⟩ h.registry
  | sweep expiry => exact spans_moment ⟨b, .sweep expiry⟩ h.registry
  | remove name => exact .done ⟨rfl, rfl⟩
  | clear => exact .done ⟨rfl, rfl⟩
  | setClock now => exact .done ⟨rfl, rfl⟩
  | halt id h' => exact .done ⟨rfl, rfl⟩
  | stopEvents => exact .done ⟨rfl, rfl⟩
  | stopPool => exact .done ⟨rfl, rfl⟩

/-- **A run does what its history tells**, if it gives no number twice. -/
theorem Sound.spans_run (h : Sound accepted b) {events : List Event}
    (hn : (acceptedBy events ++ accepted).Nodup) : Spans b (b.history events) (b.run events) := by
  induction events generalizing accepted b with
  | nil => exact .done (.refl b)
  | cons e events ih =>
    rw [acceptedBy_cons, List.append_assoc] at hn
    have hnew : ∀ id, e.accepted? = some id → id ∉ accepted := by
      intro id he hid
      have hn' := (List.nodup_append.mp hn).2.1
      rw [he] at hn'
      exact (List.nodup_cons.mp hn').1 hid
    exact (h.spans_apply e).append (ih (h.apply e hnew) hn)

/-! ## States of a run -/

/-- A run comes by a broker, with the acts that led there: at one of the moments of its history, or
when it is over. -/
inductive ComesBy (b : Broker) (events : List Event) : List Moment → Broker → Prop
  | moment {past future : List Moment} {x : Moment}
      (h : b.history events = past ++ x :: future) : ComesBy b events past x.broker
  | rest : ComesBy b events (b.history events) (b.run events)

/-- A run up to one of its moments. -/
theorem Spans.upTo {past future : List Moment} {x : Moment}
    (hs : Spans b (past ++ x :: future) b') : Spans b past x.broker := by
  induction past generalizing b with
  | nil =>
    cases hs with
    | act before coherent rest => exact .done before
  | cons y past ih =>
    cases hs with
    | act before coherent rest => exact .act before coherent (ih rest)

/-- Wherever a run comes by, the tables agree, and the acts that led there tell what the broker has
done. -/
theorem Sound.comesBy {accepted : List ConnectionId} (h : Sound accepted b) {events : List Event}
    (hn : (acceptedBy events ++ accepted).Nodup) {past : List Moment}
    (hb : b.ComesBy events past b') : b'.registry.Coherent ∧ Spans b past b' := by
  have hs := h.spans_run hn
  cases hb with
  | moment hsplit =>
    rw [hsplit] at hs
    exact ⟨hs.coherent (List.mem_append_right _ List.mem_cons_self), hs.upTo⟩
  | rest => exact ⟨(h.run hn).registry, hs⟩

end MessageBroker.Broker
