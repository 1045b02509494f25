import MessageBroker.Proofs.Broker.Driving
import MessageBroker.Proofs.Broker.Transcript
import MessageBroker.Proofs.Connection.Passes

/-!
# What reading a connection depends on

A connection is read by nobody but the pass that serves it. Whatever a broker does for its clients
besides, messages may be written to a connection and its destinations may change, but what has
arrived and what is left of earlier passes stays as it is. So each pass finds a connection as the
pass before has left it: with nothing in its buffer that has not been looked at.

Headlines:
* **`Broker.KeepsInlets`**: whoever is live was so before, with the same inlet;
  **`Broker.Roll.keepsInlets_handleAll`**: so it is while frames are handled.
* **`Broker.play_idle`**: after every run all that was read has been looked at.
-/

namespace MessageBroker

/-- What reading a connection depends on. -/
structure Inlet where
  incoming : List Net.Arrival
  ended : Bool
  closed : Bool
  registers : Except IoFailure Unit
  decoder : Wire.Decoder
  buffer : Bytes

/-- What reading the connection depends on. -/
def Connection.inlet (c : Connection) : Inlet :=
  ⟨c.stream.incoming, c.stream.ended, c.stream.closed, c.stream.registers, c.decoder, c.buffer⟩

/-- Writing leaves it alone. -/
theorem Connection.inlet_send (c : Connection) (m : Message) : (c.send m).2.inlet = c.inlet := by
  have hwrite : ∀ data, ({ c with stream := (c.stream.write data).2 } : Connection).inlet =
      c.inlet := by
    intro data
    unfold Net.Stream.write
    split
    · rfl
    · split <;> rfl
  unfold send
  split
  · rfl
  · split
    · rfl
    · rename_i frame _
      split
      · rename_i hw
        have := hwrite frame
        rwa [hw] at this
      · rename_i hw
        have := hwrite frame
        rwa [hw] at this

/-! ## Registries -/

namespace Registry

/-- Whoever is live was so before, with the same inlet. -/
def KeepsInlets (r r' : Registry) : Prop :=
  ∀ ⦃id c'⦄, r'.connections.get? id = some c' →
    ∃ c, r.connections.get? id = some c ∧ c'.inlet = c.inlet

variable {r r' r'' : Registry}

namespace KeepsInlets

theorem of_eq (h : r'.connections = r.connections) : r.KeepsInlets r' :=
  fun _ c' hc' => ⟨c', h ▸ hc', rfl⟩

theorem refl (r : Registry) : r.KeepsInlets r := of_eq rfl

theorem trans (h : r.KeepsInlets r') (h' : r'.KeepsInlets r'') : r.KeepsInlets r'' := by
  intro id c'' hc''
  obtain ⟨c', hc', he'⟩ := h' hc''
  obtain ⟨c, hc, he⟩ := h hc'
  exact ⟨c, hc, he'.trans he⟩

end KeepsInlets

/-- A connection may be put in place of one with the same inlet. -/
theorem keepsInlets_insert {id : ConnectionId} {c c' : Connection}
    (hc : r.connections.get? id = some c) (he : c'.inlet = c.inlet) :
    r.KeepsInlets { r with connections := r.connections.insert id c' } := by
  intro other x hx
  rw [Table.get?_insert] at hx
  split at hx
  · rename_i e
    cases hx
    exact ⟨c, e ▸ hc, he⟩
  · exact ⟨x, hx, rfl⟩

theorem keepsInlets_modifyDestinations (r : Registry) (id : ConnectionId)
    (f : NameSet → NameSet) : r.KeepsInlets (r.modifyDestinations id f) := by
  intro other c' hc'
  unfold modifyDestinations at hc'
  rw [Table.get?_modify] at hc'
  split at hc'
  · obtain ⟨c, hc, rfl⟩ := Option.map_eq_some_iff.mp hc'
    exact ⟨c, hc, rfl⟩
  · exact ⟨c', hc', rfl⟩

theorem keepsInlets_subscribe (r : Registry) (id : ConnectionId) (name : String)
    (type : DestinationType) (qos : QoS) : r.KeepsInlets (r.subscribe id name type qos).2.2 := by
  unfold subscribe
  split
  · exact .refl r
  · dsimp only
    split
    · exact .of_eq rfl
    · exact (r.putSubscription name _).keepsInlets_modifyDestinations id _

theorem keepsInlets_unsubscribe (r : Registry) (id : ConnectionId) (name : String) :
    r.KeepsInlets (r.unsubscribe id name).2 := by
  unfold unsubscribe
  split
  · exact r.keepsInlets_modifyDestinations id _
  · split
    · exact .refl r
    · exact (r.putSubscription name _).keepsInlets_modifyDestinations id _

theorem keepsInlets_deliverTo (r : Registry) (id : ConnectionId) (m : Message) :
    r.KeepsInlets (r.deliverTo id m).2 := by
  unfold deliverTo
  split
  · exact .refl r
  · rename_i c hc
    exact keepsInlets_insert hc (c.inlet_send m)

theorem keepsInlets_deliver (r : Registry) (m : Message) :
    r.KeepsInlets (r.deliver m).2.2 := by
  unfold deliver
  split
  · exact .refl r
  · split
    · exact .refl r
    · rename_i name _ _ s _
      split
      · exact .refl r
      · rename_i targets held _
        exact Subscription.attemptAll_rel (R := KeepsInlets) (fun r => .refl r) .trans
          (fun r id => r.keepsInlets_deliverTo id m) s.name targets (r.putSubscription name held)

theorem connections_withdraw (id : ConnectionId) (who : String) (names : List String)
    (r : Registry) : (withdraw r id who names).2.connections = r.connections := by
  induction names generalizing r with
  | nil => rfl
  | cons name names ih =>
    unfold withdraw
    split
    · exact ih r
    · split
      · exact ih _
      · exact ih r

theorem keepsInlets_removeConnection (r : Registry) (id : ConnectionId) :
    r.KeepsInlets (r.removeConnection id).2.2 := by
  unfold removeConnection
  split
  · exact .refl r
  · intro other c' hc'
    rw [connections_withdraw, Table.get?_erase] at hc'
    split at hc'
    · cases hc'
    · exact ⟨c', hc', rfl⟩

theorem keepsInlets_clearMembers (name : String) (ids : List ConnectionId) (s : Subscription)
    (r : Registry) : r.KeepsInlets (r.clearMembers name s ids).2.2 := by
  induction ids generalizing r s with
  | nil => exact .refl r
  | cons id ids ih =>
    have hd := r.keepsInlets_modifyDestinations id fun d => d.erase name
    unfold clearMembers
    dsimp only
    split
    · exact hd.trans (ih _ _)
    · exact hd.trans (ih _ _)

theorem keepsInlets_remove (r : Registry) (name : String) :
    r.KeepsInlets (r.remove name).2.2 := by
  unfold remove
  split
  · exact .refl r
  · dsimp only
    split
    · exact .of_eq rfl
    · exact keepsInlets_clearMembers name _ _
        { r with subscriptions := r.subscriptions.erase name }

theorem keepsInlets_removeAll (names : List String) (r : Registry) :
    r.KeepsInlets (r.removeAll names).2 := by
  induction names generalizing r with
  | nil => exact .refl r
  | cons name names ih => exact (r.keepsInlets_remove name).trans (ih _)

theorem connections_claim {id : ConnectionId} {clientId : String}
    (h : r.claim id clientId = .ok r') : r'.connections = r.connections := by
  unfold claim at h
  split at h
  · split at h
    · cases h
      rfl
    · cases h
  · cases h
    rfl

end Registry

namespace Broker

variable {accepted : List ConnectionId} {b b' b'' : Broker} {c : Connection}

/-! ## What clients ask for -/

/-- Whoever is live was so before, with the same inlet. -/
def KeepsInlets (b b' : Broker) : Prop := b.registry.KeepsInlets b'.registry

namespace KeepsInlets

theorem of_eq (h : b'.registry = b.registry) : b.KeepsInlets b' :=
  Registry.KeepsInlets.of_eq (h ▸ rfl)

theorem refl (b : Broker) : b.KeepsInlets b := of_eq rfl

theorem trans (h : b.KeepsInlets b') (h' : b'.KeepsInlets b'') : b.KeepsInlets b'' :=
  Registry.KeepsInlets.trans h h'

end KeepsInlets

theorem keepsInlets_report (b : Broker) (n : Notice) : b.KeepsInlets (b.report n) := .of_eq rfl

theorem keepsInlets_putConnection {c' : Connection} (hc : b.connection? c.id = some c)
    (hi : c'.id = c.id) (he : c'.inlet = c.inlet) : b.KeepsInlets (b.putConnection c') := by
  unfold putConnection
  rw [hi]
  exact Registry.keepsInlets_insert hc he

theorem keepsInlets_publish (b : Broker) (m : Message) : b.KeepsInlets (b.publish m).2 := by
  have hd := b.registry.keepsInlets_deliver (stamped m b.nextId)
  unfold publish
  split
  · exact .refl b
  · dsimp only
    split
    · exact hd
    · split <;> exact hd

theorem keepsInlets_connect (hc : b.connection? c.id = some c) (m : Message) :
    b.KeepsInlets (b.connect c m).2 := by
  cases he : (b.connect c m).1 with
  | error e =>
    rw [connect_of_error he]
    exact .of_eq rfl
  | ok _ =>
    obtain ⟨-, -, registry, hr, hb⟩ := connect_of_ok he
    have hclaim := Registry.connections_claim hr
    have hc' : ({ b with registry } : Broker).connection? c.id = some c := by
      unfold connection?
      rw [hclaim]
      exact hc
    have hstart : b.KeepsInlets { b with registry } := Registry.KeepsInlets.of_eq hclaim
    have hput := @keepsInlets_putConnection _ c
      { c with session := sessionOf (b.clientIdOf c.id m) m } hc' rfl rfl
    rw [hb]
    exact (hstart.trans hput).trans (keepsInlets_report _ _)

theorem keepsInlets_joinAll (id : ConnectionId) (type : DestinationType) (qos : QoS)
    (names : List String) (b : Broker) : b.KeepsInlets (joinAll id type qos names b).2 := by
  induction names generalizing b with
  | nil => exact .refl b
  | cons name names ih =>
    have hs := b.registry.keepsInlets_subscribe id name type qos
    unfold joinAll
    split
    · rename_i notices registry he
      rw [he] at hs
      have hb : b.KeepsInlets (b.withRegistry notices registry) := hs
      exact hb.trans (ih _)
    · rename_i he
      rw [he] at hs
      exact hs

theorem keepsInlets_subscribe (b : Broker) (c : Connection) (m : Message) :
    b.KeepsInlets (b.subscribe c m).2 := by
  unfold subscribe
  split
  · exact .refl b
  · split
    · exact .refl b
    · exact .refl b
    · exact keepsInlets_joinAll ..

theorem keepsInlets_leaveAll (id : ConnectionId) (names : List String) (b : Broker) :
    b.KeepsInlets (leaveAll id names b).2 := by
  induction names generalizing b with
  | nil => exact .refl b
  | cons name names ih =>
    have hs := b.registry.keepsInlets_unsubscribe id name
    unfold leaveAll
    split
    · rename_i registry he
      rw [he] at hs
      have hb : b.KeepsInlets { b with registry } := hs
      exact hb.trans (ih _)
    · rename_i he
      rw [he] at hs
      exact hs

theorem keepsInlets_acknowledge (b : Broker) (c : Connection) (m : Message) :
    b.KeepsInlets (b.acknowledge c m) := by
  unfold acknowledge
  split
  · exact .of_eq rfl
  · exact .of_eq rfl

theorem keepsInlets_carryOut (hc : b.connection? c.id = some c) (m : Message) :
    b.KeepsInlets (b.carryOut c m).2 := by
  unfold carryOut
  dsimp only
  split
  · exact .refl b
  · split
    · exact keepsInlets_connect hc m
    · exact b.keepsInlets_subscribe c m
    · exact keepsInlets_leaveAll ..
    · exact b.keepsInlets_publish m
    · exact b.keepsInlets_acknowledge c m
    · exact .refl b
    · exact .refl b
    · exact .refl b

theorem keepsInlets_reply (h : b.registry.Enrolled) (id : ConnectionId) (t : MessageType) :
    b.KeepsInlets (b.reply id t).2 := by
  unfold reply
  split
  · exact .refl b
  · split
    · split
      · exact .refl b
      · rename_i c hc
        obtain ⟨rfl, -⟩ := h.registered hc
        exact keepsInlets_putConnection hc (congrArg Standing.id (c.standing_send _))
          (c.inlet_send _)
    · exact .refl b

theorem Roll.keepsInlets_handle (h : Roll accepted b) (hc : b.connection? c.id = some c)
    (m : Message) : b.KeepsInlets (b.handle c m).2 := by
  have hs := keepsInlets_carryOut hc m
  have hroll := h.carryOut hc m
  unfold handle
  split
  · rename_i b' he
    rw [he] at hs hroll
    exact hs.trans (keepsInlets_reply hroll.registry c.id m.type)
  · exact hs

/-! ## The end of a connection -/

theorem keepsInlets_publishWill (b : Broker) (c : Connection) :
    b.KeepsInlets (b.publishWill c) := by
  unfold publishWill
  split
  · exact .refl b
  · rename_i will _
    have hp := b.keepsInlets_publish will.toMessage
    split
    · rename_i he
      rwa [he] at hp
    · rename_i he
      rw [he] at hp
      exact hp.trans (keepsInlets_report _ _)

theorem keepsInlets_conclude (b : Broker) (c : Connection) (abnormal : Bool) :
    b.KeepsInlets (b.conclude c abnormal) := by
  have hp : b.KeepsInlets (if abnormal then b.publishWill c else b) := by
    split
    · exact b.keepsInlets_publishWill c
    · exact .refl b
  unfold conclude
  dsimp only
  split
  · exact hp.trans (keepsInlets_report _ _)
  · exact hp

theorem Roll.keepsInlets_leave (hc : b.connection? c.id = some c) :
    b.KeepsInlets (b.leave c) := by
  unfold KeepsInlets
  rw [Roll.registry_leave hc]
  exact b.registry.keepsInlets_removeConnection c.id

theorem Roll.keepsInlets_tearDown (h : Roll accepted b) (id : ConnectionId) (abnormal : Bool) :
    b.KeepsInlets (b.tearDown id abnormal) := by
  cases hc : b.connection? id with
  | none =>
    rw [tearDown_of_gone h.displaced hc]
    exact .refl b
  | some c =>
    obtain ⟨rfl, -⟩ := h.registered hc
    rw [h.tearDown_eq hc]
    exact (Roll.keepsInlets_leave hc).trans (keepsInlets_conclude ..)

/-- **While frames are handled, inlets stay as they are.** -/
theorem Roll.keepsInlets_handleAll (h : Roll accepted b) (id : ConnectionId) (ms : List Message) :
    b.KeepsInlets (handleAll id ms b).2 := by
  induction ms generalizing b with
  | nil => exact .refl b
  | cons m ms ih =>
    unfold handleAll
    cases hc : b.connection? id with
    | none => exact .refl b
    | some c =>
      obtain ⟨rfl, -⟩ := h.registered hc
      have hs := h.keepsInlets_handle hc m
      have hafter : Roll accepted (b.handle c m).2 :=
        h.act (x := ⟨b, .frame c m⟩) (.frame (.refl b) hc)
      dsimp only
      rcases he : b.handle c m with ⟨e | flow, b'⟩
      · rw [he] at hs hafter
        have hreport : ∀ n, Roll accepted (b'.report n) := fun n =>
          hafter.steady (b'.steady_report n)
        have hs' : ∀ n, b.KeepsInlets (b'.report n) := fun n => hs.trans (keepsInlets_report _ n)
        dsimp only
        split
        · exact (hs' _).trans ((hreport _).keepsInlets_tearDown c.id true)
        · exact (hs' _).trans (ih (hreport _))
      · rw [he] at hs hafter
        cases flow with
        | «continue» => exact hs.trans (ih hafter)
        | disconnect => exact hs.trans (hafter.keepsInlets_tearDown c.id false)

/-! ## All that was read has been looked at -/

theorem keepsInlets_execute {t : Task} (h : b.execute t = .ok b') : b.KeepsInlets b' := by
  unfold execute at h
  split at h
  · cases h
  · cases h
    exact .of_eq rfl

theorem Roll.keepsInlets_goOn (h : Roll accepted b) (c : Connection) (pass : ReadPass) :
    b.KeepsInlets (b.goOn c pass) := by
  have hend : ∀ n abnormal, b.KeepsInlets ((b.report n).tearDown c.id abnormal) :=
    fun n abnormal => (b.keepsInlets_report n).trans
      ((h.steady (b.steady_report n)).keepsInlets_tearDown c.id abnormal)
  unfold goOn
  cases pass.error with
  | some e => exact hend _ true
  | none =>
    dsimp only
    split
    · exact h.keepsInlets_tearDown c.id true
    · split
      · cases he : b.execute (.serve c.id) with
        | ok b' => exact keepsInlets_execute he
        | error e => exact hend _ _
      · cases b.multiplexer.watch c.id c.stream.registers c.id .oneShot with
        | ok multiplexer => exact .of_eq rfl
        | error e => exact hend _ _

/-- After its last pass a connection is ended. -/
theorem Roll.dismissed_goOn (h : Roll accepted b) (hc : b.connection? c.id = some c)
    {pass : ReadPass} (hf : pass.isFinal = true) :
    Dismissed accepted c.id b (b.goOn c pass) := by
  unfold ReadPass.isFinal at hf
  unfold goOn
  cases he : pass.error with
  | some e =>
    exact .intro (b.sameDrive_report _) (h.steady (b.steady_report _)) hc
  | none =>
    rw [he] at hf
    simp only [Option.isSome_none, Bool.false_or] at hf
    dsimp only
    rw [if_pos hf]
    exact .intro (.refl b) h hc

/-- What becomes of an open connection that is served: it is ended, or its pass was not the last one
and it goes on with all its frames handled. -/
theorem Roll.serve_cases (h : Roll accepted b) (hc : b.connection? c.id = some c)
    (ho : c.isClosed = false) :
    (b.reading c).KeepsInlets (b.serve c.id) ∧
      (Dismissed accepted c.id (b.reading c) (b.serve c.id) ∨ c.readPass.1.isFinal = false ∧
        ∃ b' c', handleAll c.id c.readPass.1.messages (b.reading c) = (true, b') ∧
          b'.connection? c.id = some c' ∧ b.serve c.id = b'.goOn c' c.readPass.1) := by
  have hread := h.steady (steady_reading hc)
  have hlive := b.connection?_reading c
  have hkeeps := hread.keepsInlets_handleAll c.id c.readPass.1.messages
  have hall := hread.trail (hread.trail_handleAll c.id c.readPass.1.messages)
  have hserve := serve_of_open hc ho
  dsimp only at hserve
  rcases hh : handleAll c.id c.readPass.1.messages (b.reading c) with ⟨goes, b'⟩
  rw [hh] at hkeeps hall hserve
  cases goes with
  | false =>
    rw [if_neg Bool.false_ne_true] at hserve
    rw [hserve]
    exact ⟨hkeeps, .inl (hread.dismissed_of_handleAll hlive hh)⟩
  | true =>
    obtain ⟨hdrive, c', hc'⟩ := hread.goesOn_handleAll hlive hh
    obtain ⟨hi, -⟩ := hall.registered hc'
    rw [if_pos rfl, hc'] at hserve
    dsimp only at hserve
    rw [hserve]
    refine ⟨hkeeps.trans (hall.keepsInlets_goOn c' _), ?_⟩
    cases hf : c.readPass.1.isFinal with
    | false => exact .inr ⟨rfl, b', c', rfl, hc', rfl⟩
    | true =>
      have hgone := hall.dismissed_goOn (c := c') (hi.symm ▸ hc') hf
      rw [hi] at hgone
      exact .inl (hdrive.dismissed hgone)

/-- Of every live connection all that was read has been looked at. -/
def Idle (b : Broker) : Prop := ∀ ⦃id c⦄, b.connection? id = some c → c.IsIdle

theorem isIdle_of_inlet {c c' : Connection} (he : c'.inlet = c.inlet) (h : c.IsIdle) :
    c'.IsIdle := by
  obtain ⟨hd, hb⟩ : c'.decoder = c.decoder ∧ c'.buffer = c.buffer :=
    ⟨congrArg Inlet.decoder he, congrArg Inlet.buffer he⟩
  unfold Connection.IsIdle
  rw [hd, hb]
  exact h

theorem Idle.keeps (h : b.Idle) (hk : b.KeepsInlets b') : b'.Idle := by
  intro id c' hc'
  obtain ⟨c, hc, he⟩ := hk hc'
  exact isIdle_of_inlet he (h hc)

theorem Idle.putConnection (h : b.Idle) (hi : c.IsIdle) : (b.putConnection c).Idle := by
  intro id c' hc'
  have hget : (if id = c.id then some c else b.connection? id) = some c' :=
    (Table.get?_insert _ _ _ _).symm.trans hc'
  split at hget
  · cases hget
    exact hi
  · exact h hget

theorem Idle.modifyStream (h : b.Idle) (id : ConnectionId) (f : Net.Stream → Net.Stream) :
    (b.modifyStream id f).Idle := by
  unfold Broker.modifyStream
  split
  · rename_i c hc
    have hi : c.IsIdle := h hc
    exact h.putConnection (c := { c with stream := f c.stream }) hi
  · exact h

/-- Who is live once a connection has been read: it is as its pass has left it, and nobody else is
touched. -/
theorem get?_reading (b : Broker) (c : Connection) (id : ConnectionId) :
    (b.reading c).connection? id = if id = c.id then some c.readPass.2 else b.connection? id := by
  unfold reading Broker.putConnection connection?
  rw [registry_applyHalt, c.id_readPass]
  exact Table.get?_insert ..

theorem Idle.serve (h : b.Idle) (hroll : Roll accepted b) (id : ConnectionId) :
    (b.serve id).Idle := by
  cases hc : b.connection? id with
  | none =>
    unfold Broker.serve
    rw [hc]
    exact h
  | some c =>
    obtain ⟨rfl, -⟩ := hroll.registered hc
    cases ho : c.isClosed with
    | true =>
      rw [(serve_of_closed hc ho).1]
      exact h
    | false =>
      obtain ⟨hkeeps, hend⟩ := hroll.serve_cases hc ho
      intro other x hx
      obtain ⟨x', hx', he⟩ := hkeeps hx
      refine isIdle_of_inlet he ?_
      rw [show (b.reading c).registry.connections.get? other = _ from b.get?_reading c other] at hx'
      split at hx'
      · rename_i e
        subst e
        cases hx'
        obtain ⟨hf, -⟩ := hend.resolve_left fun ha => by
          rw [ha.departs.gone] at hx
          cases hx
        exact Connection.isIdle_readPass (h hc) hf
      · exact h hx'

theorem Idle.accept (h : b.Idle) (id : ConnectionId) (stream : Net.Stream) :
    (b.accept id stream).2.Idle := by
  have hadd : ∀ r : Registry, r.connections = (b.registry.addConnection
      (.new id stream b.settings.listener.maxPacketSize.toWord32)).connections →
      ∀ ⦃other x⦄, r.connections.get? other = some x → x.IsIdle := by
    intro r hr other x hx
    rw [hr, Registry.get?_addConnection] at hx
    split at hx
    · cases hx
      exact Connection.isIdle_new ..
    · exact h hx
  have hd : (b.displace id).registry = b.registry := by
    unfold Broker.displace
    split <;> rfl
  have hs : (b.displace id).settings = b.settings := by
    unfold Broker.displace
    split <;> rfl
  unfold Broker.accept
  dsimp only
  rw [hd]
  split
  · exact hadd _ rfl
  · intro other x hx
    obtain ⟨x', hx', he⟩ := Registry.keepsInlets_removeConnection _ id hx
    exact isIdle_of_inlet he (hadd _ rfl hx')

theorem keepsInlets_signal (b : Broker) (id : ConnectionId) (flags : Net.Flags) :
    b.KeepsInlets (b.signal id flags) := by
  have hstep : ∀ (b : Broker) flags id, b.KeepsInlets (onEvent b flags id).state := by
    intro b flags id
    unfold onEvent
    split
    · rename_i he
      exact keepsInlets_execute he
    · exact b.keepsInlets_report _
  unfold signal
  split
  · exact .refl b
  · exact Net.Multiplexer.poll_rel KeepsInlets.refl KeepsInlets.trans hstep
      (fun _ => false) (.ok [(id, flags)]) b b.multiplexer

theorem Idle.perform (h : b.Idle) (hroll : Roll accepted b) (t : Task) : (b.perform t).Idle := by
  cases t with
  | serve id => exact h.serve hroll id
  | abort id => exact h.keeps (hroll.keepsInlets_tearDown id true)

theorem Idle.turn (h : b.Idle) (hroll : Roll accepted b) (t : Turn) : (b.turn t).Idle := by
  cases t with
  | contend name lock cursor =>
    have hr : (b.registry.contend name lock cursor).connections = b.registry.connections := rfl
    exact h.keeps (Registry.KeepsInlets.of_eq hr)
  | event e =>
    cases e with
    | accept id stream => exact h.accept id stream
    | change id f => exact h.modifyStream id f
    | signal id flags => exact h.keeps (b.keepsInlets_signal id flags)
    | work =>
      change (work 1 b).Idle
      unfold work
      cases b.tasks with
      | nil => exact h
      | cons t ts =>
        have hroll' : Roll accepted { b with tasks := ts } := hroll.steady ⟨.refl, rfl⟩
        have hidle : ({ b with tasks := ts } : Broker).Idle := h
        exact hidle.perform hroll' t
    | perform t => exact h.perform hroll t
    | tearDown id abnormal => exact h.keeps (hroll.keepsInlets_tearDown id abnormal)
    | publish m => exact h.keeps (b.keepsInlets_publish m)
    | remove name => exact h.keeps (b.registry.keepsInlets_remove name)
    | clear => exact h.keeps (Registry.keepsInlets_removeAll _ _)
    | _ => exact h

theorem idle_new (settings : Settings) (clock : Timestamp) :
    (Broker.new settings clock).Idle := by
  intro id c hc
  cases hc

/-- **After every run all that was read has been looked at.** -/
theorem play_idle (settings : Settings) (clock : Timestamp) {turns : List Turn}
    (hn : (acceptedIn turns).Nodup) : ((Broker.new settings clock).play turns).Idle :=
  (play_induction (P := fun accepted _ b => Roll accepted b ∧ b.Idle)
    ⟨roll_new settings clock, idle_new settings clock⟩
    (fun t h hfresh => ⟨h.1.turn hfresh, h.2.turn h.1 t⟩) hn).2

end Broker

end MessageBroker
