import MessageBroker.Broker.Service
import MessageBroker.Proofs.Registry.Coherence

/-!
# What handling a frame keeps

Whatever a client asks for, its frame takes up no connection and ends none: the tables of the
registry go on agreeing, and nothing else is watched, departed or displaced.

Headlines:
* **`Broker.keeps_publish`**, **`Broker.keeps_handle`**: publishing and handling a frame.
-/

namespace MessageBroker.Broker

/-- An operation keeps the tables in agreement, takes up no connection and ends none. -/
structure Keeps (b b' : Broker) : Prop where
  registry : b.registry.Keeps b'.registry
  watched : ∀ id, id ∈ b'.multiplexer.watched → id ∈ b.multiplexer.watched
  departed : ∀ id, id ∈ b'.departed ↔ id ∈ b.departed
  displaced : b'.displaced = b.displaced

variable {b b' b'' : Broker}

theorem Keeps.refl (b : Broker) : b.Keeps b := ⟨.refl _, fun _ h => h, fun _ => Iff.rfl, rfl⟩

theorem Keeps.trans (h : b.Keeps b') (h' : b'.Keeps b'') : b.Keeps b'' where
  registry := h.registry.trans h'.registry
  watched id hid := h.watched id (h'.watched id hid)
  departed id := (h'.departed id).trans (h.departed id)
  displaced := h'.displaced.trans h.displaced

/-- A change of the registry that keeps it in agreement, with no stream let go or taken up. -/
theorem keeps_of_registry (h : b.registry.Keeps b'.registry)
    (hm : b'.multiplexer = b.multiplexer) (hd : b'.departed = b.departed)
    (hx : b'.displaced = b.displaced) : b.Keeps b' where
  registry := h
  watched id hid := by rwa [hm] at hid
  departed id := by rw [hd]
  displaced := hx

theorem keeps_withRegistry {r : Registry} (h : b.registry.Keeps r) (notices : List Notice) :
    b.Keeps (b.withRegistry notices r) :=
  keeps_of_registry h rfl rfl rfl

theorem keeps_report (b : Broker) (n : Notice) : b.Keeps (b.report n) :=
  keeps_of_registry (.refl _) rfl rfl rfl

/-- A connection may be replaced by one of the same standing. -/
theorem keeps_putConnection {id : ConnectionId} {c c' : Connection} (hc : b.connection? id = some c)
    (hs : c'.standing = c.standing) : b.Keeps (b.putConnection c') := by
  refine ⟨fun hr => ?_, fun _ h => h, fun _ => Iff.rfl, rfl⟩
  have hi : c'.id = id := (congrArg Standing.id hs).trans (hr.registered hc).1
  subst hi
  exact (Registry.Written.put hc hs).keeps hr

/-! ## Publishing -/

theorem keeps_publish (b : Broker) (m : Message) : b.Keeps (b.publish m).2 := by
  unfold publish
  split
  · exact .refl b
  · have hk : ∀ notices, b.Keeps
        ({ b with
          nextId := b.nextId + 1
          store := b.store.insert b.nextId (stamped m b.nextId) b.clock }.withRegistry notices
            (b.registry.deliver (stamped m b.nextId)).2.2) := fun notices =>
      keeps_of_registry (Registry.keeps_deliver _ _) rfl rfl rfl
    dsimp only
    split
    · exact hk _
    · split
      · exact hk _
      · exact keeps_of_registry (hk []).registry rfl rfl rfl

theorem keeps_publishWill (b : Broker) (c : Connection) : b.Keeps (b.publishWill c) := by
  unfold publishWill
  split
  · exact .refl b
  · rename_i will hw
    have hk := b.keeps_publish will.toMessage
    split
    · rename_i he
      rwa [he] at hk
    · rename_i he
      rw [he] at hk
      exact hk.trans (keeps_report _ _)

theorem keeps_conclude (b : Broker) (c : Connection) (abnormal : Bool) :
    b.Keeps (b.conclude c abnormal) := by
  unfold conclude
  have hk : b.Keeps (if abnormal then b.publishWill c else b) := by
    split
    · exact b.keeps_publishWill c
    · exact .refl b
  dsimp only
  generalize (if abnormal then b.publishWill c else b) = b' at hk ⊢
  split
  · exact hk.trans (keeps_report _ _)
  · exact hk

/-! ## What clients ask for -/

theorem keeps_connect {c : Connection} (hc : b.connection? c.id = some c) (m : Message) :
    b.Keeps (b.connect c m).2 := by
  unfold connect
  split
  · exact .refl b
  · rename_i hn
    split
    · dsimp only
      split
      · exact .refl b
      · rename_i registry hr
        have hno : c.session.clientId = none := by
          unfold Connection.isConnected at hn
          rwa [Bool.not_eq_true, Option.isSome_eq_false_iff, Option.isNone_iff_eq_none] at hn
        have hk := Registry.keeps_claim hc hno hr
          (show (sessionOf (b.clientIdOf c.id m) m).clientId = some (b.clientIdOf c.id m) from rfl)
        exact keeps_of_registry hk rfl rfl rfl
    · exact b.keeps_report _

theorem keeps_joinAll (id : ConnectionId) (type : DestinationType) (qos : QoS)
    (names : List String) (b : Broker) : b.Keeps (joinAll id type qos names b).2 := by
  induction names generalizing b with
  | nil => exact .refl b
  | cons name names ih =>
    have hk := b.registry.keeps_subscribe id name type qos
    unfold joinAll
    split
    · rename_i he
      rw [he] at hk
      exact (keeps_withRegistry hk _).trans (ih _)
    · rename_i he
      rw [he] at hk
      exact keeps_withRegistry hk _

theorem keeps_subscribe (b : Broker) (c : Connection) (m : Message) :
    b.Keeps (b.subscribe c m).2 := by
  unfold subscribe
  split
  · exact .refl b
  · split
    · exact .refl b
    · exact .refl b
    · exact keeps_joinAll ..

theorem keeps_leaveAll (id : ConnectionId) (names : List String) (b : Broker) :
    b.Keeps (leaveAll id names b).2 := by
  induction names generalizing b with
  | nil => exact .refl b
  | cons name names ih =>
    have hk := b.registry.keeps_unsubscribe id name
    unfold leaveAll
    split
    · rename_i registry he
      rw [he] at hk
      have hb : b.Keeps { b with registry } := keeps_of_registry hk rfl rfl rfl
      exact hb.trans (ih _)
    · rename_i he
      rw [he] at hk
      exact keeps_of_registry hk rfl rfl rfl

theorem keeps_acknowledge (b : Broker) (c : Connection) (m : Message) :
    b.Keeps (b.acknowledge c m) := by
  unfold acknowledge
  split
  · exact keeps_of_registry (.refl _) rfl rfl rfl
  · exact b.keeps_report _

theorem keeps_reply (b : Broker) (id : ConnectionId) (t : MessageType) :
    b.Keeps (b.reply id t).2 := by
  unfold reply
  split
  · exact .refl b
  · split
    · split
      · exact .refl b
      · rename_i c hc
        exact keeps_putConnection hc (c.standing_send _)
    · exact .refl b

theorem keeps_carryOut {c : Connection} (hc : b.connection? c.id = some c) (m : Message) :
    b.Keeps (b.carryOut c m).2 := by
  unfold carryOut
  split
  · exact .refl b
  · split
    · exact keeps_connect hc m
    · exact b.keeps_subscribe c m
    · exact keeps_leaveAll ..
    · exact b.keeps_publish m
    · exact b.keeps_acknowledge c m
    · exact .refl b
    · exact .refl b
    · exact .refl b

theorem keeps_handle {c : Connection} (hc : b.connection? c.id = some c) (m : Message) :
    b.Keeps (b.handle c m).2 := by
  have hk := keeps_carryOut hc m
  unfold handle
  split
  · rename_i b' he
    rw [he] at hk
    exact hk.trans (b'.keeps_reply c.id m.type)
  · exact hk

end MessageBroker.Broker
