import MessageBroker.Proofs.Broker.History
import MessageBroker.Proofs.Registry.Moves

/-!
# What leaves all connections where they are

Whoever holds the subscriptions, most of what a broker does makes nobody come, log in or go: it
only moves the registry. The exceptions are a login that is accepted, a stream that is accepted and
the end of a connection.

Headlines:
* **`Broker.Steady`**: nobody comes, logs in or goes.
* **`Broker.steady_publish`**, **`Broker.steady_conclude`**, **`Broker.steady_signal`**: so it is
  when a message is published, the end of a connection is concluded or an event is reported.
* **`Broker.steady_handle`**: so it is with every frame that logs nobody in.
* **`Broker.connect_of_ok`**, **`Broker.connect_of_error`**: what a login changes.
-/

namespace MessageBroker.Broker

/-! ## Where nobody comes, logs in or goes -/

/-- Nobody comes, logs in or goes. -/
structure Steady (b b' : Broker) : Prop where
  registry : b.registry.Moves b'.registry
  displaced : b'.displaced = b.displaced

variable {b b' b'' : Broker}

namespace Steady

theorem refl (b : Broker) : b.Steady b := ⟨.refl, rfl⟩

theorem trans (h : b.Steady b') (h' : b'.Steady b'') : b.Steady b'' :=
  ⟨h.registry.trans h'.registry, h'.displaced.trans h.displaced⟩

/-- A live connection stays, with its number, its session and its state. -/
theorem exists_after (h : b.Steady b') {id : ConnectionId} {c : Connection}
    (hc : b.connection? id = some c) :
    ∃ c', b'.connection? id = some c' ∧ c'.id = c.id ∧ c'.session = c.session ∧
      c'.closed = c.closed := by
  exact Registry.exists_of_login (fun id => (h.registry.login? id).symm) hc

/-- Whoever is live was so before. -/
theorem exists_before (h : b.Steady b') {id : ConnectionId} {c : Connection}
    (hc : b'.connection? id = some c) :
    ∃ c', b.connection? id = some c' ∧ c'.id = c.id ∧ c'.session = c.session ∧
      c'.closed = c.closed := by
  exact Registry.exists_of_login h.registry.login? hc

end Steady

theorem steady_report (b : Broker) (n : Notice) : b.Steady (b.report n) := ⟨.refl, rfl⟩

theorem steady_withRegistry {r : Registry} (h : b.registry.Moves r) (notices : List Notice) :
    b.Steady (b.withRegistry notices r) := ⟨h, rfl⟩

/-- A connection may be replaced by one of the same standing. -/
theorem steady_putConnection {c c' : Connection} (hc : b.connection? c.id = some c)
    (hs : c'.standing = c.standing) : b.Steady (b.putConnection c') := by
  have hi : c'.id = c.id := congrArg Standing.id hs
  refine ⟨.single ?_, rfl⟩
  unfold putConnection
  rw [hi]
  exact .write hc hs

theorem steady_publish (b : Broker) (m : Message) : b.Steady (b.publish m).2 := by
  unfold publish
  split
  · exact .refl b
  · have hm := Registry.moves_deliver b.registry (stamped m b.nextId)
    dsimp only
    split
    · exact ⟨hm, rfl⟩
    · split <;> exact ⟨hm, rfl⟩

theorem steady_publishWill (b : Broker) (c : Connection) : b.Steady (b.publishWill c) := by
  unfold publishWill
  split
  · exact .refl b
  · rename_i will hw
    have hp := b.steady_publish will.toMessage
    split
    · rename_i he
      rwa [he] at hp
    · rename_i he
      rw [he] at hp
      exact hp.trans (steady_report _ _)

theorem steady_conclude (b : Broker) (c : Connection) (abnormal : Bool) :
    b.Steady (b.conclude c abnormal) := by
  have hp : b.Steady (if abnormal then b.publishWill c else b) := by
    split
    · exact b.steady_publishWill c
    · exact .refl b
  unfold conclude
  dsimp only
  split
  · exact hp.trans (steady_report _ _)
  · exact hp

/-! ## What clients ask for -/

theorem steady_joinAll {id : ConnectionId} {clientId : String} (type : DestinationType) (qos : QoS)
    (names : List String) (hin : b.registry.LoggedIn id clientId) :
    b.Steady (joinAll id type qos names b).2 := by
  induction names generalizing b with
  | nil => exact .refl b
  | cons name names ih =>
    have hm := Registry.moves_subscribe hin name type qos
    unfold joinAll
    split
    · rename_i notices registry he
      rw [he] at hm
      have hin' : registry.LoggedIn id clientId :=
        Registry.loggedIn_of_login (fun id => (hm.login? id).symm) hin
      exact (steady_withRegistry hm notices).trans (ih hin')
    · rename_i he
      rw [he] at hm
      exact steady_withRegistry hm _

theorem steady_subscribe {c : Connection} (hc : b.connection? c.id = some c)
    (hin : c.isConnected = true) (m : Message) : b.Steady (b.subscribe c m).2 := by
  obtain ⟨clientId, hx⟩ := Option.isSome_iff_exists.mp hin
  unfold subscribe
  split
  · exact .refl b
  · split
    · exact .refl b
    · exact .refl b
    · exact steady_joinAll _ _ _ ⟨c, hc, hx⟩

theorem steady_leaveAll (id : ConnectionId) (names : List String) (b : Broker) :
    b.Steady (leaveAll id names b).2 := by
  induction names generalizing b with
  | nil => exact .refl b
  | cons name names ih =>
    have hm := Registry.moves_unsubscribe b.registry id name
    unfold leaveAll
    split
    · rename_i registry he
      rw [he] at hm
      have hb : b.Steady { b with registry } := ⟨hm, rfl⟩
      exact hb.trans (ih _)
    · rename_i he
      rw [he] at hm
      exact ⟨hm, rfl⟩

theorem steady_acknowledge (b : Broker) (c : Connection) (m : Message) :
    b.Steady (b.acknowledge c m) := by
  unfold acknowledge
  split <;> exact ⟨.refl, rfl⟩

theorem steady_reply (h : b.registry.Enrolled) (id : ConnectionId) (t : MessageType) :
    b.Steady (b.reply id t).2 := by
  unfold reply
  split
  · exact .refl b
  · split
    · split
      · exact .refl b
      · rename_i c hc
        have hi : c.id = id := (h.registered hc).1
        exact steady_putConnection (hi.symm ▸ hc) (c.standing_send _)
    · exact .refl b

/-- A frame logs its client in. -/
def LogsIn (b : Broker) (c : Connection) (m : Message) : Prop :=
  m.type = .connect ∧ (b.connect c m).1 = .ok ()

/-- A login that is refused changes nothing. -/
theorem connect_of_error {c : Connection} {m : Message} {e : BrokerError}
    (he : (b.connect c m).1 = .error e) :
    (b.connect c m).2 = { b with notices := (b.connect c m).2.notices } := by
  unfold connect at he ⊢
  split
  · rfl
  · rename_i hn
    rw [if_neg hn] at he
    split
    · rename_i ha
      rw [if_pos ha] at he
      dsimp only at he ⊢
      split
      · rfl
      · rename_i hr
        rw [hr] at he
        cases he
    · rfl

theorem steady_connect {c : Connection} {m : Message} {e : BrokerError}
    (he : (b.connect c m).1 = .error e) : b.Steady (b.connect c m).2 := by
  rw [connect_of_error he]
  exact ⟨.refl, rfl⟩

theorem carryOut_of_connect {c : Connection} {m : Message} (ht : m.type = .connect) :
    b.carryOut c m = ((b.connect c m).1.map fun _ => .continue, (b.connect c m).2) := by
  unfold carryOut
  rw [ht]
  rfl

theorem carryOut_of_unknown {c : Connection} {m : Message} (hn : c.isConnected = false)
    (ht : m.type ≠ .connect) :
    b.carryOut c m = (.error (.protocol (.beforeConnect m.type)), b) := by
  unfold carryOut
  rw [hn, if_pos (by simpa using ht)]

theorem carryOut_of_message {c : Connection} {m : Message} (hin : c.isConnected = true)
    (ht : m.type = .message) :
    b.carryOut c m = ((b.publish m).1.map fun _ => .continue, (b.publish m).2) := by
  unfold carryOut
  rw [hin, ht]
  rfl

/-- What does not go on as asked for is not answered. -/
theorem handle_of_unanswered {c : Connection} {m : Message}
    (hno : ∀ b', b.carryOut c m ≠ (.ok .continue, b')) :
    b.handle c m = b.carryOut c m := by
  unfold handle
  split
  · rename_i b' he
    exact absurd he (hno b')
  · rfl

theorem handle_of_answered {c : Connection} {m : Message}
    (he : b.carryOut c m = (.ok .continue, b')) :
    b.handle c m = ((b'.reply c.id m.type).1.map fun _ => .continue, (b'.reply c.id m.type).2) := by
  unfold handle
  rw [he]

theorem steady_carryOut {c : Connection} {m : Message} (hc : b.connection? c.id = some c)
    (hno : ¬ b.LogsIn c m) : b.Steady (b.carryOut c m).2 := by
  by_cases ht : m.type = .connect
  · rw [carryOut_of_connect ht]
    cases he : (b.connect c m).1 with
    | ok _ => exact absurd ⟨ht, he⟩ hno
    | error e => exact steady_connect he
  · cases hin : c.isConnected with
    | false =>
      rw [carryOut_of_unknown hin ht]
      exact .refl b
    | true =>
      unfold carryOut
      rw [hin]
      cases hm : m.type with
      | connect => exact absurd hm ht
      | subscribe => exact steady_subscribe hc hin m
      | unsubscribe => exact steady_leaveAll ..
      | message => exact b.steady_publish m
      | ack => exact b.steady_acknowledge c m
      | _ => exact .refl b

/-- **Every frame that logs nobody in** leaves all connections where they are. -/
theorem steady_handle (h : b.registry.Enrolled) {c : Connection} {m : Message}
    (hc : b.connection? c.id = some c) (hno : ¬ b.LogsIn c m) : b.Steady (b.handle c m).2 := by
  have hs := steady_carryOut hc hno
  unfold handle
  split
  · rename_i b' he
    rw [he] at hs
    exact hs.trans (steady_reply (hs.registry.enrolled h) c.id m.type)
  · exact hs

/-- A frame that logs its client in is answered, and that is all. -/
theorem steady_handle_of_logsIn {c : Connection} {m : Message}
    (h : (b.connect c m).2.registry.Enrolled) (hin : b.LogsIn c m) :
    (b.connect c m).2.Steady (b.handle c m).2 := by
  unfold handle
  rw [carryOut_of_connect hin.1, hin.2]
  exact steady_reply h c.id m.type

/-- The broker once a client has logged in. -/
theorem connect_of_ok {c : Connection} {m : Message} (hok : (b.connect c m).1 = .ok ()) :
    c.isConnected = false ∧ authorizes b.settings.broker m = true ∧
      ∃ registry, b.registry.claim c.id (b.clientIdOf c.id m) = .ok registry ∧
        (b.connect c m).2 = ({ b with registry }.putConnection
          { c with session := sessionOf (b.clientIdOf c.id m) m }).report
            (.connected { c with session := sessionOf (b.clientIdOf c.id m) m }.name
              c.stream.peer) := by
  unfold connect at hok ⊢
  split
  · rename_i hc
    rw [if_pos hc] at hok
    cases hok
  · rename_i hc
    rw [if_neg hc] at hok
    split
    · rename_i ha
      rw [if_pos ha] at hok
      dsimp only at hok ⊢
      split
      · rename_i hr
        rw [hr] at hok
        cases hok
      · rename_i registry hr
        exact ⟨Bool.not_eq_true _ ▸ hc, ha, registry, hr, rfl⟩
    · rename_i ha
      rw [if_neg ha] at hok
      cases hok

/-! ## What an event does between its acts -/

theorem steady_applyHalt (b : Broker) (id : ConnectionId) : b.Steady (b.applyHalt id) := by
  refine ⟨?_, ?_⟩
  · rw [registry_applyHalt]
  · unfold applyHalt
    split
    · rfl
    · rename_i halt _
      cases halt.events <;> cases halt.pool <;> rfl

theorem steady_execute {t : Task} (h : b.execute t = .ok b') : b.Steady b' := by
  unfold execute at h
  split at h
  · cases h
  · cases h
    exact ⟨.refl, rfl⟩

theorem steady_onEvent (b : Broker) (flags : Net.Flags) (id : ConnectionId) :
    b.Steady (onEvent b flags id).state := by
  unfold onEvent
  split
  · rename_i he
    exact steady_execute he
  · exact b.steady_report _

theorem steady_signal (b : Broker) (id : ConnectionId) (flags : Net.Flags) :
    b.Steady (b.signal id flags) := by
  unfold signal
  split
  · exact .refl b
  · have h := Net.Multiplexer.poll_rel Steady.refl Steady.trans steady_onEvent
      (fun _ => false) (.ok [(id, flags)]) b b.multiplexer
    exact ⟨h.registry, h.displaced⟩

end MessageBroker.Broker
