import MessageBroker.Broker.Service
import MessageBroker.Proofs.Registry.Operations

/-!
# What handling frames does not look at

A broker may be looked at so that some of it appears otherwise than it is: what its connections have
yet to read, its clock and the times at which messages were stored, the tasks that wait, what is
under watch. What it does about a frame does not depend on any of these, so that it makes no
difference whether one looks at the broker before or after. The only exception is a login that
leaves the client id to the broker, which makes one up from the time.

Headlines:
* **`View`**: a way to look at a broker; `Broker.through` is what is seen.
* **`Broker.handle_through`**, **`Broker.handleAll_through`**: what is seen of a broker that has
  handled frames is what comes of handling them by the broker that is seen.
-/

namespace MessageBroker

/-- A way to look at a broker. -/
structure View where
  incoming : ConnectionId → List Net.Arrival → List Net.Arrival := fun _ arrivals => arrivals
  ended : ConnectionId → Bool → Bool := fun _ ended => ended
  decoder : ConnectionId → Wire.Decoder → Wire.Decoder := fun _ d => d
  buffer : ConnectionId → Bytes → Bytes := fun _ bytes => bytes
  time : Timestamp → Timestamp := fun t => t
  tasks : List Task → List Task := fun tasks => tasks
  watches : Net.Multiplexer ConnectionId → Net.Multiplexer ConnectionId := fun m => m
  /-- A watch that is let go is let go in what is seen. -/
  forget : ∀ m id, watches (m.forget id) = (watches m).forget id := by exact fun _ _ => rfl

/-- The stream of a connection as it is seen. -/
def Net.Stream.through (v : View) (id : ConnectionId) (s : Net.Stream) : Net.Stream :=
  { s with incoming := v.incoming id s.incoming, ended := v.ended id s.ended }

/-- A connection as it is seen. -/
def Connection.through (v : View) (c : Connection) : Connection :=
  { c with
    stream := c.stream.through v c.id
    decoder := v.decoder c.id c.decoder
    buffer := v.buffer c.id c.buffer }

/-- A registry as it is seen. -/
def Registry.through (v : View) (r : Registry) : Registry :=
  { r with connections := r.connections.mapValues fun _ c => c.through v }

/-- A store as it is seen. -/
def Store.through (v : View) (s : Store) : Store :=
  ⟨s.entries.mapValues fun _ e => (e.1, v.time e.2)⟩

/-- A broker as it is seen. -/
def Broker.through (v : View) (b : Broker) : Broker :=
  { b with
    registry := b.registry.through v
    store := b.store.through v
    multiplexer := v.watches b.multiplexer
    tasks := v.tasks b.tasks
    departed := b.departed.mapValues fun id s => s.through v id
    clock := v.time b.clock }

/-- A login names the client id that it asks for. -/
def Message.NamesClient (m : Message) : Prop :=
  ((m.header? Header.clientId.name).filter fun x => !x.isEmpty).isSome = true

instance (m : Message) : Decidable m.NamesClient := inferInstanceAs (Decidable (_ = true))

/-- Handling the message does not depend on the time, or the time is seen as it is. -/
def View.Admits (v : View) (m : Message) : Prop :=
  m.type = .connect → (∀ t, v.time t = t) ∨ m.NamesClient

variable {v : View}

/-! ## Streams and connections -/

namespace Net.Stream

theorem write_through (s : Net.Stream) (id : ConnectionId) (data : Bytes) :
    (s.through v id).write data = ((s.write data).1, (s.write data).2.through v id) := by
  unfold write
  rw [show (s.through v id).closed = s.closed from rfl]
  split
  · rfl
  · rw [show (s.through v id).outlet = s.outlet from rfl]
    split <;> rfl

end Net.Stream

namespace Connection

@[simp] theorem id_through (c : Connection) : (c.through v).id = c.id := rfl

@[simp] theorem isConnected_through (c : Connection) :
    (c.through v).isConnected = c.isConnected := rfl

@[simp] theorem name_through (c : Connection) : (c.through v).name = c.name := rfl

theorem send_through (c : Connection) (m : Message) :
    (c.through v).send m = ((c.send m).1, (c.send m).2.through v) := by
  unfold send
  rw [show (c.through v).isClosed = c.isClosed from rfl]
  split
  · rfl
  · split
    · rfl
    · rename_i frame _
      rw [show (c.through v).stream = c.stream.through v c.id from rfl, Net.Stream.write_through]
      rcases c.stream.write frame with ⟨_ | _, stream⟩ <;> rfl

theorem close_through (c : Connection) :
    (c.through v).close = (c.close.1, c.close.2.through v) := by
  unfold close
  rw [show (c.through v).closed = c.closed from rfl]
  split <;> rfl

end Connection

/-! ## Registries -/

/-- Attempts that commute with a map of the state. -/
theorem Subscription.attemptAll_map {σ τ : Type} {f : σ → τ}
    {attempt : σ → ConnectionId → Except BrokerError Unit × σ}
    {attempt' : τ → ConnectionId → Except BrokerError Unit × τ}
    (h : ∀ s id, attempt' (f s) id = ((attempt s id).1, f (attempt s id).2))
    (destination : String) (ids : List ConnectionId) (s : σ) :
    attemptAll attempt' destination ids (f s) =
      ((attemptAll attempt destination ids s).1, (attemptAll attempt destination ids s).2.1,
        f (attemptAll attempt destination ids s).2.2) := by
  induction ids generalizing s with
  | nil => rfl
  | cons id ids ih =>
    simp only [attemptAll, h, ih]
    rcases (attempt s id).1 with _ | _ <;> rfl

namespace Registry

theorem get?_through (r : Registry) (id : ConnectionId) :
    (r.through v).connections.get? id = (r.connections.get? id).map (·.through v) :=
  Table.get?_mapValues _ _ _

theorem through_insert (r : Registry) (id : ConnectionId) (c : Connection) :
    ({ r with connections := r.connections.insert id c } : Registry).through v =
      { r.through v with connections := (r.through v).connections.insert id (c.through v) } := by
  unfold through
  rw [Table.mapValues_insert]

theorem claim_through (r : Registry) (id : ConnectionId) (clientId : String) :
    (r.through v).claim id clientId = (r.claim id clientId).map (·.through v) := by
  unfold claim
  rw [show (r.through v).clientIds = r.clientIds from rfl]
  split
  · split <;> rfl
  · rfl

theorem modifyDestinations_through (r : Registry) (id : ConnectionId) (f : NameSet → NameSet) :
    (r.through v).modifyDestinations id f = (r.modifyDestinations id f).through v := by
  have h := Table.mapValues_modify (f := fun (_ : ConnectionId) (c : Connection) => c.through v)
    (g := fun c => { c with destinations := f c.destinations })
    (u := fun c => { c with destinations := f c.destinations }) (k := id) (fun _ => rfl)
    r.connections
  unfold modifyDestinations through
  rw [h]

theorem subscribe_through (r : Registry) (id : ConnectionId) (name : String)
    (type : DestinationType) (qos : QoS) :
    (r.through v).subscribe id name type qos =
      ((r.subscribe id name type qos).1, (r.subscribe id name type qos).2.1,
        (r.subscribe id name type qos).2.2.through v) := by
  unfold subscribe
  rw [get?_through, show (r.through v).subscriptionOrNew name type qos =
    r.subscriptionOrNew name type qos from rfl]
  cases r.connections.get? id with
  | none => rfl
  | some c =>
    dsimp only [Option.map_some]
    cases (r.subscriptionOrNew name type qos).add id with
    | error e => rfl
    | ok x =>
      simp only [Connection.name_through]
      rw [← modifyDestinations_through]
      rfl

theorem unsubscribe_through (r : Registry) (id : ConnectionId) (name : String) :
    (r.through v).unsubscribe id name =
      ((r.unsubscribe id name).1, (r.unsubscribe id name).2.through v) := by
  unfold unsubscribe
  rw [show (r.through v).subscription? name = r.subscription? name from rfl]
  split
  · rw [modifyDestinations_through]
  · split
    · rfl
    · rw [← modifyDestinations_through]
      rfl

theorem deliverTo_through (r : Registry) (id : ConnectionId) (m : Message) :
    (r.through v).deliverTo id m = ((r.deliverTo id m).1, (r.deliverTo id m).2.through v) := by
  unfold deliverTo
  rw [get?_through]
  cases r.connections.get? id with
  | none => rfl
  | some c =>
    dsimp only [Option.map_some]
    rw [Connection.send_through, through_insert]

theorem deliver_through (r : Registry) (m : Message) :
    (r.through v).deliver m =
      ((r.deliver m).1, (r.deliver m).2.1, (r.deliver m).2.2.through v) := by
  unfold deliver
  split
  · rfl
  · rename_i name _
    rw [show (r.through v).subscription? name = r.subscription? name from rfl]
    split
    · rfl
    · rename_i s _
      split
      · rfl
      · rename_i targets held _
        have hall := @Subscription.attemptAll_map _ _ (Registry.through v)
          (fun r id => r.deliverTo id m) (fun r id => r.deliverTo id m)
          (fun r id => r.deliverTo_through id m) s.name targets (r.putSubscription name held)
        rw [show (r.through v).putSubscription name held =
          (r.putSubscription name held).through v from rfl, hall]
        rfl

theorem withdraw_through (id : ConnectionId) (who : String) (names : List String) (r : Registry) :
    withdraw (r.through v) id who names =
      ((withdraw r id who names).1, (withdraw r id who names).2.through v) := by
  induction names generalizing r with
  | nil => rfl
  | cons name names ih =>
    unfold withdraw
    rw [show (r.through v).subscription? name = r.subscription? name from rfl]
    split
    · exact ih r
    · split
      · exact ih (r.putSubscription name _)
      · rw [ih r]

theorem removeConnection_through (r : Registry) (id : ConnectionId) :
    (r.through v).removeConnection id =
      ((r.removeConnection id).1.map (·.through v), (r.removeConnection id).2.1,
        (r.removeConnection id).2.2.through v) := by
  unfold removeConnection
  rw [get?_through]
  cases r.connections.get? id with
  | none => rfl
  | some c =>
    have hr : ({ r.through v with
        connections := (r.through v).connections.erase id
        clientIds := freeClientId (r.through v).clientIds (c.through v) } : Registry) =
        ({ r with
          connections := r.connections.erase id
          clientIds := freeClientId r.clientIds c } : Registry).through v := by
      unfold through
      rw [Table.mapValues_erase]
      rfl
    dsimp only [Option.map_some]
    rw [hr, Connection.name_through]
    exact congrArg _ (withdraw_through ..)

end Registry

/-! ## Stores -/

namespace Store

theorem insert_through (s : Store) (id : MessageId) (m : Message) (now : Timestamp) :
    (s.through v).insert id m (v.time now) = (s.insert id m now).through v := by
  unfold insert through
  rw [Table.mapValues_insert]

theorem erase_through (s : Store) (id : MessageId) :
    (s.through v).erase id = (s.erase id).through v := by
  unfold erase through
  rw [Table.mapValues_erase]

/-- The messages themselves are seen as they are. -/
theorem get?_through (s : Store) (id : MessageId) : (s.through v).get? id = s.get? id := by
  unfold get? through
  rw [Table.get?_mapValues, Option.map_map]
  rfl

/-- So is the store, if the time is. -/
theorem through_of_time (h : ∀ t, v.time t = t) (s : Store) : s.through v = s := by
  have hentries : s.entries.mapValues (fun _ e => (e.1, v.time e.2)) = s.entries := by
    refine Table.ext fun id => ?_
    rw [Table.get?_mapValues]
    cases s.entries.get? id with
    | none => rfl
    | some e => rw [Option.map_some, h]
  unfold through
  rw [hentries]

end Store

namespace Broker

/-! ## What clients ask for -/

theorem connection?_through (b : Broker) (id : ConnectionId) :
    (b.through v).connection? id = (b.connection? id).map (·.through v) :=
  b.registry.get?_through id

theorem report_through (b : Broker) (n : Notice) :
    (b.through v).report n = (b.report n).through v := rfl

theorem withRegistry_through (b : Broker) (notices : List Notice) (r : Registry) :
    (b.through v).withRegistry notices (r.through v) = (b.withRegistry notices r).through v := rfl

theorem putConnection_through (b : Broker) (c : Connection) :
    (b.through v).putConnection (c.through v) = (b.putConnection c).through v := by
  unfold putConnection through
  rw [Registry.through_insert]
  rfl

theorem publish_through (b : Broker) (m : Message) :
    (b.through v).publish m = ((b.publish m).1, (b.publish m).2.through v) := by
  unfold publish
  split
  · rfl
  · dsimp only
    rw [show (b.through v).registry = b.registry.through v from rfl,
      show (b.through v).nextId = b.nextId from rfl, Registry.deliver_through]
    have hstore := b.store.insert_through (v := v) b.nextId (stamped m b.nextId) b.clock
    rw [show (b.through v).store = b.store.through v from rfl,
      show (b.through v).clock = v.time b.clock from rfl, hstore]
    dsimp only
    split
    · rfl
    · split
      · rfl
      · refine Prod.ext rfl ?_
        unfold through withRegistry
        simp only [Store.erase_through]

theorem clientIdOf_through (b : Broker) (id : ConnectionId) {m : Message}
    (h : (∀ t, v.time t = t) ∨ m.NamesClient) :
    (b.through v).clientIdOf id m = b.clientIdOf id m := by
  unfold clientIdOf
  split
  · rfl
  · rename_i hno
    rcases h with h | h
    · rw [show (b.through v).clock = v.time b.clock from rfl, h]
    · unfold Message.NamesClient at h
      rw [hno] at h
      cases h

theorem connect_through (b : Broker) (c : Connection) {m : Message}
    (h : (∀ t, v.time t = t) ∨ m.NamesClient) :
    (b.through v).connect (c.through v) m =
      ((b.connect c m).1, (b.connect c m).2.through v) := by
  unfold connect
  rw [Connection.isConnected_through]
  split
  · rfl
  · rw [show (b.through v).settings = b.settings from rfl]
    split
    · dsimp only
      rw [Connection.id_through, clientIdOf_through b c.id h,
        show (b.through v).registry = b.registry.through v from rfl, Registry.claim_through]
      cases b.registry.claim c.id (b.clientIdOf c.id m) with
      | error e => rfl
      | ok registry =>
        refine Prod.ext rfl ?_
        dsimp only [Except.map]
        rw [← report_through, ← putConnection_through]
        rfl
    · rfl

theorem joinAll_through (id : ConnectionId) (type : DestinationType) (qos : QoS)
    (names : List String) (b : Broker) :
    joinAll id type qos names (b.through v) =
      ((joinAll id type qos names b).1, (joinAll id type qos names b).2.through v) := by
  induction names generalizing b with
  | nil => rfl
  | cons name names ih =>
    unfold joinAll
    rw [show (b.through v).registry = b.registry.through v from rfl, Registry.subscribe_through]
    rcases b.registry.subscribe id name type qos with ⟨_ | _, notices, registry⟩
    · rfl
    · dsimp only
      rw [withRegistry_through]
      exact ih _

theorem subscribe_through (b : Broker) (c : Connection) (m : Message) :
    (b.through v).subscribe (c.through v) m =
      ((b.subscribe c m).1, (b.subscribe c m).2.through v) := by
  unfold subscribe
  split
  · rfl
  · split
    · rfl
    · rfl
    · exact joinAll_through ..

theorem leaveAll_through (id : ConnectionId) (names : List String) (b : Broker) :
    leaveAll id names (b.through v) =
      ((leaveAll id names b).1, (leaveAll id names b).2.through v) := by
  induction names generalizing b with
  | nil => rfl
  | cons name names ih =>
    unfold leaveAll
    rw [show (b.through v).registry = b.registry.through v from rfl, Registry.unsubscribe_through]
    rcases b.registry.unsubscribe id name with ⟨_ | _, registry⟩
    · rfl
    · exact ih { b with registry }

theorem acknowledge_through (b : Broker) (c : Connection) (m : Message) :
    (b.through v).acknowledge (c.through v) m = (b.acknowledge c m).through v := by
  unfold acknowledge
  split
  · rename_i id _
    unfold through
    rw [Store.erase_through]
  · rfl

theorem reply_through (b : Broker) (id : ConnectionId) (t : MessageType) :
    (b.through v).reply id t = ((b.reply id t).1, (b.reply id t).2.through v) := by
  unfold reply
  split
  · rfl
  · rw [show (b.through v).settings = b.settings from rfl]
    split
    · rw [connection?_through]
      cases b.connection? id with
      | none => rfl
      | some c =>
        dsimp only [Option.map_some]
        rw [Connection.send_through, putConnection_through]
    · rfl

theorem carryOut_through (b : Broker) (c : Connection) {m : Message} (h : v.Admits m) :
    (b.through v).carryOut (c.through v) m =
      ((b.carryOut c m).1, (b.carryOut c m).2.through v) := by
  unfold carryOut
  rw [Connection.isConnected_through]
  dsimp only
  split
  · rfl
  · split
    · rename_i ht
      rw [connect_through b c (h ht)]
    · rw [subscribe_through]
    · exact congrArg (fun r : Except BrokerError Unit × Broker =>
        (r.1.map fun _ => Flow.continue, r.2)) (leaveAll_through ..)
    · rw [publish_through]
    · rw [acknowledge_through]
    · rfl
    · rfl
    · rfl

/-- **Handling a frame does not depend on what is seen otherwise.** -/
theorem handle_through (b : Broker) (c : Connection) {m : Message} (h : v.Admits m) :
    (b.through v).handle (c.through v) m = ((b.handle c m).1, (b.handle c m).2.through v) := by
  unfold handle
  rw [carryOut_through b c h]
  rcases b.carryOut c m with ⟨_ | flow, b'⟩
  · rfl
  · cases flow with
    | «continue» =>
      dsimp only
      rw [Connection.id_through, reply_through]
    | disconnect => rfl

/-! ## The end of a connection -/

theorem publishWill_through (b : Broker) (c : Connection) :
    (b.through v).publishWill c = (b.publishWill c).through v := by
  unfold publishWill
  split
  · rfl
  · rename_i will _
    rw [publish_through]
    rcases b.publish will.toMessage with ⟨_ | _, b'⟩ <;> rfl

theorem conclude_through (b : Broker) (c : Connection) (abnormal : Bool) :
    (b.through v).conclude c abnormal = (b.conclude c abnormal).through v := by
  have hwill : (if abnormal then (b.through v).publishWill c else b.through v) =
      (if abnormal then b.publishWill c else b).through v := by
    split
    · exact publishWill_through b c
    · rfl
  unfold conclude
  dsimp only
  rw [hwill]
  split <;> rfl

theorem withdraw_through (b : Broker) (c : Connection) :
    (b.through v).withdraw (c.through v) = (b.withdraw c).through v := by
  unfold withdraw
  dsimp only
  rw [Connection.id_through,
    show (b.through v).registry = b.registry.through v from rfl, Registry.removeConnection_through]
  unfold through withRegistry
  rw [v.forget, Table.mapValues_insert]
  rfl

theorem dismiss_through (b : Broker) (id : ConnectionId) (abnormal : Bool) :
    (b.through v).dismiss id abnormal = (b.dismiss id abnormal).through v := by
  unfold dismiss
  rw [show (b.through v).displaced = b.displaced from rfl]
  split
  · rfl
  · rename_i c _
    dsimp only
    rw [← conclude_through]
    unfold through
    rw [v.forget]

theorem tearDown_through (b : Broker) (id : ConnectionId) (abnormal : Bool) :
    (b.through v).tearDown id abnormal = (b.tearDown id abnormal).through v := by
  unfold tearDown
  rw [connection?_through]
  cases b.connection? id with
  | none => exact dismiss_through ..
  | some c =>
    dsimp only [Option.map_some]
    rw [Connection.close_through]
    rcases c.close with ⟨_ | _, c'⟩
    · rfl
    · dsimp only
      rw [putConnection_through, withdraw_through, ← conclude_through]
      rfl

/-- **Nor does handling one frame after the other.** -/
theorem handleAll_through (id : ConnectionId) {ms : List Message} (h : ∀ m ∈ ms, v.Admits m)
    (b : Broker) :
    handleAll id ms (b.through v) = ((handleAll id ms b).1, (handleAll id ms b).2.through v) := by
  induction ms generalizing b with
  | nil => rfl
  | cons m ms ih =>
    obtain ⟨hm, hms⟩ := List.forall_mem_cons.mp h
    -- A frame that was refused, whoever the refusal names.
    have hrefused : ∀ (b : Broker) (who : String) (e : BrokerError),
        (if e.isFatal then (false, ((b.through v).report (.ended who e)).tearDown id true)
          else handleAll id ms ((b.through v).report (.refused who e))) =
        ((if e.isFatal then (false, (b.report (.ended who e)).tearDown id true)
          else handleAll id ms (b.report (.refused who e))).1,
          (if e.isFatal then (false, (b.report (.ended who e)).tearDown id true)
          else handleAll id ms (b.report (.refused who e))).2.through v) := by
      intro b who e
      rw [report_through, report_through]
      split
      · rw [tearDown_through]
      · exact ih hms _
    unfold handleAll
    rw [connection?_through]
    cases b.connection? id with
    | none => rfl
    | some c =>
      dsimp only [Option.map_some]
      rw [handle_through b c hm]
      rcases b.handle c m with ⟨e | flow, b'⟩
      · dsimp only
        rw [connection?_through]
        cases b'.connection? id with
        | none => exact hrefused ..
        | some c' => exact hrefused ..
      · cases flow with
        | «continue» => exact ih hms _
        | disconnect =>
          dsimp only
          rw [tearDown_through]

end Broker

end MessageBroker
