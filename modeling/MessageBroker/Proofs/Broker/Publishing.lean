import MessageBroker.Broker.Handling
import MessageBroker.Proofs.Registry.Coherence
import MessageBroker.Proofs.Registry.Routing

/-!
# Publishing a message

What publishing comes to where nobody holds a subscription: the message is given the next number,
goes to those it is meant for, and stays in the store if its destination asks for acknowledgements
and somebody took it.

Headlines:
* **`Broker.publish_eq`**: what publishing gives, and the broker then.
* **`Broker.get?_store_publish`**: what is in the store then.
* **`Broker.connection?_publish`**: who has been written to.
* **`Broker.handle_message`**: how the publisher is answered.
* **`Broker.Alike.publish`**, **`Broker.Alike.handle`**: what is written to a connection and whether
  a publisher is answered do not depend on the other connections.
-/

namespace MessageBroker.Broker

/-- What will become of the message that is published next. -/
def deliveryOf (b : Broker) (m : Message) : Delivery where
  delivered := (b.registry.recipients (stamped m b.nextId)).countP
    (b.registry.takes (stamped m b.nextId))
  qos := (m.address?.bind b.registry.subscription?).map Subscription.qos

/-- Whether the message that is published next will be kept: its destination asks for
acknowledgements, and a member that it is meant for takes it. -/
def Retains (b : Broker) (m : Message) : Prop :=
  ∃ name s, m.address? = some name ∧ b.registry.subscription? name = some s ∧
    s.qos = .atLeastOnce ∧
    ∃ id ∈ s.targets, ∃ c, b.connection? id = some c ∧ (c.send (stamped m b.nextId)).1 = .ok ()

variable {b : Broker} {m : Message}

@[simp] theorem address?_stamped (m : Message) (id : MessageId) :
    (stamped m id).address? = m.address? := rfl

/-- **What publishing gives, and the broker then.** -/
theorem publish_eq (h : b.registry.AtRest) {name : String} (hm : m.address? = some name) :
    b.publish m = (.ok (b.nextId, b.deliveryOf m), { b with
      nextId := b.nextId + 1
      store :=
        let store := b.store.insert b.nextId (stamped m b.nextId) b.clock
        if mustKeep (b.deliveryOf m) then store else store.erase b.nextId
      registry := (b.registry.deliver (stamped m b.nextId)).2.2
      notices := b.notices ++ (b.registry.deliver (stamped m b.nextId)).2.1 }) := by
  have hd : (b.registry.deliver (stamped m b.nextId)).1 = .ok (b.deliveryOf m) := by
    have hm' : (stamped m b.nextId).address? = some name := hm
    unfold deliveryOf
    rw [Registry.outcome_deliver h hm', hm]
    rfl
  unfold publish
  rw [hm]
  simp only [hd, withRegistry]
  split <;> rfl

theorem publish_of_none (hm : m.address? = none) :
    b.publish m = (.error (.protocol .publishWithoutDestination), b) := by
  unfold publish
  rw [hm]

theorem mustKeep_deliveryOf : mustKeep (b.deliveryOf m) = true ↔ b.Retains m := by
  unfold mustKeep deliveryOf Retains Registry.recipients
  simp only [address?_stamped, Bool.and_eq_true, beq_iff_eq, bne_iff_ne, ne_eq]
  cases hm : m.address? with
  | none => simp
  | some name =>
    simp only [Option.bind_some]
    cases hs : b.registry.subscription? name with
    | none => simp [hs]
    | some s =>
      have hcount : ¬ List.countP (b.registry.takes (stamped m b.nextId)) s.targets = 0 ↔
          ∃ id ∈ s.targets, ∃ c, b.connection? id = some c ∧
            (c.send (stamped m b.nextId)).1 = .ok () := by
        rw [← ne_eq, ← Nat.pos_iff_ne_zero, List.countP_pos_iff]
        simp only [Registry.takes_iff]
        rfl
      simp only [Option.map_some, Option.getD_some, Option.some.injEq, exists_and_left,
        exists_eq_left', hs, hcount]

/-- **What is in the store once a message has been published.** -/
theorem get?_store_publish (h : b.registry.AtRest) {name : String} (hm : m.address? = some name)
    (id : MessageId) (e : Message × Timestamp) :
    (b.publish m).2.store.entries.get? id = some e ↔
      (id = b.nextId ∧ b.Retains m ∧ e = (stamped m id, b.clock)) ∨
        (id ≠ b.nextId ∧ b.store.entries.get? id = some e) := by
  rw [publish_eq h hm]
  simp only
  by_cases hk : b.Retains m
  · rw [if_pos (mustKeep_deliveryOf.mpr hk)]
    unfold Store.insert
    rw [Table.get?_insert]
    by_cases hid : id = b.nextId
    · simp [hid, hk, eq_comm]
    · simp [hid]
  · rw [if_neg (mt mustKeep_deliveryOf.mp hk)]
    unfold Store.insert Store.erase
    rw [Table.get?_erase, Table.get?_insert]
    by_cases hid : id = b.nextId
    · simp [hid, hk]
    · simp [hid]

/-! ## Who is written to -/

/-- For whom a message to a destination is meant: for every member of a topic, and for the one
member of a queue that is next in the rotation. -/
def audience (b : Broker) (name : String) : List ConnectionId :=
  match b.registry.subscription? name with
  | none => []
  | some s =>
    match s.type with
    | .topic => s.members
    | .queue => s.rotation.head?.toList

theorem recipients_eq_audience {name : String} (hm : m.address? = some name) :
    b.registry.recipients m = b.audience name := by
  unfold audience
  cases hs : b.registry.subscription? name with
  | none => exact Registry.recipients_of_none hm hs
  | some s =>
    rw [Registry.recipients_of_some hm hs]
    simp only
    cases ht : s.type with
    | topic => exact Subscription.targets_of_topic ht
    | queue => exact Subscription.targets_of_queue ht

theorem mem_members_of_mem_audience {name : String} {id : ConnectionId} (h : id ∈ b.audience name) :
    ∃ s, b.registry.subscription? name = some s ∧ id ∈ s.members := by
  unfold audience at h
  split at h
  · cases h
  · rename_i s hs
    refine ⟨s, hs, ?_⟩
    split at h
    · exact h
    · exact Subscription.mem_rotation.mp (List.mem_of_mem_head? (Option.mem_toList.mp h))

/-- Nobody gets a message twice. -/
theorem nodup_audience (h : b.registry.AtRest) (name : String) : (b.audience name).Nodup := by
  unfold audience
  cases hs : b.registry.subscription? name with
  | none => exact List.nodup_nil
  | some s =>
    simp only
    cases s.type with
    | topic => exact (h hs).nodup
    | queue =>
      cases s.rotation.head? with
      | none => exact List.nodup_nil
      | some id => exact List.pairwise_singleton _ id

/-- A message is meant for connections that are live. -/
theorem live_of_mem_audience (h : b.registry.Coherent) {name : String} {id : ConnectionId}
    (hid : id ∈ b.audience name) : ∃ c, b.connection? id = some c ∧ c.closed = false := by
  obtain ⟨c, hc, -⟩ := (h.lists_iff name id).mp (mem_members_of_mem_audience hid)
  exact ⟨c, hc, (h.registered hc).2⟩

/-- **Those that a message is meant for are written to, and nobody else is.** -/
theorem connection?_publish (h : b.registry.AtRest) {name : String} (hm : m.address? = some name)
    (id : ConnectionId) :
    (b.publish m).2.connection? id =
      if id ∈ b.audience name then
        (b.connection? id).map fun c => (c.send (stamped m b.nextId)).2
      else b.connection? id := by
  have hm' : (stamped m b.nextId).address? = some name := hm
  rw [publish_eq h hm, ← recipients_eq_audience hm']
  exact Registry.get?_deliver h hm' id

/-- A member that a message is meant for is written to, as it was when the message came. -/
theorem connection?_publish_of_mem (h : b.registry.Coherent) {name : String}
    (hm : m.address? = some name) {id : ConnectionId} (hid : id ∈ b.audience name) {c : Connection}
    (hc : b.connection? id = some c) :
    c.closed = false ∧ (b.publish m).2.connection? id = some (c.send (stamped m b.nextId)).2 := by
  rw [connection?_publish h.atRest hm, if_pos hid, hc]
  exact ⟨(h.registered hc).2, rfl⟩

/-! ## The answer -/

/-- **A publisher is answered** when its message has been routed, if answers are turned on. -/
theorem handle_message {c c' : Connection} (hin : c.isConnected = true) (ht : m.type = .message)
    {x : MessageId × Delivery} (hok : (b.publish m).1 = .ok x)
    (hc : (b.publish m).2.connection? c.id = some c') :
    b.handle c m =
      if (b.publish m).2.settings.broker.sendAcks then
        ((c'.send { type := .publishAck }).1.map fun _ => .continue,
          (b.publish m).2.putConnection (c'.send { type := .publishAck }).2)
      else (.ok .continue, (b.publish m).2) := by
  have hcarry : b.carryOut c m = (.ok .continue, (b.publish m).2) := by
    unfold carryOut
    simp only [hin, ht, hok]
    rfl
  unfold handle
  rw [hcarry]
  simp only [ht]
  unfold reply
  have hping : (MessageType.message == .ping) = false := rfl
  simp only [MessageType.answer, hping, Bool.or_false, hc]
  split <;> rfl

/-- Nobody else is. -/
theorem connection?_handle_of_ne {c c' : Connection} (hin : c.isConnected = true)
    (ht : m.type = .message) {x : MessageId × Delivery} (hok : (b.publish m).1 = .ok x)
    (hc : (b.publish m).2.connection? c.id = some c') (hi : c'.id = c.id) {id : ConnectionId}
    (hid : id ≠ c.id) :
    (b.handle c m).2.connection? id = (b.publish m).2.connection? id := by
  rw [handle_message hin ht hok hc]
  split
  · have hsent : (c'.send { type := .publishAck }).2.id = c.id :=
      (congrArg Standing.id (c'.standing_send _)).trans hi
    exact Table.get?_insert_of_ne _ _ (hsent ▸ hid)
  · rfl

/-! ## Others make no difference -/

/-- Two brokers are alike for a connection: they have it and the destinations in common, and give
out the same number next. Nothing is said of the other connections. -/
structure Alike (id : ConnectionId) (b b' : Broker) : Prop where
  settings : b'.settings = b.settings
  nextId : b'.nextId = b.nextId
  subscriptions : b'.registry.subscriptions = b.registry.subscriptions
  connection : b'.connection? id = b.connection? id

namespace Alike

variable {id : ConnectionId} {b' : Broker}

theorem audience (ha : b.Alike id b') (name : String) : b'.audience name = b.audience name := by
  unfold Broker.audience Registry.subscription?
  rw [ha.subscriptions]

theorem atRest (ha : b.Alike id b') (h : b.registry.AtRest) : b'.registry.AtRest := by
  intro name s hs
  unfold Registry.subscription? at hs
  rw [ha.subscriptions] at hs
  exact h hs

/-- **What is written to a connection does not depend on the other connections.** -/
theorem publish (ha : b.Alike id b') (h : b.registry.AtRest) {name : String}
    (hm : m.address? = some name) :
    (b'.publish m).2.connection? id = (b.publish m).2.connection? id := by
  rw [connection?_publish h hm, connection?_publish (ha.atRest h) hm, ha.audience, ha.connection,
    ha.nextId]

/-- **Nor does it whether a publisher is answered.** -/
theorem handle {c c' : Connection} (ha : b.Alike c.id b') (h : b.registry.AtRest) {name : String}
    (hm : m.address? = some name) (hin : c.isConnected = true) (ht : m.type = .message)
    (hc : (b.publish m).2.connection? c.id = some c') (hi : c'.id = c.id) :
    (b'.handle c m).1 = (b.handle c m).1 ∧
      (b'.handle c m).2.connection? c.id = (b.handle c m).2.connection? c.id := by
  have hsettings : (b'.publish m).2.settings = (b.publish m).2.settings := by
    rw [publish_eq h hm, publish_eq (ha.atRest h) hm]
    exact ha.settings
  have hc' := (ha.publish h hm).trans hc
  have hput : ∀ (b : Broker) (c : Connection), (b.putConnection c).connection? c.id = some c :=
    fun b c => Table.get?_insert_self ..
  rw [handle_message hin ht (congrArg Prod.fst (publish_eq h hm)) hc,
    handle_message hin ht (congrArg Prod.fst (publish_eq (ha.atRest h) hm)) hc', hsettings]
  split
  · have hid : (c'.send { type := .publishAck }).2.id = c.id :=
      (congrArg Standing.id (c'.standing_send _)).trans hi
    refine ⟨rfl, ?_⟩
    rw [← hid, hput, hput]
  · exact ⟨rfl, hc'.trans hc.symm⟩

end Alike

end MessageBroker.Broker
