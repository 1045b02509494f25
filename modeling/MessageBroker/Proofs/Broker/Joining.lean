import MessageBroker.Proofs.Broker.Parting
import MessageBroker.Proofs.Broker.Refusals
import MessageBroker.Proofs.Text.Parts

/-!
# Joining and leaving destinations

A client joins each destination that it names, behind those who are there, and one that there is
not comes into being for it. It leaves each destination that it names, or all of its own if it names
none; the destination stays. Whatever is in the list that it sends, nobody else notices: the other
members keep their order and the turns of a queue go on from where they were.

Headlines:
* **`Registry.subscription?_joinEach`**, **`Registry.subscription?_leaveEach`**: what becomes of
  each destination.
* **`Broker.joinAll_eq`**, **`Broker.leaveAll_eq`**: no destination is refused to a client.
* **`Broker.Reached.attends`**: what a client comes to that joins or leaves destinations, in every
  state that a broker comes to.
-/

namespace MessageBroker

namespace Subscription

variable {s : Subscription}

/-- A subscription has gained a member behind the others, unless it was one, and the others are in
their order. -/
structure Gains (s : Subscription) (id : ConnectionId) (s' : Subscription) : Prop where
  name : s'.name = s.name
  type : s'.type = s.type
  qos : s'.qos = s.qos
  lockTimeout : s'.lockTimeout = s.lockTimeout
  lock : s'.lock = s.lock
  cursor : s'.cursor = s.cursor
  members : s'.members = if id ∈ s.members then s.members else s.members ++ [id]
  rotation : s'.rotation.filter (· != id) = s.rotation.filter (· != id)

theorem gains_joined (h : s.members.Nodup) (id : ConnectionId) : s.Gains id (s.joined id) := by
  by_cases hid : id ∈ s.members
  · rw [joined_of_mem hid]
    exact ⟨rfl, rfl, rfl, rfl, rfl, rfl, (if_pos hid).symm, rfl⟩
  · have hr : (s.joined id).rotation.filter (· != id) = s.rotation.filter (· != id) := by
      rw [← (nodup_rotation (nodup_joined h id)).erase_eq_filter, erase_rotation_joined hid,
        ← (nodup_rotation h).erase_eq_filter, List.erase_of_not_mem (mt mem_rotation.mp hid)]
    rw [joined_of_not_mem hid] at hr ⊢
    exact ⟨rfl, rfl, rfl, rfl, rfl, rfl, (if_neg hid).symm, hr⟩

theorem joined_joined (s : Subscription) (id : ConnectionId) :
    (s.joined id).joined id = s.joined id :=
  joined_of_mem (mem_joined.mpr (.inl rfl))

theorem without_without (h : s.members.Nodup) (id : ConnectionId) :
    (s.without id).without id = s.without id :=
  without_of_not_mem fun hid => ((mem_without h).mp hid).1 rfl

end Subscription

namespace Registry

variable {r : Registry} {id : ConnectionId} {type : DestinationType} {qos : QoS} {name : String}

/-! ## One destination -/

/-- With a connection a member of a destination, which comes into being if there is none. -/
def join (r : Registry) (id : ConnectionId) (type : DestinationType) (qos : QoS) (name : String) :
    Registry :=
  (r.putSubscription name ((r.subscriptionOrNew name type qos).joined id)).modifyDestinations id
    fun d => d.add name

/-- With a connection taken off a destination. -/
def leave (r : Registry) (id : ConnectionId) (name : String) : Registry :=
  modifyDestinations { r with subscriptions := r.subscriptions.modify name (·.without id) } id
    fun d => d.erase name

theorem subscription?_join (r : Registry) (id : ConnectionId) (type : DestinationType) (qos : QoS)
    (name other : String) : (r.join id type qos name).subscription? other =
      if other = name then some ((r.subscriptionOrNew name type qos).joined id)
      else r.subscription? other :=
  subscription?_putSubscription _ _ _ _

theorem subscription?_leave (r : Registry) (id : ConnectionId) (name other : String) :
    (r.leave id name).subscription? other =
      if other = name then (r.subscription? other).map (·.without id)
      else r.subscription? other :=
  Table.get?_modify _ _ _ _

theorem unsubscribe_eq_leave (h : r.AtRest) (id : ConnectionId) (name : String) :
    ∃ was, r.unsubscribe id name = (.ok was, r.leave id name) := by
  cases hs : r.subscription? name with
  | none =>
    refine ⟨false, ?_⟩
    unfold leave
    rw [unsubscribe_of_none hs, Table.modify_of_none _ hs]
  | some s =>
    refine ⟨decide (id ∈ s.members), ?_⟩
    unfold leave
    rw [unsubscribe_eq h hs, Table.modify_of_some _ hs]
    rfl

theorem keeps_leave (r : Registry) (id : ConnectionId) (name : String) :
    r.Keeps (r.leave id name) := by
  intro hr
  obtain ⟨was, he⟩ := unsubscribe_eq_leave hr.atRest id name
  have := keeps_unsubscribe r id name hr
  rwa [he] at this

/-- Who is a member has nothing to join. -/
theorem join_of_lists (h : r.Coherent) (hid : r.Lists name id) : r.join id type qos name = r := by
  obtain ⟨s, hs, hm⟩ := hid
  obtain ⟨c, hc, hn⟩ := (h.lists_iff name id).mp ⟨s, hs, hm⟩
  have hsub : r.subscriptions.insert name ((r.subscriptionOrNew name type qos).joined id) =
      r.subscriptions := by
    unfold subscriptionOrNew
    rw [hs, Option.getD_some, Subscription.joined_of_mem hm]
    exact Table.insert_of_get? hs
  have hcon : (r.connections.modify id fun c =>
      { c with destinations := c.destinations.add name }) = r.connections := by
    obtain ⟨⟨⟩, hu⟩ := Option.isSome_iff_exists.mp hn
    rw [Table.modify_of_some _ hc, NameSet.add, Table.insert_of_get? hu]
    exact Table.insert_of_get? hc
  unfold join modifyDestinations putSubscription
  dsimp only
  rw [hsub, hcon]

/-! ## Several destinations -/

/-- With a connection a member of each of several destinations. -/
def joinEach (r : Registry) (id : ConnectionId) (type : DestinationType) (qos : QoS)
    (names : List String) : Registry :=
  names.foldl (fun r name => r.join id type qos name) r

/-- With a connection taken off each of several destinations. -/
def leaveEach (r : Registry) (id : ConnectionId) (names : List String) : Registry :=
  names.foldl (fun r name => r.leave id name) r

/-- **What becomes of each destination** when several are joined. -/
theorem subscription?_joinEach (r : Registry) (id : ConnectionId) (type : DestinationType)
    (qos : QoS) (names : List String) (other : String) :
    (r.joinEach id type qos names).subscription? other =
      if other ∈ names then some ((r.subscriptionOrNew other type qos).joined id)
      else r.subscription? other := by
  induction names generalizing r with
  | nil => rfl
  | cons name names ih =>
    have hjoin := r.subscription?_join id type qos name other
    refine (ih (r.join id type qos name)).trans ?_
    unfold subscriptionOrNew
    rw [show (r.join id type qos name).lockTimeout = r.lockTimeout from rfl, hjoin]
    by_cases e : other = name
    · -- A name that is repeated finds its destination joined.
      subst e
      simp [subscriptionOrNew, Subscription.joined_joined]
    · simp [e]

/-- **What becomes of each destination** when several are left. -/
theorem subscription?_leaveEach (h : r.Coherent) (id : ConnectionId) (names : List String)
    (other : String) : (r.leaveEach id names).subscription? other =
      if other ∈ names then (r.subscription? other).map (·.without id)
      else r.subscription? other := by
  induction names generalizing r with
  | nil => rfl
  | cons name names ih =>
    refine (ih (keeps_leave r id name h).1).trans ?_
    rw [subscription?_leave]
    by_cases e : other = name
    · subst e
      cases hs : r.subscription? other with
      | none => simp
      | some s => simp [Subscription.without_without (h.atRest hs).nodup]
    · simp [e]

/-- Who is a member of each of several destinations has nothing to join. -/
theorem joinEach_of_lists (h : r.Coherent) {names : List String}
    (hids : ∀ name ∈ names, r.Lists name id) : r.joinEach id type qos names = r := by
  induction names with
  | nil => rfl
  | cons name names ih =>
    have hstep : r.joinEach id type qos (name :: names) =
        (r.join id type qos name).joinEach id type qos names := rfl
    rw [hstep, join_of_lists h (hids name List.mem_cons_self)]
    exact ih fun other ho => hids other (List.mem_cons_of_mem _ ho)

/-- Of the connections, one has other destinations, and none differs otherwise. -/
structure Regroups (r : Registry) (id : ConnectionId) (r' : Registry) : Prop where
  lockTimeout : r'.lockTimeout = r.lockTimeout
  clientIds : r'.clientIds = r.clientIds
  others : ∀ other, other ≠ id → r'.connections.get? other = r.connections.get? other
  itself : ∀ ⦃c⦄, r.connections.get? id = some c →
    ∃ destinations, r'.connections.get? id = some { c with destinations }

theorem Regroups.refl (r : Registry) (id : ConnectionId) : r.Regroups id r :=
  ⟨rfl, rfl, fun _ _ => rfl, fun c hc => ⟨c.destinations, hc⟩⟩

theorem Regroups.trans {r' r'' : Registry} (h : r.Regroups id r') (h' : r'.Regroups id r'') :
    r.Regroups id r'' where
  lockTimeout := h'.lockTimeout.trans h.lockTimeout
  clientIds := h'.clientIds.trans h.clientIds
  others other ho := (h'.others other ho).trans (h.others other ho)
  itself c hc := by
    obtain ⟨_, hc'⟩ := h.itself hc
    obtain ⟨destinations, hc''⟩ := h'.itself hc'
    exact ⟨destinations, hc''⟩

theorem regroups_modifyDestinations (r : Registry) (id : ConnectionId) (f : NameSet → NameSet) :
    r.Regroups id (r.modifyDestinations id f) where
  lockTimeout := rfl
  clientIds := rfl
  others other ho := by rw [connections_modifyDestinations, if_neg ho]
  itself c hc := ⟨f c.destinations, by
    rw [connections_modifyDestinations, if_pos rfl, hc, Option.map_some]⟩

theorem regroups_joinEach (r : Registry) (id : ConnectionId) (type : DestinationType) (qos : QoS)
    (names : List String) : r.Regroups id (r.joinEach id type qos names) := by
  induction names generalizing r with
  | nil => exact .refl r id
  | cons name names ih =>
    have hput := (r.putSubscription name
      ((r.subscriptionOrNew name type qos).joined id)).regroups_modifyDestinations id
        fun d => d.add name
    have hjoin : r.Regroups id (r.join id type qos name) :=
      ⟨hput.lockTimeout, hput.clientIds, hput.others, hput.itself⟩
    exact hjoin.trans (ih _)

theorem regroups_leaveEach (r : Registry) (id : ConnectionId) (names : List String) :
    r.Regroups id (r.leaveEach id names) := by
  induction names generalizing r with
  | nil => exact .refl r id
  | cons name names ih =>
    have hput := regroups_modifyDestinations
      { r with subscriptions := r.subscriptions.modify name (·.without id) } id
        fun d => d.erase name
    have hleave : r.Regroups id (r.leave id name) :=
      ⟨hput.lockTimeout, hput.clientIds, hput.others, hput.itself⟩
    exact hleave.trans (ih _)

end Registry

/-! ## What a request asks for -/

namespace Message

/-- A request names a type of destination and a level, or leaves them out: then it is a topic, and
the lower level. -/
structure Asks (m : Message) (type : DestinationType) (qos : QoS) : Prop where
  kind : m.header? Header.destinationType.name = none ∧ type = .topic ∨
    ∃ text, m.header? Header.destinationType.name = some text ∧
      DestinationType.read text = .ok type
  level : m.header? Header.qos.name = none ∧ qos = .atMostOnce ∨
    ∃ text, m.header? Header.qos.name = some text ∧ QoS.read text = .ok qos

/-- What a request names is no type of destination, or no level. -/
def Misasks (m : Message) : Prop :=
  (∃ text e, m.header? Header.destinationType.name = some text ∧
    DestinationType.read text = .error e) ∨
  ∃ text e, m.header? Header.qos.name = some text ∧ QoS.read text = .error e

variable {m : Message} {type : DestinationType} {qos : QoS}

theorem Asks.requestedType (h : m.Asks type qos) : Broker.requestedType m = .ok type := by
  unfold Broker.requestedType
  rcases h.kind with ⟨hn, rfl⟩ | ⟨text, ht, hr⟩
  · rw [hn]
  · rw [ht]
    exact hr

theorem Asks.requestedQoS (h : m.Asks type qos) : Broker.requestedQoS m = .ok qos := by
  unfold Broker.requestedQoS
  rcases h.level with ⟨hn, rfl⟩ | ⟨text, ht, hr⟩
  · rw [hn]
  · rw [ht]
    exact hr

theorem address?_of_ne {s : String} (h : m.destination = some s) (hs : s ≠ "") :
    m.address? = some s := by
  unfold address?
  rw [h, Option.filter_some, if_pos]
  simpa using hs

theorem address?_of_empty (h : ∀ s, m.destination = some s → s = "") : m.address? = none := by
  unfold address?
  cases hm : m.destination with
  | none => rfl
  | some s =>
    rw [h s hm]
    rfl

end Message

namespace Broker

variable {accepted : List ConnectionId} {b b' : Broker} {c : Connection} {m : Message}
  {id : ConnectionId} {type : DestinationType} {qos : QoS} {names : List String}
  {named : String → Prop}

/-! ## What is carried out -/

/-- **No destination that a client names is refused to it,** -/
theorem joinAll_eq (h : b.registry.Coherent) (hid : id ∈ b.registry.connections)
    (type : DestinationType) (qos : QoS) (names : List String) :
    ∃ more, joinAll id type qos names b =
      (.ok (), b.withRegistry more (b.registry.joinEach id type qos names)) := by
  induction names generalizing b with
  | nil =>
    refine ⟨[], ?_⟩
    unfold withRegistry
    rw [List.append_nil]
    rfl
  | cons name names ih =>
    obtain ⟨c, hc⟩ := Option.isSome_iff_exists.mp hid
    obtain ⟨notices, he⟩ := Registry.subscribe_eq h.atRest hc name type qos
    obtain ⟨hjoin, hids⟩ := Registry.keeps_join hid name type qos h
    obtain ⟨more, hmore⟩ := @ih (b.withRegistry notices (b.registry.join id type qos name)) hjoin
      ((hids id).mpr hid)
    refine ⟨notices ++ more, ?_⟩
    unfold joinAll
    rw [he]
    refine hmore.trans ?_
    unfold withRegistry
    rw [List.append_assoc]
    rfl

/-- **and none is kept from leaving.** -/
theorem leaveAll_eq (h : b.registry.Coherent) (id : ConnectionId) (names : List String) :
    leaveAll id names b = (.ok (), { b with registry := b.registry.leaveEach id names }) := by
  induction names generalizing b with
  | nil => rfl
  | cons name names ih =>
    obtain ⟨was, he⟩ := Registry.unsubscribe_eq_leave h.atRest id name
    unfold leaveAll
    rw [he]
    exact @ih { b with registry := b.registry.leave id name }
      (Registry.keeps_leave b.registry id name h).1

theorem carryOut_of_subscribe (hin : c.isConnected = true) (ht : m.type = .subscribe) :
    b.carryOut c m = ((b.subscribe c m).1.map fun _ => .continue, (b.subscribe c m).2) := by
  unfold carryOut
  rw [hin, ht]
  rfl

theorem carryOut_of_unsubscribe (hin : c.isConnected = true) (ht : m.type = .unsubscribe) :
    b.carryOut c m = ((b.unsubscribe c m).1.map fun _ => .continue, (b.unsubscribe c m).2) := by
  unfold carryOut
  rw [hin, ht]
  rfl

/-- Answering changes a stream. -/
theorem exists_reply_eq (hc : b.connection? c.id = some c) (t : MessageType) :
    ∃ stream, (b.reply c.id t).2 = b.putConnection { c with stream } := by
  have hself : b.putConnection c = b := by
    unfold putConnection
    rw [Table.insert_of_get? hc]
  unfold reply
  split
  · exact ⟨c.stream, hself.symm⟩
  · rename_i answer _
    split
    · rw [hc]
      obtain ⟨stream, hs⟩ := c.exists_send_eq { type := answer }
      exact ⟨stream, by rw [← hs]⟩
    · exact ⟨c.stream, hself.symm⟩

/-! ## What it comes to -/

/-- Nothing differs but subscriptions, what was reported, and the destinations and the stream of one
connection. -/
structure Confined (b : Broker) (id : ConnectionId) (b' : Broker) : Prop where
  broker : ∃ registry more, b' = { b with registry, notices := b.notices ++ more }
  lockTimeout : b'.registry.lockTimeout = b.registry.lockTimeout
  clientIds : b'.registry.clientIds = b.registry.clientIds
  others : ∀ other, other ≠ id → b'.connection? other = b.connection? other
  itself : ∀ ⦃c⦄, b.connection? id = some c →
    ∃ destinations stream, b'.connection? id = some { c with destinations, stream }

/-- A connection has entered the destinations named. -/
structure Enters (b : Broker) (id : ConnectionId) (type : DestinationType) (qos : QoS)
    (named : String → Prop) (b' : Broker) : Prop extends b.Confined id b' where
  /-- No other destination has changed. -/
  bystanders : ∀ name, ¬ named name →
    b'.registry.subscription? name = b.registry.subscription? name
  /-- One that there was not has come into being as it was asked for. -/
  founded : ∀ name, named name → b.registry.subscription? name = none →
    b'.registry.subscription? name =
      some { name, type, qos, lockTimeout := b.registry.lockTimeout, members := [id] }
  /-- One that there was is as it was, with the connection behind the other members. -/
  joined : ∀ ⦃name s⦄, named name → b.registry.subscription? name = some s →
    ∃ s', b'.registry.subscription? name = some s' ∧ s.Gains id s'
  members : ∀ name other, b'.registry.Lists name other ↔
    b.registry.Lists name other ∨ other = id ∧ named name
  destinations : ∀ name, b'.registry.Joined id name ↔ b.registry.Joined id name ∨ named name

/-- A connection has withdrawn from the destinations named. -/
structure Withdraws (b : Broker) (id : ConnectionId) (named : String → Prop) (b' : Broker) : Prop
    extends b.Confined id b' where
  /-- No other destination has changed. -/
  bystanders : ∀ name, ¬ named name →
    b'.registry.subscription? name = b.registry.subscription? name
  /-- None is dropped, and none comes into being. -/
  kept : ∀ name, name ∈ b'.registry.subscriptions ↔ name ∈ b.registry.subscriptions
  /-- One of those named is as it was, without the connection. -/
  left : ∀ ⦃name s⦄, named name → b.registry.subscription? name = some s →
    ∃ s', b'.registry.subscription? name = some s' ∧ s.Loses id s'
  members : ∀ name other, b'.registry.Lists name other ↔
    b.registry.Lists name other ∧ ¬ (other = id ∧ named name)
  destinations : ∀ name, b'.registry.Joined id name ↔ b.registry.Joined id name ∧ ¬ named name

/-- What is known of a state once a registry has been put in place and a connection answered. -/
structure Follows (b : Broker) (id : ConnectionId) (r : Registry) (b' : Broker) : Prop
    extends b.Confined id b' where
  written : r.Written b'.registry

theorem follows_handle (hc : b.connection? c.id = some c) {r : Registry}
    (hr : b.registry.Regroups c.id r) {more : List Notice}
    (he : b.carryOut c m = (.ok .continue, b.withRegistry more r)) :
    b.Follows c.id r (b.handle c m).2 := by
  obtain ⟨destinations, hc'⟩ := hr.itself hc
  have hlive : (b.withRegistry more r).connection? ({ c with destinations } : Connection).id =
      some { c with destinations } := hc'
  obtain ⟨stream, hs⟩ := exists_reply_eq hlive m.type
  have hafter : (b.handle c m).2 =
      (b.withRegistry more r).putConnection { c with destinations, stream } := by
    rw [handle_of_answered he]
    exact hs
  have hget : ∀ other, (b.handle c m).2.connection? other =
      if other = c.id then some { c with destinations, stream } else r.connections.get? other := by
    intro other
    rw [hafter]
    exact Table.get?_insert _ _ _ _
  refine ⟨⟨⟨_, more, hafter⟩, ?_, ?_, fun other ho => ?_, fun c₀ hc₀ => ?_⟩, ?_⟩
  · rw [hafter]
    exact hr.lockTimeout
  · rw [hafter]
    exact hr.clientIds
  · rw [hget, if_neg ho]
    exact hr.others other ho
  · rw [hc] at hc₀
    cases hc₀
    exact ⟨destinations, stream, (hget c.id).trans (if_pos rfl)⟩
  · rw [hafter]
    exact Registry.Written.put hc' rfl

theorem Follows.subscription? {r : Registry} (h : b.Follows id r b') (name : String) :
    b'.registry.subscription? name = r.subscription? name :=
  congrArg (·.get? name) h.written.subscriptions

/-- To join several destinations is to enter them. -/
theorem Follows.enters (h : b.registry.Coherent) (h' : b'.registry.Coherent)
    (hf : b.Follows id (b.registry.joinEach id type qos names) b')
    (hn : ∀ name, name ∈ names ↔ named name) : b.Enters id type qos named b' := by
  have hsub : ∀ name, b'.registry.subscription? name =
      if name ∈ names then some ((b.registry.subscriptionOrNew name type qos).joined id)
      else b.registry.subscription? name :=
    fun name => (hf.subscription? name).trans
      (b.registry.subscription?_joinEach id type qos names name)
  have hlists : ∀ name other, b'.registry.Lists name other ↔
      b.registry.Lists name other ∨ other = id ∧ named name := by
    intro name other
    rw [← hn]
    by_cases hin : name ∈ names
    · rw [and_iff_left hin, or_comm,
        ← @Registry.mem_subscriptionOrNew b.registry name type qos other, ← Subscription.mem_joined]
      unfold Registry.Lists
      rw [hsub, if_pos hin]
      simp
    · unfold Registry.Lists
      rw [hsub, if_neg hin]
      simp [hin]
  refine ⟨hf.toConfined, fun name hno => ?_, fun name hnamed hs => ?_, fun name s hnamed hs => ?_,
    hlists, fun name => ?_⟩
  · rw [hsub, if_neg (mt (hn name).mp hno)]
  · rw [hsub, if_pos ((hn name).mpr hnamed)]
    unfold Registry.subscriptionOrNew
    rw [hs]
    rfl
  · rw [hsub, if_pos ((hn name).mpr hnamed)]
    unfold Registry.subscriptionOrNew
    rw [hs]
    exact ⟨_, rfl, Subscription.gains_joined (h.atRest hs).nodup id⟩
  · rw [← h'.lists_iff, hlists, ← h.lists_iff, eq_self, true_and]

/-- To leave several destinations is to withdraw from them. -/
theorem Follows.withdraws (h : b.registry.Coherent) (h' : b'.registry.Coherent)
    (hf : b.Follows id (b.registry.leaveEach id names) b')
    (hn : ∀ name, name ∈ names ↔ named name) : b.Withdraws id named b' := by
  have hsub : ∀ name, b'.registry.subscription? name =
      if name ∈ names then (b.registry.subscription? name).map (·.without id)
      else b.registry.subscription? name :=
    fun name => (hf.subscription? name).trans (Registry.subscription?_leaveEach h id names name)
  have hlists : ∀ name other, b'.registry.Lists name other ↔
      b.registry.Lists name other ∧ ¬ (other = id ∧ named name) := by
    intro name other
    rw [← hn]
    unfold Registry.Lists
    rw [hsub]
    by_cases hin : name ∈ names
    · cases hs : b.registry.subscription? name with
      | none => simp [hin]
      | some s => simp [hin, (h.atRest hs).nodup.mem_erase_iff, and_comm]
    · simp [hin]
  refine ⟨hf.toConfined, fun name hno => ?_, fun name => ?_, fun name s hnamed hs => ?_, hlists,
    fun name => ?_⟩
  · rw [hsub, if_neg (mt (hn name).mp hno)]
  · have hsome : (b'.registry.subscription? name).isSome =
        (b.registry.subscription? name).isSome := by
      rw [hsub]
      split
      · exact Option.isSome_map
      · rfl
    exact Bool.eq_iff_iff.mp hsome
  · rw [hsub, if_pos ((hn name).mpr hnamed), hs]
    exact ⟨_, rfl, Subscription.loses_without (h.atRest hs).nodup id⟩
  · rw [← h'.lists_iff, hlists, ← h.lists_iff, eq_self, true_and]

/-! ## In every state -/

/-- A client is attended to that joins or leaves destinations. A list of names names what stands
between its commas, without the white space around it, unless that is nothing. -/
structure Attends (b : Broker) (c : Connection) : Prop where
  subscribe : ∀ ⦃m s type qos⦄, m.type = .subscribe → m.destination = some s → s ≠ "" →
    m.Asks type qos → (b.carryOut c m).1 = .ok .continue ∧
      b.Enters c.id type qos (Text.Names s) (b.handle c m).2
  /-- To ask for the same again changes nothing but the stream to which the answer is written. -/
  again : ∀ ⦃m s type qos c'⦄, m.type = .subscribe → m.destination = some s → s ≠ "" →
    m.Asks type qos → (b.handle c m).2.connection? c.id = some c' →
      (b.handle c m).2.Follows c.id (b.handle c m).2.registry ((b.handle c m).2.handle c' m).2
  /-- A request that asks for what there is not is refused, whatever it names, and changes nothing
  itself; that the connection is cut off for it comes after. -/
  refused : ∀ ⦃m⦄, m.type = .subscribe → m.Misasks → ∃ e, b.handle c m = (.error (.protocol e), b)
  unsubscribe : ∀ ⦃m s⦄, m.type = .unsubscribe → m.destination = some s → s ≠ "" →
    (b.carryOut c m).1 = .ok .continue ∧ b.Withdraws c.id (Text.Names s) (b.handle c m).2
  /-- Without a list of names a client leaves whatever it is a member of. -/
  departure : ∀ ⦃m⦄, m.type = .unsubscribe → (∀ s, m.destination = some s → s = "") →
    (b.carryOut c m).1 = .ok .continue ∧
      b.Withdraws c.id (b.registry.Lists · c.id) (b.handle c m).2

theorem carryOut_of_asks (h : b.registry.Coherent) (hc : b.connection? c.id = some c)
    (hin : c.isConnected = true) (ht : m.type = .subscribe) {s : String} (ha : m.address? = some s)
    (hask : m.Asks type qos) : ∃ more, b.carryOut c m = (.ok .continue,
      b.withRegistry more (b.registry.joinEach c.id type qos (Text.commaNames s))) := by
  obtain ⟨more, he⟩ := joinAll_eq h (Table.mem_of_get? hc) type qos (Text.commaNames s)
  refine ⟨more, ?_⟩
  rw [carryOut_of_subscribe hin ht]
  unfold subscribe
  rw [ha, hask.requestedType, hask.requestedQoS]
  dsimp only
  rw [he]
  rfl

theorem carryOut_of_leaves (h : b.registry.Coherent) (hin : c.isConnected = true)
    (ht : m.type = .unsubscribe) :
    b.carryOut c m = (.ok .continue, b.withRegistry [] (b.registry.leaveEach c.id
      ((m.address?.map Text.commaNames).getD c.destinations.keys))) := by
  rw [carryOut_of_unsubscribe hin ht]
  unfold unsubscribe withRegistry
  rw [leaveAll_eq h, List.append_nil]
  cases m.address? <;> rfl

theorem handle_of_misasks (hin : c.isConnected = true) (ht : m.type = .subscribe)
    (hm : m.Misasks) : ∃ e, b.handle c m = (.error (.protocol e), b) := by
  have hsub : ∃ e, b.subscribe c m = (.error (.protocol e), b) := by
    unfold subscribe
    cases m.address? with
    | none => exact ⟨_, rfl⟩
    | some s =>
      cases hk : requestedType m with
      | error e => exact ⟨e, rfl⟩
      | ok type =>
        rcases hm with ⟨text, e, htext, he⟩ | ⟨text, e, htext, he⟩
        · rw [requestedType_eq_error.mpr ⟨text, htext, he⟩] at hk
          cases hk
        · exact ⟨e, by rw [requestedQoS_eq_error.mpr ⟨text, htext, he⟩]⟩
  obtain ⟨e, he⟩ := hsub
  refine ⟨e, ?_⟩
  unfold handle
  rw [carryOut_of_subscribe hin ht, he]
  rfl

/-- **What a client comes to that joins or leaves destinations,** in every state that a broker comes
to. -/
theorem Reached.attends (h : Reached accepted b) (hc : b.connection? c.id = some c)
    (hin : c.isConnected = true) : b.Attends c := by
  have hb := h.sound.registry
  have hafter : ∀ m, (b.handle c m).2.registry.Coherent := fun m => (h.frame hc m).sound.registry
  have hjoin : ∀ ⦃m s type qos⦄, m.type = .subscribe → m.destination = some s → s ≠ "" →
      m.Asks type qos → (b.carryOut c m).1 = .ok .continue ∧
        b.Enters c.id type qos (Text.Names s) (b.handle c m).2 := by
    intro m s type qos ht hs hne hask
    obtain ⟨more, he⟩ := carryOut_of_asks hb hc hin ht (Message.address?_of_ne hs hne) hask
    have hfollows := follows_handle hc (b.registry.regroups_joinEach c.id type qos _) he
    exact ⟨by rw [he], hfollows.enters hb (hafter m) fun name => Text.mem_commaNames_iff⟩
  have hleave : ∀ ⦃m⦄ (named : String → Prop), m.type = .unsubscribe →
      (∀ name, name ∈ (m.address?.map Text.commaNames).getD c.destinations.keys ↔ named name) →
      (b.carryOut c m).1 = .ok .continue ∧ b.Withdraws c.id named (b.handle c m).2 := by
    intro m named ht hn
    have he := carryOut_of_leaves hb hin ht
    have hfollows := follows_handle hc (b.registry.regroups_leaveEach c.id _) he
    exact ⟨by rw [he], hfollows.withdraws hb (hafter m) hn⟩
  refine ⟨hjoin, fun m s type qos c' ht hs hne hask hc' => ?_,
    fun m ht hm => handle_of_misasks hin ht hm, fun m s ht hs hne => hleave _ ht fun name => ?_,
    fun m ht hno => hleave _ ht fun name => ?_⟩
  · obtain ⟨-, henters⟩ := hjoin ht hs hne hask
    obtain ⟨destinations, stream, hown⟩ := henters.itself hc
    rw [hown] at hc'
    cases hc'
    have hin' : Connection.isConnected { c with destinations, stream } = true := hin
    obtain ⟨more, he⟩ :=
      carryOut_of_asks (hafter m) hown hin' ht (Message.address?_of_ne hs hne) hask
    -- The connection is a member of all that it names by now.
    rw [Registry.joinEach_of_lists (hafter m) fun name hname =>
      (henters.members name c.id).mpr (.inr ⟨rfl, Text.mem_commaNames_iff.mp hname⟩)] at he
    exact @follows_handle _ { c with destinations, stream } m hown _ (.refl _ _) more he
  · rw [Message.address?_of_ne hs hne]
    exact Text.mem_commaNames_iff
  · rw [Message.address?_of_empty hno, hb.lists_iff]
    refine Table.mem_keys.trans ⟨fun hn => ⟨c, hc, hn⟩, ?_⟩
    rintro ⟨c', hc', hn⟩
    rw [show b.registry.connections.get? c.id = some c from hc] at hc'
    cases hc'
    exact hn

/-- The second of the three who share the queue is in one of these destinations already, and nobody
is in the other. -/
def joinWorkAndTea : Message := .subscribe "work, tea,, work "

theorem threeShareQueue_attends : ∃ c,
    Reached [3, 2, 1] ((Broker.new {} 0).run threeShareQueue) ∧
    ((Broker.new {} 0).run threeShareQueue).connection? 2 = some c ∧ c.isConnected = true ∧
    ((Broker.new {} 0).run threeShareQueue).Attends c ∧
    ((Broker.new {} 0).run threeShareQueue).Enters 2 .topic .atMostOnce
      (Text.Names "work, tea,, work ")
      (((Broker.new {} 0).run threeShareQueue).handle c joinWorkAndTea).2 := by
  have h : Reached [3, 2, 1] ((Broker.new {} 0).run threeShareQueue) :=
    @Reached.run [] _ (.start {} 0) threeShareQueue (by decide)
  have hlive : (((Broker.new {} 0).run threeShareQueue).connection? 2).map (·.isConnected) =
      some true := by
    decide +kernel
  obtain ⟨c, hc, hin⟩ := Option.map_eq_some_iff.mp hlive
  have hid : c.id = 2 := (h.sound.registry.registered hc).1
  have hattends := h.attends (by rw [hid]; exact hc) hin
  have hasks : joinWorkAndTea.Asks .topic .atMostOnce :=
    ⟨.inl ⟨by decide, rfl⟩, .inl ⟨by decide, rfl⟩⟩
  have henters := (hattends.subscribe rfl rfl (by decide) hasks).2
  rw [hid] at henters
  exact ⟨c, h, hc, hin, hattends, henters⟩

end Broker

end MessageBroker
