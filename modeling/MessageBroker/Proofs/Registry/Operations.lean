import Mathlib.Data.List.Basic
import MessageBroker.Proofs.Subscription.Membership
import MessageBroker.Registry

/-!
# What the operations of a registry come to

Where nobody holds a subscription, no operation of the registry is refused a lock, and each comes to
one change of its tables: the loops over destinations and over members leave what a single sweep
over the table would.

Headlines:
* **`Registry.withdraw_eq`**: withdrawing takes a member off the subscriptions named, but for those
  that are held.
* **`Registry.clearMembers_eq`**: clearing takes a name from the connections listed.
* **`Registry.deliver_spec`**: routing moves a cursor and writes to streams.
-/

namespace MessageBroker

namespace Registry

/-- Nobody holds a subscription. -/
def AtRest (r : Registry) : Prop := ∀ ⦃name s⦄, r.subscription? name = some s → s.AtRest

def standing? (r : Registry) (id : ConnectionId) : Option Standing :=
  (r.connections.get? id).map Connection.standing

variable {r : Registry}

/-! ## Joining and leaving -/

theorem subscription?_putSubscription (r : Registry) (name other : String) (s : Subscription) :
    (r.putSubscription name s).subscription? other =
      if other = name then some s else r.subscription? other :=
  Table.get?_insert _ _ _ _

theorem AtRest.put (h : r.AtRest) {s : Subscription} (hs : s.AtRest) (name : String) :
    (r.putSubscription name s).AtRest := by
  intro other s' hs'
  rw [subscription?_putSubscription] at hs'
  split at hs'
  · cases hs'
    exact hs
  · exact h hs'

theorem AtRest.orNew (h : r.AtRest) (name : String) (type : DestinationType) (qos : QoS) :
    (r.subscriptionOrNew name type qos).AtRest := by
  unfold subscriptionOrNew
  cases hs : r.subscription? name with
  | none => exact ⟨rfl, List.nodup_nil⟩
  | some s => exact h hs

theorem subscribe_eq (h : r.AtRest) {id : ConnectionId} {c : Connection}
    (hc : r.connections.get? id = some c) (name : String) (type : DestinationType) (qos : QoS) :
    ∃ notices, r.subscribe id name type qos =
      (.ok ((r.subscriptionOrNew name type qos).joined id), notices,
        (r.putSubscription name ((r.subscriptionOrNew name type qos).joined id)).modifyDestinations
          id fun d => d.add name) := by
  unfold subscribe
  rw [hc]
  simp only [Subscription.add_eq (h.orNew name type qos).free]
  exact ⟨_, rfl⟩

theorem unsubscribe_of_none {name : String} (hs : r.subscription? name = none)
    (id : ConnectionId) :
    r.unsubscribe id name = (.ok false, r.modifyDestinations id fun d => d.erase name) := by
  unfold unsubscribe
  rw [hs]

theorem unsubscribe_eq (h : r.AtRest) {name : String} {s : Subscription}
    (hs : r.subscription? name = some s) (id : ConnectionId) :
    r.unsubscribe id name = (.ok (decide (id ∈ s.members)),
      (r.putSubscription name (s.without id)).modifyDestinations id fun d => d.erase name) := by
  unfold unsubscribe
  rw [hs]
  simp only [Subscription.remove_eq (h hs).free]

/-! ## Withdrawing a connection -/

/-- What is reported of a withdrawal from a destination: that its lock was not to be had. -/
def refusal? (r : Registry) (who name : String) : Option Notice :=
  (r.subscription? name).bind fun s =>
    if s.lock.admitsWriter then none else some (.notWithdrawn who name s.timedOut)

theorem refusal?_putSubscription {name other : String} (h : other ≠ name) (s : Subscription)
    (who : String) : (r.putSubscription name s).refusal? who other = r.refusal? who other := by
  unfold refusal?
  rw [subscription?_putSubscription, if_neg h]

/-- To withdraw from one destination and then from others is to withdraw from all of them. -/
theorem mapValues_insert_withdrawn {name : String} {names : List String} {s : Subscription}
    (hs : r.subscription? name = some s) (id : ConnectionId) (hname : name ∉ names) :
    ((r.subscriptions.insert name (s.withdrawn id)).mapValues fun other s =>
        if other ∈ names then s.withdrawn id else s) =
      r.subscriptions.mapValues fun other s =>
        if other ∈ name :: names then s.withdrawn id else s := by
  refine Table.ext fun other => ?_
  rw [Table.get?_mapValues, Table.get?_mapValues, Table.get?_insert]
  by_cases ho : other = name
  · subst ho
    have : r.subscriptions.get? other = some s := hs
    simp [this, hname]
  · simp [ho]

/-- **Withdrawing takes a member off the subscriptions named, but for those that are held.** -/
theorem withdraw_eq (r : Registry) (id : ConnectionId) (who : String) {names : List String}
    (hn : names.Nodup) :
    withdraw r id who names = (names.filterMap (r.refusal? who), { r with
      subscriptions := r.subscriptions.mapValues fun name s =>
        if name ∈ names then s.withdrawn id else s }) := by
  induction names generalizing r with
  | nil =>
    have : (r.subscriptions.mapValues fun name s =>
        if name ∈ ([] : List String) then s.withdrawn id else s) = r.subscriptions := by
      refine Table.ext fun name => ?_
      simp
    rw [this]
    rfl
  | cons name names ih =>
    obtain ⟨hname, hn⟩ := List.nodup_cons.mp hn
    cases hs : r.subscription? name with
    | none =>
      have hr : r.refusal? who name = none := by simp [refusal?, hs]
      have hrest : (r.subscriptions.mapValues fun other s =>
          if other ∈ names then s.withdrawn id else s) =
          r.subscriptions.mapValues fun other s =>
            if other ∈ name :: names then s.withdrawn id else s := by
        refine Table.mapValues_congr fun other s' hs' => ?_
        have ho : other ≠ name := by
          rintro rfl
          cases hs.symm.trans hs'
        simp [ho]
      unfold withdraw
      rw [hs, List.filterMap_cons_none hr, ← hrest]
      exact ih r hn
    | some s =>
      have hsweep := mapValues_insert_withdrawn hs id hname
      unfold withdraw
      rw [hs, ← hsweep]
      by_cases hw : s.lock.admitsWriter = true
      · have hr : r.refusal? who name = none := by simp [refusal?, hs, hw]
        have hs' : s.withdrawn id = s.without id := if_pos hw
        have hrest : names.filterMap ((r.putSubscription name (s.without id)).refusal? who) =
            names.filterMap (r.refusal? who) := by
          refine List.filterMap_congr fun other ho => refusal?_putSubscription ?_ _ who
          rintro rfl
          exact hname ho
        simp only [Subscription.remove_of_admitsWriter hw]
        rw [ih _ hn, List.filterMap_cons_none hr, hrest, hs']
        rfl
      · have hr : r.refusal? who name = some (.notWithdrawn who name s.timedOut) := by
          simp [refusal?, hs, hw]
        have hs' : s.withdrawn id = s := if_neg hw
        simp only [Subscription.remove_of_not_admitsWriter hw]
        rw [ih r hn, List.filterMap_cons_some hr, hs', Table.insert_of_get? hs]

/-- **What becomes of the registry when a connection is removed,** whoever holds its
subscriptions. -/
theorem removeConnection_of_some {id : ConnectionId} {c : Connection}
    (hc : r.connections.get? id = some c) :
    r.removeConnection id = (some { c with destinations := ∅ },
      c.destinations.keys.filterMap (r.refusal? c.name), { r with
        connections := r.connections.erase id
        clientIds := freeClientId r.clientIds c
        subscriptions := r.subscriptions.mapValues fun name s =>
          if name ∈ c.destinations then s.withdrawn id else s }) := by
  unfold removeConnection
  rw [hc]
  simp only [withdraw_eq _ id c.name c.destinations.keys_nodup, Table.mem_keys]
  rfl

/-- Without a connection, which no table knows any more. -/
def forgetting (r : Registry) (c : Connection) : Registry :=
  { r with
    connections := r.connections.erase c.id
    clientIds := freeClientId r.clientIds c
    subscriptions := r.subscriptions.mapValues fun _ s => s.without c.id }

/-- A connection that is removed leaves the registry, its client id and every subscription. -/
theorem removeConnection_eq (h : r.AtRest) {c : Connection}
    (hc : r.connections.get? c.id = some c)
    (hm : ∀ ⦃name s⦄, r.subscription? name = some s → c.id ∈ s.members → name ∈ c.destinations) :
    r.removeConnection c.id = (some { c with destinations := ∅ }, [], r.forgetting c) := by
  have hfree : c.destinations.keys.filterMap (r.refusal? c.name) = [] := by
    refine List.filterMap_eq_nil_iff.mpr fun name _ => ?_
    unfold refusal?
    cases hs : r.subscription? name with
    | none => rfl
    | some s => simp [(h hs).free, Lock.admitsWriter]
  rw [removeConnection_of_some hc, hfree]
  unfold forgetting
  congr 3
  refine Table.mapValues_congr fun name s hs => ?_
  have hw : s.withdrawn c.id = s.without c.id := if_pos (by rw [(h hs).free]; rfl)
  by_cases hn : name ∈ c.destinations
  · rw [if_pos hn, hw]
  · rw [if_neg hn, Subscription.without_of_not_mem fun hid => hn (hm hs hid)]

/-- What becomes of a connection before it is forgotten makes no difference. -/
theorem forgetting_insert (r : Registry) {c c' : Connection} (hi : c'.id = c.id)
    (hs : c'.session = c.session) :
    forgetting { r with connections := r.connections.insert c.id c' } c' = r.forgetting c := by
  unfold forgetting freeClientId
  simp only [hi, hs, Table.erase_insert_self]

/-! ## Dropping a destination -/

theorem connections_modifyDestinations (r : Registry) (id other : ConnectionId)
    (f : NameSet → NameSet) :
    (r.modifyDestinations id f).connections.get? other =
      if other = id then
        (r.connections.get? other).map fun c => { c with destinations := f c.destinations }
      else r.connections.get? other :=
  Table.get?_modify _ _ _ _

/-- With a name taken from its destinations. -/
def leaving (name : String) (c : Connection) : Connection :=
  { c with destinations := c.destinations.erase name }

theorem leaving_of_not_mem {name : String} {c : Connection} (h : name ∉ c.destinations) :
    leaving name c = c := by
  unfold leaving
  rw [Table.erase_of_not_mem h]

theorem leaving_leaving (name : String) (c : Connection) :
    leaving name (leaving name c) = leaving name c :=
  leaving_of_not_mem fun h => (NameSet.mem_erase.mp h).1 rfl

/-- **Clearing takes a name from the connections listed.** -/
theorem clearMembers_eq (name : String) (ids : List ConnectionId) {s : Subscription}
    (h : s.AtRest) : ∃ s', clearMembers r name s ids = (s', [], { r with
      connections := r.connections.mapValues fun id c =>
        if id ∈ ids then leaving name c else c }) := by
  induction ids generalizing r s with
  | nil =>
    refine ⟨s, ?_⟩
    have : (r.connections.mapValues fun id c =>
        if id ∈ ([] : List ConnectionId) then leaving name c else c) = r.connections := by
      refine Table.ext fun id => ?_
      simp
    rw [this]
    rfl
  | cons id ids ih =>
    obtain ⟨s', hs'⟩ := @ih (r.modifyDestinations id fun d => d.erase name) _ (h.without id)
    refine ⟨s', ?_⟩
    unfold clearMembers
    simp only [Subscription.remove_eq h.free, hs']
    congr 3
    refine Table.ext fun other => ?_
    rw [Table.get?_mapValues, Table.get?_mapValues, connections_modifyDestinations]
    by_cases ho : other = id
    · subst ho
      cases hc : r.connections.get? other with
      | none => simp
      | some c =>
        have := leaving_leaving name c
        unfold leaving at this
        simp [leaving, this]
    · simp [ho]

/-- A destination that is dropped leaves the registry and every connection. -/
theorem remove_eq (h : r.AtRest) {name : String} {s : Subscription}
    (hs : r.subscription? name = some s)
    (hm : ∀ ⦃id c⦄, r.connections.get? id = some c → name ∈ c.destinations → id ∈ s.members) :
    ∃ s', r.remove name = (some s', [], { r with
      subscriptions := r.subscriptions.erase name
      connections := r.connections.mapValues fun _ c => leaving name c }) := by
  obtain ⟨s', hs'⟩ := clearMembers_eq name s.members (h hs)
    (r := { r with subscriptions := r.subscriptions.erase name })
  refine ⟨s', ?_⟩
  unfold remove
  rw [hs]
  simp only [Subscription.members?_eq (h hs).free, hs']
  congr 3
  refine Table.ext fun id => ?_
  rw [Table.get?_mapValues, Table.get?_mapValues]
  cases hc : r.connections.get? id with
  | none => rfl
  | some c =>
    by_cases hid : id ∈ s.members
    · simp [hid]
    · have hn : name ∉ c.destinations := fun hn => hid (hm hc hn)
      simp [hid, leaving_of_not_mem hn]

/-! ## Routing a message -/

/-- Nothing but streams and what was read from them differs. -/
structure Written (r r' : Registry) : Prop where
  lockTimeout : r'.lockTimeout = r.lockTimeout
  subscriptions : r'.subscriptions = r.subscriptions
  clientIds : r'.clientIds = r.clientIds
  standing : ∀ id, r'.standing? id = r.standing? id

theorem Written.refl (r : Registry) : r.Written r := ⟨rfl, rfl, rfl, fun _ => rfl⟩

theorem Written.trans {r' r'' : Registry} (h : r.Written r') (h' : r'.Written r'') :
    r.Written r'' :=
  ⟨h'.lockTimeout.trans h.lockTimeout, h'.subscriptions.trans h.subscriptions,
    h'.clientIds.trans h.clientIds, fun id => (h'.standing id).trans (h.standing id)⟩

/-- A connection may be replaced by one of the same standing. -/
theorem Written.put {id : ConnectionId} {c c' : Connection} (hc : r.connections.get? id = some c)
    (hs : c'.standing = c.standing) :
    r.Written { r with connections := r.connections.insert id c' } := by
  refine ⟨rfl, rfl, rfl, fun other => ?_⟩
  unfold standing?
  rw [Table.get?_insert]
  split
  · rename_i e
    rw [e, hc, Option.map_some, Option.map_some, hs]
  · rfl

theorem written_deliverTo (r : Registry) (id : ConnectionId) (m : Message) :
    r.Written (r.deliverTo id m).2 := by
  unfold deliverTo
  cases hc : r.connections.get? id with
  | none => exact .refl r
  | some c => exact .put hc (c.standing_send m)

theorem deliver_of_missing {m : Message}
    (hs : ∀ name, m.address? = some name → r.subscription? name = none) :
    (r.deliver m).2.2 = r := by
  unfold deliver
  split
  · rfl
  · rename_i name hm
    rw [hs name hm]

theorem deliver_eq (h : r.AtRest) {m : Message} {name : String} {s : Subscription}
    (hm : m.address? = some name) (hs : r.subscription? name = some s) :
    let x := Subscription.attemptAll (fun r id => r.deliverTo id m) s.name s.select.1
      (r.putSubscription name s.held)
    r.deliver m = (.ok ⟨x.1, some s.qos⟩, x.2.1, x.2.2.finishDelivery name) := by
  unfold deliver
  rw [hm]
  simp only [hs, Subscription.begin_eq (h hs).free]

/-- **Routing moves a cursor and writes to streams.** -/
theorem deliver_spec (h : r.AtRest) (m : Message) :
    (r.deliver m).2.2.clientIds = r.clientIds ∧
      (∀ id, (r.deliver m).2.2.standing? id = r.standing? id) ∧
      ∀ name, (r.deliver m).2.2.subscription? name =
        if m.address? = some name then (r.subscription? name).map Subscription.served
        else r.subscription? name := by
  by_cases hx : ∃ name s, m.address? = some name ∧ r.subscription? name = some s
  · obtain ⟨dest, s, hm, hs⟩ := hx
    have hw := Subscription.attemptAll_rel Written.refl Written.trans
      (fun r id => written_deliverTo r id m) s.name s.select.1
      (r.putSubscription dest s.held)
    rw [deliver_eq h hm hs]
    refine ⟨hw.clientIds, hw.standing, fun name => ?_⟩
    unfold finishDelivery subscription?
    simp only
    rw [hw.subscriptions, Table.get?_modify]
    unfold putSubscription
    rw [Table.get?_insert]
    by_cases e : name = dest
    · subst e
      have hs' : r.subscriptions.get? name = some s := hs
      simp [hm, hs', Subscription.finish_held (h hs).free]
    · simp [hm, e, Ne.symm e]
  · have hn : ∀ name, m.address? = some name → r.subscription? name = none := by
      intro name hm
      cases hs : r.subscription? name with
      | none => rfl
      | some s => exact absurd ⟨name, s, hm, hs⟩ hx
    rw [deliver_of_missing hn]
    refine ⟨rfl, fun _ => rfl, fun name => ?_⟩
    split
    · rename_i hm
      rw [hn name hm]
      rfl
    · rfl

end Registry

end MessageBroker
