import Mathlib.Logic.Basic
import MessageBroker.Proofs.Registry.Operations

/-!
# The tables of a registry agree

A destination lists its members, a connection names its destinations, and the client ids that are
taken name their owners. The three are kept apart and changed one after the other; after every
operation they tell the same.

Headlines:
* **`Registry.Coherent`**: what they tell is the same.
* **`Registry.Keeps`**: an operation keeps it so and leaves the connections where they are. Every
  operation does, but for the two that take up a connection and let one go.
* **`Registry.Coherent.addConnection`**, **`Registry.Coherent.removeConnection`**: these two.
-/

namespace MessageBroker.Registry

/-- A destination lists a connection as a member. -/
def Lists (r : Registry) (name : String) (id : ConnectionId) : Prop :=
  ∃ s, r.subscription? name = some s ∧ id ∈ s.members

/-- A connection names a destination as one of its own. -/
def Joined (r : Registry) (id : ConnectionId) (name : String) : Prop :=
  ∃ c, r.connections.get? id = some c ∧ name ∈ c.destinations

/-- A connection has logged in under a client id. -/
def LoggedIn (r : Registry) (id : ConnectionId) (clientId : String) : Prop :=
  ∃ c, r.connections.get? id = some c ∧ c.session.clientId = some clientId

/-- **The tables agree.** -/
structure Coherent (r : Registry) : Prop where
  /-- Connections are open and registered under their numbers. -/
  registered : ∀ ⦃id c⦄, r.connections.get? id = some c → c.id = id ∧ c.closed = false
  atRest : r.AtRest
  lists_iff : ∀ name id, r.Lists name id ↔ r.Joined id name
  clientIds_iff : ∀ clientId id, r.clientIds.get? clientId = some id ↔ r.LoggedIn id clientId

theorem coherent_empty (lockTimeout : Duration) : ({ lockTimeout } : Registry).Coherent where
  registered id c h := by
    cases h
  atRest name s h := by
    cases h
  lists_iff name id := by
    constructor
    · rintro ⟨s, h, _⟩
      cases h
    · rintro ⟨c, h, _⟩
      cases h
  clientIds_iff clientId id := by
    constructor
    · intro h
      cases h
    · rintro ⟨c, h, _⟩
      cases h

/-- An operation keeps the tables in agreement, and every connection in its place. -/
def Keeps (r r' : Registry) : Prop :=
  r.Coherent → r'.Coherent ∧ ∀ id, id ∈ r'.connections ↔ id ∈ r.connections

variable {r r' r'' : Registry}

theorem Keeps.refl (r : Registry) : r.Keeps r := fun h => ⟨h, fun _ => Iff.rfl⟩

theorem Keeps.trans (h : r.Keeps r') (h' : r'.Keeps r'') : r.Keeps r'' := fun hr =>
  have ⟨hr', hl⟩ := h hr
  have ⟨hr'', hl'⟩ := h' hr'
  ⟨hr'', fun id => (hl' id).trans (hl id)⟩

/-! ## Changes of memberships -/

/-- What a connection is, but for its destinations. -/
def login? (r : Registry) (id : ConnectionId) : Option (ConnectionId × Session × Bool) :=
  (r.connections.get? id).map fun c => (c.id, c.session, c.closed)

theorem mem_connections_of_login (h : ∀ id, r'.login? id = r.login? id) (id : ConnectionId) :
    id ∈ r'.connections ↔ id ∈ r.connections := by
  have := congrArg Option.isSome (h id)
  unfold login? at this
  rw [Option.isSome_map, Option.isSome_map] at this
  rw [Table.mem_iff, Table.mem_iff, this]

theorem exists_of_login (h : ∀ id, r'.login? id = r.login? id) {id : ConnectionId}
    {c' : Connection} (hc : r'.connections.get? id = some c') :
    ∃ c, r.connections.get? id = some c ∧ c.id = c'.id ∧ c.session = c'.session ∧
      c.closed = c'.closed := by
  have := h id
  unfold login? at this
  rw [hc, Option.map_some, eq_comm, Option.map_eq_some_iff] at this
  obtain ⟨c, hc', he⟩ := this
  simp only [Prod.mk.injEq] at he
  exact ⟨c, hc', he⟩

theorem loggedIn_of_login (h : ∀ id, r'.login? id = r.login? id) {id : ConnectionId}
    {clientId : String} (hl : r'.LoggedIn id clientId) : r.LoggedIn id clientId := by
  obtain ⟨c', hc', hx⟩ := hl
  obtain ⟨c, hc, _, hs, _⟩ := exists_of_login h hc'
  exact ⟨c, hc, hs ▸ hx⟩

/-- An operation that logs nobody in or out has to answer for the memberships only. -/
theorem keeps_of_login (hlog : ∀ id, r'.login? id = r.login? id)
    (hcl : r'.clientIds = r.clientIds)
    (h : r.Coherent → r'.AtRest ∧ ∀ name id, r'.Lists name id ↔ r'.Joined id name) :
    r.Keeps r' := by
  intro hr
  refine ⟨⟨fun id c' hc' => ?_, (h hr).1, (h hr).2, fun clientId id => ?_⟩,
    mem_connections_of_login hlog⟩
  · obtain ⟨c, hc, hi, _, hcl⟩ := exists_of_login hlog hc'
    rw [← hi, ← hcl]
    exact hr.registered hc
  · rw [hcl, hr.clientIds_iff]
    exact ⟨loggedIn_of_login fun id => (hlog id).symm, loggedIn_of_login hlog⟩

theorem login?_of_standing (h : ∀ id, r'.standing? id = r.standing? id) (id : ConnectionId) :
    r'.login? id = r.login? id := by
  have := congrArg (Option.map fun t => (t.id, t.session, t.closed)) (h id)
  unfold standing? at this
  rwa [Option.map_map, Option.map_map] at this

theorem joined_of_standing (h : ∀ id, r'.standing? id = r.standing? id) {id : ConnectionId}
    {name : String} (hj : r'.Joined id name) : r.Joined id name := by
  obtain ⟨c', hc', hn⟩ := hj
  have := h id
  unfold standing? at this
  rw [hc', Option.map_some, eq_comm, Option.map_eq_some_iff] at this
  obtain ⟨c, hc, he⟩ := this
  have hd : c.destinations = c'.destinations := congrArg Standing.destinations he
  exact ⟨c, hc, hd ▸ hn⟩

/-- Where connections keep their standing and subscriptions their members, all stays as it is. -/
theorem keeps_of_standing (hst : ∀ id, r'.standing? id = r.standing? id)
    (hcl : r'.clientIds = r.clientIds)
    (h : r.AtRest → r'.AtRest ∧ ∀ name id, r'.Lists name id ↔ r.Lists name id) : r.Keeps r' := by
  refine keeps_of_login (login?_of_standing hst) hcl fun hr => ⟨(h hr.atRest).1, fun name id => ?_⟩
  rw [(h hr.atRest).2, hr.lists_iff]
  exact ⟨joined_of_standing fun id => (hst id).symm, joined_of_standing hst⟩

theorem Written.keeps (h : r.Written r') : r.Keeps r' := by
  refine keeps_of_standing h.standing h.clientIds fun hr => ?_
  unfold AtRest Lists subscription?
  rw [h.subscriptions]
  exact ⟨hr, fun _ _ => Iff.rfl⟩

theorem keeps_deliver (r : Registry) (m : Message) : r.Keeps (r.deliver m).2.2 := by
  intro hr
  obtain ⟨hcl, hst, hs⟩ := deliver_spec hr.atRest m
  refine keeps_of_standing hst hcl (fun hr => ⟨fun name s' hs' => ?_, fun name id => ?_⟩) hr
  · rw [hs] at hs'
    split at hs'
    · obtain ⟨s, hs, rfl⟩ := Option.map_eq_some_iff.mp hs'
      exact (hr hs).served
    · exact hr hs'
  · unfold Lists
    rw [hs]
    split
    · constructor
      · rintro ⟨s', hs', hid⟩
        obtain ⟨s, hs, rfl⟩ := Option.map_eq_some_iff.mp hs'
        exact ⟨s, hs, by rwa [Subscription.members_served] at hid⟩
      · rintro ⟨s, hs, hid⟩
        exact ⟨s.served, by rw [hs, Option.map_some], by rwa [Subscription.members_served]⟩
    · exact Iff.rfl

/-! ## Joining and leaving -/

theorem login?_modifyDestinations (r : Registry) (id : ConnectionId) (f : NameSet → NameSet)
    (other : ConnectionId) : (r.modifyDestinations id f).login? other = r.login? other := by
  unfold login?
  rw [connections_modifyDestinations]
  split
  · rw [Option.map_map]
    rfl
  · rfl

theorem joined_add {id : ConnectionId} (hid : id ∈ r.connections) (name : String)
    (other : ConnectionId) (n : String) :
    (r.modifyDestinations id fun d => d.add name).Joined other n ↔
      (other = id ∧ n = name) ∨ r.Joined other n := by
  unfold Joined
  rw [connections_modifyDestinations]
  by_cases e : other = id
  · subst e
    obtain ⟨c, hc⟩ := Option.isSome_iff_exists.mp hid
    simp [hc, NameSet.mem_add]
  · simp [e]

theorem joined_erase (r : Registry) (id : ConnectionId) (name : String) (other : ConnectionId)
    (n : String) :
    (r.modifyDestinations id fun d => d.erase name).Joined other n ↔
      ¬(other = id ∧ n = name) ∧ r.Joined other n := by
  unfold Joined
  rw [connections_modifyDestinations]
  by_cases e : other = id
  · subst e
    cases hc : r.connections.get? other with
    | none => simp
    | some c => simp [NameSet.mem_erase]
  · simp [e]

theorem lists_put (r : Registry) (name : String) (s : Subscription) (n : String)
    (id : ConnectionId) :
    (r.putSubscription name s).Lists n id ↔
      (n = name ∧ id ∈ s.members) ∨ (n ≠ name ∧ r.Lists n id) := by
  unfold Lists
  rw [subscription?_putSubscription]
  by_cases e : n = name
  · simp [e]
  · simp [e]

theorem mem_subscriptionOrNew {name : String} {type : DestinationType} {qos : QoS}
    {id : ConnectionId} :
    id ∈ (r.subscriptionOrNew name type qos).members ↔ r.Lists name id := by
  unfold subscriptionOrNew Lists
  cases hs : r.subscription? name with
  | none => simp
  | some s => simp

theorem lists_modifyDestinations {id : ConnectionId} {f : NameSet → NameSet} {n : String}
    {other : ConnectionId} : (r.modifyDestinations id f).Lists n other ↔ r.Lists n other :=
  Iff.rfl

theorem joined_put {name : String} {s : Subscription} {id : ConnectionId} {n : String} :
    (r.putSubscription name s).Joined id n ↔ r.Joined id n :=
  Iff.rfl

theorem keeps_join {id : ConnectionId} (hid : id ∈ r.connections) (name : String)
    (type : DestinationType) (qos : QoS) :
    r.Keeps ((r.putSubscription name
      ((r.subscriptionOrNew name type qos).joined id)).modifyDestinations
        id fun d => d.add name) := by
  refine keeps_of_login (login?_modifyDestinations _ id _) rfl fun hr =>
    ⟨hr.atRest.put ((hr.atRest.orNew name type qos).joined id) name, fun n other => ?_⟩
  have hid' : id ∈ (r.putSubscription name
      ((r.subscriptionOrNew name type qos).joined id)).connections := hid
  rw [lists_modifyDestinations, lists_put, Subscription.mem_joined, mem_subscriptionOrNew,
    joined_add hid', joined_put, ← hr.lists_iff]
  by_cases e : n = name
  · subst e
    simp
  · simp [e]

theorem keeps_subscribe (r : Registry) (id : ConnectionId) (name : String)
    (type : DestinationType) (qos : QoS) : r.Keeps (r.subscribe id name type qos).2.2 := by
  intro hr
  cases hc : r.connections.get? id with
  | none =>
    unfold subscribe
    rw [hc]
    exact Keeps.refl r hr
  | some c =>
    obtain ⟨notices, he⟩ := subscribe_eq hr.atRest hc name type qos
    rw [he]
    exact keeps_join (Option.isSome_iff_exists.mpr ⟨c, hc⟩) name type qos hr

theorem keeps_unsubscribe (r : Registry) (id : ConnectionId) (name : String) :
    r.Keeps (r.unsubscribe id name).2 := by
  intro hr
  cases hs : r.subscription? name with
  | none =>
    rw [unsubscribe_of_none hs]
    refine keeps_of_login (login?_modifyDestinations _ id _) rfl
      (fun hr => ⟨hr.atRest, fun n other => ?_⟩) hr
    rw [lists_modifyDestinations, joined_erase, ← hr.lists_iff]
    by_cases e : n = name
    · subst e
      simp [Lists, hs]
    · simp [e]
  | some s =>
    have hrest := hr.atRest hs
    rw [unsubscribe_eq hr.atRest hs]
    refine keeps_of_login (login?_modifyDestinations _ id _) rfl
      (fun hr => ⟨hr.atRest.put (hrest.without id) name, fun n other => ?_⟩) hr
    rw [lists_modifyDestinations, lists_put, Subscription.mem_without hrest.nodup, joined_erase,
      joined_put, ← hr.lists_iff]
    by_cases e : n = name
    · subst e
      simp [Lists, hs]
    · simp [e]

/-! ## Dropping destinations -/

theorem mem_leaving {name n : String} {c : Connection} :
    n ∈ (leaving name c).destinations ↔ n ≠ name ∧ n ∈ c.destinations :=
  NameSet.mem_erase

theorem keeps_remove (r : Registry) (name : String) : r.Keeps (r.remove name).2.2 := by
  intro hr
  cases hs : r.subscription? name with
  | none =>
    unfold remove
    rw [hs]
    exact Keeps.refl r hr
  | some s =>
    have hm : ∀ ⦃id c⦄, r.connections.get? id = some c → name ∈ c.destinations →
        id ∈ s.members := by
      intro id c hc hn
      obtain ⟨s', hs', hid⟩ := (hr.lists_iff name id).mpr ⟨c, hc, hn⟩
      rw [hs] at hs'
      cases hs'
      exact hid
    obtain ⟨s', he⟩ := remove_eq hr.atRest hs hm
    rw [he]
    refine keeps_of_login (fun id => ?_) rfl
      (fun hr => ⟨fun n s'' hs'' => ?_, fun n id => ?_⟩) hr
    · unfold login?
      simp only [Table.get?_mapValues, Option.map_map]
      rfl
    · unfold subscription? at hs''
      simp only [Table.get?_erase] at hs''
      split at hs''
      · cases hs''
      · exact hr.atRest hs''
    · have hl := hr.lists_iff n id
      unfold Lists Joined subscription? at hl ⊢
      simp only [Table.get?_erase, Table.get?_mapValues, Option.map_eq_some_iff]
      by_cases e : n = name
      · subst e
        simp [mem_leaving]
      · simp [e, mem_leaving, hl]

theorem keeps_removeAll (names : List String) (r : Registry) : r.Keeps (r.removeAll names).2 := by
  induction names generalizing r with
  | nil => exact .refl r
  | cons name names ih => exact (keeps_remove r name).trans (ih _)

theorem keeps_clear (r : Registry) : r.Keeps r.clear.2 := keeps_removeAll _ r

/-! ## Logging in, coming and going -/

theorem get?_addConnection (r : Registry) (c : Connection) (id : ConnectionId) :
    (r.addConnection c).connections.get? id =
      if id = c.id then some c else r.connections.get? id :=
  Table.get?_insert _ _ _ _

/-- What holds of some connection under a number, once one has been put there. -/
theorem exists_addConnection {c : Connection} {id : ConnectionId} {p : Connection → Prop} :
    (∃ c', (r.addConnection c).connections.get? id = some c' ∧ p c') ↔
      (id = c.id ∧ p c) ∨ (id ≠ c.id ∧ ∃ c', r.connections.get? id = some c' ∧ p c') := by
  rw [get?_addConnection]
  by_cases e : id = c.id
  · simp [e]
  · simp [e]

theorem joined_addConnection {c : Connection} {id : ConnectionId} {name : String} :
    (r.addConnection c).Joined id name ↔
      (id = c.id ∧ name ∈ c.destinations) ∨ (id ≠ c.id ∧ r.Joined id name) :=
  exists_addConnection

theorem loggedIn_addConnection {c : Connection} {id : ConnectionId} {clientId : String} :
    (r.addConnection c).LoggedIn id clientId ↔
      (id = c.id ∧ c.session.clientId = some clientId) ∨
        (id ≠ c.id ∧ r.LoggedIn id clientId) :=
  exists_addConnection

/-- A client id that nobody has is taken by a connection that has none. -/
theorem claim_eq (h : r.Coherent) {c : Connection} (hc : r.connections.get? c.id = some c)
    (hn : c.session.clientId = none) {clientId : String} (hr' : r.claim c.id clientId = .ok r') :
    r.clientIds.get? clientId = none ∧
      r' = { r with clientIds := r.clientIds.insert clientId c.id } := by
  unfold claim at hr'
  split at hr'
  · rename_i owner ho
    split at hr'
    · rename_i e
      subst e
      obtain ⟨c', hc', hx⟩ := (h.clientIds_iff clientId c.id).mp ho
      rw [hc] at hc'
      cases hc'
      rw [hn] at hx
      cases hx
    · cases hr'
  · rename_i ho
    cases hr'
    exact ⟨ho, rfl⟩

/-- A connection logs in under a client id that it has claimed. -/
theorem keeps_claim {c : Connection} {clientId : String} {session : Session}
    (hc : r.connections.get? c.id = some c) (hn : c.session.clientId = none)
    (hr' : r.claim c.id clientId = .ok r') (hs : session.clientId = some clientId) :
    r.Keeps (r'.addConnection { c with session }) := by
  intro hr
  obtain ⟨hfree, rfl⟩ := claim_eq hr hc hn hr'
  have hid : c.id ∈ r.connections := Option.isSome_iff_exists.mpr ⟨c, hc⟩
  refine ⟨⟨fun id c' hc' => ?_, hr.atRest, fun name id => ?_, fun x id => ?_⟩, fun id => ?_⟩
  · rw [get?_addConnection] at hc'
    split at hc'
    · rename_i e
      cases hc'
      exact ⟨e.symm, (hr.registered hc).2⟩
    · exact hr.registered hc'
  · rw [joined_addConnection]
    change r.Lists name id ↔ _ ∨ (_ ∧ r.Joined id name)
    rw [hr.lists_iff]
    by_cases e : id = c.id
    · subst e
      simp [Joined, hc]
    · simp [e]
  · rw [loggedIn_addConnection]
    change (r.clientIds.insert clientId c.id).get? x = some id ↔ _ ∨ (_ ∧ r.LoggedIn id x)
    rw [Table.get?_insert]
    by_cases e : x = clientId
    · subst e
      have hno := fun id => (hr.clientIds_iff x id).not.mp (by rw [hfree]; exact nofun)
      simp [hs, hno, eq_comm]
    · have hne : session.clientId ≠ some x := by
        rw [hs]
        exact fun h => e (Option.some.inj h).symm
      rw [if_neg e, hr.clientIds_iff]
      by_cases e' : id = c.id
      · subst e'
        simp [LoggedIn, hc, hn, hne]
      · simp [e']
  · rw [Table.mem_iff, get?_addConnection]
    by_cases e : id = c.id
    · subst e
      simp [hid]
    · simp [e, Table.mem_iff]

/-- A connection that is new to the registry and belongs to nothing may be taken up. -/
theorem Coherent.addConnection (h : r.Coherent) {c : Connection} (hid : c.id ∉ r.connections)
    (hd : c.destinations = ∅) (hs : c.session.clientId = none) (ho : c.closed = false) :
    (r.addConnection c).Coherent := by
  have hno : ∀ c', r.connections.get? c.id ≠ some c' :=
    fun c' hc' => hid (Option.isSome_iff_exists.mpr ⟨c', hc'⟩)
  refine ⟨fun id c' hc' => ?_, h.atRest, fun name id => ?_, fun x id => ?_⟩
  · rw [get?_addConnection] at hc'
    split at hc'
    · rename_i e
      cases hc'
      exact ⟨e.symm, ho⟩
    · exact h.registered hc'
  · rw [joined_addConnection]
    change r.Lists name id ↔ _
    rw [h.lists_iff]
    by_cases e : id = c.id
    · subst e
      simp [Joined, hno, hd, Table.mem_iff]
    · simp [e]
  · rw [loggedIn_addConnection]
    change r.clientIds.get? x = some id ↔ _
    rw [h.clientIds_iff]
    by_cases e : id = c.id
    · subst e
      simp [LoggedIn, hno, hs]
    · simp [e]

theorem get?_forgetting (r : Registry) (c : Connection) (id : ConnectionId) :
    (r.forgetting c).connections.get? id =
      if id = c.id then none else r.connections.get? id :=
  Table.get?_erase _ _ _

theorem lists_forgetting (h : r.AtRest) {c : Connection} {name : String} {id : ConnectionId} :
    (r.forgetting c).Lists name id ↔ id ≠ c.id ∧ r.Lists name id := by
  unfold Lists subscription? Registry.forgetting
  simp only [Table.get?_mapValues]
  cases hs : r.subscriptions.get? name with
  | none => simp
  | some s =>
    have hmem := @Subscription.mem_without s (h hs).nodup c.id id
    simp only [Option.map_some, Option.some.injEq, exists_eq_left', hmem]

/-- What holds of some connection under a number, once another one has been forgotten. -/
theorem exists_forgetting {c : Connection} {id : ConnectionId} {p : Connection → Prop} :
    (∃ c', (r.forgetting c).connections.get? id = some c' ∧ p c') ↔
      id ≠ c.id ∧ ∃ c', r.connections.get? id = some c' ∧ p c' := by
  rw [get?_forgetting]
  by_cases e : id = c.id
  · simp [e]
  · simp [e]

theorem joined_forgetting {c : Connection} {id : ConnectionId} {name : String} :
    (r.forgetting c).Joined id name ↔ id ≠ c.id ∧ r.Joined id name :=
  exists_forgetting

theorem loggedIn_forgetting {c : Connection} {id : ConnectionId} {clientId : String} :
    (r.forgetting c).LoggedIn id clientId ↔ id ≠ c.id ∧ r.LoggedIn id clientId :=
  exists_forgetting

theorem clientIds_forgetting (h : r.Coherent) {c : Connection}
    (hc : r.connections.get? c.id = some c) {clientId : String} {id : ConnectionId} :
    (r.forgetting c).clientIds.get? clientId = some id ↔
      id ≠ c.id ∧ r.clientIds.get? clientId = some id := by
  -- A connection owns the client id of its session and no other one.
  have howner : ∀ x, r.clientIds.get? x = some c.id ↔ c.session.clientId = some x := by
    intro x
    rw [h.clientIds_iff]
    simp [LoggedIn, hc]
  unfold Registry.forgetting freeClientId
  simp only
  cases hs : c.session.clientId with
  | none =>
    have hno : r.clientIds.get? clientId ≠ some c.id := by
      rw [Ne, howner, hs]
      exact nofun
    constructor
    · intro hx
      exact ⟨fun e => hno (e ▸ hx), hx⟩
    · exact fun hx => hx.2
  | some x =>
    simp only
    rw [if_pos ((howner x).mpr hs), Table.get?_erase]
    by_cases e : clientId = x
    · subst e
      have hown := (howner clientId).mpr hs
      simp [hown, eq_comm]
    · have hno : r.clientIds.get? clientId ≠ some c.id := by
        rw [Ne, howner, hs]
        exact fun h => e (Option.some.inj h).symm
      rw [if_neg e]
      constructor
      · intro hx
        exact ⟨fun e => hno (e ▸ hx), hx⟩
      · exact fun hx => hx.2

/-- A connection may be forgotten. -/
theorem Coherent.forgetting (h : r.Coherent) {c : Connection}
    (hc : r.connections.get? c.id = some c) : (r.forgetting c).Coherent := by
  refine ⟨fun id c' hc' => ?_, fun name s' hs' => ?_, fun name id => ?_, fun x id => ?_⟩
  · rw [get?_forgetting] at hc'
    split at hc'
    · cases hc'
    · exact h.registered hc'
  · unfold subscription? Registry.forgetting at hs'
    simp only [Table.get?_mapValues] at hs'
    obtain ⟨s, hs, rfl⟩ := Option.map_eq_some_iff.mp hs'
    exact (h.atRest hs).without c.id
  · rw [lists_forgetting h.atRest, joined_forgetting, h.lists_iff]
  · rw [clientIds_forgetting h hc, loggedIn_forgetting, h.clientIds_iff]

theorem Coherent.mem_destinations (h : r.Coherent) {id : ConnectionId} {c : Connection}
    (hc : r.connections.get? id = some c) ⦃name : String⦄ ⦃s : Subscription⦄
    (hs : r.subscription? name = some s) (hid : id ∈ s.members) : name ∈ c.destinations := by
  obtain ⟨c', hc', hn⟩ := (h.lists_iff name id).mp ⟨s, hs, hid⟩
  rw [hc] at hc'
  cases hc'
  exact hn

/-- Removing a connection is forgetting it. -/
theorem Coherent.removeConnection_eq (h : r.Coherent) {c : Connection}
    (hc : r.connections.get? c.id = some c) :
    r.removeConnection c.id = (some { c with destinations := ∅ }, [], r.forgetting c) :=
  Registry.removeConnection_eq h.atRest hc (h.mem_destinations hc)

end MessageBroker.Registry
