import Mathlib.Logic.Relation
import MessageBroker.Proofs.Registry.Withdrawal

/-!
# A registry whose subscriptions are held

Somebody else may hold a subscription, and then whoever wants it alone waits in vain. Members and
destinations may part then: a connection that could not be withdrawn stays listed, and a name whose
destination was dropped stays with those that had it. What is left in step is enough to tell who a
connection is and where it belongs while it is live. It is kept by a few small moves, and the
operations of the registry make no others.

Headlines:
* **`Registry.Move`**: what may become of a registry when nobody comes, logs in or goes.
* **`Registry.Enrolled`**: what is in step whoever holds a subscription;
  **`Registry.Move.enrolled`**, **`Registry.Enrolled.claim`**, **`Registry.Enrolled.gone`**: it
  stays so.
* **`Registry.moves_deliver`**, **`Registry.moves_subscribe`**, **`Registry.moves_unsubscribe`**,
  **`Registry.moves_remove`**: the operations.
-/

namespace MessageBroker

namespace Subscription

variable {s : Subscription}

/-- A delivery that begins leaves the members as they are. -/
theorem begin_eq_ok {targets : List ConnectionId} {s' : Subscription}
    (h : s.begin = .ok (targets, s')) : targets = s.select.1 ∧ s'.members = s.members := by
  unfold begin at h
  split at h
  · cases h
    exact ⟨rfl, s.members_served⟩
  · cases h

theorem nodup_withdrawn (h : s.members.Nodup) (id : ConnectionId) :
    (s.withdrawn id).members.Nodup := by
  unfold withdrawn
  split
  · exact nodup_without h id
  · exact h

@[simp] theorem lock_withdrawn (s : Subscription) (id : ConnectionId) :
    (s.withdrawn id).lock = s.lock := by
  unfold withdrawn
  split
  · obtain ⟨cursor, hs⟩ := s.exists_without_eq id
    rw [hs]
  · rfl

end Subscription

namespace Registry

/-! ## Moves -/

/-- The members of a destination, none if there is no such destination. -/
def membersOf (r : Registry) (name : String) : List ConnectionId :=
  ((r.subscription? name).map Subscription.members).getD []

/-- What may become of a registry when nobody comes, logs in or goes. -/
inductive Move (r : Registry) : Registry → Prop
  /-- A connection is read from or written to. -/
  | write {id : ConnectionId} {c c' : Connection} (hc : r.connections.get? id = some c)
    (hs : c'.standing = c.standing) : Move r { r with connections := r.connections.insert id c' }
  /-- A subscription comes into being, or its lock or its cursor changes. -/
  | tend {name : String} {s : Subscription} (hs : s.members = r.membersOf name) :
    Move r (r.putSubscription name s)
  /-- A client that has logged in becomes a member of a destination. -/
  | join {id : ConnectionId} {clientId name : String} {s : Subscription}
    (hc : r.LoggedIn id clientId) (hs : s.members = r.membersOf name) :
    Move r ((r.putSubscription name (s.joined id)).modifyDestinations id fun d => d.add name)
  /-- A member leaves a destination. -/
  | leave {id : ConnectionId} {name : String} {s : Subscription}
    (hs : r.subscription? name = some s) :
    Move r ((r.putSubscription name (s.without id)).modifyDestinations id fun d => d.erase name)
  /-- A connection gives up a name that is no destination. -/
  | strike {id : ConnectionId} {name : String} (hs : r.subscription? name = none) :
    Move r (r.modifyDestinations id fun d => d.erase name)
  /-- A destination is dropped. -/
  | drop (name : String) : Move r { r with subscriptions := r.subscriptions.erase name }

/-- Some moves, one after the other. -/
abbrev Moves : Registry → Registry → Prop := Relation.ReflTransGen Move

variable {r r' : Registry}

theorem mem_membersOf {name : String} {id : ConnectionId} :
    id ∈ r.membersOf name ↔ r.Lists name id := by
  unfold membersOf Lists
  cases r.subscription? name <;> simp

theorem membersOf_of_some {name : String} {s : Subscription} (hs : r.subscription? name = some s) :
    r.membersOf name = s.members := by
  unfold membersOf
  rw [hs]
  rfl

/-- Once a destination has been dropped, the others are what they were. -/
theorem subscription?_of_drop {name n : String} {s : Subscription}
    (hs : { r with subscriptions := r.subscriptions.erase name }.subscription? n = some s) :
    r.subscription? n = some s := by
  unfold subscription? at hs
  simp only [Table.get?_erase] at hs
  split at hs
  · cases hs
  · exact hs

theorem members_subscriptionOrNew (r : Registry) (name : String) (type : DestinationType)
    (qos : QoS) : (r.subscriptionOrNew name type qos).members = r.membersOf name := by
  unfold subscriptionOrNew membersOf
  cases r.subscription? name <;> rfl

/-- No move makes somebody come, log in or go. -/
theorem Move.login? (h : r.Move r') (id : ConnectionId) : r'.login? id = r.login? id := by
  cases h with
  | write hc hs => exact login?_of_standing (Written.put hc hs).standing id
  | tend hs => rfl
  | join hc hs => exact login?_modifyDestinations _ _ _ id
  | leave hs => exact login?_modifyDestinations _ _ _ id
  | strike hs => exact login?_modifyDestinations _ _ _ id
  | drop name => rfl

theorem Move.clientIds (h : r.Move r') : r'.clientIds = r.clientIds := by
  cases h <;> rfl

/-- Who becomes listed by a move is live. -/
theorem Move.lists (h : r.Move r') {n : String} {other : ConnectionId} (hl : r'.Lists n other) :
    r.Lists n other ∨ other ∈ r.connections := by
  cases h with
  | write hc hs => exact .inl hl
  | tend hs =>
    rw [lists_put, hs, mem_membersOf] at hl
    rcases hl with ⟨rfl, hl⟩ | ⟨-, hl⟩
    · exact .inl hl
    · exact .inl hl
  | join hc hs =>
    rw [lists_modifyDestinations, lists_put, Subscription.mem_joined, hs, mem_membersOf] at hl
    rcases hl with ⟨rfl, rfl | hl⟩ | ⟨-, hl⟩
    · obtain ⟨c, hc, -⟩ := hc
      exact .inr (Option.isSome_iff_exists.mpr ⟨c, hc⟩)
    · exact .inl hl
    · exact .inl hl
  | leave hs =>
    rw [lists_modifyDestinations, lists_put, Subscription.members_without] at hl
    rcases hl with ⟨rfl, hl⟩ | ⟨-, hl⟩
    · exact .inl ⟨_, hs, List.mem_of_mem_erase hl⟩
    · exact .inl hl
  | strike hs => exact .inl hl
  | drop name =>
    obtain ⟨s, hs, hid⟩ := hl
    exact .inl ⟨s, subscription?_of_drop hs, hid⟩

/-! ## What is in step whoever holds a subscription -/

/-- Connections are what the tables say they are while they are live. Nothing is said of members
that are gone, or of names that are no destinations. -/
structure Enrolled (r : Registry) : Prop where
  /-- Connections are open and registered under their numbers. -/
  registered : ∀ ⦃id c⦄, r.connections.get? id = some c → c.id = id ∧ c.closed = false
  nodup : ∀ ⦃name s⦄, r.subscription? name = some s → s.members.Nodup
  /-- A member that is live knows where it belongs. -/
  joined : ∀ ⦃name id⦄, r.Lists name id → id ∈ r.connections → r.Joined id name
  /-- Until its login a connection has told nothing and belongs nowhere. -/
  unknown : ∀ ⦃id c⦄, r.connections.get? id = some c → c.session.clientId = none →
    c.session = {} ∧ ∀ name, name ∉ c.destinations
  clientIds_iff : ∀ clientId id, r.clientIds.get? clientId = some id ↔ r.LoggedIn id clientId

theorem enrolled_empty (lockTimeout : Duration) : ({ lockTimeout } : Registry).Enrolled where
  registered id c h := by cases h
  nodup name s h := by cases h
  joined name id h := by
    obtain ⟨s, hs, -⟩ := h
    cases hs
  unknown id c h := by cases h
  clientIds_iff := (coherent_empty lockTimeout).clientIds_iff

/-- An operation that logs nobody in or out has to answer for the memberships only. -/
theorem Enrolled.of_login (h : r.Enrolled) (hlog : ∀ id, r'.login? id = r.login? id)
    (hcl : r'.clientIds = r.clientIds)
    (hnodup : ∀ ⦃name s⦄, r'.subscription? name = some s → s.members.Nodup)
    (hjoined : ∀ ⦃name id⦄, r'.Lists name id → id ∈ r.connections → r'.Joined id name)
    (hback : ∀ ⦃id name⦄, r'.Joined id name → r.Joined id name ∨ ∃ x, r.LoggedIn id x) :
    r'.Enrolled where
  registered id c' hc' := by
    obtain ⟨c, hc, hi, -, ho⟩ := exists_of_login hlog hc'
    rw [← hi, ← ho]
    exact h.registered hc
  nodup := hnodup
  joined name id hl hid := hjoined hl ((mem_connections_of_login hlog id).mp hid)
  unknown id c' hc' hno := by
    obtain ⟨c, hc, -, hs, -⟩ := exists_of_login hlog hc'
    rw [← hs] at hno ⊢
    obtain ⟨hsession, hd⟩ := h.unknown hc hno
    refine ⟨hsession, fun name hn => ?_⟩
    obtain ⟨c₀, hc₀, hn₀⟩ | ⟨x, c₀, hc₀, hx⟩ := hback ⟨c', hc', hn⟩
    · obtain rfl := Option.some.inj (hc.symm.trans hc₀)
      exact hd name hn₀
    · obtain rfl := Option.some.inj (hc.symm.trans hc₀)
      rw [hno] at hx
      cases hx
  clientIds_iff clientId id := by
    rw [hcl, h.clientIds_iff]
    exact ⟨loggedIn_of_login fun id => (hlog id).symm, loggedIn_of_login hlog⟩

theorem Enrolled.nodup_membersOf (h : r.Enrolled) (name : String) : (r.membersOf name).Nodup := by
  unfold membersOf
  cases hs : r.subscription? name with
  | none => exact List.nodup_nil
  | some s => exact h.nodup hs

/-- A subscription may be put in its place if it lists nobody twice. -/
theorem Enrolled.nodup_put (h : r.Enrolled) {name : String} {s : Subscription}
    (hs : s.members.Nodup) ⦃n : String⦄ ⦃s' : Subscription⦄
    (hs' : (r.putSubscription name s).subscription? n = some s') : s'.members.Nodup := by
  rw [subscription?_putSubscription] at hs'
  split at hs'
  · cases hs'
    exact hs
  · exact h.nodup hs'

/-- After a move nobody is listed twice. -/
theorem Move.nodup (h : r.Move r') (he : r.Enrolled) :
    ∀ ⦃name s⦄, r'.subscription? name = some s → s.members.Nodup := by
  cases h with
  | write hc hs => exact he.nodup
  | tend hs => exact he.nodup_put (hs ▸ he.nodup_membersOf _)
  | join hc hs => exact he.nodup_put (Subscription.nodup_joined (hs ▸ he.nodup_membersOf _) _)
  | leave hs =>
    refine he.nodup_put ?_
    rw [Subscription.members_without]
    exact (he.nodup hs).erase _
  | strike hs => exact he.nodup
  | drop name => exact fun n s hs => he.nodup (subscription?_of_drop hs)

/-- After a move whoever is listed and live knows it. -/
theorem Move.joined (h : r.Move r') (he : r.Enrolled) :
    ∀ ⦃name id⦄, r'.Lists name id → id ∈ r.connections → r'.Joined id name := by
  cases h with
  | write hc hs =>
    intro n other hl hid
    exact joined_of_standing (fun id => ((Written.put hc hs).standing id).symm)
      (he.joined hl hid)
  | tend hs =>
    intro n other hl hid
    rw [lists_put, hs, mem_membersOf] at hl
    rcases hl with ⟨rfl, hl⟩ | ⟨-, hl⟩
    · exact he.joined hl hid
    · exact he.joined hl hid
  | @join id clientId name s hc hs =>
    intro n other hl hid
    obtain ⟨c, hc, -⟩ := hc
    have hid' : id ∈ (r.putSubscription name (s.joined id)).connections :=
      Option.isSome_iff_exists.mpr ⟨c, hc⟩
    rw [lists_modifyDestinations, lists_put, Subscription.mem_joined, hs, mem_membersOf] at hl
    rw [joined_add hid', joined_put]
    rcases hl with ⟨rfl, rfl | hl⟩ | ⟨-, hl⟩
    · exact .inl ⟨rfl, rfl⟩
    · exact .inr (he.joined hl hid)
    · exact .inr (he.joined hl hid)
  | @leave id name s hs =>
    intro n other hl hid
    rw [lists_modifyDestinations, lists_put, Subscription.mem_without (he.nodup hs)] at hl
    rw [joined_erase, joined_put]
    rcases hl with ⟨rfl, hne, hl⟩ | ⟨hne, hl⟩
    · exact ⟨fun e => hne e.1, he.joined ⟨s, hs, hl⟩ hid⟩
    · exact ⟨fun e => hne e.2, he.joined hl hid⟩
  | @strike id name hs =>
    intro n other hl hid
    rw [joined_erase]
    refine ⟨?_, he.joined hl hid⟩
    rintro ⟨rfl, rfl⟩
    obtain ⟨s, hs', -⟩ := hl
    have hs' : r.subscription? n = some s := hs'
    rw [hs] at hs'
    cases hs'
  | drop name =>
    intro n other hl hid
    obtain ⟨s, hs, hm⟩ := hl
    exact he.joined ⟨s, subscription?_of_drop hs, hm⟩ hid

/-- By a move nobody belongs to more than before, but for clients that have logged in. -/
theorem Move.joined_or_loggedIn (h : r.Move r') :
    ∀ ⦃id name⦄, r'.Joined id name → r.Joined id name ∨ ∃ x, r.LoggedIn id x := by
  cases h with
  | write hc hs =>
    intro other n hj
    exact .inl (joined_of_standing (Written.put hc hs).standing hj)
  | tend hs => exact fun other n hj => .inl hj
  | @join id clientId name s hc hs =>
    intro other n hj
    have hid' : id ∈ (r.putSubscription name (s.joined id)).connections := by
      obtain ⟨c, hc, -⟩ := hc
      exact Option.isSome_iff_exists.mpr ⟨c, hc⟩
    rw [joined_add hid', joined_put] at hj
    rcases hj with ⟨rfl, -⟩ | hj
    · exact .inr ⟨clientId, hc⟩
    · exact .inl hj
  | leave hs =>
    intro other n hj
    rw [joined_erase, joined_put] at hj
    exact .inl hj.2
  | strike hs =>
    intro other n hj
    rw [joined_erase] at hj
    exact .inl hj.2
  | drop name => exact fun other n hj => .inl hj

/-- **A move leaves in step what is in step.** -/
theorem Move.enrolled (h : r.Move r') (he : r.Enrolled) : r'.Enrolled :=
  he.of_login h.login? h.clientIds (h.nodup he) (h.joined he) h.joined_or_loggedIn

namespace Moves

theorem login? (h : r.Moves r') (id : ConnectionId) : r'.login? id = r.login? id := by
  induction h with
  | refl => rfl
  | tail _ h ih => exact (h.login? id).trans ih

theorem mem_connections (h : r.Moves r') (id : ConnectionId) :
    id ∈ r'.connections ↔ id ∈ r.connections :=
  mem_connections_of_login h.login? id

theorem enrolled (h : r.Moves r') (he : r.Enrolled) : r'.Enrolled := by
  induction h with
  | refl => exact he
  | tail _ h ih => exact h.enrolled ih

theorem lists (h : r.Moves r') {n : String} {other : ConnectionId} (hl : r'.Lists n other) :
    r.Lists n other ∨ other ∈ r.connections := by
  induction h with
  | refl => exact .inl hl
  | tail hm h ih =>
    rcases h.lists hl with hl | hid
    · exact ih hl
    · exact .inr ((mem_connections hm other).mp hid)

end Moves

/-! ## The operations move -/

theorem moves_deliverTo (r : Registry) (id : ConnectionId) (m : Message) :
    r.Moves (r.deliverTo id m).2 := by
  unfold deliverTo
  cases hc : r.connections.get? id with
  | none => exact .refl
  | some c => exact .single (.write hc (c.standing_send m))

/-- Tending to a subscription in its place. -/
theorem moves_modify (r : Registry) (name : String) {f : Subscription → Subscription}
    (hf : ∀ s, (f s).members = s.members) :
    r.Moves { r with subscriptions := r.subscriptions.modify name f } := by
  cases hs : r.subscription? name with
  | none =>
    have he : r.subscriptions.modify name f = r.subscriptions := by
      refine Table.ext fun n => ?_
      rw [Table.get?_modify]
      split
      · rename_i e
        have hs' : r.subscriptions.get? n = none := e ▸ hs
        rw [hs']
        rfl
      · rfl
    rw [he]
  | some s =>
    have he : r.subscriptions.modify name f = r.subscriptions.insert name (f s) := by
      refine Table.ext fun n => ?_
      rw [Table.get?_modify, Table.get?_insert]
      split
      · rename_i e
        have hs' : r.subscriptions.get? n = some s := e ▸ hs
        rw [hs']
        rfl
      · rfl
    rw [he]
    exact .single (.tend ((hf s).trans (membersOf_of_some hs).symm))

theorem moves_finishDelivery (r : Registry) (name : String) : r.Moves (r.finishDelivery name) :=
  r.moves_modify name fun _ => rfl

/-- **Routing a message.** -/
theorem moves_deliver (r : Registry) (m : Message) : r.Moves (r.deliver m).2.2 := by
  unfold deliver
  split
  · exact .refl
  · rename_i name _
    split
    · exact .refl
    · rename_i s hs
      split
      · exact .refl
      · rename_i targets held hb
        have hput : r.Moves (r.putSubscription name held) := by
          refine .single (.tend ?_)
          rw [(Subscription.begin_eq_ok hb).2, membersOf_of_some hs]
        have hall := Subscription.attemptAll_rel (R := Moves) (fun _ => .refl) .trans
          (fun r id => r.moves_deliverTo id m) s.name targets (r.putSubscription name held)
        exact (hput.trans hall).trans (moves_finishDelivery _ name)

/-- **Joining a destination,** for a client that has logged in. -/
theorem moves_subscribe {id : ConnectionId} {clientId : String} (hin : r.LoggedIn id clientId)
    (name : String) (type : DestinationType) (qos : QoS) :
    r.Moves (r.subscribe id name type qos).2.2 := by
  have hmembers := r.members_subscriptionOrNew name type qos
  have ⟨c, hc, _⟩ := hin
  unfold subscribe
  rw [hc]
  dsimp only
  split
  · exact .single (.tend hmembers)
  · rename_i new s' ha
    rw [Subscription.add_eq_ok ha]
    exact .single (.join hin hmembers)

/-- **Leaving a destination.** -/
theorem moves_unsubscribe (r : Registry) (id : ConnectionId) (name : String) :
    r.Moves (r.unsubscribe id name).2 := by
  unfold unsubscribe
  split
  · rename_i hs
    exact .single (.strike hs)
  · rename_i s hs
    split
    · exact .refl
    · rename_i was s' hr
      rw [Subscription.remove_eq_ok hr]
      exact .single (.leave hs)

theorem moves_clearMembers {name : String} (ids : List ConnectionId) (s : Subscription)
    (hs : r.subscription? name = none) : r.Moves (clearMembers r name s ids).2.2 := by
  induction ids generalizing r s with
  | nil => exact .refl
  | cons id ids ih =>
    have hstrike : r.Moves (r.modifyDestinations id fun d => d.erase name) := .single (.strike hs)
    unfold clearMembers
    dsimp only
    split
    · exact hstrike.trans (ih _ hs)
    · exact hstrike.trans (ih _ hs)

/-- **Dropping a destination.** -/
theorem moves_remove (r : Registry) (name : String) : r.Moves (r.remove name).2.2 := by
  have hdrop : r.Moves { r with subscriptions := r.subscriptions.erase name } :=
    .single (.drop name)
  unfold remove
  split
  · exact .refl
  · dsimp only
    split
    · exact hdrop
    · exact hdrop.trans (moves_clearMembers _ _ (Table.get?_erase_self _ _))

/-- What others do to a subscription: they take its lock or give it back, and move its cursor. -/
def contend (r : Registry) (name : String) (lock : Lock) (cursor : Option Nat) : Registry :=
  { r with subscriptions := r.subscriptions.modify name fun s => { s with lock, cursor } }

theorem moves_contend (r : Registry) (name : String) (lock : Lock) (cursor : Option Nat) :
    r.Moves (r.contend name lock cursor) :=
  r.moves_modify name fun _ => rfl

theorem moves_removeAll (names : List String) (r : Registry) :
    r.Moves (r.removeAll names).2 := by
  induction names generalizing r with
  | nil => exact .refl
  | cons name names ih => exact (r.moves_remove name).trans (ih _)

/-! ## Logging in, coming and going -/

/-- A client id is taken by a connection that has none if nobody has it, and only then. -/
theorem Enrolled.claim_iff (h : r.Enrolled) {c : Connection}
    (hc : r.connections.get? c.id = some c) (hn : c.session.clientId = none) {clientId : String} :
    (∃ r', r.claim c.id clientId = .ok r') ↔ ∀ id, ¬ r.LoggedIn id clientId := by
  have hno : ¬ r.LoggedIn c.id clientId := by
    rintro ⟨c', hc', hx⟩
    rw [hc] at hc'
    cases hc'
    rw [hn] at hx
    cases hx
  unfold claim
  cases ho : r.clientIds.get? clientId with
  | none =>
    refine ⟨fun _ id hl => ?_, fun _ => ⟨_, rfl⟩⟩
    rw [(h.clientIds_iff clientId id).mpr hl] at ho
    cases ho
  | some owner =>
    have hown := (h.clientIds_iff clientId owner).mp ho
    have hne : owner ≠ c.id := by
      rintro rfl
      exact hno hown
    simp only [if_neg hne]
    exact ⟨fun ⟨_, hr'⟩ => (nomatch hr'), fun hall => absurd hown (hall owner)⟩

theorem Enrolled.claim_eq (h : r.Enrolled) {c : Connection}
    (hc : r.connections.get? c.id = some c) (hn : c.session.clientId = none) {clientId : String}
    (hr' : r.claim c.id clientId = .ok r') :
    r' = { r with clientIds := r.clientIds.insert clientId c.id } := by
  have hfree : r.clientIds.get? clientId = none := by
    cases ho : r.clientIds.get? clientId with
    | none => rfl
    | some owner =>
      have hown := (h.clientIds_iff clientId owner).mp ho
      exact absurd hown ((h.claim_iff hc hn).mp ⟨r', hr'⟩ owner)
  unfold claim at hr'
  rw [hfree] at hr'
  cases hr'
  rfl

/-- **A connection logs in** under a client id that it has claimed. -/
theorem Enrolled.claim (h : r.Enrolled) {c : Connection} {clientId : String} {session : Session}
    (hc : r.connections.get? c.id = some c) (hn : c.session.clientId = none)
    (hr' : r.claim c.id clientId = .ok r') (hs : session.clientId = some clientId) :
    (r'.addConnection { c with session }).Enrolled := by
  have hall := (h.claim_iff hc hn).mp ⟨r', hr'⟩
  rw [h.claim_eq hc hn hr']
  have hid : c.id ∈ r.connections := Option.isSome_iff_exists.mpr ⟨c, hc⟩
  refine ⟨fun id c' hc' => ?_, h.nodup, fun name id hl hid' => ?_, fun id c' hc' hno => ?_,
    fun x id => ?_⟩
  · rw [get?_addConnection] at hc'
    split at hc'
    · rename_i e
      cases hc'
      exact ⟨e.symm, (h.registered hc).2⟩
    · exact h.registered hc'
  · have hid' : id ∈ r.connections := by
      rw [Table.mem_iff, get?_addConnection] at hid'
      split at hid'
      · rename_i e
        rw [e]
        exact hid
      · exact hid'
    have hj := h.joined hl hid'
    rw [joined_addConnection]
    by_cases e : id = c.id
    · subst e
      obtain ⟨c', hc', hn'⟩ := hj
      rw [hc] at hc'
      cases hc'
      exact .inl ⟨rfl, hn'⟩
    · exact .inr ⟨e, hj⟩
  · rw [get?_addConnection] at hc'
    split at hc'
    · cases hc'
      rw [hs] at hno
      cases hno
    · exact h.unknown hc' hno
  · rw [loggedIn_addConnection]
    change (r.clientIds.insert clientId c.id).get? x = some id ↔ _ ∨ (_ ∧ r.LoggedIn id x)
    rw [Table.get?_insert]
    by_cases e : x = clientId
    · subst e
      simp [hs, hall, eq_comm]
    · have hne : session.clientId ≠ some x := by
        rw [hs]
        exact fun h => e (Option.some.inj h).symm
      rw [if_neg e, h.clientIds_iff]
      by_cases e' : id = c.id
      · subst e'
        simp [LoggedIn, hc, hn, hne]
      · simp [e']

/-- **A connection comes** under a number that is not in use and that no destination lists. -/
theorem Enrolled.addConnection (h : r.Enrolled) {c : Connection} (hid : c.id ∉ r.connections)
    (hl : ∀ name, ¬ r.Lists name c.id) (hd : c.destinations = ∅) (hs : c.session = {})
    (ho : c.closed = false) : (r.addConnection c).Enrolled := by
  have hno : ∀ c', r.connections.get? c.id ≠ some c' :=
    fun c' hc' => hid (Option.isSome_iff_exists.mpr ⟨c', hc'⟩)
  refine ⟨fun id c' hc' => ?_, h.nodup, fun name id hl' hid' => ?_, fun id c' hc' hno' => ?_,
    fun x id => ?_⟩
  · rw [get?_addConnection] at hc'
    split at hc'
    · rename_i e
      cases hc'
      exact ⟨e.symm, ho⟩
    · exact h.registered hc'
  · have hne : id ≠ c.id := by
      rintro rfl
      exact hl name hl'
    have hid' : id ∈ r.connections := by
      rwa [Table.mem_iff, get?_addConnection, if_neg hne] at hid'
    rw [joined_addConnection]
    exact .inr ⟨hne, h.joined hl' hid'⟩
  · rw [get?_addConnection] at hc'
    split at hc'
    · cases hc'
      refine ⟨hs, fun name hn => ?_⟩
      rw [hd] at hn
      cases hn
    · exact h.unknown hc' hno'
  · rw [loggedIn_addConnection]
    change r.clientIds.get? x = some id ↔ _
    rw [h.clientIds_iff]
    by_cases e : id = c.id
    · subst e
      simp [LoggedIn, hno, hs]
    · simp [e]

theorem Enrolled.get?_freeClientId (h : r.Enrolled) {c : Connection}
    (hc : r.connections.get? c.id = some c) (clientId : String) (id : ConnectionId) :
    (freeClientId r.clientIds c).get? clientId = some id ↔
      id ≠ c.id ∧ r.clientIds.get? clientId = some id := by
  -- A connection owns the client id of its session and no other one.
  have howner : ∀ x, r.clientIds.get? x = some c.id ↔ c.session.clientId = some x := by
    intro x
    rw [h.clientIds_iff]
    simp [LoggedIn, hc]
  unfold freeClientId
  cases hs : c.session.clientId with
  | none =>
    refine ⟨fun hx => ⟨?_, hx⟩, And.right⟩
    rintro rfl
    rw [howner, hs] at hx
    cases hx
  | some x =>
    simp only
    rw [if_pos ((howner x).mpr hs), Table.get?_erase]
    by_cases e : clientId = x
    · subst e
      have hown := (howner clientId).mpr hs
      simp [hown, eq_comm]
    · rw [if_neg e]
      refine ⟨fun hx => ⟨?_, hx⟩, And.right⟩
      rintro rfl
      rw [howner, hs] at hx
      exact e (Option.some.inj hx).symm

/-- What a connection was last seen with makes no difference when it goes. -/
theorem removeConnection_put {c c' : Connection} (hc : r.connections.get? c.id = some c)
    (hi : c'.id = c.id) (hs : c'.session = c.session) (hd : c'.destinations = c.destinations) :
    (removeConnection { r with connections := r.connections.insert c'.id c' } c'.id).2.2 =
      (r.removeConnection c.id).2.2 := by
  rw [removeConnection_of_some (Table.get?_insert_self _ _ _), removeConnection_of_some hc]
  unfold freeClientId
  simp only [hi, hs, hd, Table.erase_insert_self]

/-- What the going of a connection leaves, whoever holds a subscription. -/
structure Gone (r : Registry) (id : ConnectionId) (r' : Registry) : Prop where
  enrolled : r'.Enrolled
  connections : ∀ other, r'.connections.get? other =
    if other = id then none else r.connections.get? other
  /-- Nobody becomes listed, and the connection stays so only where somebody holds the lock. -/
  lists : ∀ ⦃name other⦄, r'.Lists name other → r.Lists name other ∧ (other = id → r'.Held name)

/-- **A connection goes.** -/
theorem Enrolled.gone (h : r.Enrolled) {c : Connection}
    (hc : r.connections.get? c.id = some c) : r.Gone c.id (r.removeConnection c.id).2.2 := by
  rw [removeConnection_of_some hc]
  have hid : c.id ∈ r.connections := Option.isSome_iff_exists.mpr ⟨c, hc⟩
  have hsub : ∀ {name : String} {s' : Subscription},
      (r.subscriptions.mapValues fun name s =>
        if name ∈ c.destinations then s.withdrawn c.id else s).get? name = some s' →
      ∃ s, r.subscription? name = some s ∧
        s' = if name ∈ c.destinations then s.withdrawn c.id else s := by
    intro name s' hs'
    rw [Table.get?_mapValues] at hs'
    obtain ⟨s, hs, rfl⟩ := Option.map_eq_some_iff.mp hs'
    exact ⟨s, hs, rfl⟩
  have hlists : ∀ ⦃name other⦄, (∃ s', (r.subscriptions.mapValues fun name s =>
      if name ∈ c.destinations then s.withdrawn c.id else s).get? name = some s' ∧
        other ∈ s'.members) →
      r.Lists name other ∧ (other = c.id → ∃ s', (r.subscriptions.mapValues fun name s =>
        if name ∈ c.destinations then s.withdrawn c.id else s).get? name = some s' ∧
          s'.lock.admitsWriter = false) := by
    rintro name other ⟨s', hs', hm⟩
    obtain ⟨s, hs, rfl⟩ := hsub hs'
    by_cases hn : name ∈ c.destinations
    · rw [if_pos hn] at hm hs'
      obtain ⟨hm, hheld⟩ := (mem_withdrawn (h.nodup hs)).mp hm
      refine ⟨⟨s, hs, hm⟩, fun e => ⟨_, hs', ?_⟩⟩
      rw [Subscription.lock_withdrawn]
      exact hheld e
    · rw [if_neg hn] at hm
      refine ⟨⟨s, hs, hm⟩, ?_⟩
      rintro rfl
      obtain ⟨c', hc', hn'⟩ := h.joined ⟨s, hs, hm⟩ hid
      rw [hc] at hc'
      cases hc'
      exact absurd hn' hn
  have hget : ∀ other, (r.connections.erase c.id).get? other =
      if other = c.id then none else r.connections.get? other := fun other =>
    Table.get?_erase _ _ _
  refine ⟨⟨fun id c' hc' => ?_, fun name s' hs' => ?_, fun name id hl hid' => ?_,
    fun id c' hc' hno => ?_, fun x id => ?_⟩, hget, hlists⟩
  · rw [hget] at hc'
    split at hc'
    · cases hc'
    · exact h.registered hc'
  · obtain ⟨s, hs, rfl⟩ := hsub hs'
    split
    · exact Subscription.nodup_withdrawn (h.nodup hs) _
    · exact h.nodup hs
  · have hne : id ≠ c.id := by
      rintro rfl
      rw [Table.mem_iff, hget, if_pos rfl] at hid'
      cases hid'
    rw [Table.mem_iff, hget, if_neg hne] at hid'
    obtain ⟨c', hc', hn'⟩ := h.joined (hlists hl).1 hid'
    exact ⟨c', by rw [hget, if_neg hne, hc'], hn'⟩
  · rw [hget] at hc'
    split at hc'
    · cases hc'
    · exact h.unknown hc' hno
  · rw [h.get?_freeClientId hc, h.clientIds_iff]
    unfold LoggedIn
    simp only [hget]
    by_cases e : id = c.id
    · simp [e]
    · simp [e]

end Registry

end MessageBroker
