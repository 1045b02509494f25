import MessageBroker.Proofs.Broker.Contention
import MessageBroker.Proofs.Broker.Publishing

/-!
# What publishing leaves in the store

A message is stored before it is routed, and taken out again unless a destination that waits for
acknowledgements has a member that took it. Routing comes to nothing if somebody else holds the
destination for himself; then nobody is left to take the message out, and it stays, though its
publisher is told that publishing failed. Nothing is supposed here of the locks, nor of what the
registry lists.

Headlines:
* **`Registry.deliver_of_admitted`**: routing goes well if the destination lets a reader in, and
  whether anybody has taken the message then.
* **`Registry.taken_iff`**: where nobody is listed twice, that is whether any member would take it.
* **`Broker.publish_of_locked`**: what becomes of a message that finds its destination held.
* **`Broker.publish_leftovers`**: when publishing fails, and what is in the store afterwards.
* **`Broker.lockout_leftover`**: a message that nobody has got and that is stored nevertheless.
-/

namespace MessageBroker

namespace Registry

variable {r : Registry} {m : Message}

/-- The registry once a message has been handed to some connections, one after the other. -/
def attempted (r : Registry) (m : Message) (ids : List ConnectionId) : Registry :=
  ids.foldl (fun r id => (r.deliverTo id m).2) r

/-- One of the connections that a message is handed to takes it when its turn comes. -/
def Taken (r : Registry) (m : Message) (targets : List ConnectionId) : Prop :=
  ∃ before id after, targets = before ++ id :: after ∧ (r.attempted m before).takes m id = true

/-! ## Whether anybody takes a message -/

theorem not_taken_nil : ¬ r.Taken m [] := by
  rintro ⟨before, id, after, he, -⟩
  simp at he

/-- The first one takes it, or one of the others once the first has been attempted. -/
theorem taken_cons {id : ConnectionId} {ids : List ConnectionId} :
    r.Taken m (id :: ids) ↔ r.takes m id = true ∨ (r.deliverTo id m).2.Taken m ids := by
  constructor
  · rintro ⟨before, other, after, he, ht⟩
    cases before with
    | nil =>
      cases he
      exact .inl ht
    | cons first before =>
      cases he
      exact .inr ⟨before, other, after, rfl, ht⟩
  · rintro (ht | ⟨before, other, after, rfl, ht⟩)
    · exact ⟨[], id, ids, rfl, ht⟩
    · exact ⟨id :: before, other, after, rfl, ht⟩

/-- Somebody is counted if somebody takes the message. -/
theorem attemptAll_ne_zero (m : Message) (destination : String) (targets : List ConnectionId)
    (r : Registry) :
    (Subscription.attemptAll (fun r id => r.deliverTo id m) destination targets r).1 ≠ 0 ↔
      r.Taken m targets := by
  induction targets generalizing r with
  | nil =>
    simp only [Subscription.attemptAll]
    exact iff_of_false (absurd rfl) not_taken_nil
  | cons id ids ih =>
    rw [taken_cons, ← ih]
    simp only [Subscription.attemptAll, takes]
    cases (r.deliverTo id m).1 with
    | ok u => simp [Except.isOk, Except.toBool]
    | error e => simp [Except.isOk, Except.toBool]

/-- **Where nobody is listed twice,** a message is taken if any member would take it by itself. -/
theorem taken_iff {targets : List ConnectionId} (hn : targets.Nodup) :
    r.Taken m targets ↔ ∃ id ∈ targets, r.takes m id = true := by
  rw [← attemptAll_ne_zero m "", (attemptAll_deliverTo m "" hn r).2, ← Nat.pos_iff_ne_zero,
    List.countP_pos_iff]

/-- A delivery that is under way makes no difference to who takes a message. -/
theorem taken_put (name : String) (s : Subscription) {targets : List ConnectionId} :
    (r.putSubscription name s).Taken m targets ↔ r.Taken m targets := by
  have hdel : ∀ (r : Registry) (id : ConnectionId),
      ((r.putSubscription name s).deliverTo id m).2 =
        (r.deliverTo id m).2.putSubscription name s := by
    intro r id
    cases hc : r.connections.get? id with
    | none => simp [deliverTo, putSubscription, hc]
    | some c => simp [deliverTo, putSubscription, hc]
  induction targets generalizing r with
  | nil => exact iff_of_false not_taken_nil not_taken_nil
  | cons id ids ih =>
    rw [taken_cons, taken_cons, takes_put, hdel]
    exact or_congr_right ih

/-! ## Routing, whoever holds the destination -/

theorem deliver_of_locked {name : String} {s : Subscription} (hm : m.address? = some name)
    (hs : r.subscription? name = some s) (hl : s.lock.admitsReader = false) :
    r.deliver m = (.error (.lockTimeout s.timedOut), [], r) := by
  unfold deliver
  rw [hm]
  simp only [hs, Subscription.begin_of_not_admitsReader hl]

theorem deliver_of_unknown {name : String} (hm : m.address? = some name)
    (hs : r.subscription? name = none) : r.deliver m = (.ok ⟨0, none⟩, [], r) := by
  unfold deliver
  rw [hm]
  simp only [hs]

/-- **Routing goes well if the destination lets a reader in,** and tells whether anybody has taken
the message. -/
theorem deliver_of_admitted {name : String} {s : Subscription} (hm : m.address? = some name)
    (hs : r.subscription? name = some s) (hl : s.lock.admitsReader = true) :
    ∃ taken, (r.deliver m).1 = .ok ⟨taken, some s.qos⟩ ∧ (taken ≠ 0 ↔ r.Taken m s.targets) := by
  unfold deliver
  rw [hm]
  simp only [hs, Subscription.begin, hl, if_true]
  refine ⟨_, rfl, ?_⟩
  rw [attemptAll_ne_zero, taken_put]
  rfl

end Registry

namespace Broker

variable {b : Broker} {m : Message}

/-- The destination of a message is there, and somebody holds it for himself. -/
def Locked (b : Broker) (m : Message) (s : Subscription) : Prop :=
  ∃ name, m.address? = some name ∧ b.registry.subscription? name = some s ∧
    s.lock.admitsReader = false

/-- A message is meant for a destination, which is not there or lets a reader in. -/
def Admitted (b : Broker) (m : Message) : Prop :=
  (∃ name, m.address? = some name) ∧ ∀ s, ¬ b.Locked m s

/-- The destination of a message waits for acknowledgements, and one of those that the message is
meant for takes it when its turn comes. -/
def Wanted (b : Broker) (m : Message) : Prop :=
  ∃ name s, m.address? = some name ∧ b.registry.subscription? name = some s ∧
    s.qos = .atLeastOnce ∧ b.registry.Taken (stamped m b.nextId) s.targets

/-- When publishing fails, and what is in the store afterwards. -/
structure Leftovers (b : Broker) (m : Message) : Prop where
  /-- A message for nowhere changes nothing. -/
  nowhere : m.address? = none → b.publish m = (.error (.protocol .publishWithoutDestination), b)
  /-- Another one fails only if it finds its destination held, -/
  fails : (∃ e, (b.publish m).1 = .error e) ↔ m.address? = none ∨ ∃ s, b.Locked m s
  /-- and then it has its number and is in the store, and nothing else has happened. -/
  stays : ∀ s, b.Locked m s → b.publish m = (.error (.lockTimeout s.timedOut), { b with
    nextId := b.nextId + 1
    store := b.store.insert b.nextId (stamped m b.nextId) b.clock })
  /-- One that has been routed is in the store only if it is wanted there. -/
  kept : ∀ x, (b.publish m).1 = .ok x → x.1 = b.nextId ∧
    ∀ e, (b.publish m).2.store.entries.get? b.nextId = some e ↔
      b.Wanted m ∧ e = (stamped m b.nextId, b.clock)
  /-- Where no member is listed twice, this is whether any of those that it is meant for would take
  it. -/
  wanted : (∀ name s, b.registry.subscription? name = some s → s.members.Nodup) →
    (b.Wanted m ↔ b.Retains m)
  /-- Whatever is stored under another number stays as it was. -/
  others : ∀ id, id ≠ b.nextId →
    (b.publish m).2.store.entries.get? id = b.store.entries.get? id

/-! ## Publishing, whoever holds the destination -/

theorem nowhere_or_locked_or_admitted (b : Broker) (m : Message) :
    m.address? = none ∨ (∃ s, b.Locked m s) ∨ b.Admitted m := by
  cases hm : m.address? with
  | none => exact .inl rfl
  | some name =>
    by_cases hl : ∃ s, b.Locked m s
    · exact .inr (.inl hl)
    · exact .inr (.inr ⟨⟨name, hm⟩, not_exists.mp hl⟩)

/-- **A message that finds its destination held stays in the store,** though nobody has got it. -/
theorem publish_of_locked {s : Subscription} (h : b.Locked m s) :
    b.publish m = (.error (.lockTimeout s.timedOut), { b with
      nextId := b.nextId + 1
      store := b.store.insert b.nextId (stamped m b.nextId) b.clock }) := by
  obtain ⟨name, hm, hs, hl⟩ := h
  have hd := Registry.deliver_of_locked (r := b.registry) (m := stamped m b.nextId) hm hs hl
  unfold publish
  rw [hm]
  simp only [hd, withRegistry, List.append_nil]

/-- Routing tells of a message that does not whether it has to be kept. -/
theorem deliver_stamped (h : b.Admitted m) :
    ∃ d, (b.registry.deliver (stamped m b.nextId)).1 = .ok d ∧
      (mustKeep d = true ↔ b.Wanted m) := by
  obtain ⟨⟨name, hm⟩, hl⟩ := h
  have hm' : (stamped m b.nextId).address? = some name := hm
  cases hs : b.registry.subscription? name with
  | none =>
    have hno : ¬ b.Wanted m := by
      rintro ⟨name', s, hn, hs', -⟩
      cases hm.symm.trans hn
      cases hs.symm.trans hs'
    exact ⟨⟨0, none⟩, congrArg Prod.fst (Registry.deliver_of_unknown hm' hs),
      iff_of_false (by decide) hno⟩
  | some s =>
    have hr : s.lock.admitsReader = true := by
      rw [← Bool.not_eq_false]
      exact fun hr => hl s ⟨name, hm, hs, hr⟩
    have hwanted : b.Wanted m ↔
        s.qos = .atLeastOnce ∧ b.registry.Taken (stamped m b.nextId) s.targets := by
      constructor
      · rintro ⟨name', s', hn, hs', hw⟩
        cases hm.symm.trans hn
        cases hs.symm.trans hs'
        exact hw
      · exact fun hw => ⟨name, s, hm, hs, hw⟩
    obtain ⟨taken, hok, htaken⟩ := Registry.deliver_of_admitted hm' hs hr
    refine ⟨⟨taken, some s.qos⟩, hok, ?_⟩
    rw [hwanted, ← htaken]
    simp only [mustKeep, Bool.and_eq_true, beq_iff_eq, bne_iff_ne, Option.some.injEq]

/-- It is taken out of the store again if it is not wanted there. -/
theorem publish_of_admitted (h : b.Admitted m) :
    ∃ d, (b.publish m).1 = .ok (b.nextId, d) ∧
      (mustKeep d = true ↔ b.Wanted m) ∧
      (b.publish m).2.store =
        if mustKeep d then b.store.insert b.nextId (stamped m b.nextId) b.clock
        else (b.store.insert b.nextId (stamped m b.nextId) b.clock).erase b.nextId := by
  obtain ⟨d, hok, hkeep⟩ := deliver_stamped h
  obtain ⟨⟨name, hm⟩, -⟩ := h
  refine ⟨d, ?_, hkeep, ?_⟩
  · unfold publish
    rw [hm]
    simp only [hok]
  · unfold publish
    rw [hm]
    simp only [hok]
    split <;> rfl

/-- Publishing touches nothing in the store but what is under the next number. -/
theorem get?_store_publish_of_ne (b : Broker) (m : Message) {id : MessageId} (h : id ≠ b.nextId) :
    (b.publish m).2.store.entries.get? id = b.store.entries.get? id := by
  have hinsert : (b.store.insert b.nextId (stamped m b.nextId) b.clock).entries.get? id =
      b.store.entries.get? id := Table.get?_insert_of_ne _ _ h
  rcases b.nowhere_or_locked_or_admitted m with hm | ⟨s, hs⟩ | ha
  · rw [publish_of_none hm]
  · rw [publish_of_locked hs]
    exact hinsert
  · obtain ⟨d, -, -, hstore⟩ := publish_of_admitted ha
    rw [hstore]
    split
    · exact hinsert
    · unfold Store.erase
      rw [Table.get?_erase, if_neg h, hinsert]

theorem wanted_iff_retains
    (hn : ∀ name s, b.registry.subscription? name = some s → s.members.Nodup) :
    b.Wanted m ↔ b.Retains m := by
  unfold Wanted Retains
  refine exists_congr fun name => exists_congr fun s => and_congr_right fun _ =>
    and_congr_right fun hs => and_congr_right fun _ => ?_
  rw [Registry.taken_iff (Subscription.nodup_targets (hn name s hs))]
  simp only [Registry.takes_iff]
  rfl

/-- What has been routed is in the store if it is wanted there. -/
theorem get?_store_publish_self (h : b.Admitted m) (e : Message × Timestamp) :
    (b.publish m).2.store.entries.get? b.nextId = some e ↔
      b.Wanted m ∧ e = (stamped m b.nextId, b.clock) := by
  obtain ⟨d, -, hkeep, hstore⟩ := publish_of_admitted h
  rw [hstore, ← hkeep]
  split
  · rename_i hk
    unfold Store.insert
    rw [Table.get?_insert_self]
    simp [hk, eq_comm]
  · rename_i hk
    unfold Store.erase
    rw [Table.get?_erase, if_pos rfl]
    simp [hk]

/-- **When publishing fails, and what is in the store afterwards,** whoever holds the
destination. -/
theorem publish_leftovers (b : Broker) (m : Message) : b.Leftovers m := by
  have hpart := b.nowhere_or_locked_or_admitted m
  refine ⟨publish_of_none, ?_, fun _ => publish_of_locked, fun x hx => ?_, wanted_iff_retains,
    fun _ => b.get?_store_publish_of_ne m⟩
  · rcases hpart with hm | ⟨s, hs⟩ | ha
    · rw [publish_of_none hm]
      exact iff_of_true ⟨_, rfl⟩ (.inl hm)
    · rw [publish_of_locked hs]
      exact iff_of_true ⟨_, rfl⟩ (.inr ⟨s, hs⟩)
    · obtain ⟨d, hok, -⟩ := publish_of_admitted ha
      obtain ⟨⟨name, hm⟩, hl⟩ := ha
      rw [hok]
      exact iff_of_false nofun (by simp [hm, hl])
  · rcases hpart with hm | ⟨s, hs⟩ | ha
    · rw [publish_of_none hm] at hx
      cases hx
    · rw [publish_of_locked hs] at hx
      cases hx
    · obtain ⟨d, hok, -⟩ := publish_of_admitted ha
      rw [hok] at hx
      cases hx
      exact ⟨rfl, get?_store_publish_self ha⟩

/-- A client joins a destination that waits for acknowledgements, and somebody holds it for
himself then. -/
def lockout : List Turn :=
  [.event (.accept 1 {}), .event (.sent 1 (.connect "ada")),
    .event (.sent 1 ((Message.subscribe "work").withHeader Header.qos.name "1")),
    .event (.perform (.serve 1)), .contend "work" .exclusive none]

/-- **Publishing fails and the message is stored,** though nothing has been written to the member. -/
theorem lockout_leftover :
    let b := (Broker.new {} 0).play lockout
    let after := b.publish (.publish "work" [])
    after.1 = .error (.lockTimeout ⟨.ofSeconds 1⟩) ∧ b.store.entries.entries = [] ∧
      after.2.store.entries.keys = [1] ∧
      (after.2.connection? 1).map (·.stream.written) = (b.connection? 1).map (·.stream.written) := by
  decide +kernel

end Broker

end MessageBroker
