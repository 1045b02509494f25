import MessageBroker.Proofs.Registry.Coherence

/-!
# Removing a connection while deliveries go on

A connection that goes has to be taken off each of its destinations with nobody else there, and
there is only so long a wait for that. Where a delivery goes on for longer, the connection is
forgotten all the same, with its own list of destinations; the destination keeps it as a member, and
no later removal takes it off. Every message that is handed to it then is lost.

Headlines:
* **`Registry.Mutual.removal`**: a connection that is removed stays a member of just those
  of its destinations that somebody held.
* **`Registry.deliver_gone`**: a message that such a member is served does not arrive.
-/

namespace MessageBroker.Registry

/-- Members and destinations name each other, whoever holds a subscription. -/
structure Mutual (r : Registry) : Prop where
  nodup : ∀ ⦃name s⦄, r.subscription? name = some s → s.members.Nodup
  lists_iff : ∀ name id, r.Lists name id ↔ r.Joined id name

theorem Coherent.mutual {r : Registry} (h : r.Coherent) : r.Mutual :=
  ⟨fun _ _ hs => (h.atRest hs).nodup, h.lists_iff⟩

/-- Somebody holds the subscription of a destination: whoever wants it alone waits in vain. -/
def Held (r : Registry) (name : String) : Prop :=
  ∃ s, r.subscription? name = some s ∧ s.lock.admitsWriter = false

/-- What the removal of a connection comes to, by the registry before and after it and by what is
reported. -/
structure Removal (r : Registry) (id : ConnectionId) (notices : List Notice) (r' : Registry) :
    Prop where
  forgotten : id ∉ r'.connections
  /-- The connection stays a member of what somebody held; the other members stay. -/
  lists_iff : ∀ name other,
    r'.Lists name other ↔ r.Lists name other ∧ (other = id → r.Held name)
  /-- Each destination that keeps it is reported. -/
  reported : ∀ name, (∃ who e, .notWithdrawn who name e ∈ notices) ↔ r.Lists name id ∧ r.Held name
  /-- What is handed to it is lost. -/
  lost : ∀ m, r'.deliverTo id m = (.error (.connectionGone id), r')
  /-- Removing it once more does nothing. -/
  final : r'.removeConnection id = (none, [], r')

variable {r r' : Registry} {id : ConnectionId}

theorem get?_of_not_mem (h : id ∉ r.connections) : r.connections.get? id = none :=
  Option.not_isSome_iff_eq_none.mp h

theorem deliverTo_of_not_mem (h : id ∉ r.connections) (m : Message) :
    r.deliverTo id m = (.error (.connectionGone id), r) := by
  unfold deliverTo
  rw [get?_of_not_mem h]

theorem removeConnection_of_not_mem (h : id ∉ r.connections) :
    r.removeConnection id = (none, [], r) := by
  unfold removeConnection
  rw [get?_of_not_mem h]

theorem refusal?_eq_some {who name : String} {n : Notice} :
    r.refusal? who name = some n ↔ ∃ s, r.subscription? name = some s ∧
      s.lock.admitsWriter = false ∧ n = .notWithdrawn who name s.timedOut := by
  unfold refusal?
  rw [Option.bind_eq_some_iff]
  refine exists_congr fun s => and_congr_right fun _ => ?_
  cases s.lock.admitsWriter with
  | true => simp
  | false => simp [eq_comm]

theorem mem_withdrawn {s : Subscription} (h : s.members.Nodup) {other : ConnectionId} :
    other ∈ (s.withdrawn id).members ↔
      other ∈ s.members ∧ (other = id → s.lock.admitsWriter = false) := by
  unfold Subscription.withdrawn
  cases hl : s.lock.admitsWriter with
  | true =>
    rw [if_pos rfl, Subscription.mem_without h]
    simp [and_comm]
  | false => simp

/-- **A connection that is removed stays a member of just those of its destinations that somebody
held.** -/
theorem Mutual.removal (h : r.Mutual) (id : ConnectionId) :
    r.Removal id (r.removeConnection id).2.1 (r.removeConnection id).2.2 := by
  cases hc : r.connections.get? id with
  | none =>
    have hid : id ∉ r.connections := by simp [Table.mem_iff, hc]
    have hno : ∀ name, ¬ r.Lists name id := by
      intro name hl
      obtain ⟨c, hc', -⟩ := (h.lists_iff name id).mp hl
      rw [hc] at hc'
      cases hc'
    rw [removeConnection_of_not_mem hid]
    refine ⟨hid, fun name other => ?_, fun name => ?_, deliverTo_of_not_mem hid,
      removeConnection_of_not_mem hid⟩
    · refine ⟨fun hl => ⟨hl, ?_⟩, And.left⟩
      rintro rfl
      exact absurd hl (hno name)
    · simp [hno name]
  | some c =>
    -- The destinations that list the connection are those that it names.
    have hnames : ∀ name, r.Lists name id ↔ name ∈ c.destinations := by
      intro name
      rw [h.lists_iff]
      simp [Joined, hc]
    rw [removeConnection_of_some hc]
    simp only
    have hid : id ∉ r.connections.erase id := by simp [Table.mem_iff]
    refine ⟨hid, fun name other => ?_, fun name => ?_, deliverTo_of_not_mem hid,
      removeConnection_of_not_mem hid⟩
    · have hname := hnames name
      unfold Lists subscription? at hname ⊢
      unfold Held subscription?
      simp only [Table.get?_mapValues]
      cases hs : r.subscriptions.get? name with
      | none => simp
      | some s =>
        simp only [hs, Option.some.injEq, exists_eq_left'] at hname
        simp only [Option.map_some, Option.some.injEq, exists_eq_left']
        split
        · exact mem_withdrawn (h.nodup hs)
        · rename_i hn
          refine ⟨fun ho => ⟨ho, ?_⟩, And.left⟩
          rintro rfl
          exact absurd (hname.mp ho) hn
    · rw [hnames]
      simp only [List.mem_filterMap, Table.mem_keys, refusal?_eq_some, Notice.notWithdrawn.injEq]
      constructor
      · rintro ⟨who, e, n, hn, s, hs, hl, -, rfl, -⟩
        exact ⟨hn, s, hs, hl⟩
      · rintro ⟨hn, s, hs, hl⟩
        exact ⟨c.name, s.timedOut, name, hn, s, hs, hl, rfl, rfl, rfl⟩

/-! ## What becomes of messages to a member that is gone -/

/-- A member that is gone is reported, wherever it stands among those that are attempted. -/
theorem notDelivered_mem_attemptAll {m : Message} {destination : String}
    {targets : List ConnectionId} (ht : id ∈ targets) (hid : id ∉ r.connections) :
    .notDelivered destination id (.connectionGone id) ∈
      (Subscription.attemptAll (fun r id => r.deliverTo id m) destination targets r).2.1 := by
  induction targets generalizing r with
  | nil => cases ht
  | cons target targets ih =>
    by_cases he : target = id
    · subst he
      simp [Subscription.attemptAll, deliverTo_of_not_mem hid]
    · have hid' : id ∉ (r.deliverTo target m).2.connections := by
        have hst := (written_deliverTo r target m).standing id
        unfold standing? at hst
        simp only [Table.mem_iff] at hid ⊢
        rwa [← Option.isSome_map (f := Connection.standing), hst, Option.isSome_map]
      have := ih ((List.mem_cons.mp ht).resolve_left (Ne.symm he)) hid'
      simp only [Subscription.attemptAll]
      split
      · exact this
      · exact List.mem_cons_of_mem _ this

/-- **A message that is meant for a member that is gone does not arrive there,** and the failure is
all that is heard of it. -/
theorem deliver_gone {m : Message} {name : String} {s : Subscription} (hm : m.address? = some name)
    (hs : r.subscription? name = some s) (hl : s.lock.admitsReader = true)
    (ht : id ∈ s.select.1) (hid : id ∉ r.connections) :
    .notDelivered s.name id (.connectionGone id) ∈ (r.deliver m).2.1 := by
  unfold deliver
  rw [hm]
  simp only [hs, Subscription.begin, hl, if_true]
  exact notDelivered_mem_attemptAll ht hid

/-! ## A queue that keeps a member that has gone -/

/-- A client that is the one member of a queue. -/
def consumer : Connection :=
  { Connection.new 1 {} 0 with destinations := (∅ : NameSet).add "work" }

/-- The queue, while a delivery goes on. -/
def serving : Subscription :=
  { name := "work", type := .queue, qos := .atMostOnce, lockTimeout := ⟨1000⟩, members := [1]
    lock := .shared 0 }

/-- Nobody else is there. -/
def busy : Registry :=
  { lockTimeout := ⟨1000⟩
    connections := (∅ : Table ConnectionId Connection).insert 1 consumer
    subscriptions := (∅ : Table String Subscription).insert "work" serving }

theorem get?_busy (id : ConnectionId) :
    busy.connections.get? id = if id = 1 then some consumer else none :=
  Table.get?_insert ..

theorem subscription?_busy (name : String) :
    busy.subscription? name = if name = "work" then some serving else none :=
  Table.get?_insert ..

theorem mem_destinations_consumer (name : String) :
    name ∈ consumer.destinations ↔ name = "work" := by
  unfold consumer
  simp only [NameSet.mem_add]
  exact or_iff_left nofun

theorem busy_mutual : busy.Mutual where
  nodup name s hs := by
    rw [subscription?_busy] at hs
    split at hs
    · cases hs
      exact List.pairwise_singleton _ 1
    · cases hs
  lists_iff name id := by
    unfold Lists Joined
    rw [subscription?_busy, get?_busy]
    by_cases hn : name = "work"
    · by_cases hid : id = 1
      · simp [hn, hid, serving, mem_destinations_consumer]
      · simp [hn, hid, serving]
    · by_cases hid : id = 1
      · simp [hn, hid, mem_destinations_consumer]
      · simp [hn, hid]

theorem busy_removal : busy.Mutual ∧
    busy.Removal 1 (busy.removeConnection 1).2.1 (busy.removeConnection 1).2.2 :=
  ⟨busy_mutual, busy_mutual.removal 1⟩

/-- The client has gone, and once the delivery has ended the queue still serves it. -/
theorem removeConnection_busy :
    1 ∉ (busy.removeConnection 1).2.2.connections ∧
      (busy.removeConnection 1).2.2.Lists "work" 1 ∧
      (((busy.removeConnection 1).2.2.finishDelivery "work").deliver (.publish "work" [])).1 =
        .ok ⟨0, some .atMostOnce⟩ ∧
      (((busy.removeConnection 1).2.2.finishDelivery "work").deliver (.publish "work" [])).2.1 =
        [.notDelivered "work" 1 (.connectionGone 1)] := by
  refine ⟨?_, ⟨serving, ?_, ?_⟩, ?_, ?_⟩
  · decide
  · rfl
  · decide
  · rfl
  · rfl

end MessageBroker.Registry
