import MessageBroker.Proofs.Registry.Operations
import MessageBroker.Proofs.Subscription.Rotation

/-!
# Where a message goes

A message to a topic goes to every member, a message to a queue to the first of the rotation, and a
message to a destination that is not there to nobody. Each of them is written to by itself: what
becomes of one write makes no difference to the next.

Headlines:
* **`Registry.get?_deliver`**: who is written to, and who is not.
* **`Registry.outcome_deliver`**: how many took the message.
-/

namespace MessageBroker

namespace Registry

variable {r : Registry}

/-- The connections that a message is meant for. -/
def recipients (r : Registry) (m : Message) : List ConnectionId :=
  ((m.address?.bind r.subscription?).map Subscription.targets).getD []

/-- Whether a write of the message to a connection goes well. -/
def takes (r : Registry) (m : Message) (id : ConnectionId) : Bool := (r.deliverTo id m).1.isOk

theorem takes_iff {m : Message} {id : ConnectionId} :
    r.takes m id = true ↔ ∃ c, r.connections.get? id = some c ∧ (c.send m).1 = .ok () := by
  unfold takes deliverTo
  cases hc : r.connections.get? id with
  | none => simp [Except.isOk, Except.toBool]
  | some c =>
    simp only [Option.some.injEq, exists_eq_left']
    cases (c.send m).1 <;> simp [Except.isOk, Except.toBool]

theorem get?_deliverTo (r : Registry) (id other : ConnectionId) (m : Message) :
    (r.deliverTo id m).2.connections.get? other =
      if other = id then (r.connections.get? other).map fun c => (c.send m).2
      else r.connections.get? other := by
  unfold deliverTo
  cases hc : r.connections.get? id with
  | none =>
    by_cases e : other = id
    · rw [if_pos e, e, hc, Option.map_none]
    · rw [if_neg e]
  | some c =>
    simp only [Table.get?_insert]
    by_cases e : other = id
    · rw [if_pos e, if_pos e, e, hc, Option.map_some]
    · rw [if_neg e, if_neg e]

/-- A write to one connection makes no difference to a write to another. -/
theorem takes_deliverTo {id other : ConnectionId} (h : other ≠ id) (m : Message) :
    (r.deliverTo id m).2.takes m other = r.takes m other := by
  rw [Bool.eq_iff_iff, takes_iff, takes_iff, get?_deliverTo, if_neg h]

/-- **Attempts on different connections do not interfere:** each is written to as it was, and as
many take the message as would have taken it. -/
theorem attemptAll_deliverTo (m : Message) (destination : String) {targets : List ConnectionId}
    (hn : targets.Nodup) (r : Registry) :
    let x := Subscription.attemptAll (fun r id => r.deliverTo id m) destination targets r
    (∀ id, x.2.2.connections.get? id =
      if id ∈ targets then (r.connections.get? id).map fun c => (c.send m).2
      else r.connections.get? id) ∧ x.1 = targets.countP (r.takes m) := by
  induction targets generalizing r with
  | nil => simp [Subscription.attemptAll]
  | cons target targets ih =>
    obtain ⟨ht, hn⟩ := List.nodup_cons.mp hn
    obtain ⟨hconn, hcount⟩ := ih hn (r.deliverTo target m).2
    have hcount' : targets.countP ((r.deliverTo target m).2.takes m) =
        targets.countP (r.takes m) := by
      refine List.countP_congr fun other ho => ?_
      rw [takes_deliverTo]
      rintro rfl
      exact ht ho
    have hconn' : ∀ id, (Subscription.attemptAll (fun r id => r.deliverTo id m) destination targets
        (r.deliverTo target m).2).2.2.connections.get? id =
          if id ∈ target :: targets then (r.connections.get? id).map fun c => (c.send m).2
          else r.connections.get? id := by
      intro id
      rw [hconn, get?_deliverTo]
      by_cases e : id = target
      · simp [e, ht]
      · simp [e]
    rw [List.countP_cons, ← hcount', ← hcount]
    simp only [Subscription.attemptAll]
    cases ho : (r.deliverTo target m).1 with
    | ok u =>
      refine ⟨hconn', ?_⟩
      simp [takes, ho, Except.isOk, Except.toBool]
    | error e =>
      refine ⟨hconn', ?_⟩
      simp [takes, ho, Except.isOk, Except.toBool]

theorem recipients_of_some {m : Message} {name : String} {s : Subscription}
    (hm : m.address? = some name) (hs : r.subscription? name = some s) :
    r.recipients m = s.targets := by
  unfold recipients
  rw [hm, Option.bind_some, hs]
  rfl

theorem recipients_of_none {m : Message} {name : String} (hm : m.address? = some name)
    (hs : r.subscription? name = none) : r.recipients m = [] := by
  unfold recipients
  rw [hm, Option.bind_some, hs]
  rfl

/-- A delivery that is under way makes no difference to the streams. -/
theorem takes_put (name : String) (s : Subscription) (m : Message) :
    (r.putSubscription name s).takes m = r.takes m := by
  funext id
  rw [Bool.eq_iff_iff, takes_iff, takes_iff]
  rfl

/-- **Those that a message is meant for are written to, each by itself, and nobody else is.** -/
theorem get?_deliver (h : r.AtRest) {m : Message} {name : String} (hm : m.address? = some name)
    (id : ConnectionId) :
    (r.deliver m).2.2.connections.get? id =
      if id ∈ r.recipients m then (r.connections.get? id).map fun c => (c.send m).2
      else r.connections.get? id := by
  cases hs : r.subscription? name with
  | none =>
    rw [recipients_of_none hm hs]
    unfold deliver
    rw [hm]
    simp [hs]
  | some s =>
    have hx := attemptAll_deliverTo m s.name (Subscription.nodup_targets (h hs).nodup)
      (r.putSubscription name s.held)
    rw [deliver_eq h hm hs, recipients_of_some hm hs]
    exact hx.1 id

/-- **As many take a message as it is meant for and can be written to,** and a destination tells how
it keeps messages. -/
theorem outcome_deliver (h : r.AtRest) {m : Message} {name : String} (hm : m.address? = some name) :
    (r.deliver m).1 =
      .ok ⟨(r.recipients m).countP (r.takes m), (r.subscription? name).map (·.qos)⟩ := by
  cases hs : r.subscription? name with
  | none =>
    rw [recipients_of_none hm hs]
    unfold deliver
    rw [hm]
    simp [hs]
  | some s =>
    have hx := attemptAll_deliverTo m s.name (Subscription.nodup_targets (h hs).nodup)
      (r.putSubscription name s.held)
    rw [takes_put] at hx
    rw [deliver_eq h hm hs, recipients_of_some hm hs]
    exact congrArg (fun n => Except.ok (⟨n, some s.qos⟩ : Delivery)) hx.2

end Registry

end MessageBroker
