import MessageBroker.Proofs.Subscription.Rotation
import MessageBroker.Subscription.Reentry

/-!
# Fairness of queues

Members come and go while a queue serves them, and attempts fail or not. None of this brings a
member out of turn: between two attempts on one member every other one that stays has its turn, and
a member waits no longer than it takes to serve those that were there and those that came.

Headlines:
* **`Subscription.count_between`**: whoever is ahead is served once until the other one's turn.
* **`Subscription.deliveries_le`**: deliveries past a member are paid for by those before it.
* **`Subscription.queue_fair`**: queues are fair, whatever is done to them in between.
-/

namespace MessageBroker.Subscription

/-! ## What is done to a subscription -/

/-- A move of those who use a subscription. -/
inductive Move
  | add (id : ConnectionId)
  | remove (id : ConnectionId)
  /-- A message is delivered, and a member that is attempted answers so. -/
  | deliver (answer : ConnectionId → Except BrokerError Unit)

/-- Delivers to members that answer and call nothing. -/
def handOut (s : Subscription) (answer : ConnectionId → Except BrokerError Unit) :
    Except LockTimeout Nat × Progress :=
  s.deliverTo fun _ id => .answer (answer id)

/-- The subscription after a move. -/
def after (s : Subscription) : Move → Subscription
  | .add id => (changed s (s.add id)).2
  | .remove id => (changed s (s.remove id)).2
  | .deliver answer => (s.handOut answer).2.subscription

/-- The members attempted in a move. -/
def attempted (s : Subscription) : Move → List ConnectionId
  | .deliver answer => attempts (s.handOut answer).2.trace
  | _ => []

/-- The subscription after some moves. -/
def play (s : Subscription) (moves : List Move) : Subscription := moves.foldl after s

/-- The members attempted in some moves, in the order of the attempts. -/
def attemptedIn : Subscription → List Move → List ConnectionId
  | _, [] => []
  | s, m :: ms => s.attempted m ++ attemptedIn (s.after m) ms

/-- A member that stays one from move to move. -/
def Stays (id : ConnectionId) : Subscription → List Move → Prop
  | s, [] => id ∈ s.members
  | s, m :: ms => id ∈ s.members ∧ Stays id (s.after m) ms

/-- How many of the moves add a new member. -/
def additions : Subscription → List Move → Nat
  | _, [] => 0
  | s, .add id :: ms => (if id ∈ s.members then 0 else 1) + additions (s.after (.add id)) ms
  | s, m :: ms => additions (s.after m) ms

/-- How many of the moves deliver a message. -/
def deliveries : List Move → Nat
  | [] => 0
  | .deliver _ :: ms => deliveries ms + 1
  | _ :: ms => deliveries ms

variable {s : Subscription}

theorem Stays.mem {id : ConnectionId} : ∀ {ms : List Move}, Stays id s ms → id ∈ s.members
  | [], h => h
  | _ :: _, h => h.1

/-! ## Moves as changes of the rotation -/

theorem attemptEach_answer (answer : ConnectionId → Except BrokerError Unit)
    (ids : List ConnectionId) (p : Progress) :
    (attemptEach (fun _ id p => (Script.answer (answer id)).run p) ids p).2.subscription =
        p.subscription ∧
      attempts (attemptEach (fun _ id p => (Script.answer (answer id)).run p) ids p).2.trace =
        attempts p.trace ++ ids := by
  induction ids generalizing p with
  | nil => exact ⟨rfl, (List.append_nil _).symm⟩
  | cons id ids ih =>
    obtain ⟨hs, ht⟩ := ih ((p.record (.attempted id)).record (.answered id (answer id)))
    refine ⟨hs, ht.trans ?_⟩
    simp [Progress.record, attempts]

theorem handOut_eq (h : s.lock = .free) (answer : ConnectionId → Except BrokerError Unit) :
    (s.handOut answer).2.subscription = s.served ∧
      attempts (s.handOut answer).2.trace = s.select.1 := by
  have ha := attemptEach_answer answer s.select.1 ⟨s.held, []⟩
  unfold handOut deliverTo deliverThrough
  simp only [begin_eq h]
  refine ⟨?_, ha.2⟩
  rw [ha.1]
  exact finish_held h

theorem after_add (h : s.Orderly) (id : ConnectionId) : s.after (.add id) = s.joined id := by
  change (changed s (s.add id)).2 = _
  rw [add_eq h.atRest.free]
  rfl

theorem after_remove (h : s.Orderly) (id : ConnectionId) : s.after (.remove id) = s.without id := by
  change (changed s (s.remove id)).2 = _
  rw [remove_eq h.atRest.free]
  rfl

theorem after_deliver (h : s.Orderly) (answer : ConnectionId → Except BrokerError Unit) :
    s.after (.deliver answer) = s.served :=
  (handOut_eq h.atRest.free answer).1

theorem attempted_deliver (h : s.Orderly) (answer : ConnectionId → Except BrokerError Unit) :
    s.attempted (.deliver answer) = s.select.1 :=
  (handOut_eq h.atRest.free answer).2

theorem Orderly.after (h : s.Orderly) (m : Move) : (s.after m).Orderly := by
  cases m with
  | add id => exact after_add h id ▸ h.joined id
  | remove id => exact after_remove h id ▸ h.without id
  | deliver answer => exact after_deliver h answer ▸ h.served

theorem Orderly.play (h : s.Orderly) (moves : List Move) : (s.play moves).Orderly := by
  induction moves generalizing s with
  | nil => exact h
  | cons m ms ih => exact ih (h.after m)

/-- The first member of the rotation is the one that is attempted, and the only one. -/
theorem attempted_of_rotation (h : s.Orderly) {id : ConnectionId} {rest : List ConnectionId}
    (hr : s.rotation = id :: rest) (answer : ConnectionId → Except BrokerError Unit) :
    s.attempted (.deliver answer) = [id] ∧ (s.after (.deliver answer)).rotation = rest ++ [id] := by
  rw [attempted_deliver h, after_deliver h]
  exact rotation_served h.queue hr

theorem rotation_ne_nil {id : ConnectionId} (hid : id ∈ s.members) :
    ∃ first rest, s.rotation = first :: rest := by
  cases hr : s.rotation with
  | nil =>
    rw [← mem_rotation, hr] at hid
    cases hid
  | cons first rest => exact ⟨first, rest, rfl⟩

/-- A queue without members attempts nobody. -/
theorem attempted_of_empty (h : s.Orderly) (he : s.members = [])
    (answer : ConnectionId → Except BrokerError Unit) : s.attempted (.deliver answer) = [] := by
  rw [attempted_deliver h]
  unfold select
  rw [h.queue, he]
  rfl

theorem exists_rotation_of_attempted (h : s.Orderly) {id : ConnectionId}
    {answer : ConnectionId → Except BrokerError Unit} (ha : s.attempted (.deliver answer) = [id]) :
    ∃ rest, s.rotation = id :: rest := by
  cases hm : s.members with
  | nil =>
    rw [attempted_of_empty h hm] at ha
    cases ha
  | cons first members =>
    obtain ⟨first', rest, hr⟩ := @rotation_ne_nil s first (hm ▸ List.mem_cons_self)
    rw [(attempted_of_rotation h hr answer).1] at ha
    cases ha
    exact ⟨rest, hr⟩

/-! ## Two members in turn -/

/-- One of two members. -/
def isEither (m x y : ConnectionId) : Bool := y == m || y == x

theorem isEither_iff {m x y : ConnectionId} : isEither m x y = true ↔ y = m ∨ y = x := by
  unfold isEither
  rw [Bool.or_eq_true, beq_iff_eq, beq_iff_eq]

/-- Two members in the order of their turns. -/
def turns (s : Subscription) (m x : ConnectionId) : List ConnectionId :=
  s.rotation.filter (isEither m x)

theorem turns_after_add (h : s.Orderly) {m x id : ConnectionId} (hm : m ∈ s.members)
    (hx : x ∈ s.members) : (s.after (.add id)).turns m x = s.turns m x := by
  rw [after_add h]
  by_cases hid : id ∈ s.members
  · rw [joined_of_mem hid]
  · have hne : ¬ isEither m x id = true := by
      rw [isEither_iff]
      rintro (rfl | rfl)
      · exact hid hm
      · exact hid hx
    unfold turns
    rw [rotation_joined h hid, List.filter_append, List.filter_cons_of_neg hne,
      ← List.filter_append]
    rfl

theorem turns_after_remove (h : s.Orderly) {m x id : ConnectionId}
    (hm : m ∈ (s.after (.remove id)).members) (hx : x ∈ (s.after (.remove id)).members) :
    (s.after (.remove id)).turns m x = s.turns m x := by
  rw [after_remove h] at hm hx ⊢
  have hne := ((mem_without h.atRest.nodup).mp hm).1
  have hne' := ((mem_without h.atRest.nodup).mp hx).1
  unfold turns
  rw [rotation_without h.atRest.nodup, (nodup_rotation h.atRest.nodup).erase_eq_filter, List.filter_filter]
  refine List.filter_congr fun y _ => ?_
  by_cases e : y = id
  · subst e
    simp [isEither, hne.symm, hne'.symm]
  · simp [e]

/-- Of the two the one that is served goes behind the other one. -/
theorem turns_of_either (h : s.Orderly) {m x y : ConnectionId} {rest : List ConnectionId}
    (hr : s.rotation = y :: rest) (hy : isEither m x y = true)
    (answer : ConnectionId → Except BrokerError Unit) :
    s.turns m x = y :: rest.filter (isEither m x) ∧
      (s.after (.deliver answer)).turns m x = rest.filter (isEither m x) ++ [y] := by
  unfold turns
  rw [(attempted_of_rotation h hr answer).2, hr, List.filter_append, List.filter_cons_of_pos hy,
    List.filter_cons_of_pos hy, List.filter_nil]
  exact ⟨rfl, rfl⟩

/-- A turn of somebody else leaves the two in order. -/
theorem turns_of_other (h : s.Orderly) {m x y : ConnectionId} {rest : List ConnectionId}
    (hr : s.rotation = y :: rest) (hy : ¬ isEither m x y = true)
    (answer : ConnectionId → Except BrokerError Unit) :
    (s.after (.deliver answer)).turns m x = s.turns m x := by
  unfold turns
  rw [(attempted_of_rotation h hr answer).2, hr, List.filter_append, List.filter_cons_of_neg hy,
    List.filter_cons_of_neg hy, List.filter_nil, List.append_nil]

/-- **Whoever is ahead is served once until the other one's turn,** and whoever is behind is not. -/
theorem count_between {m x : ConnectionId} {ms : List Move} (hne : x ≠ m) (h : s.Orderly)
    (hm : Stays m s ms) (hx : Stays x s ms) (hno : m ∉ s.attemptedIn ms)
    (hlast : ∃ rest, (s.play ms).rotation = m :: rest) :
    (s.turns m x = [x, m] → (s.attemptedIn ms).count x = 1) ∧
      (s.turns m x = [m, x] → (s.attemptedIn ms).count x = 0) := by
  induction ms generalizing s with
  | nil =>
    obtain ⟨rest, hr⟩ := hlast
    change s.rotation = m :: rest at hr
    refine ⟨fun ht => ?_, fun _ => rfl⟩
    unfold turns at ht
    rw [hr, List.filter_cons_of_pos (isEither_iff.mpr (.inl rfl)), List.cons.injEq] at ht
    exact absurd ht.1.symm hne
  | cons mv ms ih =>
    unfold attemptedIn at hno ⊢
    rw [List.mem_append, not_or] at hno
    have ih := ih (h.after mv) hm.2 hx.2 hno.2 hlast
    cases mv with
    | add id =>
      rw [turns_after_add h hm.1 hx.1] at ih
      exact ih
    | remove id =>
      rw [turns_after_remove h hm.2.mem hx.2.mem] at ih
      exact ih
    | deliver answer =>
      obtain ⟨y, rest, hr⟩ := rotation_ne_nil hm.1
      rw [(attempted_of_rotation h hr answer).1] at hno ⊢
      have hy : y ≠ m := fun e => hno.1 (List.mem_singleton.mpr e.symm)
      rw [List.count_append]
      by_cases e : y = x
      · -- It is the turn of the one in question, who must be ahead, and is behind then.
        subst e
        obtain ⟨ht, ht'⟩ := turns_of_either h hr (isEither_iff.mpr (.inr (@rfl _ y))) answer
        rw [ht'] at ih
        rw [ht]
        refine ⟨fun ho => ?_, fun ho => ?_⟩
        · rw [List.cons.injEq] at ho
          rw [ho.2] at ih
          rw [ih.2 rfl, List.count_singleton_self]
        · rw [List.cons.injEq] at ho
          exact absurd ho.1 hy
      · -- It is the turn of somebody else.
        have hc : [y].count x = 0 :=
          List.count_eq_zero.mpr fun hx => e (List.mem_singleton.mp hx).symm
        rw [turns_of_other h hr (fun hy' => (isEither_iff.mp hy').elim hy e)] at ih
        rw [hc, Nat.zero_add]
        exact ih

/-- After its own turn a member has every other one ahead. -/
theorem turns_after_turn (h : s.Orderly) {m x : ConnectionId} (hne : x ≠ m) (hx : x ∈ s.members)
    {rest : List ConnectionId} (hr : s.rotation = m :: rest)
    (answer : ConnectionId → Except BrokerError Unit) :
    (s.after (.deliver answer)).turns m x = [x, m] := by
  have hn := nodup_rotation h.atRest.nodup
  rw [hr, List.nodup_cons] at hn
  have hxr : x ∈ rest := by
    rw [← mem_rotation, hr] at hx
    exact (List.mem_cons.mp hx).resolve_left hne
  have hf : rest.filter (isEither m x) = [x] := by
    have : rest.filter (isEither m x) = rest.filter (· == x) := by
      refine List.filter_congr fun y hy => ?_
      have hym : y ≠ m := fun e => hn.1 (e ▸ hy)
      simp [isEither, hym]
    rw [this, List.filter_beq, hn.2.count, if_pos hxr]
    rfl
  rw [(turns_of_either h hr (isEither_iff.mpr (.inl rfl)) answer).2, hf]
  rfl

/-! ## How long a member waits -/

theorem idxOf_erase_le {a b : ConnectionId} (h : a ≠ b) (l : List ConnectionId) :
    (l.erase b).idxOf a ≤ l.idxOf a := by
  rw [idxOf_erase h]
  split
  · exact Nat.sub_le _ _
  · exact Nat.le_refl _

theorem idxOf_insert_le (a b : ConnectionId) (l l' : List ConnectionId) :
    (l ++ b :: l').idxOf a ≤ (l ++ l').idxOf a + 1 := by
  rw [List.idxOf_append, List.idxOf_append]
  split
  · exact Nat.le_succ _
  · rw [List.idxOf_cons]
    cases b == a with
    | true => exact Nat.le_trans (Nat.zero_add _ ▸ Nat.le_add_left _ _) (Nat.le_succ _)
    | false =>
      simp only [cond_false]
      omega

/-- A member moves up by one with each turn of somebody else. -/
theorem idxOf_after_deliver (h : s.Orderly) {m y : ConnectionId} {rest : List ConnectionId}
    (hr : s.rotation = y :: rest) (hm : m ∈ s.members) (hne : y ≠ m)
    (answer : ConnectionId → Except BrokerError Unit) :
    s.rotation.idxOf m = (s.after (.deliver answer)).rotation.idxOf m + 1 := by
  have hmr : m ∈ rest := by
    rw [← mem_rotation, hr] at hm
    exact (List.mem_cons.mp hm).resolve_left hne.symm
  rw [(attempted_of_rotation h hr answer).2, hr, List.idxOf_append, if_pos hmr, List.idxOf_cons,
    beq_eq_false_iff_ne.mpr hne]
  rfl

/-- **Deliveries past a member are paid for** by those that were ahead of it and those that came. -/
theorem deliveries_le {m : ConnectionId} {ms : List Move} (h : s.Orderly) (hm : Stays m s ms)
    (hno : m ∉ s.attemptedIn ms) : deliveries ms ≤ s.rotation.idxOf m + s.additions ms := by
  induction ms generalizing s with
  | nil => exact Nat.zero_le _
  | cons mv ms ih =>
    unfold attemptedIn at hno
    rw [List.mem_append, not_or] at hno
    have ih := ih (h.after mv) hm.2 hno.2
    cases mv with
    | add id =>
      change deliveries ms ≤ _ at ih
      change deliveries ms ≤ _ + ((if id ∈ s.members then 0 else 1) + _)
      rw [after_add h] at ih ⊢
      by_cases hid : id ∈ s.members
      · rw [joined_of_mem hid] at ih ⊢
        rw [if_pos hid, Nat.zero_add]
        exact ih
      · have hle := idxOf_insert_le m id (s.members.drop s.next) (s.members.take s.next)
        rw [rotation_joined h hid] at ih
        rw [if_neg hid]
        unfold rotation
        omega
    | remove id =>
      change deliveries ms ≤ _ + additions (s.after (.remove id)) ms
      have hne : m ≠ id := by
        have hm' := hm.2.mem
        rw [after_remove h] at hm'
        exact ((mem_without h.atRest.nodup).mp hm').1
      have hle := idxOf_erase_le hne s.rotation
      rw [after_remove h] at ih ⊢
      rw [rotation_without h.atRest.nodup] at ih
      omega
    | deliver answer =>
      obtain ⟨y, rest, hr⟩ := rotation_ne_nil hm.1
      rw [(attempted_of_rotation h hr answer).1] at hno
      have hy : y ≠ m := fun e => hno.1 (List.mem_singleton.mpr e.symm)
      have hup := idxOf_after_deliver h hr hm.1 hy answer
      change deliveries ms + 1 ≤ _ + additions (s.after (.deliver answer)) ms
      omega

/-! ## Fairness -/

/-- What a queue owes its members. -/
structure Fair (s : Subscription) : Prop where
  /-- A delivery attempts one member, if there is any. -/
  serves_one : ∀ answer, s.members ≠ [] → ∃ m ∈ s.members, s.attempted (.deliver answer) = [m]
  /-- Between two attempts on one member every other one that stays is attempted once. -/
  in_turn : ∀ ⦃m answer between answer'⦄, s.attempted (.deliver answer) = [m] →
    Stays m (s.after (.deliver answer)) between →
    m ∉ (s.after (.deliver answer)).attemptedIn between →
    ((s.after (.deliver answer)).play between).attempted (.deliver answer') = [m] →
    ∀ x, x ≠ m → Stays x (s.after (.deliver answer)) between →
      ((s.after (.deliver answer)).attemptedIn between).count x = 1
  /-- A member that stays is attempted before there are more deliveries than members, those that
  come counted in. -/
  served : ∀ ⦃m stretch⦄, Stays m s stretch →
    s.members.length + s.additions stretch ≤ deliveries stretch → m ∈ s.attemptedIn stretch

theorem Orderly.fair (h : s.Orderly) : s.Fair where
  serves_one answer hne := by
    obtain ⟨first, members, hm⟩ := List.exists_cons_of_ne_nil hne
    obtain ⟨m, rest, hr⟩ := @rotation_ne_nil s first (hm ▸ List.mem_cons_self)
    refine ⟨m, ?_, (attempted_of_rotation h hr answer).1⟩
    rw [← mem_rotation, hr]
    exact List.mem_cons_self
  in_turn m answer between answer' ha hm hno ha' x hne hx := by
    obtain ⟨rest, hr⟩ := exists_rotation_of_attempted h ha
    have h' := h.after (.deliver answer)
    have hxs : x ∈ s.members := by
      have := hx.mem
      rwa [after_deliver h, members_served] at this
    exact (count_between hne h' hm hx hno
      (exists_rotation_of_attempted (h'.play between) ha')).1
        (turns_after_turn h hne hxs hr answer)
  served m stretch hm hle := by
    refine Decidable.byContradiction fun hno => ?_
    have hpaid := deliveries_le h hm hno
    have hlt : s.rotation.idxOf m < s.members.length := by
      rw [← length_rotation]
      exact List.idxOf_lt_length_of_mem (mem_rotation.mpr hm.mem)
    omega

/-- **Queues are fair**, whatever was done to them before. -/
theorem queue_fair (name : String) (qos : QoS) (lockTimeout : Duration) (moves : List Move) :
    (play { name, type := .queue, qos, lockTimeout } moves).Fair :=
  ((orderly_new name qos lockTimeout).play moves).fair

/-- The member whose turn is next leaves, and a new one comes when the rotation begins again. -/
example (answer : ConnectionId → Except BrokerError Unit) :
    attemptedIn { name := "work", type := .queue, qos := .atMostOnce, lockTimeout := .ofSeconds 1 }
      [.add 1, .add 2, .add 3, .deliver answer, .remove 2, .deliver answer, .add 4,
        .deliver answer, .deliver answer, .deliver answer] = [1, 3, 1, 3, 4] := by
  cbv

end MessageBroker.Subscription
