import Mathlib.Data.List.Induction
import MessageBroker.Proofs.Histories
import MessageBroker.Proofs.Subscription.Fairness

/-!
# The cursor as a rotation

Whatever was done to a queue, its list and its cursor are one thing, the rotation, and each
operation has one effect on it: a delivery moves the first member to the end, a removal takes one
member out, and a new member comes in right behind the one that came last before it. Who came last
is read off the history, not off the list: it is the member that found all the others that remain
there when it came.

Headlines:
* **`Subscription.behind_of_after`**: who stands ahead of a member stood there before, unless the
  member has just come.
* **`Subscription.cameBehind`**: a member came when all those listed ahead of it were there.
* **`Subscription.play_rotates`**: what becomes of the rotation, in every state of a queue.
-/

namespace MessageBroker.Subscription

variable {s : Subscription}

/-! ## Who came when -/

/-- In the course of some moves a member came when certain others were members already, and it and
they have stayed since. -/
def CameBehind (s : Subscription) (moves : List Move) (others : List ConnectionId)
    (id : ConnectionId) : Prop :=
  ∃ before later, moves = before ++ .add id :: later ∧ id ∉ (s.play before).members ∧
    Stays id (s.play (before ++ [.add id])) later ∧
    ∀ other ∈ others, Stays other (s.play before) (.add id :: later)

/-- Of those that are members after some moves, the one that came last. -/
def IsNewest (s : Subscription) (moves : List Move) (id : ConnectionId) : Prop :=
  id ∈ (s.play moves).members ∧ CameBehind s moves ((s.play moves).members.erase id) id

theorem play_append (s : Subscription) (moves more : List Move) :
    s.play (moves ++ more) = (s.play moves).play more :=
  List.foldl_append

theorem stays_concat {id : ConnectionId} {moves : List Move} {m : Move} :
    Stays id s (moves ++ [m]) ↔ Stays id s moves ∧ id ∈ (s.play (moves ++ [m])).members := by
  induction moves generalizing s with
  | nil => rfl
  | cons first moves ih =>
    change _ ∧ Stays id (s.after first) (moves ++ [m]) ↔
      (_ ∧ Stays id (s.after first) moves) ∧ id ∈ ((s.after first).play (moves ++ [m])).members
    rw [ih, and_assoc]

/-- As long as a member and those ahead of it stay, it came behind them. -/
theorem CameBehind.concat {moves : List Move} {others fewer : List ConnectionId}
    {id : ConnectionId} (h : CameBehind s moves others id) (m : Move) (hsub : fewer ⊆ others)
    (hid : id ∈ (s.play (moves ++ [m])).members)
    (hmem : ∀ other ∈ fewer, other ∈ (s.play (moves ++ [m])).members) :
    CameBehind s (moves ++ [m]) fewer id := by
  obtain ⟨before, later, rfl, hnew, hstays, hothers⟩ := h
  refine ⟨before, later ++ [m], by simp, hnew, stays_concat.mpr ⟨hstays, ?_⟩, fun other ho => ?_⟩
  · rw [← play_append]
    simpa using hid
  · rw [← List.cons_append]
    refine stays_concat.mpr ⟨hothers other (hsub ho), ?_⟩
    rw [← play_append]
    simpa using hmem other ho

/-- **Who stands ahead of a member stood there before,** unless the member has just come. -/
theorem behind_of_after (h : s.Orderly) (m : Move) {id : ConnectionId}
    {ahead behind : List ConnectionId} (hm : (s.after m).members = ahead ++ id :: behind) :
    (∃ ahead' behind', s.members = ahead' ++ id :: behind' ∧ ahead ⊆ ahead') ∨
      (m = .add id ∧ id ∉ s.members ∧ ahead = s.members) := by
  cases m with
  | add new =>
    rw [after_add h] at hm
    by_cases hnew : new ∈ s.members
    · rw [joined_of_mem hnew] at hm
      exact .inl ⟨ahead, behind, hm, List.Subset.refl _⟩
    · rw [joined_of_not_mem hnew] at hm
      rcases concat_eq_append_cons hm with ⟨rest, hs, -⟩ | ⟨rfl, rfl, -⟩
      · exact .inl ⟨ahead, rest, hs, List.Subset.refl _⟩
      · exact .inr ⟨rfl, hnew, rfl⟩
  | remove gone =>
    rw [after_remove h, members_without] at hm
    by_cases hgone : gone ∈ s.members
    · obtain ⟨front, back, -, hs, he⟩ := List.exists_erase_eq hgone
      rw [he] at hm
      rcases append_eq_append_cons hm with ⟨rest, rfl, -⟩ | ⟨rest, rfl, rfl⟩
      · exact .inl ⟨ahead, rest ++ gone :: back, by simp [hs], List.Subset.refl _⟩
      · refine .inl ⟨front ++ gone :: rest, behind, by simp [hs], ?_⟩
        intro x hx
        rcases List.mem_append.mp hx with hx | hx
        · exact List.mem_append_left _ hx
        · exact List.mem_append_right _ (List.mem_cons_of_mem _ hx)
    · rw [List.erase_of_not_mem hgone] at hm
      exact .inl ⟨ahead, behind, hm, List.Subset.refl _⟩
  | deliver answer =>
    rw [after_deliver h, members_served] at hm
    exact .inl ⟨ahead, behind, hm, List.Subset.refl _⟩

/-- **A member came when all those listed ahead of it were there,** and they have stayed since. -/
theorem cameBehind (h : s.Orderly) (hs : s.members = []) (moves : List Move) :
    ∀ ⦃ahead id behind⦄, (s.play moves).members = ahead ++ id :: behind →
      CameBehind s moves ahead id := by
  induction moves using List.reverseRecOn with
  | nil =>
    intro ahead id behind hm
    change s.members = _ at hm
    rw [hs] at hm
    simp at hm
  | append_singleton moves m ih =>
    intro ahead id behind hm
    have hid : id ∈ (s.play (moves ++ [m])).members := by simp [hm]
    have hahead : ∀ other ∈ ahead, other ∈ (s.play (moves ++ [m])).members := by
      intro other ho
      simp [hm, ho]
    have hm' := hm
    rw [play_append] at hm'
    rcases behind_of_after (h.play moves) m hm' with ⟨ahead', behind', hs', hsub⟩ | ⟨rfl, hnew, rfl⟩
    · exact (ih hs').concat m hsub hid hahead
    · refine ⟨moves, [], rfl, hnew, hid, fun other ho => ⟨ho, ?_⟩⟩
      have := hahead other ho
      rwa [play_append] at this

/-- The last of the list is the newest member. -/
theorem isNewest_of_last (h : s.Orderly) (hs : s.members = []) {moves : List Move}
    {others : List ConnectionId} {id : ConnectionId}
    (hm : (s.play moves).members = others ++ [id]) : IsNewest s moves id := by
  have hnodup := (h.play moves).atRest.nodup
  rw [hm, List.nodup_append] at hnodup
  have hid : id ∉ others := fun ho => hnodup.2.2 id ho id List.mem_cons_self rfl
  have herase : (s.play moves).members.erase id = others := by
    rw [hm, List.erase_append_right _ hid, List.erase_cons_head, List.append_nil]
  refine ⟨by simp [hm], ?_⟩
  rw [herase]
  exact cameBehind h hs moves hm

/-! ## The rotation -/

/-- What the operations of a queue do to its rotation; `newest` says who came last. -/
structure Rotates (s : Subscription) (newest : ConnectionId → Prop) : Prop where
  nodup : s.members.Nodup
  cursor_lt : ∀ ⦃place⦄, s.cursor = some place → place < s.members.length
  /-- Everybody has one turn in it. -/
  perm : s.rotation.Perm s.members
  /-- A delivery attempts the first and no other, and moves it to the end, taken or not. -/
  delivers : ∀ ⦃id rest⦄, s.rotation = id :: rest → ∀ answer,
    s.attempted (.deliver answer) = [id] ∧
      (s.after (.deliver answer)).rotation = rest ++ [id] ∧
      (s.after (.deliver answer)).members = s.members
  /-- A removal takes one member out. -/
  removes : ∀ id, s.remove id = .ok (decide (id ∈ s.members), s.after (.remove id)) ∧
    (s.after (.remove id)).rotation = s.rotation.erase id
  /-- A new member comes in right behind the newest, which is the end where the list begins at the
  cursor, and never first. -/
  adds : ∀ ⦃id⦄, id ∉ s.members → s.add id = .ok (true, s.after (.add id)) ∧
    (s.next = 0 → (s.after (.add id)).rotation = s.rotation ++ [id]) ∧
    (s.members ≠ [] → (s.after (.add id)).rotation.head? = s.rotation.head? ∧
      ∃ front last back, newest last ∧ s.rotation = front ++ last :: back ∧
        (s.after (.add id)).rotation = front ++ last :: id :: back)
  /-- Who is a member cannot join again. -/
  adds_member : ∀ ⦃id⦄, id ∈ s.members → s.add id = .ok (false, s)
  /-- Who is no member cannot leave. -/
  removes_other : ∀ ⦃id⦄, id ∉ s.members → s.remove id = .ok (false, s)

/-- A new member comes in behind the last of the list. -/
theorem rotation_joined_of_last (h : s.Orderly) {id last : ConnectionId}
    {others : List ConnectionId} (hid : id ∉ s.members) (hm : s.members = others ++ [last]) :
    ∃ front back, s.rotation = front ++ last :: back ∧
      (s.joined id).rotation = front ++ last :: id :: back := by
  have hlt : s.next < s.members.length := h.next_lt (by simp [hm])
  have hle : s.next ≤ others.length := by
    rw [hm, List.length_append] at hlt
    exact Nat.lt_succ_iff.mp hlt
  refine ⟨others.drop s.next, others.take s.next, ?_, ?_⟩
  · unfold rotation
    rw [hm, List.drop_append_of_le_length hle, List.take_append_of_le_length hle]
    simp
  · rw [rotation_joined h hid, hm, List.drop_append_of_le_length hle,
      List.take_append_of_le_length hle]
    simp

theorem rotation_joined_of_next (h : s.Orderly) {id : ConnectionId} (hid : id ∉ s.members)
    (hn : s.next = 0) : (s.joined id).rotation = s.rotation ++ [id] := by
  rw [rotation_joined h hid]
  unfold rotation
  simp [hn]

theorem Orderly.rotates (h : s.Orderly) {newest : ConnectionId → Prop}
    (hnew : ∀ ⦃others last⦄, s.members = others ++ [last] → newest last) : s.Rotates newest where
  nodup := h.atRest.nodup
  cursor_lt := h.cursor_lt
  perm := s.rotation_perm
  delivers id rest hr answer := by
    obtain ⟨ha, hrot⟩ := attempted_of_rotation h hr answer
    exact ⟨ha, hrot, by rw [after_deliver h, members_served]⟩
  removes id := by
    rw [after_remove h]
    exact ⟨remove_eq h.atRest.free id, rotation_without h.atRest.nodup id⟩
  adds id hid := by
    rw [after_add h]
    refine ⟨?_, rotation_joined_of_next h hid, fun hne => ?_⟩
    · rw [add_eq h.atRest.free, decide_eq_true hid]
    · obtain ⟨others, last, hm⟩ := List.eq_nil_or_concat s.members |>.resolve_left hne
      rw [List.concat_eq_append] at hm
      obtain ⟨front, back, hr, hr'⟩ := rotation_joined_of_last h hid hm
      refine ⟨?_, front, last, back, hnew hm, hr, hr'⟩
      rw [hr, hr']
      cases front <;> rfl
  adds_member id hid := by
    rw [add_eq h.atRest.free, joined_of_mem hid, decide_eq_false (not_not_intro hid)]
  removes_other id hid := by
    rw [remove_eq h.atRest.free, without_of_not_mem hid, decide_eq_false hid]

/-- **The list and the cursor of a queue are one rotation,** whatever was done to it before. -/
theorem play_rotates (name : String) (qos : QoS) (lockTimeout : Duration) (moves : List Move) :
    (play { name, type := .queue, qos, lockTimeout } moves).Rotates
      (IsNewest { name, type := .queue, qos, lockTimeout } moves) := by
  have h := orderly_new name qos lockTimeout
  exact (h.play moves).rotates fun _ _ hm => isNewest_of_last h rfl hm

/-- The newest member leaves while another one is next, and somebody comes. -/
example (answer : ConnectionId → Except BrokerError Unit) :
    (play { name := "work", type := .queue, qos := .atMostOnce, lockTimeout := .ofSeconds 1 }
      [.add 1, .add 2, .add 3, .deliver answer, .remove 3, .add 4]).rotation = [2, 4, 1] := by
  cbv

end MessageBroker.Subscription
