import MessageBroker.Subscription.Basic

/-!
# Changing the members of a subscription that nobody holds

Where one operation follows the other, no lock is ever refused: adding, removing and delivering give
back a subscription that nobody holds, with no member listed twice.

Headlines:
* **`Subscription.add_eq`**, **`Subscription.remove_eq`**, **`Subscription.begin_eq`**: what the
  operations give when nobody holds the lock.
* **`Subscription.AtRest.joined`**, **`Subscription.AtRest.without`**,
  **`Subscription.AtRest.served`**: they lead from rest to rest.
-/

namespace MessageBroker.Subscription

/-- Nobody holds the lock, and no member is listed twice. -/
structure AtRest (s : Subscription) : Prop where
  free : s.lock = .free
  nodup : s.members.Nodup

/-- With a member more, unless it is one. -/
def joined (s : Subscription) (id : ConnectionId) : Subscription :=
  if id ∈ s.members then s else { s with members := s.members ++ [id] }

/-- With a member less, if it is one. -/
def without (s : Subscription) (id : ConnectionId) : Subscription :=
  match s.members.idxOf? id with
  | none => s
  | some place =>
    { s with
      members := s.members.erase id
      cursor := cursorAfterRemoval s.cursor place (s.members.erase id).length }

/-- With a member less, unless somebody holds the lock. -/
def withdrawn (s : Subscription) (id : ConnectionId) : Subscription :=
  if s.lock.admitsWriter then s.without id else s

/-- With the cursor behind the member that is served next. -/
def served (s : Subscription) : Subscription := s.select.2

/-- The same while the one delivery to that member lasts. -/
def held (s : Subscription) : Subscription := { s.served with lock := .shared 0 }

variable {s : Subscription}

/-! ## What the operations give -/

theorem add_of_admitsWriter (h : s.lock.admitsWriter = true) (id : ConnectionId) :
    s.add id = .ok (decide (id ∉ s.members), s.joined id) := by
  unfold add joined
  rw [if_pos h]
  by_cases hm : id ∈ s.members
  · rw [if_pos hm, if_pos hm, decide_eq_false (not_not_intro hm)]
  · rw [if_neg hm, if_neg hm, decide_eq_true hm]

theorem add_of_not_admitsWriter (h : ¬ s.lock.admitsWriter = true) (id : ConnectionId) :
    s.add id = .error s.timedOut :=
  if_neg h

theorem add_eq (h : s.lock = .free) (id : ConnectionId) :
    s.add id = .ok (decide (id ∉ s.members), s.joined id) :=
  add_of_admitsWriter (by rw [h]; rfl) id

theorem erase_eq_eraseIdx {id : ConnectionId} {place : Nat}
    (h : s.members.idxOf? id = some place) : s.members.erase id = s.members.eraseIdx place := by
  rw [List.erase_eq_eraseIdx, h]

theorem remove_of_admitsWriter (h : s.lock.admitsWriter = true) (id : ConnectionId) :
    s.remove id = .ok (decide (id ∈ s.members), s.without id) := by
  unfold remove without
  rw [if_pos h]
  cases hi : s.members.idxOf? id with
  | none => simp only [List.idxOf?_eq_none_iff.mp hi, decide_false]
  | some place =>
    have hm : id ∈ s.members := List.isSome_idxOf?.mp (by rw [hi]; rfl)
    simp only [decide_eq_true hm, erase_eq_eraseIdx hi]

theorem remove_of_not_admitsWriter (h : ¬ s.lock.admitsWriter = true) (id : ConnectionId) :
    s.remove id = .error s.timedOut :=
  if_neg h

theorem remove_eq (h : s.lock = .free) (id : ConnectionId) :
    s.remove id = .ok (decide (id ∈ s.members), s.without id) :=
  remove_of_admitsWriter (by rw [h]; rfl) id

theorem add_eq_ok {id : ConnectionId} {new : Bool} {s' : Subscription}
    (h : s.add id = .ok (new, s')) : s' = s.joined id := by
  by_cases hl : s.lock.admitsWriter = true
  · rw [add_of_admitsWriter hl] at h
    cases h
    rfl
  · rw [add_of_not_admitsWriter hl] at h
    cases h

theorem remove_eq_ok {id : ConnectionId} {was : Bool} {s' : Subscription}
    (h : s.remove id = .ok (was, s')) : s' = s.without id := by
  by_cases hl : s.lock.admitsWriter = true
  · rw [remove_of_admitsWriter hl] at h
    cases h
    rfl
  · rw [remove_of_not_admitsWriter hl] at h
    cases h

theorem members?_eq (h : s.lock = .free) : s.members? = .ok s.members := by
  unfold members?
  simp only [h, Lock.admitsReader, if_true]

/-- Serving a member moves nothing but the cursor. -/
theorem exists_served_eq (s : Subscription) : ∃ cursor, s.served = { s with cursor } := by
  unfold served select
  split
  · exact ⟨s.cursor, rfl⟩
  · dsimp only
    split
    · exact ⟨s.cursor, rfl⟩
    · exact ⟨_, rfl⟩

/-- Taking a member off changes nothing else but the cursor. -/
theorem exists_without_eq (s : Subscription) (id : ConnectionId) :
    ∃ cursor, s.without id = { s with members := s.members.erase id, cursor } := by
  unfold without
  split
  · rename_i h
    rw [List.erase_of_not_mem (List.idxOf?_eq_none_iff.mp h)]
    exact ⟨s.cursor, rfl⟩
  · exact ⟨_, rfl⟩

theorem begin_eq (h : s.lock = .free) :
    s.begin = .ok (s.select.1, s.held) := by
  obtain ⟨cursor, hs⟩ := exists_served_eq s
  have hl : s.select.2.lock = .free := by
    change s.served.lock = .free
    rw [hs]
    exact h
  unfold begin held served
  simp only [h, hl, Lock.admitsReader, Lock.enter, if_true]

theorem begin_of_not_admitsReader (h : s.lock.admitsReader = false) :
    s.begin = .error s.timedOut :=
  if_neg (by simp [h])

/-- Once a delivery has ended, it has moved the cursor. -/
theorem finish_held (h : s.lock = .free) : s.held.finish = s.served := by
  obtain ⟨cursor, hs⟩ := exists_served_eq s
  unfold finish held
  rw [hs]
  simp only [Lock.leave, ← h]

/-! ## What they keep -/

theorem joined_of_mem {id : ConnectionId} (h : id ∈ s.members) : s.joined id = s := if_pos h

theorem joined_of_not_mem {id : ConnectionId} (h : id ∉ s.members) :
    s.joined id = { s with members := s.members ++ [id] } := if_neg h

theorem without_of_not_mem {id : ConnectionId} (h : id ∉ s.members) : s.without id = s := by
  unfold without
  rw [List.idxOf?_eq_none_iff.mpr h]

theorem mem_joined {id other : ConnectionId} :
    other ∈ (s.joined id).members ↔ other = id ∨ other ∈ s.members := by
  by_cases h : id ∈ s.members
  · rw [joined_of_mem h]
    exact ⟨.inr, fun ho => ho.elim (fun e => e ▸ h) fun ho => ho⟩
  · rw [joined_of_not_mem h, List.mem_append, List.mem_singleton, or_comm]

@[simp] theorem members_without (s : Subscription) (id : ConnectionId) :
    (s.without id).members = s.members.erase id := by
  obtain ⟨cursor, hs⟩ := exists_without_eq s id
  rw [hs]

theorem mem_without (h : s.members.Nodup) {id other : ConnectionId} :
    other ∈ (s.without id).members ↔ other ≠ id ∧ other ∈ s.members := by
  rw [members_without, h.mem_erase_iff]

@[simp] theorem members_served (s : Subscription) : s.served.members = s.members := by
  obtain ⟨cursor, hs⟩ := exists_served_eq s
  rw [hs]

theorem nodup_joined (h : s.members.Nodup) (id : ConnectionId) : (s.joined id).members.Nodup := by
  by_cases hm : id ∈ s.members
  · rwa [joined_of_mem hm]
  · rw [joined_of_not_mem hm]
    refine List.nodup_append.mpr ⟨h, List.pairwise_singleton _ _, ?_⟩
    rintro a ha b hb rfl
    exact hm (List.mem_singleton.mp hb ▸ ha)

theorem nodup_without (h : s.members.Nodup) (id : ConnectionId) :
    (s.without id).members.Nodup := by
  rw [members_without]
  exact h.erase id

theorem AtRest.joined (h : s.AtRest) (id : ConnectionId) : (s.joined id).AtRest := by
  refine ⟨?_, nodup_joined h.nodup id⟩
  by_cases hm : id ∈ s.members
  · rw [joined_of_mem hm]
    exact h.free
  · rw [joined_of_not_mem hm]
    exact h.free

theorem AtRest.without (h : s.AtRest) (id : ConnectionId) : (s.without id).AtRest := by
  refine ⟨?_, nodup_without h.nodup id⟩
  obtain ⟨cursor, hs⟩ := exists_without_eq s id
  rw [hs]
  exact h.free

theorem AtRest.served (h : s.AtRest) : s.served.AtRest := by
  obtain ⟨cursor, hs⟩ := exists_served_eq s
  rw [hs]
  exact ⟨h.free, h.nodup⟩

/-- What holds between the states before and after every attempt holds between those before and
after all of them. -/
theorem attemptAll_rel {σ : Type} {R : σ → σ → Prop}
    {attempt : σ → ConnectionId → Except BrokerError Unit × σ} (hrefl : ∀ a, R a a)
    (htrans : ∀ {a b c}, R a b → R b c → R a c) (hstep : ∀ a id, R a (attempt a id).2)
    (destination : String) (ids : List ConnectionId) (state : σ) :
    R state (attemptAll attempt destination ids state).2.2 := by
  induction ids generalizing state with
  | nil => exact hrefl state
  | cons id ids ih =>
    have h := htrans (hstep state id) (ih (attempt state id).2)
    simp only [attemptAll]
    split
    · exact h
    · exact h

end MessageBroker.Subscription
