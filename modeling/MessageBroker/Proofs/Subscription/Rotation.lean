import Mathlib.Data.List.Basic
import MessageBroker.Proofs.Subscription.Membership

/-!
# The rotation of a queue

A queue serves its members in turn. Its rotation lists them in the order in which they will be
served: those from the cursor on, then those before it. Seen this way the shifts of the cursor
disappear: a delivery moves the first member to the end, and a removal takes a member out.

Headlines:
* **`Subscription.rotation_served`**: a delivery serves the first member and moves it to the end.
* **`Subscription.targets_of_topic`**, **`Subscription.targets_of_queue`**: for whom a message is
  meant.
* **`Subscription.rotation_without`**: a removal takes a member out and changes nothing else.
* **`Subscription.rotation_joined`**: a new member comes in behind the last place of the list.
* **`Subscription.without_comm`**: which of two members leaves first makes no difference.
-/

namespace MessageBroker.Subscription

/-- The place that the cursor stands for. -/
def next (s : Subscription) : Nat := s.cursor.getD 0

/-- The members in the order in which they will be served. -/
def rotation (s : Subscription) : List ConnectionId :=
  s.members.drop s.next ++ s.members.take s.next

/-- The cursor is at a member or at none. -/
def OnMember (s : Subscription) : Prop :=
  ∀ ⦃place⦄, s.cursor = some place → place < s.members.length

/-- A queue that nobody holds, with its cursor at a member or at none. -/
structure Orderly (s : Subscription) : Prop where
  atRest : s.AtRest
  queue : s.type = .queue
  cursor_lt : ∀ ⦃place⦄, s.cursor = some place → place < s.members.length

variable {s : Subscription}

theorem rotation_perm (s : Subscription) : s.rotation.Perm s.members := by
  have h := @List.perm_append_comm _ (s.members.drop s.next) (s.members.take s.next)
  rwa [List.take_append_drop] at h

theorem mem_rotation {id : ConnectionId} : id ∈ s.rotation ↔ id ∈ s.members :=
  s.rotation_perm.mem_iff

theorem length_rotation (s : Subscription) : s.rotation.length = s.members.length :=
  s.rotation_perm.length_eq

theorem nodup_rotation (h : s.members.Nodup) : s.rotation.Nodup :=
  s.rotation_perm.nodup_iff.mpr h

theorem Orderly.next_le (h : s.Orderly) : s.next ≤ s.members.length := by
  unfold next
  cases hc : s.cursor with
  | none => exact Nat.zero_le _
  | some place => exact Nat.le_of_lt (h.cursor_lt hc)

theorem Orderly.next_lt (h : s.Orderly) (hne : s.members ≠ []) : s.next < s.members.length := by
  unfold next
  cases hc : s.cursor with
  | none => exact List.length_pos_iff.mpr hne
  | some place => exact h.cursor_lt hc

theorem place_lt (cursor : Option Nat) {size : Nat} (h : 0 < size) : place cursor size < size := by
  unfold place
  split
  · split
    · assumption
    · exact h
  · exact h

/-- The rotation begins at the place that is served next, also where the cursor is behind the last
member. -/
theorem rotation_eq_place (s : Subscription) : s.rotation =
    s.members.drop (place s.cursor s.members.length) ++
      s.members.take (place s.cursor s.members.length) := by
  unfold rotation place next
  cases s.cursor with
  | none => rfl
  | some c =>
    by_cases hc : c < s.members.length
    · simp [hc]
    · have hle : s.members.length ≤ c := Nat.le_of_not_lt hc
      simp [hc, List.drop_eq_nil_of_le hle, List.take_of_length_le hle]

/-- The cursor splits the members, and the rotation lists the two parts the other way round. -/
theorem rotation_of_split {front back : List ConnectionId} (hm : s.members = front ++ back)
    (hn : s.next = front.length) : s.rotation = back ++ front := by
  unfold rotation
  rw [hm, hn, List.drop_left, List.take_left]

theorem exists_split (h : s.next ≤ s.members.length) :
    ∃ front back, s.members = front ++ back ∧ s.next = front.length := by
  refine ⟨s.members.take s.next, s.members.drop s.next, (List.take_append_drop _ _).symm, ?_⟩
  rw [List.length_take, Nat.min_eq_left h]

/-- A cursor behind the last member is at none. -/
theorem rotation_of_length_le (h : s.members.length ≤ s.next) : s.rotation = s.members := by
  unfold rotation
  rw [List.drop_eq_nil_of_le h, List.take_of_length_le h, List.nil_append]

/-! ## Serving -/

/-- **A delivery serves the first member and moves it to the end.** -/
theorem rotation_served (ht : s.type = .queue) {id : ConnectionId} {rest : List ConnectionId}
    (hr : s.rotation = id :: rest) :
    s.select.1 = [id] ∧ s.served.rotation = rest ++ [id] := by
  have hpos : 0 < s.members.length := by
    rw [← length_rotation, hr]
    exact Nat.succ_pos _
  rw [rotation_eq_place] at hr
  have hlt := place_lt s.cursor hpos
  obtain ⟨p, hp⟩ : ∃ p, place s.cursor s.members.length = p := ⟨_, rfl⟩
  rw [hp] at hr hlt
  rw [List.drop_eq_getElem_cons hlt, List.cons_append, List.cons.injEq] at hr
  obtain ⟨hid, rfl⟩ := hr
  have hs : s.select = ([id], { s with cursor := cursorBehind p s.members.length }) := by
    unfold select
    rw [ht]
    simp only [hp, List.getElem?_eq_getElem hlt, hid]
  have htake : s.members.take p ++ [id] = s.members.take (p + 1) := by
    rw [← hid, List.take_append_getElem]
  refine ⟨by rw [hs], ?_⟩
  unfold served
  rw [hs, List.append_assoc, htake]
  by_cases hnext : p + 1 < s.members.length
  · simp [cursorBehind, hnext, rotation, next]
  · -- The last member of the list was served, and the cursor is at none again.
    have hle : s.members.length ≤ p + 1 := Nat.le_of_not_lt hnext
    simp [cursorBehind, hnext, rotation, next, List.drop_eq_nil_of_le hle,
      List.take_of_length_le hle]

theorem rotation_nil_iff : s.rotation = [] ↔ s.members = [] := by
  rw [← List.length_eq_zero_iff, length_rotation, List.length_eq_zero_iff]

/-- Serving leaves the cursor at a member or at none. -/
theorem OnMember.served (h : s.OnMember) : s.served.OnMember := by
  intro place hp
  rw [members_served]
  unfold Subscription.served select at hp
  cases ht : s.type with
  | topic =>
    rw [ht] at hp
    exact h hp
  | queue =>
    rw [ht] at hp
    simp only at hp
    split at hp
    · exact h hp
    · simp only [cursorBehind] at hp
      split at hp
      · cases hp
        assumption
      · cases hp

/-! ## For whom a message is meant -/

/-- The members that the next message is meant for. -/
def targets (s : Subscription) : List ConnectionId := s.select.1

/-- **A message to a topic is meant for every member.** -/
theorem targets_of_topic (h : s.type = .topic) : s.targets = s.members := by
  unfold targets select
  rw [h]

/-- **A message to a queue is meant for the first of the rotation.** -/
theorem targets_of_queue (h : s.type = .queue) : s.targets = s.rotation.head?.toList := by
  cases hr : s.rotation with
  | nil =>
    unfold targets select
    rw [h, rotation_nil_iff.mp hr]
    rfl
  | cons id rest => exact (rotation_served h hr).1

theorem nodup_targets (h : s.members.Nodup) : s.targets.Nodup := by
  cases ht : s.type with
  | topic => exact targets_of_topic ht ▸ h
  | queue =>
    rw [targets_of_queue ht]
    cases s.rotation.head? with
    | none => exact List.nodup_nil
    | some id => exact List.pairwise_singleton _ id

/-! ## Leaving and joining -/

theorem without_eq {id : ConnectionId} (hid : id ∈ s.members) :
    s.without id = { s with
      members := s.members.erase id
      cursor := cursorAfterRemoval s.cursor (s.members.idxOf id) (s.members.erase id).length } := by
  have hi : s.members.idxOf? id = some (s.members.idxOf id) :=
    List.findIdx?_eq_some_iff_findIdx_eq.mpr ⟨List.idxOf_lt_length_of_mem hid, rfl⟩
  unfold without
  rw [hi]

/-- In front of the cursor a removal moves the cursor along. -/
theorem next_without_of_lt {id : ConnectionId} (hid : id ∈ s.members)
    (hlt : s.members.idxOf id < s.next) : (s.without id).next = s.next - 1 := by
  rw [without_eq hid]
  unfold next at hlt ⊢
  cases hc : s.cursor with
  | none =>
    rw [hc] at hlt
    exact absurd hlt (Nat.not_lt_zero _)
  | some place =>
    rw [hc] at hlt
    simp only [cursorAfterRemoval, Option.getD_some] at hlt ⊢
    rw [if_pos hlt]
    rfl

/-- At the cursor and behind it a removal leaves the cursor where it is, unless nobody is left
there. -/
theorem next_without_of_le {id : ConnectionId} (hid : id ∈ s.members)
    (hle : s.next ≤ s.members.idxOf id) :
    (s.without id).next = s.next ∨
      ((s.without id).next = 0 ∧ (s.members.erase id).length ≤ s.next) := by
  rw [without_eq hid]
  unfold next at hle ⊢
  cases hc : s.cursor with
  | none => exact .inl rfl
  | some place =>
    rw [hc] at hle
    simp only [cursorAfterRemoval, Option.getD_some] at hle ⊢
    rw [if_neg (Nat.not_lt.mpr hle)]
    split
    · rename_i hlast
      exact .inr ⟨rfl, hlast.2⟩
    · exact .inl rfl

/-- A removal takes the member out of the part of the list that it stands in. -/
theorem rotation_without_of_split (h : s.members.Nodup) {id : ConnectionId}
    (hid : id ∈ s.members) {front back : List ConnectionId} (hm : s.members = front ++ back)
    (hn : s.next = front.length) : (s.without id).rotation = (back ++ front).erase id := by
  rw [hm, List.nodup_append] at h
  by_cases hf : id ∈ front
  · have hb : id ∉ back := fun hb => h.2.2 id hf id hb rfl
    have hlt : s.members.idxOf id < s.next := by
      rw [hm, hn, List.idxOf_append, if_pos hf]
      exact List.idxOf_lt_length_of_mem hf
    rw [List.erase_append_right _ hb]
    refine rotation_of_split ?_ ?_
    · rw [members_without, hm, List.erase_append_left _ hf]
    · rw [next_without_of_lt hid hlt, hn, List.length_erase_of_mem hf]
  · have hb : id ∈ back := (List.mem_append.mp (hm ▸ hid)).resolve_left hf
    have hle : s.next ≤ s.members.idxOf id := by
      rw [hm, hn, List.idxOf_append, if_neg hf]
      exact Nat.le_add_left _ _
    have hm' : (s.without id).members = front ++ back.erase id := by
      rw [members_without, hm, List.erase_append_right _ hf]
    rw [List.erase_append_left _ hb]
    rcases next_without_of_le hid hle with hn' | ⟨hn', hlast⟩
    · exact rotation_of_split hm' (hn'.trans hn)
    · have hnil : back.erase id = [] := by
        rw [← members_without, hm', List.length_append, hn] at hlast
        exact List.length_eq_zero_iff.mp (by omega)
      rw [hnil, List.append_nil] at hm'
      rw [hnil, List.nil_append]
      exact (@rotation_of_split (s.without id) [] front hm' hn').trans (List.append_nil _)

/-- **A removal takes a member out and changes nothing else,** wherever the cursor is. -/
theorem rotation_without (h : s.members.Nodup) (id : ConnectionId) :
    (s.without id).rotation = s.rotation.erase id := by
  by_cases hid : id ∈ s.members
  · rcases Nat.lt_or_ge s.members.length s.next with hn | hn
    · have hlt := Nat.lt_trans (List.idxOf_lt_length_of_mem hid) hn
      have hlen := List.length_erase_of_mem hid
      rw [rotation_of_length_le (Nat.le_of_lt hn), rotation_of_length_le, members_without]
      rw [members_without, next_without_of_lt hid hlt]
      omega
    · obtain ⟨front, back, hm, hn⟩ := exists_split hn
      rw [rotation_without_of_split h hid hm hn, rotation_of_split hm hn]
  · rw [without_of_not_mem hid, List.erase_of_not_mem (mt mem_rotation.mp hid)]

/-- **A new member comes in behind the last place of the list.** -/
theorem rotation_joined (h : s.Orderly) {id : ConnectionId} (hid : id ∉ s.members) :
    (s.joined id).rotation = s.members.drop s.next ++ id :: s.members.take s.next := by
  rw [joined_of_not_mem hid]
  unfold rotation
  simp only
  have hn : next { s with members := s.members ++ [id] } = s.next := rfl
  rw [hn, List.drop_append_of_le_length h.next_le, List.take_append_of_le_length h.next_le,
    List.append_assoc, List.singleton_append]

/-- Wherever the cursor is, the others keep their order. -/
theorem erase_rotation_joined {id : ConnectionId} (hid : id ∉ s.members) :
    (s.joined id).rotation.erase id = s.rotation := by
  have hnot : ∀ n, id ∉ s.members.drop n := fun n hd => hid (List.mem_of_mem_drop hd)
  have hn : (s.joined id).next = s.next := by
    rw [joined_of_not_mem hid]
    rfl
  have hm : (s.joined id).members = s.members ++ [id] := by rw [joined_of_not_mem hid]
  unfold rotation
  rw [hn, hm]
  rcases Nat.lt_or_ge s.members.length s.next with hlt | hle
  · have hle : (s.members ++ [id]).length ≤ s.next := by
      rw [List.length_append]
      exact hlt
    rw [List.drop_eq_nil_of_le hle, List.take_of_length_le hle,
      List.drop_eq_nil_of_le (Nat.le_of_lt hlt), List.take_of_length_le (Nat.le_of_lt hlt),
      List.nil_append, List.nil_append, List.erase_append_right _ hid]
    simp
  · rw [List.drop_append_of_le_length hle, List.take_append_of_le_length hle, List.append_assoc,
      List.erase_append_right _ (hnot _)]
    simp

/-- So does joining, -/
theorem OnMember.joined (h : s.OnMember) (id : ConnectionId) : (s.joined id).OnMember := by
  intro place hp
  by_cases hid : id ∈ s.members
  · rw [joined_of_mem hid] at hp ⊢
    exact h hp
  · rw [joined_of_not_mem hid] at hp ⊢
    have hlt := h hp
    rw [List.length_append]
    exact Nat.lt_add_right _ hlt

/-- and so does leaving. -/
theorem OnMember.without (h : s.OnMember) (id : ConnectionId) : (s.without id).OnMember := by
  intro place hp
  by_cases hid : id ∈ s.members
  · rw [without_eq hid] at hp ⊢
    have hlt := List.idxOf_lt_length_of_mem hid
    have hlen := List.length_erase_of_mem hid
    simp only at hp ⊢
    cases hc : s.cursor with
    | none =>
      rw [hc] at hp
      cases hp
    | some c =>
      have hcl := h hc
      rw [hc] at hp
      simp only [cursorAfterRemoval] at hp
      split at hp
      · cases hp
        omega
      · split at hp
        · cases hp
        · cases hp
          omega
  · rw [without_of_not_mem hid] at hp ⊢
    exact h hp

/-! ## Two removals -/

/-- Where the cursor is once the members at two places are gone does not depend on which of them
goes first: `i` stands in front of `j`, and `left` members remain. -/
theorem cursorAfterRemoval_comm (cursor : Option Nat) {i j : Nat} (left : Nat) (hij : i < j)
    (hj : j ≤ left + 1) :
    cursorAfterRemoval (cursorAfterRemoval cursor i (left + 1)) (j - 1) left =
      cursorAfterRemoval (cursorAfterRemoval cursor j (left + 1)) i left := by
  cases cursor with
  | none => rfl
  | some c =>
    -- The cursor is in front of both places, at one of them, between them or behind both.
    rcases Nat.lt_trichotomy c i with hc | rfl | hc
    · grind [cursorAfterRemoval]
    · grind [cursorAfterRemoval]
    · rcases Nat.lt_trichotomy c j with hc' | rfl | hc'
      · grind [cursorAfterRemoval]
      · grind [cursorAfterRemoval]
      · grind [cursorAfterRemoval]

/-- Where somebody stands once somebody else has gone. -/
theorem idxOf_erase {a b : ConnectionId} (h : a ≠ b) (ids : List ConnectionId) :
    (ids.erase b).idxOf a =
      if ids.idxOf b < ids.idxOf a then ids.idxOf a - 1 else ids.idxOf a := by
  induction ids with
  | nil => rfl
  | cons c ids ih =>
    by_cases hb : c = b
    · subst hb
      rw [List.erase_cons_head, List.idxOf_cons_self, List.idxOf_cons_ne _ (Ne.symm h),
        if_pos (Nat.succ_pos _), Nat.succ_sub_one]
    · rw [List.erase_cons_tail (by simpa using hb), List.idxOf_cons_ne _ hb]
      by_cases ha : c = a
      · subst ha
        rw [List.idxOf_cons_self, List.idxOf_cons_self, if_neg (Nat.not_lt_zero _)]
      · rw [List.idxOf_cons_ne _ ha, List.idxOf_cons_ne _ ha, ih]
        split
        · rw [if_pos (by omega)]
          omega
        · rw [if_neg (by omega)]

/-- The cursor does not tell which of two members left first. -/
theorem cursor_without_comm {a b : ConnectionId} (ha : a ∈ s.members) (hb : b ∈ s.members)
    (hlt : s.members.idxOf a < s.members.idxOf b) :
    ((s.without a).without b).cursor = ((s.without b).without a).cursor := by
  have hne : a ≠ b := by
    rintro rfl
    exact Nat.lt_irrefl _ hlt
  have hba : b ∈ (s.without a).members := by
    rw [members_without, List.mem_erase_of_ne hne.symm]
    exact hb
  have hab : a ∈ (s.without b).members := by
    rw [members_without, List.mem_erase_of_ne hne]
    exact ha
  have hj := List.idxOf_lt_length_of_mem hb
  have hlen := List.length_erase_of_mem ha
  have hlen' := List.length_erase_of_mem hb
  have hleft := List.length_erase_of_mem (members_without s a ▸ hba)
  have hcomm := cursorAfterRemoval_comm s.cursor ((s.members.erase a).erase b).length hlt
    (by omega)
  have hone : ((s.members.erase a).erase b).length + 1 = (s.members.erase a).length := by omega
  rw [without_eq hba, without_eq hab, members_without, members_without, without_eq ha,
    without_eq hb, idxOf_erase hne.symm, if_pos hlt, idxOf_erase hne, if_neg (Nat.lt_asymm hlt),
    List.erase_comm b a]
  rw [hone] at hcomm
  rw [hlen] at hcomm ⊢
  rw [hlen']
  exact hcomm

/-- **Which of two members leaves first makes no difference.** -/
theorem without_comm (s : Subscription) (a b : ConnectionId) :
    (s.without a).without b = (s.without b).without a := by
  -- Only the cursor is left to compare: each removal changes it and the list, and nothing else.
  have hall : ((s.without a).without b).cursor = ((s.without b).without a).cursor →
      (s.without a).without b = (s.without b).without a := by
    obtain ⟨x, hx⟩ := exists_without_eq (s.without a) b
    obtain ⟨x', hx'⟩ := exists_without_eq s a
    obtain ⟨y, hy⟩ := exists_without_eq (s.without b) a
    obtain ⟨y', hy'⟩ := exists_without_eq s b
    rw [hx, hy, hx', hy', List.erase_comm a b]
    rintro rfl
    rfl
  by_cases ha : a ∈ s.members
  · by_cases hb : b ∈ s.members
    · rcases Nat.lt_trichotomy (s.members.idxOf a) (s.members.idxOf b) with hlt | heq | hlt
      · exact hall (cursor_without_comm ha hb hlt)
      · rw [List.idxOf_inj ha |>.mp heq]
      · exact hall (cursor_without_comm hb ha hlt).symm
    · have hba : b ∉ (s.without a).members := fun h =>
        hb (List.mem_of_mem_erase (members_without s a ▸ h))
      rw [without_of_not_mem hba, without_of_not_mem hb]
  · have hab : a ∉ (s.without b).members := fun h =>
      ha (List.mem_of_mem_erase (members_without s b ▸ h))
    rw [without_of_not_mem ha, without_of_not_mem hab]

/-! ## A queue stays orderly -/

theorem orderly_new (name : String) (qos : QoS) (lockTimeout : Duration) :
    Orderly { name, type := .queue, qos, lockTimeout } where
  atRest := ⟨rfl, List.nodup_nil⟩
  queue := rfl
  cursor_lt _ h := by cases h

theorem Orderly.joined (h : s.Orderly) (id : ConnectionId) : (s.joined id).Orderly := by
  refine ⟨h.atRest.joined id, ?_, OnMember.joined h.cursor_lt id⟩
  by_cases hid : id ∈ s.members
  · rw [joined_of_mem hid]
    exact h.queue
  · rw [joined_of_not_mem hid]
    exact h.queue

theorem Orderly.without (h : s.Orderly) (id : ConnectionId) : (s.without id).Orderly := by
  refine ⟨h.atRest.without id, ?_, OnMember.without h.cursor_lt id⟩
  obtain ⟨cursor, hs⟩ := exists_without_eq s id
  rw [hs]
  exact h.queue

theorem Orderly.served (h : s.Orderly) : s.served.Orderly := by
  refine ⟨h.atRest.served, ?_, OnMember.served h.cursor_lt⟩
  obtain ⟨cursor, hs⟩ := exists_served_eq s
  rw [hs]
  exact h.queue

end MessageBroker.Subscription
