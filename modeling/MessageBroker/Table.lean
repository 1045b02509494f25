/-!
# Finite maps in key order

A `Table κ α` holds at most one value per key, in increasing key order. The order is part of the
type, so two tables with the same look-ups are equal, whatever was inserted and erased to get there.

Headlines:
* **`Table.ext`**: a table is determined by its look-ups.
* **`Table.get?_insert`**, **`Table.get?_erase`**, **`Table.get?_modify`**: one equation per
  operation, through the look-up.
* **`Table.mem_entries`**: the entries listed are the pairs that look up.
-/

namespace MessageBroker

universe u v w

/-- Keys of a table: a decidable strict total order. -/
class Key (κ : Type u) extends LT κ where
  decidableEq : DecidableEq κ
  decidableLT : DecidableRel (α := κ) (· < ·)
  irrefl : ∀ a : κ, ¬ a < a
  trans : ∀ {a b c : κ}, a < b → b < c → a < c
  trichotomy : ∀ a b : κ, a < b ∨ a = b ∨ b < a

namespace Key

variable {κ : Type u} [Key κ]

instance (priority := low) instDecidableEq : DecidableEq κ := Key.decidableEq

instance (priority := low) instDecidableLT : DecidableRel (α := κ) (· < ·) := Key.decidableLT

theorem ne_of_lt {a b : κ} (h : a < b) : a ≠ b := fun e => irrefl b (e ▸ h)

end Key

instance : Key Nat where
  decidableEq := inferInstance
  decidableLT := fun a b => inferInstanceAs (Decidable (a < b))
  irrefl := Nat.lt_irrefl
  trans := Nat.lt_trans
  trichotomy := Nat.lt_trichotomy

instance : Key String where
  decidableEq := inferInstance
  decidableLT := fun a b => inferInstanceAs (Decidable (a < b))
  irrefl := String.lt_irrefl
  trans := String.lt_trans
  trichotomy a b := by
    by_cases h : a < b
    · exact .inl h
    · by_cases h' : b < a
      · exact .inr (.inr h')
      · exact .inr (.inl (String.le_antisymm (String.not_lt.mp h') (String.not_lt.mp h)))

/-! ## Entry lists -/

namespace Entries

variable {κ : Type u} {α : Type v} {β : Type w} [Key κ]

/-- Increasing keys. -/
def Sorted (l : List (κ × α)) : Prop := l.Pairwise fun a b => a.1 < b.1

/-- The value of the first entry under `k`. -/
def get? (k : κ) : List (κ × α) → Option α
  | [] => none
  | (k', a) :: l => if k = k' then some a else get? k l

/-- Puts `a` under `k`, in the place that the key order gives it. -/
def insert (k : κ) (a : α) : List (κ × α) → List (κ × α)
  | [] => [(k, a)]
  | (k', a') :: l =>
    if k < k' then (k, a) :: (k', a') :: l
    else if k = k' then (k, a) :: l
    else (k', a') :: insert k a l

/-- Drops the entry under `k`. -/
def erase (k : κ) (l : List (κ × α)) : List (κ × α) := l.filter fun e => decide (e.1 ≠ k)

theorem mem_of_get? {k : κ} {a : α} : ∀ {l : List (κ × α)}, get? k l = some a → (k, a) ∈ l
  | [], h => by simp [get?] at h
  | (k', a') :: l, h => by
    by_cases e : k = k'
    · subst e; simp [get?] at h; subst h; exact List.mem_cons_self
    · simp only [get?, if_neg e] at h
      exact List.mem_cons_of_mem _ (mem_of_get? h)

theorem get?_of_mem {k : κ} {a : α} :
    ∀ {l : List (κ × α)}, Sorted l → (k, a) ∈ l → get? k l = some a
  | (k', a') :: l, hs, h => by
    rcases List.mem_cons.mp h with e | h
    · cases e; simp [get?]
    · have hlt : k' < k := (List.pairwise_cons.mp hs).1 _ h
      have : k ≠ k' := fun e => Key.irrefl k' (e ▸ hlt)
      simp only [get?, if_neg this]
      exact get?_of_mem (List.pairwise_cons.mp hs).2 h

theorem get?_eq_none_of_lt {k : κ} :
    ∀ {l : List (κ × α)}, (∀ e ∈ l, k < e.1) → get? k l = none
  | [], _ => rfl
  | (k', a) :: l, h => by
    have hk : k ≠ k' := Key.ne_of_lt (h _ List.mem_cons_self)
    simp only [get?, if_neg hk]
    exact get?_eq_none_of_lt fun e he => h e (List.mem_cons_of_mem _ he)

theorem mem_insert {k : κ} {a : α} {e : κ × α} :
    ∀ {l : List (κ × α)}, e ∈ insert k a l → e = (k, a) ∨ e ∈ l
  | [], h => by simpa [insert] using h
  | (k', a') :: l, h => by
    unfold insert at h
    split at h
    · simpa using h
    · split at h
      · rcases List.mem_cons.mp h with h | h
        · exact .inl h
        · exact .inr (List.mem_cons_of_mem _ h)
      · rcases List.mem_cons.mp h with h | h
        · exact .inr (h ▸ List.mem_cons_self)
        · rcases mem_insert h with h | h
          · exact .inl h
          · exact .inr (List.mem_cons_of_mem _ h)

theorem Sorted.insert {k : κ} {a : α} :
    ∀ {l : List (κ × α)}, Sorted l → Sorted (Entries.insert k a l)
  | [], _ => List.pairwise_singleton _ _
  | (k', a') :: l, hs => by
    obtain ⟨hhd, htl⟩ := List.pairwise_cons.mp hs
    unfold Entries.insert
    split
    · rename_i hlt
      refine List.pairwise_cons.mpr ⟨fun e he => ?_, hs⟩
      rcases List.mem_cons.mp he with rfl | he
      · exact hlt
      · exact Key.trans hlt (hhd e he)
    · split
      · rename_i heq
        subst heq
        exact List.pairwise_cons.mpr ⟨hhd, htl⟩
      · rename_i hnlt hne
        have hlt : k' < k := by
          rcases Key.trichotomy k k' with h | h | h
          · exact absurd h hnlt
          · exact absurd h hne
          · exact h
        refine List.pairwise_cons.mpr ⟨fun e he => ?_, Sorted.insert htl⟩
        rcases mem_insert he with rfl | he
        · exact hlt
        · exact hhd e he

theorem Sorted.erase {k : κ} {l : List (κ × α)} (h : Sorted l) : Sorted (Entries.erase k l) :=
  List.Pairwise.filter _ h

theorem Sorted.map_values {f : κ × α → β} {l : List (κ × α)} (h : Sorted l) :
    Sorted (l.map fun e => (e.1, f e)) :=
  List.Pairwise.map _ (fun _ _ h => h) h

theorem get?_insert (k k' : κ) (a : α) :
    ∀ l : List (κ × α), get? k' (insert k a l) = if k' = k then some a else get? k' l
  | [] => by simp [insert, get?]
  | (k₀, a₀) :: l => by
    unfold insert
    split
    · simp [get?]
    · rename_i hnlt
      split
      · rename_i heq
        subst heq
        by_cases e : k' = k <;> simp [get?, e]
      · rename_i hne
        by_cases e : k' = k₀
        · subst e
          have : ¬ k' = k := fun e => hne e.symm
          simp [get?, this]
        · simp only [get?, if_neg e, get?_insert k k' a l]

theorem get?_erase (k k' : κ) :
    ∀ l : List (κ × α), get? k' (erase k l) = if k' = k then none else get? k' l
  | [] => by simp [erase, get?]
  | (k₀, a₀) :: l => by
    have ih := get?_erase k k' l
    unfold erase at ih ⊢
    by_cases h₀ : k₀ = k
    · subst h₀
      rw [List.filter_cons_of_neg (by simp), ih]
      by_cases e : k' = k₀ <;> simp [get?, e]
    · rw [List.filter_cons_of_pos (by simpa using h₀)]
      by_cases e : k' = k₀
      · subst e; simp [get?, h₀]
      · simp only [get?, if_neg e, ih]

theorem get?_map (f : κ → α → β) (k : κ) :
    ∀ l : List (κ × α), get? k (l.map fun e => (e.1, f e.1 e.2)) = (get? k l).map (f k)
  | [] => rfl
  | (k₀, a₀) :: l => by
    by_cases e : k = k₀
    · subst e; simp [get?]
    · simp only [List.map_cons, get?, if_neg e, get?_map f k l]

theorem eq_of_get?_eq : ∀ {l l' : List (κ × α)}, Sorted l → Sorted l' →
    (∀ k, get? k l = get? k l') → l = l'
  | [], [], _, _, _ => rfl
  | [], (k, a) :: _, _, _, h => by simpa [get?] using h k
  | (k, a) :: _, [], _, _, h => by simpa [get?] using h k
  | (k, a) :: l, (k', a') :: l', hs, hs', h => by
    obtain ⟨hhd, htl⟩ := List.pairwise_cons.mp hs
    obtain ⟨hhd', htl'⟩ := List.pairwise_cons.mp hs'
    have hk : k = k' := by
      rcases Key.trichotomy k k' with hlt | he | hlt
      · have h1 := h k
        rw [get?_eq_none_of_lt (l := (k', a') :: l')] at h1
        · simp [get?] at h1
        · intro e he
          rcases List.mem_cons.mp he with rfl | he
          · exact hlt
          · exact Key.trans hlt (hhd' e he)
      · exact he
      · have h1 := h k'
        rw [get?_eq_none_of_lt (l := (k, a) :: l)] at h1
        · simp [get?] at h1
        · intro e he
          rcases List.mem_cons.mp he with rfl | he
          · exact hlt
          · exact Key.trans hlt (hhd e he)
    subst hk
    have ha : a = a' := by simpa [get?] using h k
    subst ha
    congr 1
    refine eq_of_get?_eq htl htl' fun j => ?_
    by_cases e : j = k
    · subst e
      rw [get?_eq_none_of_lt hhd, get?_eq_none_of_lt hhd']
    · simpa [get?, e] using h j

end Entries

/-! ## Tables -/

/-- A finite map, listed in key order. -/
structure Table (κ : Type u) (α : Type v) [Key κ] where
  /-- The entries, by increasing key. -/
  entries : List (κ × α)
  sorted : Entries.Sorted entries

namespace Table

variable {κ : Type u} {α : Type v} {β : Type w} [Key κ]

deriving instance DecidableEq for Table

/-- No entries. -/
def empty : Table κ α := ⟨[], List.Pairwise.nil⟩

instance : EmptyCollection (Table κ α) := ⟨empty⟩

instance : Inhabited (Table κ α) := ⟨∅⟩

/-- The value under `k`. -/
def get? (t : Table κ α) (k : κ) : Option α := Entries.get? k t.entries

/-- Whether there is a value under `k`. -/
def contains (t : Table κ α) (k : κ) : Bool := (t.get? k).isSome

instance : Membership κ (Table κ α) := ⟨fun t k => (t.get? k).isSome = true⟩

instance (k : κ) (t : Table κ α) : Decidable (k ∈ t) :=
  inferInstanceAs (Decidable ((t.get? k).isSome = true))

/-- Puts `a` under `k`, in place of what was there. -/
def insert (t : Table κ α) (k : κ) (a : α) : Table κ α :=
  ⟨Entries.insert k a t.entries, t.sorted.insert⟩

/-- Drops what is under `k`. -/
def erase (t : Table κ α) (k : κ) : Table κ α := ⟨Entries.erase k t.entries, t.sorted.erase⟩

/-- Applies `f` to every value, with its key. -/
def mapValues (f : κ → α → β) (t : Table κ α) : Table κ β :=
  ⟨t.entries.map fun e => (e.1, f e.1 e.2), t.sorted.map_values (f := fun e => f e.1 e.2)⟩

/-- Applies `f` to the value under `k`, if there is one. -/
def modify (t : Table κ α) (k : κ) (f : α → α) : Table κ α :=
  t.mapValues fun k' a => if k' = k then f a else a

/-- Keeps the entries that satisfy `p`. -/
def filter (p : κ → α → Bool) (t : Table κ α) : Table κ α :=
  ⟨t.entries.filter fun e => p e.1 e.2, List.Pairwise.filter _ t.sorted⟩

/-- The table of a list of pairs; of several under one key the last counts. -/
def ofList (l : List (κ × α)) : Table κ α := l.foldl (fun t e => t.insert e.1 e.2) ∅

/-- The keys, in order. -/
def keys (t : Table κ α) : List κ := t.entries.map (·.1)

/-- The values, in key order. -/
def values (t : Table κ α) : List α := t.entries.map (·.2)

/-- How many entries there are. -/
def size (t : Table κ α) : Nat := t.entries.length

/-- Whether there are no entries. -/
def isEmpty (t : Table κ α) : Bool := t.entries.isEmpty

theorem mem_iff {t : Table κ α} {k : κ} : k ∈ t ↔ (t.get? k).isSome = true := Iff.rfl

theorem mem_of_get? {t : Table κ α} {k : κ} {a : α} (h : t.get? k = some a) : k ∈ t := by
  rw [mem_iff, h]
  rfl

/-- **A table is determined by its look-ups.** -/
theorem ext {t t' : Table κ α} (h : ∀ k, t.get? k = t'.get? k) : t = t' := by
  obtain ⟨l, hl⟩ := t
  obtain ⟨l', hl'⟩ := t'
  have : l = l' := Entries.eq_of_get?_eq hl hl' h
  subst this
  rfl

@[simp] theorem get?_empty (k : κ) : (∅ : Table κ α).get? k = none := rfl

theorem get?_insert (t : Table κ α) (k k' : κ) (a : α) :
    (t.insert k a).get? k' = if k' = k then some a else t.get? k' :=
  Entries.get?_insert k k' a t.entries

@[simp] theorem get?_insert_self (t : Table κ α) (k : κ) (a : α) :
    (t.insert k a).get? k = some a := by simp [get?_insert]

theorem get?_insert_of_ne (t : Table κ α) {k k' : κ} (a : α) (h : k' ≠ k) :
    (t.insert k a).get? k' = t.get? k' := by simp [get?_insert, h]

theorem get?_erase (t : Table κ α) (k k' : κ) :
    (t.erase k).get? k' = if k' = k then none else t.get? k' :=
  Entries.get?_erase k k' t.entries

@[simp] theorem get?_erase_self (t : Table κ α) (k : κ) : (t.erase k).get? k = none := by
  simp [get?_erase]

theorem get?_erase_of_ne (t : Table κ α) {k k' : κ} (h : k' ≠ k) :
    (t.erase k).get? k' = t.get? k' := by simp [get?_erase, h]

theorem erase_of_not_mem {t : Table κ α} {k : κ} (h : k ∉ t) : t.erase k = t := by
  refine ext fun k' => ?_
  rw [get?_erase]
  split
  · rename_i e
    subst e
    rw [mem_iff, Bool.not_eq_true, Option.isSome_eq_false_iff, Option.isNone_iff_eq_none] at h
    exact h.symm
  · rfl

@[simp] theorem get?_mapValues (f : κ → α → β) (t : Table κ α) (k : κ) :
    (t.mapValues f).get? k = (t.get? k).map (f k) :=
  Entries.get?_map f k t.entries

/-- Functions that agree on what is in a table change it alike. -/
theorem mapValues_congr {f g : κ → α → β} {t : Table κ α}
    (h : ∀ ⦃k a⦄, t.get? k = some a → f k a = g k a) : t.mapValues f = t.mapValues g := by
  refine ext fun k => ?_
  rw [get?_mapValues, get?_mapValues]
  exact Option.map_congr fun a ha => h ha

theorem get?_modify (t : Table κ α) (k k' : κ) (f : α → α) :
    (t.modify k f).get? k' = if k' = k then (t.get? k').map f else t.get? k' := by
  unfold modify
  rw [get?_mapValues]
  by_cases h : k' = k
  · subst h; simp
  · simp [h]

/-- **The entries are the pairs that look up.** -/
theorem mem_entries {t : Table κ α} {k : κ} {a : α} : (k, a) ∈ t.entries ↔ t.get? k = some a :=
  ⟨Entries.get?_of_mem t.sorted, Entries.mem_of_get?⟩

theorem mem_keys {t : Table κ α} {k : κ} : k ∈ t.keys ↔ k ∈ t := by
  rw [mem_iff, keys, List.mem_map, Option.isSome_iff_exists]
  constructor
  · rintro ⟨⟨_, a⟩, h, rfl⟩
    exact ⟨a, mem_entries.mp h⟩
  · rintro ⟨a, h⟩
    exact ⟨(k, a), mem_entries.mpr h, rfl⟩

theorem keys_pairwise (t : Table κ α) : t.keys.Pairwise (· < ·) :=
  List.Pairwise.map _ (fun _ _ h => h) t.sorted

theorem keys_nodup (t : Table κ α) : t.keys.Nodup :=
  t.keys_pairwise.imp Key.ne_of_lt

theorem get?_filter (p : κ → α → Bool) (t : Table κ α) (k : κ) :
    (t.filter p).get? k = (t.get? k).filter (p k) := by
  apply Option.ext
  intro a
  rw [← mem_entries, Option.filter_eq_some_iff, ← mem_entries]
  simp [filter]

theorem get?_foldl_insert {k : κ} {a : α} : ∀ {l : List (κ × α)}, (l.map (·.1)).Nodup →
    ∀ t : Table κ α, (l.foldl (fun t e => t.insert e.1 e.2) t).get? k = some a ↔
      (k, a) ∈ l ∨ k ∉ l.map (·.1) ∧ t.get? k = some a
  | [], _, t => by simp
  | (k', a') :: l, h, t => by
    rw [List.map_cons, List.nodup_cons] at h
    rw [List.foldl_cons, get?_foldl_insert h.2, get?_insert]
    by_cases e : k = k'
    · subst e
      have : (k, a) ∉ l := fun hm => h.1 (List.mem_map.mpr ⟨_, hm, rfl⟩)
      simp [this, h.1, eq_comm]
    · simp [e]

/-- Pairs under different keys look up as they are listed. -/
theorem get?_ofList {l : List (κ × α)} (h : (l.map (·.1)).Nodup) {k : κ} {a : α} :
    (ofList l).get? k = some a ↔ (k, a) ∈ l := by
  rw [ofList, get?_foldl_insert h]
  simp

theorem mem_of_get?_foldl_insert {k : κ} {a : α} : ∀ {l : List (κ × α)} {t : Table κ α},
    (l.foldl (fun t e => t.insert e.1 e.2) t).get? k = some a → (k, a) ∈ l ∨ t.get? k = some a
  | [], _, h => .inr h
  | e :: l, t, h => by
    rw [List.foldl_cons] at h
    rcases mem_of_get?_foldl_insert h with hl | ht
    · exact .inl (List.mem_cons_of_mem _ hl)
    · rw [get?_insert] at ht
      split at ht
      · rename_i hk
        cases ht
        exact .inl (hk ▸ List.mem_cons_self)
      · exact .inr ht

/-- What is looked up is listed. -/
theorem mem_of_get?_ofList {l : List (κ × α)} {k : κ} {a : α} (h : (ofList l).get? k = some a) :
    (k, a) ∈ l :=
  (mem_of_get?_foldl_insert h).resolve_right nofun

theorem isEmpty_iff {t : Table κ α} : t.isEmpty = true ↔ t = ∅ := by
  constructor
  · intro h
    obtain ⟨l, hl⟩ := t
    have : l = [] := List.isEmpty_iff.mp h
    subst this
    rfl
  · rintro rfl; rfl

/-- To insert what is there changes nothing. -/
theorem insert_of_get? {t : Table κ α} {k : κ} {a : α} (h : t.get? k = some a) :
    t.insert k a = t := by
  refine ext fun j => ?_
  rw [get?_insert]
  split
  · rename_i e
    rw [e, h]
  · rfl

theorem modify_of_none {t : Table κ α} {k : κ} (f : α → α) (h : t.get? k = none) :
    t.modify k f = t := by
  refine ext fun j => ?_
  rw [get?_modify]
  split
  · rename_i e
    rw [e, h, Option.map_none]
  · rfl

theorem modify_of_some {t : Table κ α} {k : κ} {a : α} (f : α → α) (h : t.get? k = some a) :
    t.modify k f = t.insert k (f a) := by
  refine ext fun j => ?_
  rw [get?_modify, get?_insert]
  split
  · rename_i e
    rw [e, h, Option.map_some]
  · rfl

theorem insert_comm (t : Table κ α) {k k' : κ} (h : k ≠ k') (a a' : α) :
    (t.insert k a).insert k' a' = (t.insert k' a').insert k a := by
  apply ext
  intro j
  simp only [get?_insert]
  by_cases h1 : j = k'
  · subst h1; simp [Ne.symm h]
  · simp [h1]

theorem erase_insert_self (t : Table κ α) (k : κ) (a : α) : (t.insert k a).erase k = t.erase k := by
  apply ext
  intro j
  rw [get?_erase, get?_erase, get?_insert]
  split <;> rfl

theorem erase_comm (t : Table κ α) (k k' : κ) : (t.erase k).erase k' = (t.erase k').erase k := by
  apply ext
  intro j
  simp only [get?_erase]
  by_cases h1 : j = k' <;> by_cases h2 : j = k <;> simp [h1, h2]

/-- To change every value after an insertion changes the value inserted. -/
theorem mapValues_insert (f : κ → α → β) (t : Table κ α) (k : κ) (a : α) :
    (t.insert k a).mapValues f = (t.mapValues f).insert k (f k a) := by
  refine ext fun j => ?_
  rw [get?_mapValues, get?_insert, get?_insert, get?_mapValues]
  split
  · rename_i e
    subst e
    rfl
  · rfl

theorem mapValues_erase (f : κ → α → β) (t : Table κ α) (k : κ) :
    (t.erase k).mapValues f = (t.mapValues f).erase k := by
  refine ext fun j => ?_
  rw [get?_mapValues, get?_erase, get?_erase, get?_mapValues]
  split <;> rfl

/-- Changes that commute value by value commute on a table. -/
theorem mapValues_modify {f : κ → α → β} {g : α → α} {u : β → β} {k : κ}
    (h : ∀ a, f k (g a) = u (f k a)) (t : Table κ α) :
    (t.modify k g).mapValues f = (t.mapValues f).modify k u := by
  refine ext fun j => ?_
  rw [get?_mapValues, get?_modify, get?_modify, get?_mapValues]
  split
  · rename_i e
    subst e
    rw [Option.map_map, Option.map_map]
    exact Option.map_congr fun a _ => h a
  · rfl

end Table

/-- A set of names, listed in order. -/
abbrev NameSet := Table String Unit

namespace NameSet

/-- Adds a name. -/
def add (s : NameSet) (name : String) : NameSet := s.insert name ()

theorem mem_add {s : NameSet} {name other : String} :
    other ∈ s.add name ↔ other = name ∨ other ∈ s := by
  rw [Table.mem_iff, Table.mem_iff, add, Table.get?_insert]
  by_cases h : other = name <;> simp [h]

theorem mem_erase {s : NameSet} {name other : String} :
    other ∈ s.erase name ↔ other ≠ name ∧ other ∈ s := by
  rw [Table.mem_iff, Table.mem_iff, Table.get?_erase]
  by_cases h : other = name <;> simp [h]

end NameSet

end MessageBroker
