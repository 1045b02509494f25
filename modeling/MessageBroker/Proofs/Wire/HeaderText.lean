import Mathlib.Data.List.Induction
import MessageBroker.Proofs.Histories
import MessageBroker.Proofs.Wire.Forwarding

/-!
# What a header block says

A header block is text, and the text falls into lines. A line that is not empty has to be a header:
a name, the first separator of the line, and a value, which may hold further separators. Of the
lines with one name the last counts.

Headlines:
* **`lines_iff`**: a text falls into lines in one way.
* **`readLine?_eq_some_iff`**: which lines are headers.
* **`readHeaders_eq_ok_iff`**, **`readHeaders_eq_notUtf8_iff`**,
  **`readHeaders_eq_malformed_iff`**: which blocks are read, as what, and why the others are not.
-/

namespace MessageBroker.Wire

/-! ## Lines -/

/-- A text falls into lines: a line end stands between each two of them, and none inside. -/
inductive Lines : List Char → List (List Char) → Prop
  | last {l : List Char} (h : '\n' ∉ l) : Lines l [l]
  | next {l text : List Char} {ls : List (List Char)} (h : '\n' ∉ l) (rest : Lines text ls) :
    Lines (l ++ '\n' :: text) (l :: ls)

theorem lines_splitOn (text : List Char) : Lines text (Text.splitOn '\n' text) := by
  induction text with
  | nil => exact .last List.not_mem_nil
  | cons c text ih =>
    by_cases hc : c = '\n'
    · subst hc
      rw [Text.splitOn_cons_sep]
      exact .next List.not_mem_nil ih
    · obtain ⟨p, ps, hp, hs⟩ := Text.splitOn_cons_of_ne hc text
      rw [hp] at ih
      rw [hs]
      have hnot : ∀ l : List Char, '\n' ∉ l → '\n' ∉ c :: l := fun l hl hm =>
        (List.mem_cons.mp hm).elim (fun e => hc e.symm) hl
      cases ih with
      | last h => exact .last (hnot _ h)
      | next h rest => exact .next (hnot _ h) rest

/-- **A text falls into lines in one way.** -/
theorem lines_iff {text : List Char} {ls : List (List Char)} :
    Lines text ls ↔ ls = Text.splitOn '\n' text := by
  constructor
  · intro h
    induction h with
    | last h => exact (Text.splitOn_of_notMem h).symm
    | next h _ ih => rw [Text.splitOn_append h, ← ih]
  · rintro rfl
    exact lines_splitOn text

/-! ## Headers -/

/-- A line is a header: the name is what stands in front of its first separator and is not empty,
and the value is what follows. -/
structure IsHeader (l name value : List Char) : Prop where
  split : l = name ++ ':' :: ' ' :: value
  first : ∀ n v, l = n ++ ':' :: ' ' :: v → name.length ≤ n.length
  named : name ≠ []

theorem length_le_of_splitName {l name value n v : List Char}
    (h : splitName l = some (name, value)) (hl : l = n ++ ':' :: ' ' :: v) :
    name.length ≤ n.length := by
  induction l generalizing name n with
  | nil => cases h
  | cons c r ih =>
    by_cases hs : ∃ v', c :: r = ':' :: ' ' :: v'
    · obtain ⟨v', hv'⟩ := hs
      rw [hv'] at h
      cases h
      exact Nat.zero_le _
    · rw [splitName_cons_of_not_sep fun v' hv' => hs ⟨v', hv'⟩] at h
      obtain ⟨⟨front, value'⟩, hr, hp⟩ := Option.map_eq_some_iff.mp h
      cases hp
      cases n with
      | nil => exact absurd ⟨v, hl⟩ hs
      | cons d n =>
        obtain ⟨-, hr'⟩ := List.cons.inj hl
        exact Nat.succ_le_succ (ih hr hr')

/-- A line with a separator in it is split. -/
theorem exists_splitName (name value : List Char) :
    ∃ p, splitName (name ++ ':' :: ' ' :: value) = some p := by
  cases hn : splitName name with
  | none => exact ⟨_, splitName_append hn value⟩
  | some p =>
    obtain ⟨front, v⟩ := p
    obtain ⟨rfl, hf⟩ := splitName_eq_some hn
    exact ⟨_, by rw [List.append_assoc]; exact splitName_append hf _⟩

/-- A line is split at its first separator. -/
theorem splitName_eq_some_iff {l name value : List Char} :
    splitName l = some (name, value) ↔
      l = name ++ ':' :: ' ' :: value ∧
        ∀ n v, l = n ++ ':' :: ' ' :: v → name.length ≤ n.length := by
  constructor
  · exact fun h => ⟨(splitName_eq_some h).1, fun _ _ => length_le_of_splitName h⟩
  · rintro ⟨hl, hfirst⟩
    obtain ⟨⟨n, v⟩, hp⟩ := exists_splitName name value
    rw [← hl] at hp
    have hl' := (splitName_eq_some hp).1
    have hlen := Nat.le_antisymm (hfirst n v hl') (length_le_of_splitName hp hl)
    obtain ⟨rfl, hv⟩ := List.append_inj (hl.symm.trans hl') hlen
    obtain rfl := (List.cons.inj (List.cons.inj hv).2).2
    exact hp

/-- **Which lines are headers.** -/
theorem readLine?_eq_some_iff {l : List Char} {name value : String} :
    readLine? l = some (name, value) ↔ IsHeader l name.toList value.toList := by
  constructor
  · intro h
    unfold readLine? at h
    split at h
    · rename_i c n v hs
      cases h
      obtain ⟨hl, hfirst⟩ := splitName_eq_some_iff.mp hs
      simp only [String.toList_ofList]
      exact ⟨hl, hfirst, List.cons_ne_nil c n⟩
    · cases h
  · rintro ⟨hl, hfirst, hne⟩
    obtain ⟨c, n, hn⟩ := List.exists_cons_of_ne_nil hne
    have hs := splitName_eq_some_iff.mpr ⟨hl, hfirst⟩
    unfold readLine?
    rw [hs, hn]
    simp only [← hn, String.ofList_toList]

theorem readLine?_eq_none_iff {l : List Char} :
    readLine? l = none ↔ ¬ ∃ name value, IsHeader l name value := by
  constructor
  · rintro h ⟨name, value, hl⟩
    rw [← String.toList_ofList (l := name), ← String.toList_ofList (l := value),
      ← readLine?_eq_some_iff, h] at hl
    cases hl
  · intro h
    cases hr : readLine? l with
    | none => rfl
    | some e => exact absurd ⟨_, _, readLine?_eq_some_iff.mp hr⟩ h

/-! ## The lines of a block -/

/-- Every line is empty or a header. -/
def WellFormed (ls : List (List Char)) : Prop :=
  ∀ l ∈ ls, l ≠ [] → ∃ name value, IsHeader l name value

/-- The last line of that name has that value. -/
def Gives (ls : List (List Char)) (name value : String) : Prop :=
  ∃ before l after, ls = before ++ l :: after ∧ IsHeader l name.toList value.toList ∧
    ∀ l' ∈ after, ∀ v, ¬ IsHeader l' name.toList v

theorem gives_append_singleton {ls : List (List Char)} {l : List Char} {name value : String} :
    Gives (ls ++ [l]) name value ↔ IsHeader l name.toList value.toList ∨
      (∀ v, ¬ IsHeader l name.toList v) ∧ Gives ls name value := by
  constructor
  · rintro ⟨before, l', after, hls, hl', hafter⟩
    rcases concat_eq_append_cons hls with ⟨after, rfl, rfl⟩ | ⟨-, rfl, -⟩
    · refine .inr ⟨hafter l (by simp), before, l', after, rfl, hl', fun x hx => ?_⟩
      exact hafter x (List.mem_append_left _ hx)
    · exact .inl hl'
  · rintro (hl | ⟨hno, before, l', after, rfl, hl', hafter⟩)
    · exact ⟨ls, l, [], rfl, hl, nofun⟩
    · refine ⟨before, l', after ++ [l], by simp, hl', fun x hx => ?_⟩
      rcases List.mem_append.mp hx with hx | hx
      · exact hafter x hx
      · rw [List.mem_singleton.mp hx]
        exact hno

/-- **Of the lines with one name the last counts.** -/
theorem get?_ofList_filterMap (ls : List (List Char)) (name value : String) :
    (Table.ofList (ls.filterMap readLine?)).get? name = some value ↔ Gives ls name value := by
  induction ls using List.reverseRecOn with
  | nil =>
    constructor
    · exact nofun
    · rintro ⟨before, l, after, hls, -⟩
      exact absurd hls (by simp)
  | append_singleton ls l ih =>
    rw [gives_append_singleton, ← ih, List.filterMap_append]
    cases hr : readLine? l with
    | none =>
      have hno := readLine?_eq_none_iff.mp hr
      have hno' : ∀ v, ¬ IsHeader l name.toList v := fun v hv => hno ⟨_, v, hv⟩
      simp [hr, hno']
    | some e =>
      obtain ⟨n, v⟩ := e
      have hadd : Table.ofList (ls.filterMap readLine? ++ [l].filterMap readLine?) =
          (Table.ofList (ls.filterMap readLine?)).insert n v := by
        simp [Table.ofList, hr]
      -- What a line says under a name is what it is read as.
      have hread : ∀ v', IsHeader l name.toList v' ↔ n = name ∧ v.toList = v' := by
        intro v'
        rw [← String.toList_ofList (l := v'), ← readLine?_eq_some_iff, hr, Option.some.injEq,
          Prod.mk.injEq, String.toList_inj]
      rw [hadd, Table.get?_insert]
      simp only [hread, String.toList_inj]
      by_cases hn : name = n
      · subst hn
        simp
      · simp [hn, Ne.symm hn]

theorem mapM_readLine?_eq_some_iff {ls : List (List Char)} {es : List (String × String)} :
    (ls.filter fun l => !l.isEmpty).mapM readLine? = some es ↔
      WellFormed ls ∧ es = ls.filterMap readLine? := by
  induction ls generalizing es with
  | nil => simp [WellFormed, eq_comm]
  | cons l ls ih =>
    have hcons : WellFormed (l :: ls) ↔ (l ≠ [] → ∃ name value, IsHeader l name value) ∧
        WellFormed ls := List.forall_mem_cons
    rw [hcons]
    by_cases hl : l = []
    · subst hl
      have hr : readLine? [] = none := rfl
      simpa [hr] using ih
    · have hkeep : (l :: ls).filter (fun l => !l.isEmpty) =
          l :: ls.filter fun l => !l.isEmpty := by simp [hl]
      rw [hkeep, List.mapM_cons]
      cases hr : readLine? l with
      | none =>
        have hno := readLine?_eq_none_iff.mp hr
        simp [hl, hno]
      | some e =>
        have hyes : ∃ name value, IsHeader l name value :=
          ⟨_, _, readLine?_eq_some_iff.mp hr⟩
        simp only [hl, ne_eq, not_false_eq_true, hyes, imp_self, true_and,
          List.filterMap_cons_some hr]
        cases hm : (ls.filter fun l => !l.isEmpty).mapM readLine? with
        | none =>
          have hno : ¬ WellFormed ls := fun hw => by
            have := ih.mpr ⟨hw, rfl⟩
            rw [hm] at this
            cases this
          simp [hno]
        | some es' =>
          obtain ⟨hw, rfl⟩ := ih.mp hm
          simp [hw, eq_comm]

theorem readLines?_eq_some_iff {text : List Char} {headers : Headers} :
    readLines? text = some headers ↔ ∃ ls, Lines text ls ∧ WellFormed ls ∧
      ∀ name value, headers.get? name = some value ↔ Gives ls name value := by
  unfold readLines?
  simp only [lines_iff, exists_eq_left, Option.map_eq_some_iff, mapM_readLine?_eq_some_iff]
  constructor
  · rintro ⟨es, ⟨hw, rfl⟩, rfl⟩
    exact ⟨hw, get?_ofList_filterMap _⟩
  · rintro ⟨hw, hg⟩
    refine ⟨_, ⟨hw, rfl⟩, Table.ext fun name => Option.ext fun value => ?_⟩
    rw [get?_ofList_filterMap, hg]

/-- **A block is read if it is well-formed text,** and then as its lines tell. -/
theorem readHeaders_eq_ok_iff {data : Bytes} {headers : Headers} :
    readHeaders data = .ok headers ↔ ∃ text ls, data = utf8 text ∧ Lines text.toList ls ∧
      WellFormed ls ∧ ∀ name value, headers.get? name = some value ↔ Gives ls name value := by
  constructor
  · intro h
    unfold readHeaders at h
    split at h
    · cases h
    · rename_i text ht
      split at h
      · cases h
      · rename_i headers' hl
        cases h
        obtain ⟨ls, hls⟩ := readLines?_eq_some_iff.mp hl
        exact ⟨text, ls, ofUtf8?_eq_some_iff.mp ht, hls⟩
  · rintro ⟨text, ls, rfl, hls⟩
    unfold readHeaders
    rw [ofUtf8?_utf8]
    simp only
    rw [readLines?_eq_some_iff.mpr ⟨ls, hls⟩]

theorem readHeaders_eq_notUtf8_iff {data : Bytes} :
    readHeaders data = .error .notUtf8 ↔ ∀ text, data ≠ utf8 text := by
  constructor
  · rintro h text rfl
    unfold readHeaders at h
    rw [ofUtf8?_utf8] at h
    simp only at h
    split at h <;> cases h
  · intro h
    have hn : ofUtf8? data = none := by
      cases hd : ofUtf8? data with
      | none => rfl
      | some text => exact absurd (ofUtf8?_eq_some_iff.mp hd) (h text)
    unfold readHeaders
    rw [hn]

/-- **Text with a line that is neither empty nor a header is refused.** -/
theorem readHeaders_eq_malformed_iff {data : Bytes} :
    readHeaders data = .error .malformedHeader ↔
      ∃ text ls, data = utf8 text ∧ Lines text.toList ls ∧ ¬ WellFormed ls := by
  constructor
  · intro h
    unfold readHeaders at h
    split at h
    · cases h
    · rename_i text ht
      split at h
      · rename_i hl
        refine ⟨text, _, ofUtf8?_eq_some_iff.mp ht, lines_splitOn _, fun hw => ?_⟩
        have := readLines?_eq_some_iff.mpr ⟨_, lines_splitOn _, hw, get?_ofList_filterMap _⟩
        rw [hl] at this
        cases this
      · cases h
  · rintro ⟨text, ls, rfl, hls, hno⟩
    have hn : readLines? text.toList = none := by
      cases hl : readLines? text.toList with
      | none => rfl
      | some headers =>
        obtain ⟨ls', hls', hw, -⟩ := readLines?_eq_some_iff.mp hl
        rw [lines_iff.mp hls, ← lines_iff.mp hls'] at hno
        exact absurd hw hno
    unfold readHeaders
    rw [ofUtf8?_utf8]
    simp only
    rw [hn]

end MessageBroker.Wire
