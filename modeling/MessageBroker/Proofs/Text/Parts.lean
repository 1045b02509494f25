import Mathlib.Data.List.TakeWhile
import MessageBroker.Text.Blank

/-!
# Texts in parts

A text that is cut at separators falls into the parts between them; what stands on both sides of a
part starts or ends with a separator. A list of names is cut at commas, and of each part only what
stands between white space counts.

Headlines:
* **`Text.mem_splitOn_iff`**: which parts a text is cut into.
* **`Text.trimChars_eq_iff`**: what is left of a text without the white space around it.
* **`Text.mem_commaNames_iff`**: which names a list names.
-/

namespace MessageBroker.Text

variable {sep : Char} {cs p : List Char}

/-! ## Parts between separators -/

/-- A text is cut in front of a separator and behind it. -/
theorem splitOn_append_sep (sep : Char) (front back : List Char) :
    splitOn sep (front ++ sep :: back) = splitOn sep front ++ splitOn sep back := by
  induction front with
  | nil => exact splitOn_cons_sep sep back
  | cons c front ih =>
    by_cases hc : c = sep
    · subst hc
      rw [List.cons_append, splitOn_cons_sep, splitOn_cons_sep, ih, List.cons_append]
    · obtain ⟨q, qs, hq, hcut⟩ := splitOn_cons_of_ne hc front
      obtain ⟨q', qs', hq', hcut'⟩ := splitOn_cons_of_ne hc (front ++ sep :: back)
      rw [ih, hq, List.cons_append] at hq'
      cases hq'
      rw [List.cons_append, hcut', hcut, List.cons_append]

theorem splitOn_of_notMem (h : sep ∉ cs) : splitOn sep cs = [cs] := by
  induction cs with
  | nil => rfl
  | cons c cs ih =>
    rw [List.mem_cons, not_or] at h
    obtain ⟨p, ps, hp, hc⟩ := splitOn_cons_of_ne (Ne.symm h.1) cs
    rw [ih h.2] at hp
    cases hp
    exact hc

theorem splitOn_append (h : sep ∉ p) (rest : List Char) :
    splitOn sep (p ++ sep :: rest) = p :: splitOn sep rest := by
  rw [splitOn_append_sep, splitOn_of_notMem h, List.singleton_append]

theorem notMem_of_mem_splitOn (h : p ∈ splitOn sep cs) : sep ∉ p := by
  induction cs generalizing p with
  | nil =>
    rw [splitOn_nil, List.mem_singleton] at h
    simp [h]
  | cons c cs ih =>
    by_cases hc : c = sep
    · subst hc
      rw [splitOn_cons_sep, List.mem_cons] at h
      rcases h with rfl | h
      · exact List.not_mem_nil
      · exact ih h
    · obtain ⟨q, qs, hq, hs⟩ := splitOn_cons_of_ne hc cs
      rw [hs, List.mem_cons] at h
      rw [hq] at ih
      rcases h with rfl | h
      · rw [List.mem_cons, not_or]
        exact ⟨Ne.symm hc, ih List.mem_cons_self⟩
      · exact ih (List.mem_cons_of_mem _ h)

/-- The parts with a separator between each two of them are the text. -/
theorem eq_of_splitOn {ps : List (List Char)} (h : splitOn sep cs = p :: ps) :
    cs = p ++ ps.flatMap (sep :: ·) := by
  induction cs generalizing p ps with
  | nil =>
    cases h
    rfl
  | cons c cs ih =>
    by_cases hc : c = sep
    · subst hc
      rw [splitOn_cons_sep, List.cons.injEq] at h
      obtain ⟨rfl, hps⟩ := h
      cases ps with
      | nil => exact absurd hps (splitOn_ne_nil c cs)
      | cons q qs =>
        rw [ih hps]
        simp
    · obtain ⟨q, qs, hq, hs⟩ := splitOn_cons_of_ne hc cs
      rw [hs] at h
      cases h
      rw [ih hq, List.cons_append]

/-- A part of a text between separators. -/
structure IsPart (sep : Char) (p cs : List Char) : Prop where
  notMem : sep ∉ p
  stands : ∃ front back, cs = front ++ p ++ back ∧ (front = [] ∨ front.getLast? = some sep) ∧
    (back = [] ∨ back.head? = some sep)

/-- **Which parts a text is cut into.** -/
theorem mem_splitOn_iff : p ∈ splitOn sep cs ↔ IsPart sep p cs := by
  constructor
  · intro h
    refine ⟨notMem_of_mem_splitOn h, ?_⟩
    obtain ⟨before, after, hsplit⟩ := List.append_of_mem h
    -- What follows a part begins with the separator behind it.
    have hback : after.flatMap (sep :: ·) = [] ∨ (after.flatMap (sep :: ·)).head? = some sep := by
      cases after with
      | nil => exact .inl rfl
      | cons q after => exact .inr rfl
    cases before with
    | nil => exact ⟨[], _, eq_of_splitOn hsplit, .inl rfl, hback⟩
    | cons q before =>
      have hcs : cs = q ++ (before ++ p :: after).flatMap (sep :: ·) := eq_of_splitOn hsplit
      rw [List.flatMap_append, List.flatMap_cons] at hcs
      refine ⟨q ++ before.flatMap (sep :: ·) ++ [sep], _, ?_, .inr List.getLast?_concat, hback⟩
      rw [hcs]
      simp
  · rintro ⟨hp, front, back, rfl, hfront, hback⟩
    have hpart : p ∈ splitOn sep (p ++ back) := by
      rcases hback with rfl | hback
      · rw [List.append_nil, splitOn_of_notMem hp]
        exact List.mem_singleton_self p
      · obtain ⟨back, rfl⟩ := List.head?_eq_some_iff.mp hback
        rw [splitOn_append hp]
        exact List.mem_cons_self
    rcases hfront with rfl | hfront
    · exact hpart
    · obtain ⟨front, rfl⟩ := List.getLast?_eq_some_iff.mp hfront
      rw [List.append_assoc, List.append_assoc, List.singleton_append, splitOn_append_sep]
      exact List.mem_append_right _ hpart

/-! ## White space around a text -/

/-- A text without the white space in front of it and behind it. -/
structure Trims (cs t : List Char) : Prop where
  cut : ∃ l r, cs = l ++ t ++ r ∧ (∀ c ∈ l, isBlank c = true) ∧ ∀ c ∈ r, isBlank c = true
  first : ∀ c, t.head? = some c → isBlank c = false
  last : ∀ c, t.getLast? = some c → isBlank c = false

theorem isBlank_of_head?_trimLeft {c : Char} (h : (trimLeft cs).head? = some c) :
    isBlank c = false := by
  have := List.head?_dropWhile_not isBlank cs
  unfold trimLeft at h
  rw [h] at this
  exact this

theorem trimLeft_of_head? (h : ∀ c, cs.head? = some c → isBlank c = false) : trimLeft cs = cs := by
  cases cs with
  | nil => rfl
  | cons c cs => exact List.dropWhile_cons_of_neg (by simp [h c rfl])

theorem trimLeft_append {l : List Char} (h : ∀ c ∈ l, isBlank c = true) :
    trimLeft (l ++ cs) = trimLeft cs :=
  List.dropWhile_append_of_pos h

/-- What is cut off behind a text stood behind it. -/
theorem trimChars_append (cs : List Char) :
    trimChars cs ++ ((trimLeft cs).reverse.takeWhile isBlank).reverse = trimLeft cs := by
  calc trimChars cs ++ ((trimLeft cs).reverse.takeWhile isBlank).reverse
      = ((trimLeft cs).reverse.takeWhile isBlank ++
          (trimLeft cs).reverse.dropWhile isBlank).reverse := by
        rw [List.reverse_append]
        rfl
    _ = trimLeft cs := by rw [List.takeWhile_append_dropWhile, List.reverse_reverse]

/-- **What is left of a text without the white space around it.** -/
theorem trimChars_eq_iff {t : List Char} : trimChars cs = t ↔ Trims cs t := by
  constructor
  · rintro rfl
    have hcut : cs = cs.takeWhile isBlank ++ trimChars cs ++
        ((trimLeft cs).reverse.takeWhile isBlank).reverse := by
      rw [List.append_assoc, trimChars_append]
      exact List.takeWhile_append_dropWhile.symm
    refine ⟨⟨_, _, hcut, fun c => List.mem_takeWhile_imp, fun c hc =>
      List.mem_takeWhile_imp (List.mem_reverse.mp hc)⟩, fun c hc => ?_, fun c hc => ?_⟩
    · have hfirst : (trimLeft cs).head? = some c := by
        rw [← trimChars_append, List.head?_append, hc, Option.some_or]
      exact isBlank_of_head?_trimLeft hfirst
    · unfold trimChars at hc
      rw [List.getLast?_reverse] at hc
      exact isBlank_of_head?_trimLeft hc
  · rintro ⟨⟨l, r, rfl, hl, hr⟩, hfirst, hlast⟩
    unfold trimChars
    rw [List.append_assoc, trimLeft_append hl]
    cases t with
    | nil =>
      have hnil : trimLeft r = [] := List.dropWhile_eq_nil_iff.mpr hr
      rw [List.nil_append, hnil]
      rfl
    | cons c t =>
      have hfront : ∀ c', (c :: t ++ r).head? = some c' → isBlank c' = false := hfirst
      rw [trimLeft_of_head? hfront, List.reverse_append,
        trimLeft_append fun c hc => hr c (List.mem_reverse.mp hc), trimLeft_of_head?,
        List.reverse_reverse]
      intro c' hc'
      rw [List.head?_reverse] at hc'
      exact hlast c' hc'

/-! ## Lists of names -/

/-- A list of names names one of them: it is what stands in a part between commas. -/
structure Names (list name : String) : Prop where
  named : name ≠ ""
  part : ∃ p, IsPart ',' p list.toList ∧ Trims p name.toList

/-- **Which names a list names.** -/
theorem mem_commaNames_iff {list name : String} : name ∈ commaNames list ↔ Names list name := by
  unfold commaNames
  rw [List.mem_filter, List.mem_map, Bool.not_eq_true', String.isEmpty_eq_false_iff]
  have hname : ∀ q, String.ofList (trimChars q) = name ↔ Trims q name.toList := fun q => by
    rw [← trimChars_eq_iff, ← String.toList_inj, String.toList_ofList]
  simp only [mem_splitOn_iff, hname]
  exact ⟨fun h => ⟨h.2, h.1⟩, fun h => ⟨h.part, h.named⟩⟩

example : commaNames " a, b c,, a" = ["a", "b c", "a"] := by decide

end MessageBroker.Text
