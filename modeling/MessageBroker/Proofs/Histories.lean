import Mathlib.Data.List.Basic

/-!
# Where something stands in a history

A history is a list of what has happened, in order, and grows at its end. What stands in it when it
has grown stood there before, with less behind it, or is among what has come.

Headlines:
* **`append_eq_append_cons`**: what stands in a history that has gone on.
* **`concat_eq_append_cons`**: the same where it has gone on by one thing.
-/

namespace MessageBroker

universe u

variable {α : Type u} {past more before after : List α} {x y : α}

/-- **What stands in a history that has gone on** stood there before, or is among what has come. -/
theorem append_eq_append_cons (h : past ++ more = before ++ y :: after) :
    (∃ rest, past = before ++ y :: rest ∧ after = rest ++ more) ∨
      ∃ rest, before = past ++ rest ∧ more = rest ++ y :: after := by
  rcases List.append_eq_append_iff.mp h with ⟨rest, hbefore, hmore⟩ | ⟨rest, hpast, hafter⟩
  · exact .inr ⟨rest, hbefore, hmore⟩
  · cases rest with
    | nil =>
      rw [List.append_nil] at hpast
      exact .inr ⟨[], by rw [hpast, List.append_nil], hafter.symm⟩
    | cons z rest =>
      obtain ⟨rfl, rfl⟩ := List.cons.inj hafter
      exact .inl ⟨rest, hpast, rfl⟩

/-- **What stands in a history that has gone on by one thing** stood there before, or is this. -/
theorem concat_eq_append_cons (h : past ++ [x] = before ++ y :: after) :
    (∃ rest, past = before ++ y :: rest ∧ after = rest ++ [x]) ∨
      before = past ∧ y = x ∧ after = [] := by
  refine (append_eq_append_cons h).imp_right ?_
  rintro ⟨rest, rfl, hx⟩
  cases rest with
  | nil =>
    obtain ⟨rfl, rfl⟩ := List.cons.inj hx
    exact ⟨List.append_nil _, rfl, rfl⟩
  | cons z rest => exact absurd (List.cons.inj hx).2 (by simp)

end MessageBroker
