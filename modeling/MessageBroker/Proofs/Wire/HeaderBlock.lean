import MessageBroker.Proofs.Text.Parts
import MessageBroker.Wire.Encoder

/-!
# Header lines are read back

Every line that is written ends where it is told to end, so the text of a header block falls into
the lines it was put together from.

Headlines:
* **`readHeaders_lines`**: a block of lines that may be written reads as the headers on them.
* **`writeLines_eq_ok_iff`**: lines are written exactly if each of them may be.
-/

namespace MessageBroker.Wire

/-- A header as the text of a line, without its end. -/
def lineText (e : String × String) : List Char := e.1.toList ++ ':' :: ' ' :: e.2.toList

theorem line_eq (e : String × String) : line e = lineText e ++ ['\n'] := by
  unfold line lineText
  simp

/-- Each line has its end, so only no lines at all are no text. -/
theorem flatMap_line_eq_nil_iff {es : List (String × String)} : es.flatMap line = [] ↔ es = [] := by
  rw [List.flatMap_eq_nil_iff]
  constructor
  · intro h
    refine List.eq_nil_iff_forall_not_mem.mpr fun e he => ?_
    have := h e he
    rw [line_eq] at this
    exact absurd this (by simp)
  · rintro rfl
    exact nofun

theorem lineText_ne_nil (e : String × String) : lineText e ≠ [] := by
  unfold lineText
  simp

theorem newline_notMem_lineText {e : String × String} (h : isWritable e = true) :
    '\n' ∉ lineText e := by
  simp only [isWritable, isWritableName, isWritableValue, Bool.and_eq_true, Bool.not_eq_true',
    List.contains_eq_mem, decide_eq_false_iff_not] at h
  unfold lineText
  rw [List.mem_append, List.mem_cons, List.mem_cons]
  rintro (hn | hn | hn | hn)
  · exact h.1.2 hn
  · exact absurd hn (by decide)
  · exact absurd hn (by decide)
  · exact h.2 hn

theorem splitOn_lines {es : List (String × String)} (h : ∀ e ∈ es, isWritable e = true) :
    Text.splitOn '\n' (es.flatMap line) = es.map lineText ++ [[]] := by
  induction es with
  | nil => rfl
  | cons e es ih =>
    have hr : (e :: es).flatMap line = lineText e ++ '\n' :: es.flatMap line := by
      rw [List.flatMap_cons, line_eq, List.append_assoc]
      rfl
    rw [hr, Text.splitOn_append (newline_notMem_lineText (h e List.mem_cons_self)),
      ih fun e he => h e (List.mem_cons_of_mem _ he)]
    rfl

theorem mapM_readLine? {es : List (String × String)} (h : ∀ e ∈ es, isWritable e = true) :
    (es.map lineText).mapM readLine? = some es := by
  induction es with
  | nil => rfl
  | cons e es ih =>
    have he : readLine? (lineText e) = some e := by
      have hw := h e List.mem_cons_self
      unfold isWritable at hw
      rw [Bool.and_eq_true] at hw
      exact readLine?_line hw.1
    rw [List.map_cons, List.mapM_cons, he, ih fun e he => h e (List.mem_cons_of_mem _ he)]
    rfl

theorem readLines?_lines {es : List (String × String)} (h : ∀ e ∈ es, isWritable e = true) :
    readLines? (es.flatMap line) = some (Table.ofList es) := by
  have hf : ((es.map lineText ++ [[]]).filter fun l => !l.isEmpty) = es.map lineText := by
    rw [List.filter_append, List.filter_eq_self.mpr]
    · simp
    · intro l hl
      obtain ⟨e, -, rfl⟩ := List.mem_map.mp hl
      simpa using lineText_ne_nil e
  unfold readLines?
  rw [splitOn_lines h, hf, mapM_readLine? h]
  rfl

/-- **A block of lines that may be written reads as the headers on them.** -/
theorem readHeaders_lines {es : List (String × String)} (h : ∀ e ∈ es, isWritable e = true) :
    readHeaders (utf8 (String.ofList (es.flatMap line))) = .ok (Table.ofList es) := by
  unfold readHeaders
  rw [ofUtf8?_utf8]
  simp only [String.toList_ofList]
  rw [readLines?_lines h]

/-- **Lines are written exactly if each of them may be.** -/
theorem writeLines_eq_ok_iff {es : List (String × String)} {text : List Char} :
    writeLines es = .ok text ↔ (∀ e ∈ es, isWritable e = true) ∧ text = es.flatMap line := by
  unfold writeLines
  cases hf : es.find? fun e => !isWritable e with
  | some e =>
    have hm := List.mem_of_find?_eq_some hf
    have he := List.find?_some hf
    simp only [Bool.not_eq_true'] at he
    constructor
    · intro h
      cases h
    · rintro ⟨h, -⟩
      rw [h e hm] at he
      cases he
  | none =>
    have h : ∀ e ∈ es, isWritable e = true := by
      intro e he
      have := List.find?_eq_none.mp hf e he
      simpa using this
    constructor
    · intro ht
      cases ht
      exact ⟨h, rfl⟩
    · rintro ⟨-, rfl⟩
      rfl

end MessageBroker.Wire
