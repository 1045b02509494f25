import Mathlib.Algebra.GroupWithZero.Nat
import Mathlib.Algebra.Order.BigOperators.Group.List
import Mathlib.Algebra.Order.Group.Nat
import MessageBroker.ByteSize
import MessageBroker.Duration
import MessageBroker.Proofs.Text.Parts

/-!
# What unit expressions come to

A unit expression is a run of terms, each a decimal number followed by the name of its unit, in
letters of either case, with nothing between them and white space around the whole. Before the terms
are cut apart, names of two letters are rewritten to one: every pair of letters is replaced wherever
it stands. No two terms make such a pair between them, since every term starts with a digit; so the
rewriting falls into that of the names, and the expression comes to the sum of its terms. If that
sum fits 64 bits, nothing on the way to it overflows. What a byte count is written as is such an
expression, so it is read back.

Headlines:
* **`Text.replacePair_append`**: pairs may be replaced on both sides of a cut that divides none.
* **`Text.checkedTotal_eq`**: arithmetic that gives up on an overflow gives up just where the sum of
  the terms does not fit.
* **`Text.Legible.checkedTotal_eq_sum`**: an expression comes to the sum of its terms.
* **`Text.expressions_read`**: so do durations and byte counts.
* **`ByteSize.written_readBack`**: a byte count that is written is read back.
-/

namespace MessageBroker

namespace Text

/-! ## Pairs of letters -/

theorem replacePair_cons_of_ne {a b c x : Char} (h : x ≠ a) (cs : List Char) :
    replacePair a b c (x :: cs) = x :: replacePair a b c cs := by
  cases cs with
  | nil => rfl
  | cons y cs =>
    rw [replacePair, if_neg]
    exact fun hp => h hp.1

/-- **Pairs may be replaced on both sides of a cut that divides none.** -/
theorem replacePair_append {a b c : Char} {back : List Char} (h : back.head? ≠ some b)
    (front : List Char) :
    replacePair a b c (front ++ back) = replacePair a b c front ++ replacePair a b c back := by
  fun_induction replacePair a b c front with
  | case1 x y r hp ih =>
    rw [List.cons_append, List.cons_append, replacePair, if_pos hp, ih, List.cons_append]
  | case2 x y r hp ih =>
    rw [List.cons_append, List.cons_append, replacePair, if_neg hp, ← List.cons_append, ih,
      List.cons_append]
  | case3 r hr =>
    -- One character at most is left in front of the cut.
    match r, hr with
    | [], _ => rfl
    | [x], _ =>
      cases back with
      | nil => rfl
      | cons y back =>
        rw [List.singleton_append, replacePair, if_neg]
        · rfl
        · rintro ⟨-, rfl⟩
          exact h rfl
    | x :: y :: r, hr => exact absurd rfl (hr x y r)

theorem replacePair_append_of_notMem {a b c : Char} {front : List Char} (h : a ∉ front)
    (back : List Char) : replacePair a b c (front ++ back) = front ++ replacePair a b c back := by
  induction front with
  | nil => rfl
  | cons x front ih =>
    rw [List.mem_cons, not_or] at h
    rw [List.cons_append, replacePair_cons_of_ne (Ne.symm h.1), ih h.2, List.cons_append]

/-! ## Digits -/

theorem toLower_of_isDigit {c : Char} (h : c.isDigit = true) : c.toLower = c := by
  rw [Char.isDigit_iff_toNat] at h
  unfold Char.toLower
  rw [dif_neg]
  rintro ⟨hlow, -⟩
  have : 'A'.toNat ≤ c.toNat := hlow
  exact absurd (Nat.le_trans this h.2) (by decide)

theorem toUpper_of_isDigit {c : Char} (h : c.isDigit = true) : c.toUpper = c := by
  rw [Char.isDigit_iff_toNat] at h
  unfold Char.toUpper
  rw [dif_neg]
  rintro ⟨hlow, -⟩
  have : 'a'.toNat ≤ c.toNat := hlow
  exact absurd (Nat.le_trans this h.2) (by decide)

theorem isBlank_of_isDigit {c : Char} (h : c.isDigit = true) : isBlank c = false := by
  rw [Char.isDigit_iff_toNat] at h
  have h0 : '0'.toNat = 48 := rfl
  have h9 : '9'.toNat = 57 := rfl
  simp only [isBlank, inRanges, blankRanges, List.any_cons, List.any_nil, Bool.or_false,
    Bool.or_eq_false_iff, Bool.and_eq_false_iff, decide_eq_false_iff_not]
  omega

theorem mem_of_unsigned? {bound n : Nat} {cs : List Char} (h : unsigned? bound cs = some n) :
    ∀ c ∈ cs, c = '+' ∨ c.isDigit = true := by
  unfold unsigned? at h
  obtain ⟨hn, -⟩ := Option.filter_eq_some_iff.mp h
  have hdigits := (digits_of_natural? hn).2
  intro c hc
  split at hdigits
  · exact (List.mem_cons.mp hc).imp id (hdigits c)
  · exact .inr (hdigits c hc)

/-! ## Arithmetic that gives up on an overflow -/

/-- Adds the terms of a text to a sum, and gives up as soon as a product or a sum does not fit
64 bits. -/
def checkedFrom (units : List Unit) (sum : Nat) (number : List Char) : List Char → Option Nat
  | [] => some sum
  | c :: cs =>
    match worth? units c with
    | some w =>
      let product := (unsigned? wordBound number.reverse).getD 0 * w
      if product < wordBound ∧ sum + product < wordBound then
        checkedFrom units (sum + product) [] cs
      else none
    | none => checkedFrom units sum (c :: number) cs

/-- The sum of the terms, unless something overflows on the way. -/
def checkedTotal (units : List Unit) (cs : List Char) : Option Nat := checkedFrom units 0 [] cs

variable {units : List Unit}

theorem checkedFrom_eq {sum : Nat} (hsum : sum < wordBound) (number cs : List Char) :
    checkedFrom units sum number cs =
      if sum + totalFrom units number cs < wordBound then
        some (sum + totalFrom units number cs) else none := by
  induction cs generalizing sum number with
  | nil => exact (if_pos hsum).symm
  | cons c cs ih =>
    rw [checkedFrom, totalFrom]
    cases worth? units c with
    | none => exact ih hsum (c :: number)
    | some w =>
      dsimp only
      split
      · rename_i hfits
        rw [ih hfits.2, Nat.add_assoc]
      · rename_i hfits
        rw [if_neg]
        omega

/-- **Arithmetic that gives up on an overflow gives up just where the sum does not fit.** -/
theorem checkedTotal_eq (units : List Unit) (cs : List Char) :
    checkedTotal units cs =
      if totalFrom units [] cs < wordBound then some (totalFrom units [] cs) else none := by
  have h := @checkedFrom_eq units 0 (by decide) [] cs
  rwa [Nat.zero_add] at h

theorem total_of_checkedTotal {cs : List Char} {n : Nat} (h : checkedTotal units cs = some n) :
    total units cs = n := by
  rw [checkedTotal_eq] at h
  split at h
  · rename_i hfits
    exact (Nat.mod_eq_of_lt hfits).trans (Option.some.inj h)
  · cases h

/-! ## Terms -/

/-- The spellings of a name in letters of either case. -/
def spellings : List Char → List (List Char)
  | [] => [[]]
  | c :: cs => (spellings cs).flatMap fun s => [c.toLower :: s, c.toUpper :: s]

/-- A term: a decimal number and behind it a spelling of the name of a unit. -/
structure Term (names : List (String × Nat)) where
  digits : List Char
  number : Nat
  unit : String × Nat
  spelling : List Char
  reads : natural? digits = some number
  known : unit ∈ names
  spells : spelling ∈ spellings unit.1.toList

namespace Term

variable {names : List (String × Nat)}

def text (t : Term names) : List Char := t.digits ++ t.spelling

/-- What a term is worth. -/
def value (t : Term names) : Nat := t.number * t.unit.2

/-- What terms are worth together. -/
def sum (ts : List (Term names)) : Nat := (ts.map value).sum

theorem sum_append (ts ts' : List (Term names)) : sum (ts ++ ts') = sum ts + sum ts' := by
  unfold sum
  rw [List.map_append, List.sum_append]

theorem digits_ne_nil (t : Term names) : t.digits ≠ [] := (digits_of_natural? t.reads).1

theorem isDigit (t : Term names) : ∀ c ∈ t.digits, c.isDigit = true :=
  (digits_of_natural? t.reads).2

theorem value_le_sum {t : Term names} {ts : List (Term names)} (h : t ∈ ts) : t.value ≤ sum ts :=
  List.le_sum_of_mem (List.mem_map_of_mem h)

end Term

/-- What the letter of a unit is worth that stands alone. -/
def lone? (units : List Unit) : List Char → Option Nat
  | [c] => worth? units c
  | _ => none

theorem lone?_eq_some {cs : List Char} {w : Nat} (h : lone? units cs = some w) :
    ∃ c, cs = [c] ∧ worth? units c = some w := by
  unfold lone? at h
  split at h
  · exact ⟨_, rfl, h⟩
  · cases h

theorem worth?_of_isDigit (hletters : ∀ u ∈ units, u.letter.isDigit = false) {c : Char}
    (h : c.isDigit = true) : worth? units c = none := by
  unfold worth?
  rw [Option.map_eq_none_iff, List.find?_eq_none]
  intro u hu he
  rw [decide_eq_true_iff] at he
  rw [← he, hletters u hu] at h
  cases h

/-! ## Their sum -/

theorem totalFrom_append_of_isDigit (hletters : ∀ u ∈ units, u.letter.isDigit = false)
    {ds : List Char} (h : ∀ c ∈ ds, c.isDigit = true) (number rest : List Char) :
    totalFrom units number (ds ++ rest) = totalFrom units (ds.reverse ++ number) rest := by
  induction ds generalizing number with
  | nil => rfl
  | cons c ds ih =>
    obtain ⟨hc, hds⟩ := List.forall_mem_cons.mp h
    rw [List.cons_append, totalFrom, worth?_of_isDigit hletters hc]
    dsimp only
    rw [ih hds, List.reverse_cons, List.append_assoc, List.singleton_append]

/-- A number and the letter of a unit add what they are worth. -/
theorem totalFrom_term (hletters : ∀ u ∈ units, u.letter.isDigit = false) {ds : List Char}
    {n w : Nat} {letter : Char} (hn : natural? ds = some n) (hlt : n < wordBound)
    (hw : worth? units letter = some w) (rest : List Char) :
    totalFrom units [] (ds ++ letter :: rest) = n * w + totalFrom units [] rest := by
  rw [totalFrom_append_of_isDigit hletters (digits_of_natural? hn).2, totalFrom, hw]
  dsimp only
  rw [List.append_nil, List.reverse_reverse, unsigned?_of_natural? hn hlt, Option.getD_some]

/-- Pairs are replaced term by term, as every term starts with a digit. -/
theorem replacePair_flatMap {α : Type} {ds tail : α → List Char} {a b c : Char} (ts : List α)
    (hne : ∀ t, ds t ≠ []) (hds : ∀ t, ∀ x ∈ ds t, x.isDigit = true) (ha : a.isDigit = false)
    (hb : b.isDigit = false) :
    replacePair a b c (ts.flatMap fun t => ds t ++ tail t) =
      ts.flatMap fun t => ds t ++ replacePair a b c (tail t) := by
  have hstart : ∀ ts : List α, (ts.flatMap fun t => ds t ++ tail t).head? ≠ some b := by
    intro ts he
    cases ts with
    | nil => cases he
    | cons t ts =>
      obtain ⟨x, xs, hx⟩ := List.exists_cons_of_ne_nil (hne t)
      rw [List.flatMap_cons, hx, List.cons_append, List.cons_append, List.head?_cons] at he
      obtain rfl := Option.some.inj he
      rw [hds t x (hx ▸ List.mem_cons_self)] at hb
      cases hb
  induction ts with
  | nil => rfl
  | cons t ts ih =>
    have hnot : a ∉ ds t := fun hmem => by
      rw [hds t a hmem] at ha
      cases ha
    rw [List.flatMap_cons, replacePair_append (hstart ts), replacePair_append_of_notMem hnot, ih,
      List.flatMap_cons]

/-- Names of units that can be told apart once a text has been brought to letters of one case by
`fold` and its names to one letter each by `squeeze`. -/
structure Legible (names : List (String × Nat)) (units : List Unit) (fold : Char → Char)
    (squeeze : List Char → List Char) : Prop where
  letters : ∀ u ∈ units, u.letter.isDigit = false
  folds : ∀ c, c.isDigit = true → fold c = c
  visible : ∀ u ∈ names, ∀ s ∈ spellings u.1.toList, s.any isBlank = false
  worth : ∀ u ∈ names, 0 < u.2 ∧
    ∀ s ∈ spellings u.1.toList, lone? units (squeeze (s.map fold)) = some u.2
  apart : ∀ (ts : List (Term names)) (tail : Term names → List Char),
    squeeze (ts.flatMap fun t => t.digits ++ tail t) =
      ts.flatMap fun t => t.digits ++ squeeze (tail t)

namespace Legible

variable {names : List (String × Nat)} {fold : Char → Char} {squeeze : List Char → List Char}

/-- White space around terms is cut off, and nothing else. -/
theorem trimChars_eq (h : Legible names units fold squeeze) {before after : List Char}
    (hbefore : ∀ c ∈ before, isBlank c = true) (hafter : ∀ c ∈ after, isBlank c = true)
    (ts : List (Term names)) :
    trimChars (before ++ ts.flatMap Term.text ++ after) = ts.flatMap Term.text := by
  have hvisible : ∀ c ∈ ts.flatMap Term.text, isBlank c = false := by
    intro c hc
    obtain ⟨t, -, hct⟩ := List.mem_flatMap.mp hc
    rcases List.mem_append.mp hct with hd | hs
    · exact isBlank_of_isDigit (t.isDigit c hd)
    · have hnone := h.visible t.unit t.known t.spelling t.spells
      exact Bool.eq_false_iff.mpr (List.any_eq_false.mp hnone c hs)
  exact trimChars_eq_iff.mpr ⟨⟨before, after, rfl, hbefore, hafter⟩,
    fun c hc => hvisible c (List.mem_of_mem_head? hc),
    fun c hc => hvisible c (List.mem_of_mem_getLast? hc)⟩

/-- What is left of terms to be cut apart: their digits, and one letter behind those of each. -/
theorem squeeze_map_fold (h : Legible names units fold squeeze) (ts : List (Term names)) :
    squeeze ((ts.flatMap Term.text).map fold) =
      ts.flatMap fun t => t.digits ++ squeeze (t.spelling.map fold) := by
  have hfold : ∀ t : Term names, t.text.map fold = t.digits ++ t.spelling.map fold := fun t => by
    rw [Term.text, List.map_append, List.map_congr_left fun c hc => h.folds c (t.isDigit c hc),
      List.map_id']
  rw [List.map_flatMap]
  simp only [hfold]
  exact h.apart ts fun t => t.spelling.map fold

theorem totalFrom_eq_sum (h : Legible names units fold squeeze) {ts : List (Term names)}
    (hfits : ∀ t ∈ ts, t.number < wordBound) :
    totalFrom units [] (ts.flatMap fun t => t.digits ++ squeeze (t.spelling.map fold)) =
      Term.sum ts := by
  induction ts with
  | nil => rfl
  | cons t ts ih =>
    obtain ⟨ht, hts⟩ := List.forall_mem_cons.mp hfits
    obtain ⟨letter, hletter, hw⟩ :=
      lone?_eq_some ((h.worth t.unit t.known).2 t.spelling t.spells)
    rw [List.flatMap_cons, hletter, List.append_assoc, List.singleton_append,
      totalFrom_term h.letters t.reads ht hw, ih hts]
    rfl

/-- **An expression comes to the sum of its terms, and nothing overflows on the way,** if that sum
fits 64 bits. -/
theorem checkedTotal_eq_sum (h : Legible names units fold squeeze) {ts : List (Term names)}
    (hsum : Term.sum ts < wordBound) :
    checkedTotal units (squeeze ((ts.flatMap Term.text).map fold)) = some (Term.sum ts) := by
  have hfits : ∀ t ∈ ts, t.number < wordBound := fun t ht =>
    calc t.number ≤ t.value := Nat.le_mul_of_pos_right t.number (h.worth t.unit t.known).1
      _ ≤ Term.sum ts := Term.value_le_sum ht
      _ < wordBound := hsum
  rw [h.squeeze_map_fold, checkedTotal_eq, h.totalFrom_eq_sum hfits, if_pos hsum]

/-- An expression is no bare number. -/
theorem unsigned?_eq_none (h : Legible names units fold squeeze) (hplus : worth? units '+' = none)
    (bound : Nat) (ts : List (Term names)) :
    unsigned? bound (squeeze ((ts.flatMap Term.text).map fold)) = none := by
  rw [h.squeeze_map_fold]
  cases ts with
  | nil => rfl
  | cons t ts =>
    obtain ⟨letter, hletter, hw⟩ :=
      lone?_eq_some ((h.worth t.unit t.known).2 t.spelling t.spells)
    rw [Option.eq_none_iff_forall_ne_some]
    intro n hn
    -- The letter of the first unit is neither a sign nor a digit.
    have hmem : letter ∈ (t :: ts).flatMap fun t => t.digits ++ squeeze (t.spelling.map fold) := by
      simp [hletter]
    rcases mem_of_unsigned? hn letter hmem with rfl | hdigit
    · rw [hplus] at hw
      cases hw
    · rw [worth?_of_isDigit h.letters hdigit] at hw
      cases hw

end Legible

end Text

/-! ## Durations -/

namespace Duration

/-- The names of the units of a duration. -/
def unitNames : List (String × Nat) :=
  [("ms", 1), ("s", 1000), ("m", 60000), ("h", 3600000), ("d", 86400000)]

theorem legible : Text.Legible unitNames units Char.toLower (Text.replacePair 'm' 's' 'Y') where
  letters := by decide
  folds _ := Text.toLower_of_isDigit
  visible := by decide
  worth := by decide
  apart ts tail := Text.replacePair_flatMap ts Text.Term.digits_ne_nil Text.Term.isDigit rfl rfl

/-- Reads a unit expression, and gives up if something overflows on the way. -/
def checkedRead (s : String) : Option Duration :=
  (Text.checkedTotal units
    (Text.replacePair 'm' 's' 'Y' ((Text.trimChars s.toList).map Char.toLower))).map Duration.mk

theorem read_of_checkedRead {s : String} {d : Duration} (h : checkedRead s = some d) :
    read s = d := by
  obtain ⟨n, hn, rfl⟩ := Option.map_eq_some_iff.mp h
  exact congrArg Duration.mk (Text.total_of_checkedTotal hn)

theorem checkedRead_terms {before after : List Char}
    (hbefore : ∀ c ∈ before, Text.isBlank c = true) (hafter : ∀ c ∈ after, Text.isBlank c = true)
    {ts : List (Text.Term unitNames)} (hsum : Text.Term.sum ts < Text.wordBound) :
    checkedRead (String.ofList (before ++ ts.flatMap Text.Term.text ++ after)) =
      some ⟨Text.Term.sum ts⟩ := by
  unfold checkedRead
  rw [String.toList_ofList, legible.trimChars_eq hbefore hafter, legible.checkedTotal_eq_sum hsum]
  rfl

end Duration

/-! ## Byte counts -/

namespace ByteSize

/-- The names of the units of a byte count. -/
def unitNames : List (String × Nat) :=
  [("B", 1), ("K", 1024), ("KB", 1024), ("M", 1048576), ("MB", 1048576), ("G", 1073741824),
    ("GB", 1073741824)]

/-- Without the letter `B` of names of two letters. -/
def squeeze (cs : List Char) : List Char :=
  Text.replacePair 'K' 'B' 'K' (Text.replacePair 'M' 'B' 'M' (Text.replacePair 'G' 'B' 'G' cs))

theorem legible : Text.Legible unitNames units Char.toUpper squeeze where
  letters := by decide
  folds _ := Text.toUpper_of_isDigit
  visible := by decide
  worth := by decide
  apart ts tail := by
    have hpair : ∀ (a b c : Char) (tail : Text.Term unitNames → List Char), a.isDigit = false →
        b.isDigit = false → Text.replacePair a b c (ts.flatMap fun t => t.digits ++ tail t) =
          ts.flatMap fun t => t.digits ++ Text.replacePair a b c (tail t) := fun a b c tail =>
      Text.replacePair_flatMap ts Text.Term.digits_ne_nil Text.Term.isDigit
    unfold squeeze
    rw [hpair 'G' 'B' 'G' tail rfl rfl, hpair 'M' 'B' 'M' _ rfl rfl, hpair 'K' 'B' 'K' _ rfl rfl]

/-- Reads a bare number or a unit expression, and gives up if something overflows on the way. -/
def checkedRead (s : String) : Option ByteSize :=
  match Text.unsigned? Text.wordBound (normalize s) with
  | some n => some ⟨n⟩
  | none => (Text.checkedTotal units (normalize s)).map ByteSize.mk

theorem read_of_checkedRead {s : String} {b : ByteSize} (h : checkedRead s = some b) :
    read s = b := by
  unfold checkedRead at h
  unfold read
  dsimp only
  cases hn : Text.unsigned? Text.wordBound (normalize s) with
  | some n =>
    rw [hn] at h
    exact Option.some.inj h
  | none =>
    rw [hn] at h
    obtain ⟨n, hn', rfl⟩ := Option.map_eq_some_iff.mp h
    exact congrArg ByteSize.mk (Text.total_of_checkedTotal hn')

theorem checkedRead_terms {before after : List Char}
    (hbefore : ∀ c ∈ before, Text.isBlank c = true) (hafter : ∀ c ∈ after, Text.isBlank c = true)
    {ts : List (Text.Term unitNames)} (hsum : Text.Term.sum ts < Text.wordBound) :
    checkedRead (String.ofList (before ++ ts.flatMap Text.Term.text ++ after)) =
      some ⟨Text.Term.sum ts⟩ := by
  have hnormal : normalize (String.ofList (before ++ ts.flatMap Text.Term.text ++ after)) =
      squeeze ((ts.flatMap Text.Term.text).map Char.toUpper) := by
    unfold normalize squeeze
    rw [String.toList_ofList, legible.trimChars_eq hbefore hafter]
  unfold checkedRead
  rw [hnormal, legible.unsigned?_eq_none rfl, legible.checkedTotal_eq_sum hsum]
  rfl

end ByteSize

/-- **Durations and byte counts come to the sum of the terms of their expressions,** whatever the
terms are, whatever their order, whatever letters their units are spelled in and whatever white space
stands around them, as long as that sum fits 64 bits; and then nothing overflows on the way. -/
theorem Text.expressions_read {before after : List Char}
    (hbefore : ∀ c ∈ before, Text.isBlank c = true)
    (hafter : ∀ c ∈ after, Text.isBlank c = true) :
    (∀ ts : List (Text.Term Duration.unitNames), Text.Term.sum ts < Text.wordBound →
      let s := String.ofList (before ++ ts.flatMap Text.Term.text ++ after)
      Duration.read s = ⟨Text.Term.sum ts⟩ ∧ Duration.checkedRead s = some ⟨Text.Term.sum ts⟩) ∧
    ∀ ts : List (Text.Term ByteSize.unitNames), Text.Term.sum ts < Text.wordBound →
      let s := String.ofList (before ++ ts.flatMap Text.Term.text ++ after)
      ByteSize.read s = ⟨Text.Term.sum ts⟩ ∧ ByteSize.checkedRead s = some ⟨Text.Term.sum ts⟩ := by
  refine ⟨fun ts hsum => ?_, fun ts hsum => ?_⟩
  · have h := Duration.checkedRead_terms hbefore hafter hsum
    exact ⟨Duration.read_of_checkedRead h, h⟩
  · have h := ByteSize.checkedRead_terms hbefore hafter hsum
    exact ⟨ByteSize.read_of_checkedRead h, h⟩

/-- Ninety minutes and seven milliseconds. -/
def Duration.ninetyMinutes : List (Text.Term Duration.unitNames) :=
  [⟨"90".toList, 90, ("m", 60000), "M".toList, by decide, by decide, by decide⟩,
    ⟨"007".toList, 7, ("ms", 1), "mS".toList, by decide, by decide, by decide⟩]

/-- Three bytes, two kilobytes in either spelling, and three bytes again. -/
def ByteSize.fourKilobytes : List (Text.Term ByteSize.unitNames) :=
  [⟨"3".toList, 3, ("B", 1), "b".toList, by decide, by decide, by decide⟩,
    ⟨"2".toList, 2, ("KB", 1024), "kB".toList, by decide, by decide, by decide⟩,
    ⟨"2".toList, 2, ("K", 1024), "K".toList, by decide, by decide, by decide⟩,
    ⟨"3".toList, 3, ("B", 1), "B".toList, by decide, by decide, by decide⟩]

theorem Text.expressions_read_mixed :
    (∀ c ∈ [' ', '\t'], Text.isBlank c = true) ∧
      Text.Term.sum Duration.ninetyMinutes < Text.wordBound ∧
      Text.Term.sum ByteSize.fourKilobytes < Text.wordBound ∧
      Duration.read " \t90M007mS \t" = ⟨5400007⟩ ∧ ByteSize.read " \t3b2kB2K3B \t" = ⟨4102⟩ := by
  have hblank : ∀ c ∈ [' ', '\t'], Text.isBlank c = true := List.all_eq_true.mp (by decide)
  have h := Text.expressions_read hblank hblank
  exact ⟨hblank, by decide, by decide, (h.1 Duration.ninetyMinutes (by decide)).1,
    (h.2 ByteSize.fourKilobytes (by decide)).1⟩

/-! ## Byte counts as they are written -/

namespace ByteSize

/-- So many of a unit, as terms: none for none of it. -/
def partTerms (n : Nat) (u : String × Nat) (hu : u ∈ unitNames)
    (hs : u.1.toList ∈ Text.spellings u.1.toList) : List (Text.Term unitNames) :=
  if n = 0 then []
  else [⟨Nat.toDigits 10 n, n, u, u.1.toList, Text.natural?_toDigits n, hu, hs⟩]

/-- The terms that a byte count is written in. -/
def terms (b : ByteSize) : List (Text.Term unitNames) :=
  if b.bytes = 0 then [⟨['0'], 0, ("B", 1), ['B'], rfl, by decide, by decide⟩]
  else
    partTerms (b.bytes / 1073741824) ("G", 1073741824) (by decide) (by decide) ++
      partTerms (b.bytes % 1073741824 / 1048576) ("M", 1048576) (by decide) (by decide) ++
      partTerms (b.bytes % 1048576 / 1024) ("K", 1024) (by decide) (by decide) ++
      partTerms (b.bytes % 1024) ("B", 1) (by decide) (by decide)

variable {n : Nat} {letter : Char} {u : String × Nat} {hu : u ∈ unitNames}
  {hs : u.1.toList ∈ Text.spellings u.1.toList}

theorem toList_part (hl : u.1.toList = [letter]) :
    (part n letter).toList = (partTerms n u hu hs).flatMap Text.Term.text := by
  unfold part partTerms
  split
  · rfl
  · simp [Text.Term.text, Text.decimal, hl]

theorem sum_partTerms : Text.Term.sum (partTerms n u hu hs) = n * u.2 := by
  unfold partTerms
  split
  · rename_i hn
    rw [hn, Nat.zero_mul]
    rfl
  · simp [Text.Term.sum, Text.Term.value]

theorem toText_eq_terms (b : ByteSize) :
    toText b = String.ofList (b.terms.flatMap Text.Term.text) := by
  rw [← String.toList_inj, String.toList_ofList]
  unfold toText terms
  dsimp only
  split
  · rfl
  · simp only [String.toList_append, List.flatMap_append]
    rw [toList_part, toList_part, toList_part, toList_part] <;> rfl

/-- The units of a count make it up. -/
theorem sum_terms (b : ByteSize) : Text.Term.sum b.terms = b.bytes := by
  unfold terms
  split
  · rename_i hb
    rw [hb]
    rfl
  · rw [Text.Term.sum_append, Text.Term.sum_append, Text.Term.sum_append]
    simp only [sum_partTerms]
    omega

theorem checkedRead_toText {b : ByteSize} (h : b.bytes < Text.wordBound) :
    checkedRead (toText b) = some b := by
  have hsum : Text.Term.sum b.terms < Text.wordBound := by rwa [sum_terms]
  have hread := @checkedRead_terms [] [] nofun nofun b.terms hsum
  rwa [List.nil_append, List.append_nil, ← toText_eq_terms, sum_terms] at hread

/-- **A byte count that is written is read back,** with nothing that overflows on the way; so no two
of them are written the same. -/
theorem written_readBack :
    (∀ b : ByteSize, b.bytes < Text.wordBound →
      read (toText b) = b ∧ checkedRead (toText b) = some b) ∧
    ∀ b b' : ByteSize, b.bytes < Text.wordBound → b'.bytes < Text.wordBound →
      toText b = toText b' → b = b' := by
  refine ⟨fun b h => ⟨read_of_checkedRead (checkedRead_toText h), checkedRead_toText h⟩, ?_⟩
  intro b b' h h' he
  have hread := checkedRead_toText h
  rw [he, checkedRead_toText h'] at hread
  exact (Option.some.inj hread).symm

/-- The largest count has every unit. -/
theorem written_readBack_largest : (⟨18446744073709551615⟩ : ByteSize).bytes < Text.wordBound ∧
    toText ⟨18446744073709551615⟩ = "17179869183G1023M1023K1023B" ∧
    read "17179869183G1023M1023K1023B" = ⟨18446744073709551615⟩ := by
  have hlt : (⟨18446744073709551615⟩ : ByteSize).bytes < Text.wordBound := by decide
  have htext : toText ⟨18446744073709551615⟩ = "17179869183G1023M1023K1023B" := by decide
  refine ⟨hlt, htext, ?_⟩
  rw [← htext]
  exact (written_readBack.1 ⟨18446744073709551615⟩ hlt).1

end ByteSize

end MessageBroker
