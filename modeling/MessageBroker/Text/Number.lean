/-!
# Whole numbers in decimal

`natural?` reads digits only. `unsigned?` allows a plus sign and refuses what does not fit;
`signed?` allows either sign. Nothing else may stand in the text.

Headlines:
* **`unsigned?_of_natural?`**: digits are read as the number they write, if it is not too big.
* **`word?_decimal`**: a number that is written is read back, if it is not too big.
-/

namespace MessageBroker.Text

/-- The first number that 64 binary digits cannot write. -/
def wordBound : Nat := 18446744073709551616

/-- The first number that 63 binary digits cannot write. -/
def halfWord : Nat := 9223372036854775808

/-- The value of a digit. -/
def digit? (c : Char) : Option Nat :=
  if c.isDigit then some (c.toNat - '0'.toNat) else none

/-- The number that the digits continue `n` to. -/
def continueNumber (n : Nat) : List Char → Option Nat
  | [] => some n
  | c :: cs => match digit? c with
    | some d => continueNumber (10 * n + d) cs
    | none => none

/-- Digits only, and at least one. -/
def natural? : List Char → Option Nat
  | [] => none
  | cs => continueNumber 0 cs

/-- Digits behind an optional plus sign, for a number below `bound`. -/
def unsigned? (bound : Nat) (cs : List Char) : Option Nat :=
  let digits := match cs with
    | '+' :: r => r
    | r => r
  (natural? digits).filter fun n => decide (n < bound)

/-- Digits behind an optional sign, for a number from `-half` to `half - 1`. -/
def signed? (half : Nat) : List Char → Option Int
  | '-' :: r => ((natural? r).filter fun n => decide (n ≤ half)).map fun n => -(n : Int)
  | r => (unsigned? half r).map Int.ofNat

/-- A 64-bit unsigned number. -/
def word? (s : String) : Option Nat := unsigned? wordBound s.toList

/-- The decimal digits of a number. -/
def decimal (n : Nat) : String := String.ofList (Nat.toDigits 10 n)

/-- The decimal digits of an integer, behind a minus sign if it is negative. -/
def integer (n : Int) : String := if n < 0 then "-" ++ decimal n.natAbs else decimal n.natAbs

theorem isDigit_of_mem_decimal {n : Nat} {c : Char} (h : c ∈ (decimal n).toList) :
    c.isDigit = true := by
  unfold decimal at h
  rw [String.toList_ofList] at h
  exact Nat.isDigit_of_mem_toDigits (by decide) (by decide) h

theorem digit?_digitChar {n : Nat} (h : n < 10) : digit? n.digitChar = some n := by
  unfold digit?
  rw [if_pos (by simp [h])]
  exact congrArg some (Nat.toNat_digitChar_sub_48_of_lt_ten h)

theorem continueNumber_append (n : Nat) (cs ds : List Char) :
    continueNumber n (cs ++ ds) = (continueNumber n cs).bind fun k => continueNumber k ds := by
  induction cs generalizing n with
  | nil => rfl
  | cons c cs ih =>
    simp only [List.cons_append, continueNumber]
    cases digit? c with
    | none => rfl
    | some d => exact ih _

theorem continueNumber_toDigits (n : Nat) : continueNumber 0 (Nat.toDigits 10 n) = some n := by
  induction n using Nat.strongRecOn with
  | ind n ih =>
    rw [Nat.toDigits_eq_if (by decide)]
    split
    · rename_i h
      simp [continueNumber, digit?_digitChar h]
    · have hmod : n % 10 < 10 := Nat.mod_lt n (by decide)
      rw [continueNumber_append, ih (n / 10) (by omega)]
      simp only [Option.bind_some, continueNumber, digit?_digitChar hmod]
      exact congrArg some (by omega)

theorem isDigit_of_digit? {c : Char} {d : Nat} (h : digit? c = some d) : c.isDigit = true := by
  unfold digit? at h
  split at h
  · assumption
  · cases h

theorem isDigit_of_continueNumber {n k : Nat} {cs : List Char}
    (h : continueNumber n cs = some k) : ∀ c ∈ cs, c.isDigit = true := by
  induction cs generalizing n with
  | nil => exact List.forall_mem_nil _
  | cons c cs ih =>
    rw [continueNumber] at h
    cases hd : digit? c with
    | none =>
      rw [hd] at h
      cases h
    | some d =>
      rw [hd] at h
      exact List.forall_mem_cons.mpr ⟨isDigit_of_digit? hd, ih h⟩

/-- A decimal number is written in digits, at least one. -/
theorem digits_of_natural? {cs : List Char} {n : Nat} (h : natural? cs = some n) :
    cs ≠ [] ∧ ∀ c ∈ cs, c.isDigit = true := by
  cases cs with
  | nil => cases h
  | cons c cs => exact ⟨List.cons_ne_nil c cs, isDigit_of_continueNumber h⟩

theorem natural?_toDigits (n : Nat) : natural? (Nat.toDigits 10 n) = some n := by
  rw [← continueNumber_toDigits n]
  cases hd : Nat.toDigits 10 n with
  | nil => exact absurd hd Nat.toDigits_ne_nil
  | cons c cs => rfl

/-- **Digits are read as the number they write**, if it is not too big. -/
theorem unsigned?_of_natural? {bound n : Nat} {cs : List Char} (h : natural? cs = some n)
    (hn : n < bound) : unsigned? bound cs = some n := by
  unfold unsigned?
  split
  · -- A plus sign is no digit.
    exact absurd ((digits_of_natural? h).2 '+' List.mem_cons_self) (by decide)
  · dsimp only
    rw [h]
    simp [hn]

/-- **A number that is written is read back**, if it is not too big. -/
theorem word?_decimal {n : Nat} (h : n < wordBound) : word? (decimal n) = some n := by
  unfold word? decimal
  rw [String.toList_ofList]
  exact unsigned?_of_natural? (natural?_toDigits n) h

end MessageBroker.Text
