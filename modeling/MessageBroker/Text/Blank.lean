/-!
# White space and the case of letters

`trim` cuts the characters with the Unicode property `White_Space` from both ends of a text;
`lower` and `upper` change ASCII letters only. That is enough for the texts read here: no other
letter has a case form that is a digit, a sign or one of the letters that are looked for.
-/

namespace MessageBroker.Text

/-- The ranges of code points with the property `White_Space`. -/
def blankRanges : List (Nat × Nat) :=
  [(0x09, 0x0d), (0x20, 0x20), (0x85, 0x85), (0xa0, 0xa0), (0x1680, 0x1680), (0x2000, 0x200a),
   (0x2028, 0x2029), (0x202f, 0x202f), (0x205f, 0x205f), (0x3000, 0x3000)]

/-- Whether `n` lies in one of the ranges. -/
def inRanges (ranges : List (Nat × Nat)) (n : Nat) : Bool :=
  ranges.any fun r => decide (r.1 ≤ n) && decide (n ≤ r.2)

/-- White space. -/
def isBlank (c : Char) : Bool := inRanges blankRanges c.toNat

/-- Without the white space in front. -/
def trimLeft (cs : List Char) : List Char := cs.dropWhile isBlank

/-- Without the white space in front and behind. -/
def trimChars (cs : List Char) : List Char := (trimLeft (trimLeft cs).reverse).reverse

/-- Without the white space in front and behind. -/
def trim (s : String) : String := String.ofList (trimChars s.toList)

/-- ASCII capitals become small. -/
def lower (s : String) : String := String.ofList (s.toList.map Char.toLower)

/-- ASCII small letters become capitals. -/
def upper (s : String) : String := String.ofList (s.toList.map Char.toUpper)

/-- The pieces between separators: one more than there are separators. -/
def splitOn (sep : Char) (cs : List Char) : List (List Char) :=
  cs.foldr (fun c pieces =>
    if c = sep then [] :: pieces
    else match pieces with
      | [] => [[c]]
      | p :: ps => (c :: p) :: ps) [[]]

@[simp] theorem splitOn_nil (sep : Char) : splitOn sep [] = [[]] := rfl

theorem splitOn_cons_sep (sep : Char) (cs : List Char) :
    splitOn sep (sep :: cs) = [] :: splitOn sep cs := by simp [splitOn]

theorem splitOn_ne_nil (sep : Char) (cs : List Char) : splitOn sep cs ≠ [] := by
  cases cs with
  | nil => simp
  | cons c cs =>
    simp only [splitOn, List.foldr_cons]
    split
    · simp
    · split <;> simp

theorem splitOn_cons_of_ne {sep c : Char} (h : c ≠ sep) (cs : List Char) :
    ∃ p ps, splitOn sep cs = p :: ps ∧ splitOn sep (c :: cs) = (c :: p) :: ps := by
  cases hs : splitOn sep cs with
  | nil => exact absurd hs (splitOn_ne_nil sep cs)
  | cons p ps =>
    refine ⟨p, ps, rfl, ?_⟩
    unfold splitOn at hs ⊢
    rw [List.foldr_cons, hs, if_neg h]

/-- The names of a comma-separated list: trimmed, and not empty. -/
def commaNames (s : String) : List String :=
  ((splitOn ',' s.toList).map fun p => String.ofList (trimChars p)).filter fun n => !n.isEmpty

end MessageBroker.Text
