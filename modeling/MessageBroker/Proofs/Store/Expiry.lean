import MessageBroker.Store

/-!
# What a sweep of the store removes

A sweep removes what is at least as old as the expiry, where age is a difference of times and not of
64-bit words. The words can tell that difference as long as the expiry reaches back no further than
the first of all times; with a clock that shows a time after 1970 that is every expiry of up to
2^63 milliseconds. A longer one counts as one of 2^64 milliseconds less, which is negative, so that
the sweep takes everything that has ever been stored.

Headlines:
* **`Store.toInt_deadline`**: the deadline as a number.
* **`Store.deadline_lt_iff`**: behind the deadline is what is younger than the expiry.
* **`Store.removeExpired_expires`**: what a sweep removes, how many it counts, and that a longer
  expiry keeps more.
* **`Store.removeExpired_longest`**: the longest expiry of all removes what has just been stored.
-/

namespace MessageBroker.Store

/-- How long ago a time was, in milliseconds; a time to come was less than none ago. -/
def age (now stored : Timestamp) : Int := now.toInt - stored.toInt

/-- An expiry reaches back no further than the first of all times. -/
def Reaches (now : Timestamp) (expiry : Duration) : Prop :=
  (expiry.millis : Int) ≤ now.toInt + Text.halfWord

/-- A sweep removes the entries that have reached an age, leaves every other one as it was, and
gives their number. -/
structure Drops (s : Store) (now : Timestamp) (limit : Int) (swept : Nat × Store) : Prop where
  keeps : ∀ id e, swept.2.entries.get? id = some e ↔
    s.entries.get? id = some e ∧ age now e.2 < limit
  counts : swept.1 = s.entries.entries.countP fun e => decide (limit ≤ age now e.2.2)

/-- What an expiry comes to. -/
structure Expires (s : Store) (now : Timestamp) (expiry : Duration) : Prop where
  /-- After 1970 an expiry of up to 2^63 milliseconds reaches back as it should. -/
  reaches : 0 ≤ now.toInt → expiry.millis ≤ Text.halfWord → Reaches now expiry
  /-- No expiry, no sweep. -/
  never : expiry.millis = 0 → s.removeExpired now expiry = (0, s)
  /-- What is as old as the expiry goes, and nothing else. -/
  old : 0 < expiry.millis → Reaches now expiry →
    s.Drops now expiry.millis (s.removeExpired now expiry)
  /-- What a shorter expiry keeps is kept. -/
  longer : Reaches now expiry → ∀ shorter : Duration, 0 < shorter.millis →
    shorter.millis ≤ expiry.millis → ∀ id e,
    (s.removeExpired now shorter).2.entries.get? id = some e →
    (s.removeExpired now expiry).2.entries.get? id = some e
  /-- An expiry that reaches back too far counts as one of 2^64 milliseconds less, and leaves
  nothing that has been stored up to now. -/
  beyond : ¬ Reaches now expiry →
    s.Drops now (expiry.millis - Text.wordBound) (s.removeExpired now expiry) ∧
      ∀ id e, s.entries.get? id = some e → e.2 ≤ now →
        (s.removeExpired now expiry).2.entries.get? id = none

variable {s : Store} {now stored : Timestamp} {expiry : Duration}

/-! ## The deadline -/

theorem reaches_of_nonneg (hnow : 0 ≤ now.toInt) (h : expiry.millis ≤ Text.halfWord) :
    Reaches now expiry := by
  unfold Reaches
  omega

theorem Reaches.shorter {shorter : Duration} (h : Reaches now expiry)
    (hle : shorter.millis ≤ expiry.millis) : Reaches now shorter := by
  unfold Reaches at h ⊢
  omega

/-- **The deadline as a number:** it is as far back as the expiry says, or 2^64 milliseconds later
where it would lie before the first of all times. -/
theorem toInt_deadline (h : expiry.millis < Text.wordBound) :
    (deadline now expiry).toInt = now.toInt - expiry.millis ∧ Reaches now expiry ∨
      (deadline now expiry).toInt = now.toInt - (expiry.millis - Text.wordBound) ∧
        ¬ Reaches now expiry := by
  have hlow := now.le_toInt
  have hhigh := now.toInt_lt
  have hd : (deadline now expiry).toInt = (now.toInt - expiry.millis).bmod (2 ^ 64) := by
    unfold deadline
    rw [Int64.toInt_sub, Int64.toInt_ofNat']
    exact Int.sub_bmod_bmod
  rw [hd, Int.bmod_def]
  simp only [Reaches, Text.halfWord, Text.wordBound] at h ⊢
  omega

/-- **Behind the deadline is what is younger than the expiry.** -/
theorem deadline_lt_iff (h : expiry.millis < Text.wordBound) (hr : Reaches now expiry) :
    deadline now expiry < stored ↔ age now stored < expiry.millis := by
  rcases toInt_deadline h with ⟨hd, -⟩ | ⟨-, hn⟩
  · rw [Int64.lt_iff_toInt_lt, hd]
    unfold age
    omega
  · exact absurd hr hn

theorem deadline_lt_iff_of_beyond (h : expiry.millis < Text.wordBound)
    (hn : ¬ Reaches now expiry) :
    deadline now expiry < stored ↔ age now stored < expiry.millis - Text.wordBound := by
  rcases toInt_deadline h with ⟨-, hr⟩ | ⟨hd, -⟩
  · exact absurd hr hn
  · rw [Int64.lt_iff_toInt_lt, hd]
    unfold age
    omega

/-! ## The sweep -/

theorem isZero_of_pos (h : 0 < expiry.millis) : expiry.isZero = false := by
  unfold Duration.isZero
  simpa using Nat.pos_iff_ne_zero.mp h

theorem removeExpired_of_zero (h : expiry.millis = 0) : s.removeExpired now expiry = (0, s) := by
  unfold removeExpired
  rw [if_pos]
  simp [Duration.isZero, h]

/-- A sweep drops what has reached an age, if its deadline tells just that. -/
theorem drops_of_deadline {limit : Int} (h : 0 < expiry.millis)
    (hd : ∀ stored, deadline now expiry < stored ↔ age now stored < limit) :
    s.Drops now limit (s.removeExpired now expiry) where
  keeps id e := by
    rw [get?_removeExpired s now (isZero_of_pos h), Option.filter_eq_some_iff, decide_eq_true_iff,
      hd]
  counts := by
    have hlen := List.length_eq_countP_add_countP
      (fun e : MessageId × Message × Timestamp => decide (deadline now expiry < e.2.2))
      (l := s.entries.entries)
    have hold : ∀ e : MessageId × Message × Timestamp,
        (decide ¬ decide (deadline now expiry < e.2.2) = true) = decide (limit ≤ age now e.2.2) := by
      intro e
      rw [decide_eq_decide, decide_eq_true_iff, hd, Int.not_lt]
    simp only [hold] at hlen
    unfold removeExpired
    rw [if_neg (by simp [isZero_of_pos h])]
    simp only [size, Table.size, Table.filter, ← List.countP_eq_length_filter]
    omega

/-- **What is as old as the expiry goes, and nothing else,** as long as the expiry reaches back no
further than the first of all times. -/
theorem removeExpired_expires (s : Store) (now : Timestamp) (h : expiry.millis < Text.wordBound) :
    s.Expires now expiry where
  reaches := reaches_of_nonneg
  never := removeExpired_of_zero
  old hpos hr := drops_of_deadline hpos fun _ => deadline_lt_iff h hr
  longer hr shorter hpos hle id e he := by
    have hshort := @drops_of_deadline s now shorter _ hpos fun _ =>
      deadline_lt_iff (Nat.lt_of_le_of_lt hle h) (hr.shorter hle)
    have hlong := @drops_of_deadline s now expiry _ (Nat.lt_of_lt_of_le hpos hle) fun _ =>
      deadline_lt_iff h hr
    obtain ⟨hs, hage⟩ := (hshort.keeps id e).mp he
    exact (hlong.keeps id e).mpr ⟨hs, by omega⟩
  beyond hn := by
    have hpos : 0 < expiry.millis := by
      have := now.le_toInt
      simp only [Reaches, Text.halfWord] at hn
      omega
    have hdrops := @drops_of_deadline s now expiry _ hpos fun _ => deadline_lt_iff_of_beyond h hn
    refine ⟨hdrops, fun id e hs hle => ?_⟩
    rw [Option.eq_none_iff_forall_ne_some]
    intro e' he'
    obtain ⟨hs', hage⟩ := (hdrops.keeps id e').mp he'
    cases hs.symm.trans hs'
    rw [Int64.le_iff_toInt_le] at hle
    unfold age at hage
    omega

/-- A store with one message, of the moment that the clock shows. -/
def fresh : Store := (∅ : Store).insert 1 (.publish "work" []) 1700000000000

theorem fresh_expires : 18446744073709551615 < Text.wordBound ∧
    fresh.Expires 1700000000000 ⟨18446744073709551615⟩ :=
  ⟨by decide, fresh.removeExpired_expires 1700000000000 (by decide)⟩

/-- **The longest expiry of all removes what has just been stored,** though one of a millisecond
keeps it. -/
theorem removeExpired_longest :
    fresh.removeExpired 1700000000000 ⟨18446744073709551615⟩ = (1, ∅) ∧
      fresh.removeExpired 1700000000000 ⟨1⟩ = (0, fresh) :=
  ⟨rfl, rfl⟩

end MessageBroker.Store
