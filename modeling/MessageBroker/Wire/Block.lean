import MessageBroker.Message.Basic

/-!
# Length-prefixed blocks

A block is a length in four bytes, most significant first, and that many bytes.

Headlines:
* **`blockLength?_encode`**: the prefix that `encodeLength` writes is read back.
* **`takeBlock?_eq_some_iff`**: a block is cut off exactly when it stands in front.
-/

namespace MessageBroker.Wire

/-- The first length that four bytes cannot write. -/
def lengthBound : Nat := 4294967296

/-- A length in four bytes, most significant first. -/
def encodeLength (n : Nat) : Bytes :=
  [UInt8.ofNat (n / 16777216), UInt8.ofNat (n / 65536), UInt8.ofNat (n / 256), UInt8.ofNat n]

/-- The length that four bytes in front stand for, none if there are fewer. -/
def blockLength? : Bytes → Option Nat
  | a :: b :: c :: d :: _ =>
    some (a.toNat * 16777216 + b.toNat * 65536 + c.toNat * 256 + d.toNat)
  | _ => none

/-- Whether there are at least `n` bytes. -/
def hasAtLeast : Nat → Bytes → Bool
  | 0, _ => true
  | _ + 1, [] => false
  | n + 1, _ :: bs => hasAtLeast n bs

/-- The first `n` bytes and the rest, none if there are fewer. -/
def cut? (n : Nat) (bs : Bytes) : Option (Bytes × Bytes) :=
  if hasAtLeast n bs then some (bs.take n, bs.drop n) else none

/-- The bytes of the block in front, and the rest behind it. -/
def takeBlock? (bs : Bytes) : Option (Bytes × Bytes) :=
  (blockLength? bs).bind fun n => cut? n (bs.drop 4)

/-- A block of the given bytes. -/
def block (data : Bytes) : Bytes := encodeLength data.length ++ data

@[simp] theorem length_encodeLength (n : Nat) : (encodeLength n).length = 4 := rfl

theorem hasAtLeast_iff {n : Nat} {bs : Bytes} : hasAtLeast n bs = true ↔ n ≤ bs.length := by
  induction n generalizing bs with
  | zero => simp [hasAtLeast]
  | succ n ih =>
    cases bs with
    | nil => simp [hasAtLeast]
    | cons b bs => simp [hasAtLeast, ih]

theorem cut?_eq_some_iff {n : Nat} {bs front rest : Bytes} :
    cut? n bs = some (front, rest) ↔ bs = front ++ rest ∧ front.length = n := by
  unfold cut?
  constructor
  · intro h
    split at h
    · rename_i hn
      rw [hasAtLeast_iff] at hn
      simp only [Option.some.injEq, Prod.mk.injEq] at h
      obtain ⟨rfl, rfl⟩ := h
      exact ⟨(List.take_append_drop n bs).symm, by simp [List.length_take]; omega⟩
    · cases h
  · rintro ⟨rfl, rfl⟩
    rw [if_pos (by rw [hasAtLeast_iff]; simp)]
    simp

theorem cut?_eq_none_iff {n : Nat} {bs : Bytes} : cut? n bs = none ↔ bs.length < n := by
  unfold cut?
  split
  · rename_i h
    rw [hasAtLeast_iff] at h
    constructor
    · intro h'; cases h'
    · omega
  · rename_i h
    rw [hasAtLeast_iff] at h
    simp only [true_iff]
    omega

theorem blockLength?_cons (a b c d : UInt8) (bs : Bytes) :
    blockLength? (a :: b :: c :: d :: bs) =
      some (a.toNat * 16777216 + b.toNat * 65536 + c.toNat * 256 + d.toNat) := rfl

theorem blockLength?_eq_none_iff {bs : Bytes} : blockLength? bs = none ↔ bs.length < 4 := by
  match bs with
  | [] => simp [blockLength?]
  | [_] => simp [blockLength?]
  | [_, _] => simp [blockLength?]
  | [_, _, _] => simp [blockLength?]
  | _ :: _ :: _ :: _ :: bs => simp [blockLength?]

/-- **The prefix that is written is read back.** -/
theorem blockLength?_encode {n : Nat} (h : n < lengthBound) (bs : Bytes) :
    blockLength? (encodeLength n ++ bs) = some n := by
  simp only [encodeLength, List.cons_append, List.nil_append, blockLength?_cons,
    UInt8.toNat_ofNat', Option.some.injEq]
  unfold lengthBound at h
  omega

theorem takeBlock?_block {data : Bytes} (h : data.length < lengthBound) (rest : Bytes) :
    takeBlock? (block data ++ rest) = some (data, rest) := by
  unfold takeBlock? block
  rw [List.append_assoc, blockLength?_encode h]
  simp only [Option.bind_some]
  rw [cut?_eq_some_iff]
  exact ⟨by simp [encodeLength], rfl⟩

theorem encodeLength_of_blockLength? {bs : Bytes} {n : Nat} (h : blockLength? bs = some n) :
    bs = encodeLength n ++ bs.drop 4 ∧ n < lengthBound := by
  match bs, h with
  | a :: b :: c :: d :: bs, h =>
    rw [blockLength?_cons, Option.some.injEq] at h
    subst h
    have ha := a.toNat_lt; have hb := b.toNat_lt; have hc := c.toNat_lt; have hd := d.toNat_lt
    refine ⟨?_, ?_⟩
    · simp only [encodeLength, List.drop_succ_cons, List.drop_zero, List.cons_append,
        List.nil_append, List.cons.injEq, and_true]
      refine ⟨?_, ?_, ?_, ?_⟩ <;> apply UInt8.toNat.inj <;> rw [UInt8.toNat_ofNat'] <;> omega
    · unfold lengthBound; omega

/-- **A block is cut off exactly when it stands in front.** -/
theorem takeBlock?_eq_some_iff {bs data rest : Bytes} :
    takeBlock? bs = some (data, rest) ↔ bs = block data ++ rest ∧ data.length < lengthBound := by
  constructor
  · intro h
    unfold takeBlock? at h
    obtain ⟨n, hn, hc⟩ := Option.bind_eq_some_iff.mp h
    obtain ⟨hbs, hlt⟩ := encodeLength_of_blockLength? hn
    obtain ⟨hd, rfl⟩ := cut?_eq_some_iff.mp hc
    refine ⟨?_, hlt⟩
    rw [hbs, hd, block, List.append_assoc]
  · rintro ⟨rfl, h⟩
    exact takeBlock?_block h rest

end MessageBroker.Wire
