import Mt7610u.Lib.Bytes

/-! # Hashing block by block

A hash function with a compression function `comp` for blocks of `B` bytes. The message is padded with a one bit,
zeros and its length. -/

namespace Mt7610u.Lib

theorem read_mem_of_le {bs : List Byte} {n : ℕ} (h : bs.length ≤ n) :
    read (mem bs) n = bs ++ List.replicate (n - bs.length) 0 := by
  obtain ⟨k, rfl⟩ := Nat.exists_eq_add_of_le h
  rw [read_add, read_mem_length, Nat.add_sub_cancel_left]
  refine congrArg (bs ++ ·) (List.eq_replicate_iff.2 ⟨length_readAt _ _ _, fun b hb => ?_⟩)
  unfold readAt read at hb
  obtain ⟨i, -, rfl⟩ := List.mem_map.1 hb
  simp [mem]

theorem copy_mem (xs ys : List Byte) : copy (mem xs) xs.length ys = mem (xs ++ ys) := by
  funext i
  unfold copy
  split_ifs with h
  · obtain ⟨k, rfl⟩ := Nat.exists_eq_add_of_le h.1
    rw [mem_append_right, Nat.add_sub_cancel_left]
  · by_cases hi : i < xs.length
    · rw [mem_append_left ys hi]
    · have hxs : xs[i]? = none := List.getElem?_eq_none (by omega)
      have hall : (xs ++ ys)[i]? = none := List.getElem?_eq_none (by rw [List.length_append]; omega)
      simp [mem, hxs, hall]

theorem mem_append_zeros (bs : List Byte) (n : ℕ) : mem (bs ++ List.replicate n 0) = mem bs := by
  funext i
  by_cases hi : i < bs.length
  · exact mem_append_left _ hi
  · obtain ⟨k, rfl⟩ := Nat.exists_eq_add_of_le (Nat.not_lt.1 hi)
    have hnone : bs[bs.length + k]? = none := List.getElem?_eq_none (by omega)
    rw [mem_append_right]
    simp only [mem, List.getD_eq_getElem?_getD, hnone, List.getElem?_replicate]
    split_ifs
    · rfl
    · rfl

namespace BlockHash

variable {σ : Type*} (comp : σ → List Byte → σ) (B : ℕ)

/-- The chaining value after the first `n` whole blocks of a string, as far as there are so many, and the rest. -/
def absorbBlocks : ℕ → σ → List Byte → σ × List Byte
  | 0, h, bs => (h, bs)
  | n + 1, h, bs => if bs.length < B then (h, bs) else absorbBlocks n (comp h (bs.take B)) (bs.drop B)

def absorb (h : σ) (bs : List Byte) : σ × List Byte := absorbBlocks comp B bs.length h bs

variable {comp B} {h : σ} {bs : List Byte}

theorem absorbBlocks_of_le (hB : 0 < B) {n k : ℕ} (hn : bs.length ≤ n) (hk : n ≤ k) :
    absorbBlocks comp B k h bs = absorbBlocks comp B n h bs := by
  induction n generalizing k h bs with
  | zero =>
    have hlt : bs.length < B := by omega
    cases k with
    | zero => rfl
    | succ k => exact if_pos hlt
  | succ n ih =>
    obtain ⟨k, rfl⟩ : ∃ j, k = j + 1 := ⟨k - 1, by omega⟩
    unfold absorbBlocks
    by_cases hlt : bs.length < B
    · rw [if_pos hlt, if_pos hlt]
    · rw [if_neg hlt, if_neg hlt]
      exact ih (by rw [List.length_drop]; omega) (by omega)

theorem absorb_of_lt (hlt : bs.length < B) : absorb comp B h bs = (h, bs) := by
  unfold absorb
  cases bs.length with
  | zero => rfl
  | succ n => exact if_pos hlt

theorem absorb_of_ge (hB : 0 < B) (hge : B ≤ bs.length) :
    absorb comp B h bs = absorb comp B (comp h (bs.take B)) (bs.drop B) := by
  obtain ⟨n, hn⟩ : ∃ n, bs.length = n + 1 := ⟨bs.length - 1, by omega⟩
  unfold absorb
  conv_lhs => rw [hn, absorbBlocks, if_neg (by omega)]
  exact absorbBlocks_of_le hB le_rfl (by rw [List.length_drop]; omega)

theorem absorb_block (hB : 0 < B) {b : List Byte} (hb : b.length = B) (bs : List Byte) :
    absorb comp B h (b ++ bs) = absorb comp B (comp h b) bs := by
  rw [absorb_of_ge hB (by rw [List.length_append]; omega), List.take_left' hb, List.drop_left' hb]

/-- **A string in two parts.** -/
theorem absorb_append (hB : 0 < B) (xs ys : List Byte) :
    absorb comp B h (xs ++ ys) = absorb comp B (absorb comp B h xs).1 ((absorb comp B h xs).2 ++ ys) := by
  induction hn : xs.length using Nat.strong_induction_on generalizing h xs with
  | _ n ih =>
    subst hn
    rcases Nat.lt_or_ge xs.length B with hlt | hge
    · rw [absorb_of_lt hlt]
    · have htake : (xs.take B).length = B := List.length_take_of_le hge
      rw [absorb_of_ge hB hge]
      conv_lhs => rw [← List.take_append_drop B xs, List.append_assoc, absorb_block hB htake]
      exact ih (xs.drop B).length (by rw [List.length_drop]; omega) _ rfl

theorem length_absorb (hB : 0 < B) (h : σ) (bs : List Byte) : (absorb comp B h bs).2.length = bs.length % B := by
  induction hn : bs.length using Nat.strong_induction_on generalizing h bs with
  | _ n ih =>
    subst hn
    rcases Nat.lt_or_ge bs.length B with hlt | hge
    · rw [absorb_of_lt hlt, Nat.mod_eq_of_lt hlt]
    · rw [absorb_of_ge hB hge, ih (bs.drop B).length (by rw [List.length_drop]; omega) _ _ rfl, List.length_drop,
        ← Nat.mod_eq_sub_mod hge]

/-! ### Padding -/

variable (B)

def zerosFor (n : ℕ) : ℕ := (B - (n + 9) % B) % B

def pad (lenBytes : BitVec 64 → List Byte) (m : List Byte) : List Byte :=
  m ++ 0x80 :: (List.replicate (zerosFor B m.length) 0 ++ lenBytes (BitVec.ofNat 64 (8 * m.length)))

variable (comp)

def digest (iv : σ) (lenBytes : BitVec 64 → List Byte) (m : List Byte) : σ :=
  (absorb comp B iv (pad B lenBytes m)).1

variable {comp B} {iv : σ} {lenBytes : BitVec 64 → List Byte} {m : List Byte}

theorem zerosFor_mod (B n : ℕ) : zerosFor B n = zerosFor B (n % B) := by
  unfold zerosFor
  rw [Nat.mod_add_mod]

theorem digest_eq (hB : 0 < B) : digest comp B iv lenBytes m = (absorb comp B (absorb comp B iv m).1
    ((absorb comp B iv m).2 ++ 0x80 :: (List.replicate (zerosFor B (absorb comp B iv m).2.length) 0 ++
      lenBytes (BitVec.ofNat 64 (8 * m.length))))).1 := by
  unfold digest pad
  rw [absorb_append hB, length_absorb hB, ← zerosFor_mod]

/-- **The length fits in the block that the message ends in.** -/
theorem digest_of_short (hlen : ∀ n, (lenBytes n).length = 8) (hr : (absorb comp B iv m).2.length + 9 ≤ B) :
    digest comp B iv lenBytes m = comp (absorb comp B iv m).1 ((absorb comp B iv m).2 ++
      0x80 :: (List.replicate (B - 9 - (absorb comp B iv m).2.length) 0 ++
        lenBytes (BitVec.ofNat 64 (8 * m.length)))) := by
  have hB : 0 < B := by omega
  rw [digest_eq hB]
  generalize (absorb comp B iv m).2 = r at hr ⊢
  have hz : zerosFor B r.length = B - 9 - r.length := by
    unfold zerosFor
    rcases Nat.lt_or_eq_of_le hr with hlt | heq
    · rw [Nat.mod_eq_of_lt hlt, Nat.mod_eq_of_lt (by omega)]
      omega
    · rw [heq, Nat.mod_self, Nat.sub_zero, Nat.mod_self]
      omega
  rw [hz]
  conv_lhs => rw [← List.append_nil (r ++ _)]
  rw [absorb_block hB, absorb_of_lt (by simpa using hB)]
  simp only [List.length_append, List.length_cons, List.length_replicate, hlen]
  omega

/-- **The length goes to a block of its own.** -/
theorem digest_of_long (hB : 8 < B) (hlen : ∀ n, (lenBytes n).length = 8)
    (hr : B < (absorb comp B iv m).2.length + 9) :
    digest comp B iv lenBytes m = comp (comp (absorb comp B iv m).1 ((absorb comp B iv m).2 ++
      0x80 :: List.replicate (B - 1 - (absorb comp B iv m).2.length) 0))
        (List.replicate (B - 8) 0 ++ lenBytes (BitVec.ofNat 64 (8 * m.length))) := by
  have hB0 : 0 < B := by omega
  have hlt : (absorb comp B iv m).2.length < B := by
    rw [length_absorb hB0]
    exact Nat.mod_lt _ hB0
  rw [digest_eq hB0]
  generalize (absorb comp B iv m).2 = r at hr hlt ⊢
  have hz : zerosFor B r.length = B - 1 - r.length + (B - 8) := by
    unfold zerosFor
    have hmod : (r.length + 9) % B = r.length + 9 - B := by
      rw [Nat.mod_eq_sub_mod (by omega), Nat.mod_eq_of_lt (by omega)]
    rw [hmod]
    rcases Nat.lt_or_ge (B - (r.length + 9 - B)) B with h1 | h1
    · rw [Nat.mod_eq_of_lt h1]
      omega
    · omega
  have hsplit : r ++ 0x80 :: (List.replicate (zerosFor B r.length) 0 ++ lenBytes (BitVec.ofNat 64 (8 * m.length))) =
      (r ++ 0x80 :: List.replicate (B - 1 - r.length) 0) ++
        ((List.replicate (B - 8) 0 ++ lenBytes (BitVec.ofNat 64 (8 * m.length))) ++ []) := by
    rw [hz, List.replicate_add]
    simp only [List.append_assoc, List.cons_append, List.append_nil]
  rw [hsplit, absorb_block hB0, absorb_block hB0, absorb_of_lt (by simpa using hB0)]
  · simp only [List.length_append, List.length_replicate, hlen]
    omega
  · simp only [List.length_append, List.length_cons, List.length_replicate]
    omega

end BlockHash

end Mt7610u.Lib
