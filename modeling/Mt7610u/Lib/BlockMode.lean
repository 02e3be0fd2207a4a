import Mt7610u.Lib.Bytes
import Mathlib.Data.List.GetD

/-! # Modes of a block cipher

Blocks have 16 bytes; a shorter string stands for the block with zeros behind it. -/

namespace Mt7610u.Lib

/-! ### Blocks -/

def xorBlock (a b : List Byte) : List Byte := (List.range 16).map fun i => a.getD i 0 ^^^ b.getD i 0

def padBlock (bs : List Byte) : List Byte := (List.range 16).map fun i => bs.getD i 0

theorem block_ext {xs ys : List Byte} (hx : xs.length = 16) (hy : ys.length = 16)
    (h : ∀ j < 16, xs.getD j 0 = ys.getD j 0) : xs = ys := by
  refine List.ext_getElem (hx.trans hy.symm) fun j h1 h2 => ?_
  have hj := h j (hx ▸ h1)
  rwa [List.getD_eq_getElem _ _ h1, List.getD_eq_getElem _ _ h2] at hj

@[simp] theorem length_xorBlock (a b : List Byte) : (xorBlock a b).length = 16 := by
  simp [xorBlock]

theorem getD_xorBlock (a b : List Byte) {i : ℕ} (h : i < 16) :
    (xorBlock a b).getD i 0 = a.getD i 0 ^^^ b.getD i 0 := by
  simp [xorBlock, h]

theorem getD_padBlock (bs : List Byte) {i : ℕ} (h : i < 16) : (padBlock bs).getD i 0 = bs.getD i 0 := by
  simp [padBlock, h]

theorem xorBlock_comm (a b : List Byte) : xorBlock a b = xorBlock b a := by
  unfold xorBlock
  simp only [BitVec.xor_comm]

theorem xorBlock_right_comm (a b c : List Byte) : xorBlock (xorBlock a b) c = xorBlock (xorBlock a c) b := by
  refine List.map_congr_left fun i hi => ?_
  have hi := List.mem_range.1 hi
  rw [getD_xorBlock _ _ hi, getD_xorBlock _ _ hi, BitVec.xor_assoc, BitVec.xor_comm (b.getD i 0), ← BitVec.xor_assoc]

theorem xorBlock_padBlock (a b : List Byte) : xorBlock a (padBlock b) = xorBlock a b := by
  unfold xorBlock
  refine List.map_congr_left fun i hi => ?_
  rw [getD_padBlock b (List.mem_range.1 hi)]

section Absorb

variable (E : List Byte → List Byte)

def absorb : ℕ → List Byte → List Byte → List Byte
  | 0, x, _ => x
  | n + 1, x, bs =>
    match bs with
    | [] => x
    | b :: bs => absorb n (E (xorBlock x ((b :: bs).take 16))) ((b :: bs).drop 16)

@[simp] theorem absorb_nil (n : ℕ) (x : List Byte) : absorb E n x [] = x := by
  cases n with
  | zero => rfl
  | succ n => rfl

theorem absorb_succ (n : ℕ) (x : List Byte) {bs : List Byte} (h : bs ≠ []) :
    absorb E (n + 1) x bs = absorb E n (E (xorBlock x (bs.take 16))) (bs.drop 16) := by
  cases bs with
  | nil => exact absurd rfl h
  | cons b bs => rfl

theorem absorb_of_le {n n' : ℕ} (x : List Byte) {bs : List Byte} (h : bs.length ≤ n) (h' : bs.length ≤ n') :
    absorb E n x bs = absorb E n' x bs := by
  induction n generalizing n' x bs with
  | zero =>
    have hbs : bs = [] := List.eq_nil_of_length_eq_zero (by omega)
    rw [hbs, absorb_nil, absorb_nil]
  | succ n ih =>
    by_cases hbs : bs = []
    · rw [hbs, absorb_nil, absorb_nil]
    · have hpos := List.length_pos_of_ne_nil hbs
      obtain ⟨k, rfl⟩ : ∃ k, n' = k + 1 := ⟨n' - 1, by omega⟩
      rw [absorb_succ E n x hbs, absorb_succ E k x hbs]
      exact ih _ (by rw [List.length_drop]; omega) (by rw [List.length_drop]; omega)

end Absorb

/-! ### Streams -/

section Stream

variable (k : ℕ → Byte)

/-- The string under the keystream `k`, from byte `n` of it on. -/
def xorFrom : ℕ → List Byte → List Byte
  | _, [] => []
  | n, b :: bs => (b ^^^ k n) :: xorFrom (n + 1) bs

@[simp] theorem length_xorFrom (n : ℕ) (bs : List Byte) : (xorFrom k n bs).length = bs.length := by
  induction bs generalizing n with
  | nil => rfl
  | cons b bs ih => rw [xorFrom, List.length_cons, ih, List.length_cons]

theorem xorFrom_append (n : ℕ) (xs ys : List Byte) :
    xorFrom k n (xs ++ ys) = xorFrom k n xs ++ xorFrom k (n + xs.length) ys := by
  induction xs generalizing n with
  | nil => rfl
  | cons x xs ih =>
    rw [List.cons_append, xorFrom, xorFrom, List.cons_append, ih, List.length_cons]
    congr 3
    omega

@[simp] theorem xorFrom_xorFrom (n : ℕ) (bs : List Byte) : xorFrom k n (xorFrom k n bs) = bs := by
  induction bs generalizing n with
  | nil => rfl
  | cons b bs ih => rw [xorFrom, xorFrom, ih, BitVec.xor_assoc, BitVec.xor_self, BitVec.xor_zero]

theorem getElem_xorFrom (n : ℕ) (bs : List Byte) (i : ℕ) (h : i < (xorFrom k n bs).length)
    (h' : i < bs.length) : (xorFrom k n bs)[i] = bs[i] ^^^ k (n + i) := by
  induction bs generalizing n i with
  | nil => exact absurd h' (Nat.not_lt_zero i)
  | cons b bs ih =>
    cases i with
    | zero => rfl
    | succ i =>
      have hrec := ih (n + 1) i (by simpa using h') (by simpa using h')
      rw [Nat.add_right_comm] at hrec
      exact hrec

variable {k}

theorem take_xorBlock {ks : List Byte} {n : ℕ} {bs : List Byte} (h : bs.length ≤ 16)
    (hks : ∀ i < bs.length, ks.getD i 0 = k (n + i)) : (xorBlock ks bs).take bs.length = xorFrom k n bs := by
  refine List.ext_getElem (by simp [h]) fun i h1 h2 => ?_
  have hi : i < bs.length := by rwa [length_xorFrom] at h2
  rw [getElem_xorFrom k n bs i h2 hi, ← hks i hi]
  simp [xorBlock, hi, BitVec.xor_comm]

theorem xorFrom_congr {k' : ℕ → Byte} {n : ℕ} {bs : List Byte}
    (h : ∀ i, n ≤ i → i < n + bs.length → k i = k' i) : xorFrom k n bs = xorFrom k' n bs := by
  induction bs generalizing n with
  | nil => rfl
  | cons b bs ih =>
    rw [List.length_cons] at h
    rw [xorFrom, xorFrom, h n le_rfl (by omega), ih fun i h1 h2 => h i (by omega) (by omega)]

end Stream

/-! ### In place -/

/-- The loop `to[i] = from[i] ^ ks[i]`. -/
def xorInto (m : ℕ → Byte) (dst src : ℕ) : List Byte → ℕ → Byte
  | [] => m
  | k :: ks => xorInto (copy m dst [m src ^^^ k]) (dst + 1) (src + 1) ks

theorem copy_cons (m : ℕ → Byte) (off : ℕ) (b : Byte) (bs : List Byte) :
    copy m off (b :: bs) = copy (copy m off [b]) (off + 1) bs := by
  funext i
  unfold copy
  rw [List.length_cons, List.length_singleton]
  by_cases h0 : i = off
  · subst h0
    rw [if_pos (by omega), if_neg (by omega), if_pos (by omega), Nat.sub_self]
    rfl
  · by_cases h1 : off + 1 ≤ i ∧ i < off + 1 + bs.length
    · rw [if_pos (by omega), if_pos h1]
      obtain ⟨j, rfl⟩ : ∃ j, i = off + 1 + j := ⟨i - (off + 1), by omega⟩
      have e1 : off + 1 + j - off = j + 1 := by omega
      have e2 : off + 1 + j - (off + 1) = j := by omega
      rw [e1, e2]
      rfl
    · rw [if_neg (by omega), if_neg h1, if_neg (by omega)]

theorem copy_append (m : ℕ → Byte) (off : ℕ) (xs ys : List Byte) :
    copy m off (xs ++ ys) = copy (copy m off xs) (off + xs.length) ys := by
  induction xs generalizing m off with
  | nil =>
    rw [List.nil_append, List.length_nil, Nat.add_zero, copy_of_holdsAt (holdsAt_nil m off)]
  | cons x xs ih =>
    rw [List.cons_append, copy_cons, ih, copy_cons m off x xs, List.length_cons]
    congr 1
    omega

theorem readAt_succ (m : ℕ → Byte) (off n : ℕ) : readAt m off (n + 1) = m off :: readAt m (off + 1) n := by
  unfold readAt read
  rw [List.range_succ_eq_map, List.map_cons, List.map_map]
  refine congrArg (m off :: ·) (List.map_congr_left fun i _ => ?_)
  show m (off + (i + 1)) = m (off + 1 + i)
  congr 1
  omega

theorem readAt_add (m : ℕ → Byte) (off a b : ℕ) : readAt m off (a + b) = readAt m off a ++ readAt m (off + a) b := by
  rw [← readAt_shift m off a b]
  exact read_add _ a b

theorem readAt_congr {m m' : ℕ → Byte} {off n : ℕ} (h : ∀ i, off ≤ i → i < off + n → m' i = m i) :
    readAt m' off n = readAt m off n := by
  unfold readAt read
  refine List.map_congr_left fun i hi => ?_
  have hi := List.mem_range.1 hi
  exact h (off + i) (by omega) (by omega)

/-- A loop that goes from `src` up to `dst` for `n` bytes does not write what it still has to read: the places
are apart, or the target does not lie behind the source. -/
def Clear (dst src n : ℕ) : Prop := dst ≤ src ∨ src + n ≤ dst

/-- **The loop between two places**, which may be the same. -/
theorem xorInto_eq_of_clear (k : ℕ → Byte) (m : ℕ → Byte) {dst src : ℕ} (n : ℕ) {ks : List Byte}
    (h : Clear dst src ks.length) (hks : ∀ i < ks.length, ks.getD i 0 = k (n + i)) :
    xorInto m dst src ks = copy m dst (xorFrom k n (readAt m src ks.length)) := by
  induction ks generalizing m dst src n with
  | nil => exact (copy_of_holdsAt (holdsAt_nil m dst)).symm
  | cons x ks ih =>
    unfold Clear at h ih
    rw [List.length_cons] at h
    have hx : x = k n := hks 0 (by simp)
    have hread : readAt (copy m dst [m src ^^^ x]) (src + 1) ks.length = readAt m (src + 1) ks.length := by
      refine readAt_congr fun i h1 h2 => ?_
      rcases h with h | h
      · exact copy_of_ge (by rw [List.length_singleton]; omega)
      · exact copy_of_lt (by omega)
    have hrest : ∀ i < ks.length, ks.getD i 0 = k (n + 1 + i) := by
      intro i hi
      have := hks (i + 1) (by rw [List.length_cons]; omega)
      rw [Nat.add_right_comm]
      exact this
    rw [xorInto, ih _ (n + 1) (by omega) hrest, hread, List.length_cons, readAt_succ, xorFrom, hx]
    exact (copy_cons m dst _ _).symm

end Mt7610u.Lib
