import Mt7610u.Lib.Bytes
import Mathlib.Data.Nat.ModEq

/-! # Counters in byte arrays (`inc_iv_byte` of `common/cmm_wpa.c`, `inc_byte_array` of `sta/wpa.c`) -/

namespace Mt7610u.Wpa

open Lib

/-- A byte after its turn: the first one grows by `cnt`, those behind it by the carry. -/
def ivByte (cnt : BitVec 32) (carry : Bool) (preIv : Byte) : Byte :=
  if carry then preIv + 1 else preIv + cnt.setWidth 8

/-- The loop of `inc_iv_byte` from position `pos` on, for the bytes from there on. -/
def incIvFrom (cnt : BitVec 32) : Bool → List Byte → List Byte
  | _, [] => []
  | carry, preIv :: rest =>
    if preIv < ivByte cnt carry preIv then ivByte cnt carry preIv :: rest
    else ivByte cnt carry preIv :: incIvFrom cnt true rest

def incIvByte (iv : List Byte) (cnt : BitVec 32) : List Byte := incIvFrom cnt false iv

/-- The loop of `inc_byte_array`, for the bytes up to `pos` from the last one backwards. -/
def incBytesBack : List Byte → List Byte
  | [] => []
  | b :: rest => if b + 1 ≠ 0 then (b + 1) :: rest else (b + 1) :: incBytesBack rest

def incByteArray (counter : List Byte) : List Byte := (incBytesBack counter.reverse).reverse

def littleEndian : List Byte → ℕ
  | [] => 0
  | b :: bs => b.toNat + 256 * littleEndian bs

theorem littleEndian_lt (bs : List Byte) : littleEndian bs < 256 ^ bs.length := by
  induction bs with
  | nil => exact Nat.one_pos
  | cons b bs ih =>
    have hb := b.isLt
    rw [littleEndian, List.length_cons, pow_succ]
    omega

theorem littleEndian_snoc (bs : List Byte) (b : Byte) :
    littleEndian (bs ++ [b]) = b.toNat * 256 ^ bs.length + littleEndian bs := by
  induction bs with
  | nil => simp [littleEndian]
  | cons a bs ih =>
    rw [List.cons_append, littleEndian, ih, littleEndian, List.length_cons, pow_succ]
    ring

theorem littleEndian_reverse (bs : List Byte) : littleEndian bs.reverse = bigEndian bs := by
  induction bs with
  | nil => rfl
  | cons b bs ih => rw [List.reverse_cons, littleEndian_snoc, List.length_reverse, ih, bigEndian_cons]

/-! ### One step -/

/-- A byte that does not carry, with the same bytes behind it. -/
theorem step_stop {b n c m w : ℕ} (h : b + c < 256) (hm : m < w) (hn : n = (b + c) + 256 * m) :
    n = (b + 256 * m + c) % (w * 256) := by
  rw [Nat.mod_eq_of_lt (by omega)]
  omega

/-- A byte that carries, with the successor of the number behind it. -/
theorem step_carry {b n c m m' w : ℕ} (hb : b < 256) (hc : c < 256) (h : 256 ≤ b + c)
    (hm : m' = (m + 1) % w) (hn : n = (b + c) % 256 + 256 * m') : n = (b + 256 * m + c) % (w * 256) := by
  have hsum : b + 256 * m + c = (b + c) % 256 + 256 * (m + 1) := by omega
  rw [hn, hm, hsum, mul_comm w, Nat.mod_mul, Nat.add_mul_mod_self_left, Nat.mod_mod,
    Nat.add_mul_div_left _ _ (by decide), Nat.div_eq_of_lt (Nat.mod_lt _ (by decide)), zero_add]

def added (cnt : BitVec 32) (carry : Bool) : ℕ := if carry then 1 else cnt.toNat

variable {cnt : BitVec 32}

theorem added_pos (h0 : 0 < cnt.toNat) (carry : Bool) : 0 < added cnt carry := by
  cases carry with
  | false => exact h0
  | true => exact Nat.one_pos

theorem added_lt (h1 : cnt.toNat < 256) (carry : Bool) : added cnt carry < 256 := by
  cases carry with
  | false => exact h1
  | true => exact (by decide : 1 < 256)

theorem toNat_ivByte (h1 : cnt.toNat < 256) (carry : Bool) (b : Byte) :
    (ivByte cnt carry b).toNat = (b.toNat + added cnt carry) % 256 := by
  cases carry with
  | false => simp [ivByte, added, BitVec.toNat_add, BitVec.toNat_setWidth, Nat.mod_eq_of_lt h1]
  | true => simp [ivByte, added, BitVec.toNat_add]

theorem length_incIvFrom (carry : Bool) (iv : List Byte) : (incIvFrom cnt carry iv).length = iv.length := by
  induction iv generalizing carry with
  | nil => rfl
  | cons b rest ih =>
    simp only [incIvFrom]
    split
    · rfl
    · rw [List.length_cons, ih, List.length_cons]

/-- **The loop adds.** A byte that grew has not carried, so the exit test finds the end of the carry. -/
theorem littleEndian_incIvFrom (h0 : 0 < cnt.toNat) (h1 : cnt.toNat < 256) (carry : Bool) (iv : List Byte) :
    littleEndian (incIvFrom cnt carry iv) = (littleEndian iv + added cnt carry) % 256 ^ iv.length := by
  induction iv generalizing carry with
  | nil => simp [incIvFrom, littleEndian, Nat.mod_one]
  | cons b rest ih =>
    have hb := b.isLt
    have hpos := added_pos h0 carry
    have hlt := added_lt h1 carry
    have hval := toNat_ivByte h1 carry b
    simp only [incIvFrom, littleEndian, List.length_cons, pow_succ]
    split
    · next hgrew =>
      rw [BitVec.lt_def, hval] at hgrew
      rw [littleEndian, hval]
      exact step_stop (by omega) (littleEndian_lt rest) (by omega)
    · next hwrapped =>
      rw [BitVec.lt_def, hval] at hwrapped
      rw [littleEndian, hval]
      exact step_carry hb hlt (by omega) (ih true) rfl

theorem length_incBytesBack (bs : List Byte) : (incBytesBack bs).length = bs.length := by
  induction bs with
  | nil => rfl
  | cons b rest ih =>
    rw [incBytesBack]
    split
    · rfl
    · rw [List.length_cons, ih, List.length_cons]

theorem littleEndian_incBytesBack (bs : List Byte) :
    littleEndian (incBytesBack bs) = (littleEndian bs + 1) % 256 ^ bs.length := by
  induction bs with
  | nil => simp [incBytesBack, littleEndian]
  | cons b rest ih =>
    have hb := b.isLt
    have hval : (b + 1).toNat = (b.toNat + 1) % 256 := BitVec.toNat_add b 1
    have hzero : b + 1 = 0 ↔ (b + 1).toNat = 0 := BitVec.toNat_inj.symm
    simp only [incBytesBack, littleEndian, List.length_cons, pow_succ]
    split
    · next h =>
      rw [ne_eq, hzero, hval] at h
      rw [littleEndian, hval]
      exact step_stop (by omega) (littleEndian_lt rest) (by omega)
    · next h =>
      rw [not_ne_iff, hzero, hval] at h
      rw [littleEndian, hval]
      exact step_carry hb (by decide) (by omega) ih rfl

/-! ### Runs -/

/-- A step that adds `c` to a number below `w`. -/
theorem iterate_value {α : Type*} {f : α → α} {value : α → ℕ} {c w : ℕ} {x : α} (hx : value x < w)
    (hf : ∀ n, value (f (f^[n] x)) = (value (f^[n] x) + c) % w) (n : ℕ) :
    value (f^[n] x) = (value x + n * c) % w := by
  induction n with
  | zero => rw [Function.iterate_zero_apply, zero_mul, add_zero, Nat.mod_eq_of_lt hx]
  | succ n ih =>
    rw [Function.iterate_succ_apply', hf, ih, Nat.mod_add_mod, Nat.succ_mul, add_assoc]

theorem iterate_ne {α : Type*} {f : α → α} {value : α → ℕ} {c w : ℕ} {x : α} (hc : 0 < c) (hx : value x < w)
    (hf : ∀ n, value (f (f^[n] x)) = (value (f^[n] x) + c) % w) {i j : ℕ} (hij : i < j)
    (hj : (j - i) * c < w) : f^[i] x ≠ f^[j] x := by
  intro he
  have hv := congrArg value he
  rw [iterate_value hx hf, iterate_value hx hf] at hv
  have hmod : i * c ≡ j * c [MOD w] := Nat.ModEq.add_left_cancel' _ hv
  have hdvd := (Nat.modEq_iff_dvd' (Nat.mul_le_mul_right c hij.le)).1 hmod
  rw [← Nat.sub_mul] at hdvd
  have hpos : 0 < (j - i) * c := Nat.mul_pos (by omega) hc
  exact absurd (Nat.le_of_dvd hpos hdvd) (by omega)

theorem length_iterate {f : List Byte → List Byte} (hf : ∀ bs, (f bs).length = bs.length) (bs : List Byte)
    (n : ℕ) : (f^[n] bs).length = bs.length := by
  induction n with
  | zero => rfl
  | succ n ih => rw [Function.iterate_succ_apply', hf, ih]

/-- **What the counters do**: `inc_iv_byte` adds `cnt` and `inc_byte_array` adds one, modulo the size of
the array, and neither comes back to a value before it has counted through all of them. -/
structure Counts : Prop where
  ivLength : ∀ (cnt : BitVec 32) (iv : List Byte), (incIvByte iv cnt).length = iv.length
  iv : ∀ (cnt : BitVec 32) (iv : List Byte), 1 ≤ cnt.toNat → cnt.toNat ≤ 255 →
    littleEndian (incIvByte iv cnt) = (littleEndian iv + cnt.toNat) % 256 ^ iv.length
  arrayLength : ∀ counter : List Byte, (incByteArray counter).length = counter.length
  array : ∀ counter : List Byte, bigEndian (incByteArray counter) = (bigEndian counter + 1) % 256 ^ counter.length
  ivApart : ∀ (cnt : BitVec 32) (iv : List Byte), 1 ≤ cnt.toNat → cnt.toNat ≤ 255 → ∀ i j, i < j →
    (j - i) * cnt.toNat < 256 ^ iv.length → (incIvByte · cnt)^[i] iv ≠ (incIvByte · cnt)^[j] iv
  arrayApart : ∀ (counter : List Byte) (i j : ℕ), i < j → j - i < 256 ^ counter.length →
    incByteArray^[i] counter ≠ incByteArray^[j] counter

theorem length_incIvByte (cnt : BitVec 32) (iv : List Byte) : (incIvByte iv cnt).length = iv.length :=
  length_incIvFrom false iv

theorem length_incByteArray (counter : List Byte) : (incByteArray counter).length = counter.length := by
  rw [incByteArray, List.length_reverse, length_incBytesBack, List.length_reverse]

theorem littleEndian_incIvByte (h0 : 1 ≤ cnt.toNat) (h1 : cnt.toNat ≤ 255) (iv : List Byte) :
    littleEndian (incIvByte iv cnt) = (littleEndian iv + cnt.toNat) % 256 ^ iv.length :=
  littleEndian_incIvFrom h0 (by omega) false iv

theorem bigEndian_incByteArray (counter : List Byte) :
    bigEndian (incByteArray counter) = (bigEndian counter + 1) % 256 ^ counter.length := by
  rw [← littleEndian_reverse, incByteArray, List.reverse_reverse, littleEndian_incBytesBack,
    littleEndian_reverse, List.length_reverse]

/-- **The counters count.** -/
theorem counters_count : Counts where
  ivLength := length_incIvByte
  iv _ iv h0 h1 := littleEndian_incIvByte h0 h1 iv
  arrayLength := length_incByteArray
  array := bigEndian_incByteArray
  ivApart cnt iv h0 h1 i j hij hj := by
    refine iterate_ne h0 (littleEndian_lt iv) (fun n => ?_) hij hj
    rw [littleEndian_incIvByte h0 h1, length_iterate (length_incIvByte cnt)]
  arrayApart counter i j hij hj := by
    refine iterate_ne Nat.one_pos (bigEndian_lt counter) (fun n => ?_) hij (by rwa [mul_one])
    rw [bigEndian_incByteArray, length_iterate length_incByteArray]

end Mt7610u.Wpa
