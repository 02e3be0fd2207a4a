import Mathlib.Data.Int.ModEq
import Mathlib.Tactic.Ring

/-! # Serial-number arithmetic on a circle of `M` numbers

A counter that wraps at `M` has no order, but seen from a base it has one: `ahead M base s` is the
number of steps forward from `base` to `s`. -/

namespace Mt7610u.Lib.SerialNumber

/-- The number of steps forward from `base` to `s` on the circle of `M` numbers. -/
def ahead (M base s : ℕ) : ℕ := (((s : ℤ) - base) % M).toNat

variable {M : ℕ}

theorem ahead_cast (hM : 0 < M) (b s : ℕ) : (ahead M b s : ℤ) = ((s : ℤ) - b) % M := by
  unfold ahead
  exact Int.toNat_of_nonneg (Int.emod_nonneg _ (by omega))

theorem ahead_lt (hM : 0 < M) (b s : ℕ) : ahead M b s < M := by
  have h := ahead_cast hM b s
  have := Int.emod_lt_of_pos ((s : ℤ) - b) (show (0 : ℤ) < M by omega)
  omega

/-- **The distance is the step count.** `ahead` is the only number of steps below `M` that leads
from the base to the number. -/
theorem ahead_eq_iff (hM : 0 < M) {b s d : ℕ} : ahead M b s = d ↔ d < M ∧ (M : ℤ) ∣ (s : ℤ) - b - d := by
  have hc := ahead_cast hM b s
  constructor
  · rintro rfl
    refine ⟨ahead_lt hM b s, ?_⟩
    rw [hc]
    exact Int.dvd_self_sub_emod
  · rintro ⟨hd, hdvd⟩
    have hmod : ((s : ℤ) - b) % M = (d : ℤ) % M :=
      Int.emod_eq_emod_iff_emod_sub_eq_zero.mpr (Int.emod_eq_zero_of_dvd hdvd)
    have hd' : (d : ℤ) % M = d := Int.emod_eq_of_lt (by omega) (by omega)
    rw [hmod, hd'] at hc
    exact_mod_cast hc

theorem ahead_self (hM : 0 < M) (b : ℕ) : ahead M b b = 0 := by
  rw [ahead_eq_iff hM]
  exact ⟨hM, by simp⟩

theorem ahead_add (hM : 0 < M) (b : ℕ) {k : ℕ} (hk : k < M) : ahead M b ((b + k) % M) = k := by
  rw [ahead_eq_iff hM]
  refine ⟨hk, ?_⟩
  have h : (M : ℤ) ∣ ((b + k : ℕ) : ℤ) - ((b + k) % M : ℕ) := by
    push_cast
    exact Int.dvd_self_sub_emod
  have : ((((b + k) % M : ℕ) : ℤ) - b - k) = -(((b + k : ℕ) : ℤ) - ((b + k) % M : ℕ)) := by
    push_cast
    ring
  rw [this]
  exact Int.dvd_neg.mpr h

theorem ahead_inj (hM : 0 < M) {b s t : ℕ} (hs : s < M) (ht : t < M) (h : ahead M b s = ahead M b t) : s = t := by
  obtain ⟨-, h1⟩ := (ahead_eq_iff hM).mp h
  obtain ⟨-, h2⟩ := (ahead_eq_iff hM).mp (rfl : ahead M b t = ahead M b t)
  have h3 : (M : ℤ) ∣ (s : ℤ) - t := by
    have := Int.dvd_sub h1 h2
    have he : (s : ℤ) - b - ahead M b t - ((t : ℤ) - b - ahead M b t) = (s : ℤ) - t := by ring
    rwa [he] at this
  have := Int.eq_zero_of_abs_lt_dvd h3 (abs_lt.mpr ⟨by omega, by omega⟩)
  omega

/-- **Distances from a common base.** The way from `s` to `t` is the difference of their distances
from any base, once around the circle when `t` lies before `s`. -/
theorem ahead_ahead (hM : 0 < M) (b s t : ℕ) :
    ahead M s t = if ahead M b s ≤ ahead M b t then ahead M b t - ahead M b s
      else M + ahead M b t - ahead M b s := by
  obtain ⟨hs, h1⟩ := (ahead_eq_iff hM).mp (rfl : ahead M b s = ahead M b s)
  obtain ⟨ht, h2⟩ := (ahead_eq_iff hM).mp (rfl : ahead M b t = ahead M b t)
  have h3 := Int.dvd_sub h2 h1
  split_ifs with h
  · rw [ahead_eq_iff hM]
    refine ⟨by omega, ?_⟩
    rw [Nat.cast_sub h]
    convert h3 using 1
    ring
  · rw [ahead_eq_iff hM]
    refine ⟨by omega, ?_⟩
    rw [Nat.cast_sub (by omega), Nat.cast_add]
    have := Int.dvd_sub h3 (Int.dvd_refl (M : ℤ))
    convert this using 1
    ring

/-- **Moving the base.** Once the base has moved forward to `b'`, what lies at or beyond `b'` is
closer by as many steps. -/
theorem ahead_rebase (hM : 0 < M) {b b' s : ℕ} (h : ahead M b b' ≤ ahead M b s) :
    ahead M b' s = ahead M b s - ahead M b b' := by
  rw [ahead_ahead hM b, if_pos h]

/-- **Distances along a path.** Two steps forward that stay below one turn add up. -/
theorem ahead_trans (hM : 0 < M) {a b c : ℕ} (h : ahead M a b + ahead M b c < M) :
    ahead M a c = ahead M a b + ahead M b c := by
  obtain ⟨-, h1⟩ := (ahead_eq_iff hM).mp (rfl : ahead M a b = ahead M a b)
  obtain ⟨-, h2⟩ := (ahead_eq_iff hM).mp (rfl : ahead M b c = ahead M b c)
  rw [ahead_eq_iff hM]
  refine ⟨h, ?_⟩
  have := Int.dvd_add h1 h2
  push_cast
  convert this using 1
  ring

end Mt7610u.Lib.SerialNumber
