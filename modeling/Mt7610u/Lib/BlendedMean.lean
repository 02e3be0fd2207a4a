import Mathlib.Algebra.Order.Ring.Int
import Mathlib.Tactic.Ring

/-! # Exponential averages in integers

An average of weight `k` is kept `k` times as large, in `x`; a new sample `l` takes the place of one `k`-th
of it. -/

namespace Mt7610u.Lib.BlendedMean

variable {k x l m : ℤ} {xs : List ℤ}

/-- One `k`-th of `x` gives way to the sample `l`. -/
def blend (k x l : ℤ) : ℤ := x - x / k + l

/-- The value `a` is between the least and the greatest of the samples `xs`. -/
def Between (xs : List ℤ) (a : ℤ) : Prop := (∃ x ∈ xs, x ≤ a) ∧ ∃ x ∈ xs, a ≤ x

theorem between_singleton (a : ℤ) : Between [l] a ↔ a = l := by
  simp only [Between, List.mem_singleton, exists_eq_left]
  exact ⟨fun h => le_antisymm h.2 h.1, fun h => ⟨h.ge, h.le⟩⟩

theorem le_blend (hk : 0 < k) (hm : m ≤ x / k) (hl : m ≤ l) : m ≤ blend k x l / k := by
  rw [Int.le_ediv_iff_mul_le hk]
  have hdiv : x / k * k ≤ x := Int.ediv_mul_le x hk.ne'
  have hmul : m * (k - 1) ≤ x / k * (k - 1) := mul_le_mul_of_nonneg_right hm (by omega)
  calc m * k = m * (k - 1) + m := by ring
    _ ≤ x / k * (k - 1) + l := add_le_add hmul hl
    _ = x / k * k - x / k + l := by ring
    _ ≤ x - x / k + l := by omega

theorem blend_le (hk : 0 < k) (hm : x / k ≤ m) (hl : l ≤ m) : blend k x l / k ≤ m := by
  rw [← Int.lt_add_one_iff, Int.ediv_lt_iff_lt_mul hk]
  have hdiv : x < (x / k + 1) * k := Int.lt_ediv_add_one_mul_self x hk
  have hmul : x / k * (k - 1) ≤ m * (k - 1) := mul_le_mul_of_nonneg_right hm (by omega)
  calc x - x / k + l < (x / k + 1) * k - x / k + l := by omega
    _ = x / k * (k - 1) + (k + l) := by ring
    _ ≤ m * (k - 1) + (k + m) := add_le_add hmul (by omega)
    _ = (m + 1) * k := by ring

/-- **A blended average stays** between the least and the greatest sample. -/
theorem between_blend (hk : 0 < k) (h : Between xs (x / k)) (l : ℤ) : Between (xs ++ [l]) (blend k x l / k) := by
  obtain ⟨⟨a, ha, hax⟩, b, hb, hxb⟩ := h
  constructor
  · rcases le_total a l with hal | hla
    · exact ⟨a, List.mem_append_left _ ha, le_blend hk hax hal⟩
    · exact ⟨l, List.mem_append_right _ List.mem_cons_self, le_blend hk (hla.trans hax) le_rfl⟩
  · rcases le_total b l with hbl | hlb
    · exact ⟨l, List.mem_append_right _ List.mem_cons_self, blend_le hk (hxb.trans hbl) le_rfl⟩
    · exact ⟨b, List.mem_append_left _ hb, blend_le hk hxb hlb⟩

end Mt7610u.Lib.BlendedMean
