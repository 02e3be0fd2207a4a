import Mathlib.Data.List.Perm.Basic
import Mathlib.Data.List.Nodup
import Mathlib.Data.List.Range
import Mathlib.Logic.Equiv.Basic
import Mathlib.Order.Lattice

/-! # Exchange sort

The first `n` cells of a memory `ℕ → α` are sorted in place: cell `i` is compared with every cell behind
it and changes places with the larger ones. -/

namespace Mt7610u.Lib.ExchangeSort

variable {α β : Type*}

section Definitions

variable [LT β] [DecidableLT β] (key : α → β)

/-- Cells `i` and `j` change places if the key of the latter is larger. -/
def exchange (i : ℕ) (e : ℕ → α) (j : ℕ) : ℕ → α :=
  if key (e i) < key (e j) then Function.update (Function.update e j (e i)) i (e j) else e

/-- Cell `i` is compared with the cells behind it, up to `n`. -/
def pass (n : ℕ) (e : ℕ → α) (i : ℕ) : ℕ → α := (List.range' (i + 1) (n - (i + 1))).foldl (exchange key i) e

/-- The sort of the first `n` cells. -/
def sort (n : ℕ) (e : ℕ → α) : ℕ → α := (List.range (n - 1)).foldl (pass key n) e

end Definitions

/-! ### Rearranging -/

/-- The cells from `lo` to `hi` have changed places among themselves, and no other cell has changed. -/
def Rearranged (lo hi : ℕ) (e e' : ℕ → α) : Prop :=
  ∃ σ : Equiv.Perm ℕ, (∀ k, k < lo ∨ hi ≤ k → σ k = k) ∧ ∀ k, e' k = e (σ k)

namespace Rearranged

variable {lo hi : ℕ} {e e' e'' : ℕ → α}

theorem refl (lo hi : ℕ) (e : ℕ → α) : Rearranged lo hi e e := ⟨Equiv.refl ℕ, fun _ _ => rfl, fun _ => rfl⟩

theorem trans (h : Rearranged lo hi e e') (h' : Rearranged lo hi e' e'') : Rearranged lo hi e e'' := by
  obtain ⟨σ, hσ, he⟩ := h
  obtain ⟨τ, hτ, he'⟩ := h'
  refine ⟨τ.trans σ, fun k hk => ?_, fun k => ?_⟩
  · rw [Equiv.trans_apply, hτ k hk, hσ k hk]
  · rw [Equiv.trans_apply, he', he]

theorem mono {lo' : ℕ} (h : Rearranged lo hi e e') (hlo : lo' ≤ lo) : Rearranged lo' hi e e' := by
  obtain ⟨σ, hσ, he⟩ := h
  refine ⟨σ, fun k hk => hσ k ?_, he⟩
  rcases hk with hk | hk
  · exact Or.inl (by omega)
  · exact Or.inr hk

theorem eq_of_outside (h : Rearranged lo hi e e') {k : ℕ} (hk : k < lo ∨ hi ≤ k) : e' k = e k := by
  obtain ⟨σ, hσ, he⟩ := h
  rw [he, hσ k hk]

theorem exists_eq (h : Rearranged lo hi e e') {k : ℕ} (hlo : lo ≤ k) (hhi : k < hi) :
    ∃ i, lo ≤ i ∧ i < hi ∧ e' k = e i := by
  obtain ⟨σ, hσ, he⟩ := h
  have hin : ¬ (σ k < lo ∨ hi ≤ σ k) := fun hout => by
    have := σ.injective (hσ _ hout)
    omega
  exact ⟨σ k, by omega, by omega, he k⟩

theorem perm (h : Rearranged 0 hi e e') : ((List.range hi).map e').Perm ((List.range hi).map e) := by
  obtain ⟨σ, hσ, he⟩ := h
  have hcells : ((List.range hi).map σ).Perm (List.range hi) := by
    refine (List.perm_ext_iff_of_nodup (List.nodup_range.map σ.injective) List.nodup_range).2 fun k => ?_
    rw [List.mem_map, List.mem_range]
    constructor
    · rintro ⟨i, hi', rfl⟩
      by_contra hk
      have := σ.injective (hσ (σ i) (Or.inr (by omega)))
      rw [List.mem_range] at hi'
      omega
    · intro hk
      refine ⟨σ.symm k, ?_, σ.apply_symm_apply k⟩
      by_contra hout
      rw [List.mem_range, not_lt] at hout
      have hfix := hσ _ (Or.inr hout)
      rw [σ.apply_symm_apply] at hfix
      omega
  have hmap : (List.range hi).map e' = ((List.range hi).map σ).map e := by
    rw [List.map_map]
    exact List.map_congr_left fun k _ => he k
  rw [hmap]
  exact hcells.map e

end Rearranged

/-! ### The sort -/

section Order

variable [LinearOrder β] (key : α → β)

theorem rearranged_exchange {lo hi i j : ℕ} (hi' : lo ≤ i ∧ i < hi) (hj : lo ≤ j ∧ j < hi) (e : ℕ → α) :
    Rearranged lo hi e (exchange key i e j) := by
  unfold exchange
  split_ifs
  · refine ⟨Equiv.swap i j, fun k hk => Equiv.swap_apply_of_ne_of_ne (by omega) (by omega), fun k => ?_⟩
    by_cases hki : k = i
    · rw [hki, Function.update_self, Equiv.swap_apply_left]
    · rw [Function.update_of_ne hki]
      by_cases hkj : k = j
      · rw [hkj, Function.update_self, Equiv.swap_apply_right]
      · rw [Function.update_of_ne hkj, Equiv.swap_apply_of_ne_of_ne hki hkj]
  · exact Rearranged.refl _ _ _

theorem le_exchange {i j : ℕ} (hij : i ≠ j) (e : ℕ → α) :
    key (e i) ≤ key (exchange key i e j i) ∧
      key (exchange key i e j j) ≤ key (exchange key i e j i) := by
  unfold exchange
  split_ifs with h
  · rw [Function.update_self, Function.update_of_ne hij.symm, Function.update_self]
    exact ⟨h.le, h.le⟩
  · exact ⟨le_rfl, not_lt.1 h⟩

theorem exchange_of_ne {i j k : ℕ} (hi : k ≠ i) (hj : k ≠ j) (e : ℕ → α) : exchange key i e j k = e k := by
  unfold exchange
  split_ifs
  · rw [Function.update_of_ne hi, Function.update_of_ne hj]
  · rfl

theorem comparisons_spec (i m : ℕ) (e : ℕ → α) :
    Rearranged i (i + 1 + m) e ((List.range' (i + 1) m).foldl (exchange key i) e) ∧
      ∀ k, i < k → k < i + 1 + m → key ((List.range' (i + 1) m).foldl (exchange key i) e k) ≤
        key ((List.range' (i + 1) m).foldl (exchange key i) e i) := by
  induction m with
  | zero => exact ⟨Rearranged.refl _ _ _, fun k hk hk' => by omega⟩
  | succ m ih =>
    obtain ⟨hre, hmax⟩ := ih
    rw [List.range'_concat, List.foldl_append, List.foldl_cons, List.foldl_nil]
    set e' := (List.range' (i + 1) m).foldl (exchange key i) e
    have hstep : Rearranged i (i + 1 + (m + 1)) e' (exchange key i e' (i + 1 + 1 * m)) :=
      rearranged_exchange key ⟨le_rfl, by omega⟩ ⟨by omega, by omega⟩ e'
    have hwide : Rearranged i (i + 1 + (m + 1)) e e' := by
      obtain ⟨σ, hσ, he⟩ := hre
      exact ⟨σ, fun k hk => hσ k (by omega), he⟩
    refine ⟨hwide.trans hstep, fun k hk hk' => ?_⟩
    obtain ⟨hup, hlast⟩ := le_exchange key (i := i) (j := i + 1 + 1 * m) (by omega) e'
    by_cases hkm : k = i + 1 + 1 * m
    · rw [hkm]
      exact hlast
    · rw [exchange_of_ne key (by omega) hkm]
      exact (hmax k hk (by omega)).trans hup

theorem pass_spec {n i : ℕ} (hi : i < n) (e : ℕ → α) :
    Rearranged i n e (pass key n e i) ∧
      ∀ k, i < k → k < n → key (pass key n e i k) ≤ key (pass key n e i i) := by
  have := comparisons_spec key i (n - (i + 1)) e
  rwa [show i + 1 + (n - (i + 1)) = n by omega] at this

theorem passes_spec (n m : ℕ) (hm : m ≤ n) (e : ℕ → α) :
    Rearranged 0 n e ((List.range m).foldl (pass key n) e) ∧
      ∀ i < m, ∀ k, i < k → k < n →
        key ((List.range m).foldl (pass key n) e k) ≤ key ((List.range m).foldl (pass key n) e i) := by
  induction m with
  | zero => exact ⟨Rearranged.refl _ _ _, fun i hi => by omega⟩
  | succ m ih =>
    obtain ⟨hre, hsorted⟩ := ih (by omega)
    rw [List.range_succ, List.foldl_append, List.foldl_cons, List.foldl_nil]
    set e' := (List.range m).foldl (pass key n) e
    obtain ⟨hpass, hmax⟩ := pass_spec key (show m < n by omega) e'
    refine ⟨hre.trans (hpass.mono (Nat.zero_le m)), fun i hi k hik hkn => ?_⟩
    by_cases him : i = m
    · rw [him] at hik ⊢
      exact hmax k hik hkn
    · rw [hpass.eq_of_outside (k := i) (by omega)]
      by_cases hkm : k < m
      · rw [hpass.eq_of_outside (k := k) (by omega)]
        exact hsorted i (by omega) k hik hkn
      · obtain ⟨k', hk', hkn', heq⟩ := hpass.exists_eq (k := k) (by omega) hkn
        rw [heq]
        exact hsorted i (by omega) k' (by omega) hkn'

/-- **The sort rearranges** the first `n` cells. -/
theorem rearranged_sort (n : ℕ) (e : ℕ → α) : Rearranged 0 n e (sort key n e) :=
  (passes_spec key n (n - 1) (by omega) e).1

/-- **The sort sorts**: no key is larger than one before it. -/
theorem sorted_sort (n : ℕ) (e : ℕ → α) :
    ((List.range n).map (sort key n e)).Pairwise fun a b => key b ≤ key a := by
  have hsorted := (passes_spec key n (n - 1) (by omega) e).2
  rw [List.pairwise_map, List.pairwise_iff_getElem]
  intro i j hi hj hij
  rw [List.length_range] at hi hj
  rw [List.getElem_range, List.getElem_range]
  exact hsorted i (by omega) j hij hj

end Order

end Mt7610u.Lib.ExchangeSort
