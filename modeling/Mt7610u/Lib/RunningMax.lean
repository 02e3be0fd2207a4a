import Mathlib.Data.List.Lex
import Mathlib.Order.Bounds.Basic
import Mathlib.Order.MinMax
import Mt7610u.Lib.Runs

/-! # A running maximum

Values that arrive one after another, of which a state keeps the largest. -/

namespace Mt7610u.Lib.RunningMax

open Lib.Runs

/-! ### Comparing place by place -/

section exceeds

variable {α : Type*} [LinearOrder α]

/-- The loop over the places of `xs` and `ys`: the first difference decides, and there may be none. -/
def exceeds : List α → List α → Bool
  | x :: xs, y :: ys => if x > y then true else if x < y then false else exceeds xs ys
  | _, _ => false

/-- **The first difference decides in lexicographic order.** -/
theorem exceeds_iff {xs ys : List α} (h : xs.length = ys.length) : exceeds xs ys = true ↔ ys < xs := by
  induction xs generalizing ys with
  | nil =>
    cases ys with
    | nil => simp [exceeds]
    | cons y ys => simp at h
  | cons x xs ih =>
    cases ys with
    | nil => simp at h
    | cons y ys =>
      have htail : exceeds xs ys = true ↔ ys < xs := ih (by simpa using h)
      rw [List.cons_lt_cons_iff]
      unfold exceeds
      rcases lt_trichotomy x y with hlt | rfl | hgt
      · rw [if_neg (by exact not_lt_of_gt hlt), if_pos hlt]
        refine iff_of_false (by simp) ?_
        rintro (hlt' | ⟨rfl, -⟩)
        · exact lt_asymm hlt hlt'
        · exact lt_irrefl _ hlt
      · simp [htail]
      · rw [if_pos hgt]
        exact iff_of_true rfl (Or.inl hgt)

end exceeds

/-! ### The largest value so far -/

section fold

variable {α : Type*} [LinearOrder α] {a b : α} {l m : List α}

/-- **The running maximum is the greatest** of the value at the beginning and those that arrived. -/
theorem isGreatest_foldl_max (a : α) (l : List α) : IsGreatest {x | x = a ∨ x ∈ l} (l.foldl max a) := by
  induction l generalizing a with
  | nil =>
    refine ⟨Or.inl rfl, ?_⟩
    rintro x (rfl | hx)
    · exact le_rfl
    · exact absurd hx List.not_mem_nil
  | cons y l ih =>
    obtain ⟨hmem, hub⟩ := ih (max a y)
    constructor
    · rcases hmem with heq | hl
      · rw [List.foldl_cons, heq]
        rcases max_choice a y with ha | hy
        · exact Or.inl ha
        · exact Or.inr (List.mem_cons.2 (Or.inl hy))
      · exact Or.inr (List.mem_cons_of_mem _ hl)
    · rintro x (rfl | hx)
      · exact (le_max_left x y).trans (hub (Or.inl rfl))
      · rcases List.mem_cons.1 hx with rfl | hx
        · exact (le_max_right a x).trans (hub (Or.inl rfl))
        · exact hub (Or.inr hx)

/-- **Order does not matter.** Two keepers that saw the same values agree exactly if they began alike or
each saw a value as large as its own. -/
theorem foldl_max_eq_iff (h : ∀ x, x ∈ l ↔ x ∈ m) :
    l.foldl max a = m.foldl max b ↔ a = b ∨ (∃ x ∈ l, a ≤ x) ∧ ∃ x ∈ m, b ≤ x := by
  obtain ⟨hl, hlub⟩ := isGreatest_foldl_max a l
  obtain ⟨hm, hmub⟩ := isGreatest_foldl_max b m
  constructor
  · intro heq
    rcases hl with ha | hl
    · rcases hm with hb | hm
      · exact Or.inl (ha.symm.trans (heq.trans hb))
      · have hb : b ≤ m.foldl max b := hmub (Or.inl rfl)
        exact Or.inr ⟨⟨_, (h _).2 hm, (hlub (Or.inl rfl)).trans heq.le⟩, _, hm, hb⟩
    · have ha : a ≤ l.foldl max a := hlub (Or.inl rfl)
      exact Or.inr ⟨⟨_, hl, ha⟩, _, (h _).1 hl, (hmub (Or.inl rfl)).trans heq.ge⟩
  · rintro (rfl | ⟨⟨x, hx, hax⟩, y, hy, hby⟩)
    · exact (isGreatest_foldl_max a l).unique (by simpa only [h] using isGreatest_foldl_max a m)
    · apply le_antisymm
      · rcases hl with ha | hl
        · rw [ha]
          exact hax.trans (hmub (Or.inr ((h _).1 hx)))
        · exact hmub (Or.inr ((h _).1 hl))
      · rcases hm with hb | hm
        · rw [hb]
          exact hby.trans (hlub (Or.inr ((h _).2 hy)))
        · exact hlub (Or.inr ((h _).2 hm))

end fold

/-! ### Runs that keep the larger value -/

section runs

variable {σ ι α : Type*} [LinearOrder α] {step : σ → ι → σ} {ok : σ → ι → Prop} {key : σ → α}
  {value : ι → α}

theorem key_run (hstep : ∀ s e, ok s e → key (step s e) = max (key s) (value e)) (es : List ι) (s : σ)
    (h : Along step ok s es) : key (run step s es) = (es.map value).foldl max (key s) := by
  induction es generalizing s with
  | nil => rfl
  | cons e es ih =>
    obtain ⟨he, hes⟩ := h
    rw [run_cons, ih _ hes, hstep s e he, List.map_cons, List.foldl_cons]

end runs

end Mt7610u.Lib.RunningMax
