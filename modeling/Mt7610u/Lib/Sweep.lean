import Mathlib.Data.List.Nodup
import Mathlib.Data.Nat.Basic

/-! # Deleting from an array while it is scanned

A loop goes over an array by index. Where it deletes an element, the others move down, and the index is increased all
the same, so that the next element is passed over. -/

namespace Mt7610u.Lib

variable {α β γ : Type*}

/-- The elements that a sweep leaves: those that it looks at and keeps are marked by `age`, those that it passes over
are not. -/
def sweep (age : α → α) (p : α → Bool) : List α → List α
  | [] => []
  | [x] => if p x then [] else [age x]
  | x :: y :: l => if p x then y :: sweep age p l else age x :: sweep age p (y :: l)

/-- With the test `p` a sweep deletes the elements with `q`. -/
def Picks (p q : α → Bool) : List α → Prop
  | [] => True
  | [x] => p x = q x
  | x :: y :: l => p x = q x ∧ if q x then q y = false ∧ Picks p q l else Picks p q (y :: l)

theorem sweep_cons_of_pos {age : α → α} {p : α → Bool} {x : α} (h : p x = true) (l : List α) :
    sweep age p (x :: l) = l.take 1 ++ sweep age p (l.drop 1) := by
  cases l with
  | nil =>
    rw [sweep, if_pos h]
    rfl
  | cons y l =>
    rw [sweep, if_pos h]
    rfl

theorem sweep_cons_of_neg {age : α → α} {p : α → Bool} {x : α} (h : p x = false) (l : List α) :
    sweep age p (x :: l) = age x :: sweep age p l := by
  cases l with
  | nil =>
    unfold sweep
    rw [if_neg (by rw [h]; exact Bool.false_ne_true)]
  | cons y l =>
    rw [sweep, if_neg (by rw [h]; exact Bool.false_ne_true)]

/-- **What a sweep leaves** is what it should leave exactly if it picks the right elements. `f` is what the marking
does not change, and tells the elements apart. -/
theorem map_sweep_eq_iff {age : α → α} {p : α → Bool} (q : α → Bool) {f : α → β} (hage : ∀ x, f (age x) = f x)
    {l : List α} (hl : (l.map f).Nodup) : (sweep age p l).map f = (l.filter fun x => !q x).map f ↔ Picks p q l := by
  have hsub : ∀ m : List α, ∀ z : α, f z ∈ (m.filter fun x => !q x).map f → f z ∈ m.map f :=
    fun m z hz => (List.filter_sublist.map f).subset hz
  fun_induction sweep age p l with
  | case1 => exact iff_of_true rfl trivial
  | case2 x hp =>
    rw [Picks, hp]
    cases hq : q x with
    | true => simp [hq]
    | false => simp [hq]
  | case3 x hp =>
    rw [Picks, Bool.eq_false_iff.2 hp]
    cases hq : q x with
    | true => simp [hq]
    | false => simp [hq, hage]
  | case4 x y l hp ih =>
    rw [List.map_cons, List.map_cons, List.nodup_cons, List.nodup_cons] at hl
    obtain ⟨hx, hy, hrest⟩ := hl
    rw [Picks, hp, List.map_cons]
    cases hq : q x with
    | true =>
      rw [List.filter_cons_of_neg (by rw [hq]; decide), if_pos rfl]
      cases hqy : q y with
      | true =>
        -- the one behind is passed over, though it should go as well
        rw [List.filter_cons_of_neg (by rw [hqy]; decide)]
        refine iff_of_false (fun h => hy (hsub l y ?_)) (fun h => absurd h.2.1 nofun)
        rw [← h]
        exact List.mem_cons_self
      | false =>
        rw [List.filter_cons_of_pos (by rw [hqy]; decide), List.map_cons, List.cons_inj_right]
        exact (ih hrest).trans ⟨fun h => ⟨rfl, rfl, h⟩, fun h => h.2.2⟩
    | false =>
      rw [List.filter_cons_of_pos (by rw [hq]; decide), List.map_cons]
      refine iff_of_false (fun h => hx ?_) (fun h => absurd h.1 nofun)
      rw [← (List.cons_eq_cons.1 h).1]
      exact List.mem_cons_self
  | case5 x y l hp ih =>
    rw [List.map_cons, List.nodup_cons] at hl
    obtain ⟨hx, hrest⟩ := hl
    rw [Picks, Bool.eq_false_iff.2 hp, List.map_cons, hage]
    cases hq : q x with
    | true =>
      rw [List.filter_cons_of_neg (by rw [hq]; decide)]
      refine iff_of_false (fun h => hx (hsub (y :: l) x ?_)) (fun h => absurd h.1 nofun)
      rw [← h]
      exact List.mem_cons_self
    | false =>
      rw [List.filter_cons_of_pos (by rw [hq]; decide), List.map_cons, List.cons_inj_right, if_neg nofun]
      exact (ih hrest).trans (and_iff_right rfl).symm

/-- `Picks` by the places of the elements: behind one that goes is one that stays, and the test is right about those
that are not behind one that goes. -/
theorem picks_range'_iff {p q : α → Bool} (g : ℕ → α) (i n : ℕ) :
    Picks p q ((List.range' i n).map g) ↔
      (∀ k, i ≤ k → k + 1 < i + n → q (g k) = true → q (g (k + 1)) = false) ∧
        ∀ k, i ≤ k → k < i + n → (i < k → q (g (k - 1)) = false) → p (g k) = q (g k) := by
  induction n using Nat.strong_induction_on generalizing i with
  | _ n ih =>
    match n with
    | 0 => exact iff_of_true trivial ⟨fun k h1 h2 => by omega, fun k h1 h2 => by omega⟩
    | 1 =>
      show p (g i) = q (g i) ↔ _
      refine ⟨fun h => ⟨fun k h1 h2 => by omega, fun k h1 h2 _ => ?_⟩, fun h => h.2 i le_rfl (by omega) (by omega)⟩
      have hk : k = i := by omega
      rw [hk, h]
    | n + 2 =>
      show (p (g i) = q (g i) ∧ if q (g i) then q (g (i + 1)) = false ∧ Picks p q ((List.range' (i + 2) n).map g)
        else Picks p q ((List.range' (i + 1) (n + 1)).map g)) ↔ _
      rw [ih n (by omega), ih (n + 1) (by omega)]
      cases hq : q (g i) with
      | true =>
        rw [if_pos rfl]
        constructor
        · rintro ⟨hp, hnext, hapart, htest⟩
          refine ⟨fun k h1 h2 hk => ?_, fun k h1 h2 hk => ?_⟩
          · rcases (by omega : k = i ∨ k = i + 1 ∨ i + 2 ≤ k) with rfl | rfl | h
            · exact hnext
            · rw [hnext] at hk
              exact absurd hk nofun
            · exact hapart k h (by omega) hk
          · rcases (by omega : k = i ∨ k = i + 1 ∨ i + 2 ≤ k) with rfl | rfl | h
            · rw [hp, hq]
            · rw [Nat.add_sub_cancel, hq] at hk
              exact absurd (hk (by omega)) nofun
            · exact htest k h (by omega) fun _ => hk (by omega)
        · rintro ⟨hapart, htest⟩
          have hnext := hapart i le_rfl (by omega) hq
          refine ⟨(htest i le_rfl (by omega) (by omega)).trans hq, hnext, fun k h1 h2 => hapart k (by omega) (by omega),
            fun k h1 h2 hk => htest k (by omega) (by omega) fun _ => ?_⟩
          rcases (by omega : k = i + 2 ∨ i + 2 < k) with rfl | h
          · exact hnext
          · exact hk h
      | false =>
        rw [if_neg nofun]
        constructor
        · rintro ⟨hp, hapart, htest⟩
          refine ⟨fun k h1 h2 hk => ?_, fun k h1 h2 hk => ?_⟩
          · rcases (by omega : k = i ∨ i + 1 ≤ k) with rfl | h
            · rw [hq] at hk
              exact absurd hk nofun
            · exact hapart k h (by omega) hk
          · rcases (by omega : k = i ∨ i + 1 ≤ k) with rfl | h
            · rw [hp, hq]
            · exact htest k h (by omega) fun _ => hk (by omega)
        · rintro ⟨hapart, htest⟩
          refine ⟨(htest i le_rfl (by omega) (by omega)).trans hq, fun k h1 h2 => hapart k (by omega) (by omega),
            fun k h1 h2 hk => htest k (by omega) (by omega) fun _ => ?_⟩
          rcases (by omega : k = i + 1 ∨ i + 1 < k) with rfl | h
          · exact hq
          · exact hk h

end Mt7610u.Lib
