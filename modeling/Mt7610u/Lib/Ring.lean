import Mathlib.Data.List.Basic
import Mathlib.Data.Nat.ModEq

/-! # Rings

A ring of `cap` slots over any type of entries, with a head and a number of entries behind it. -/

namespace Mt7610u.Lib.Ring

variable {α : Type*} {cap : ℕ}

/-- The slot `i` places behind the head. -/
def slot (cap head i : ℕ) : ℕ := (head + i) % cap

/-- The `n` entries from the head on. -/
def contents (cap : ℕ) (entry : ℕ → α) (head n : ℕ) : List α := (List.range n).map fun i => entry (slot cap head i)

theorem slot_ne {head i j : ℕ} (hij : i < j) (hj : j < cap) : slot cap head i ≠ slot cap head j := by
  unfold slot
  intro h
  have hmod : i ≡ j [MOD cap] := Nat.ModEq.add_left_cancel' head h
  unfold Nat.ModEq at hmod
  rw [Nat.mod_eq_of_lt (by omega), Nat.mod_eq_of_lt hj] at hmod
  omega

theorem contents_succ (entry : ℕ → α) (head n : ℕ) :
    contents cap entry head (n + 1) = contents cap entry head n ++ [entry (slot cap head n)] := by
  unfold contents
  rw [List.range_succ, List.map_append, List.map_singleton]

theorem contents_update {entry : ℕ → α} {head n k : ℕ} (x : α) (h : ∀ i < n, slot cap head i ≠ k) :
    contents cap (Function.update entry k x) head n = contents cap entry head n := by
  unfold contents
  refine List.map_congr_left fun i hi => ?_
  exact Function.update_of_ne (h i (List.mem_range.1 hi)) x entry

/-- **Entering.** The slot behind the last entry is free as long as the ring is not full. -/
theorem contents_push {entry : ℕ → α} {head n : ℕ} (x : α) (h : n < cap) :
    contents cap (Function.update entry (slot cap head n) x) head (n + 1) =
      contents cap entry head n ++ [x] := by
  rw [contents_succ, contents_update x fun i hi => slot_ne hi h, Function.update_self]

/-- **Leaving.** The first entry is the one at the head. -/
theorem contents_pop (cap : ℕ) (entry : ℕ → α) (head n : ℕ) :
    contents cap entry head (n + 1) =
      entry (head % cap) :: contents cap entry ((head + 1) % cap) n := by
  unfold contents slot
  rw [List.range_succ_eq_map, List.map_cons, List.map_map, Nat.add_zero]
  refine congrArg (entry (head % cap) :: ·) (List.map_congr_left fun i _ => ?_)
  show entry ((head + (i + 1)) % cap) = entry (((head + 1) % cap + i) % cap)
  rw [Nat.mod_add_mod, Nat.add_assoc, Nat.add_comm 1 i]

end Mt7610u.Lib.Ring
