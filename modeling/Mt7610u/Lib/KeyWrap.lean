import Mathlib.Data.List.Basic

/-! # Key wrapping

A register `a` and a list of blocks, mixed by passes over the list. One step of a pass sends the
register and a block through a cipher and marks the register with the number of the step. -/

namespace Mt7610u.Lib

section Pass

variable {α : Type*} (enc dec : α × α → α × α) (mark : ℕ → α → α)

/-- One pass over the blocks, its first step numbered `t`. -/
def wrapPass : ℕ → α → List α → α × List α
  | _, a, [] => (a, [])
  | t, a, r :: rs =>
    let out := enc (a, r)
    let rest := wrapPass (t + 1) (mark t out.1) rs
    (rest.1, out.2 :: rest.2)

def unwrapPass : ℕ → α → List α → α × List α
  | _, a, [] => (a, [])
  | t, a, r :: rs =>
    let rest := unwrapPass (t + 1) a rs
    let out := dec (mark t rest.1, r)
    (out.1, out.2 :: rest.2)

/-- The first `k` passes over a list of `n` blocks. -/
def wrapPasses (n : ℕ) : ℕ → α × List α → α × List α
  | 0, st => st
  | k + 1, st =>
    let out := wrapPasses n k st
    wrapPass enc mark (n * k + 1) out.1 out.2

/-- The first `k` passes undone, the last of them first. -/
def unwrapPasses (n : ℕ) : ℕ → α × List α → α × List α
  | 0, st => st
  | k + 1, st => unwrapPasses n k (unwrapPass dec mark (n * k + 1) st.1 st.2)

end Pass

section Inverse

variable {α : Type*} {enc dec : α × α → α × α} {mark : ℕ → α → α} {P : α → Prop}

/-- A register and blocks that all satisfy `P`. -/
def Proper (P : α → Prop) (st : α × List α) : Prop := P st.1 ∧ ∀ r ∈ st.2, P r

theorem length_wrapPass (enc : α × α → α × α) (mark : ℕ → α → α) (t : ℕ) (a : α) (rs : List α) :
    (wrapPass enc mark t a rs).2.length = rs.length := by
  induction rs generalizing t a with
  | nil => rfl
  | cons r rs ih => rw [wrapPass, List.length_cons, ih, List.length_cons]

theorem length_wrapPasses (enc : α × α → α × α) (mark : ℕ → α → α) (n k : ℕ) (st : α × List α) :
    (wrapPasses enc mark n k st).2.length = st.2.length := by
  induction k with
  | zero => rfl
  | succ k ih => rw [wrapPasses, length_wrapPass, ih]

theorem proper_wrapPass (hE : ∀ a r, P a → P r → P (enc (a, r)).1 ∧ P (enc (a, r)).2)
    (hM : ∀ t a, P a → P (mark t a)) (t : ℕ) (a : α) (rs : List α) (h : Proper P (a, rs)) :
    Proper P (wrapPass enc mark t a rs) := by
  induction rs generalizing t a with
  | nil => exact h
  | cons r rs ih =>
    obtain ⟨ha, hrs⟩ := h
    obtain ⟨hr, hrs⟩ := List.forall_mem_cons.1 hrs
    obtain ⟨h1, h2⟩ := hE a r ha hr
    have hrest := ih (t + 1) _ ⟨hM t _ h1, hrs⟩
    exact ⟨hrest.1, List.forall_mem_cons.2 ⟨h2, hrest.2⟩⟩

theorem proper_wrapPasses (hE : ∀ a r, P a → P r → P (enc (a, r)).1 ∧ P (enc (a, r)).2)
    (hM : ∀ t a, P a → P (mark t a)) (n k : ℕ) (st : α × List α) (h : Proper P st) :
    Proper P (wrapPasses enc mark n k st) := by
  induction k with
  | zero => exact h
  | succ k ih => exact proper_wrapPass hE hM _ _ _ ih

theorem unwrapPass_wrapPass (hE : ∀ a r, P a → P r → P (enc (a, r)).1 ∧ P (enc (a, r)).2)
    (hM : ∀ t a, P a → P (mark t a)) (hD : ∀ a r, P a → P r → dec (enc (a, r)) = (a, r))
    (hI : ∀ t a, P a → mark t (mark t a) = a) (t : ℕ) (a : α) (rs : List α) (h : Proper P (a, rs)) :
    unwrapPass dec mark t (wrapPass enc mark t a rs).1 (wrapPass enc mark t a rs).2 = (a, rs) := by
  induction rs generalizing t a with
  | nil => rfl
  | cons r rs ih =>
    obtain ⟨ha, hrs⟩ := h
    obtain ⟨hr, hrs⟩ := List.forall_mem_cons.1 hrs
    obtain ⟨h1, -⟩ := hE a r ha hr
    have hrest := ih (t + 1) _ ⟨hM t _ h1, hrs⟩
    simp only [wrapPass, unwrapPass, hrest, hI t _ h1, hD a r ha hr]

/-- **Unwrapping undoes wrapping.** The passes are peeled off last to first. -/
theorem unwrapPasses_wrapPasses (hE : ∀ a r, P a → P r → P (enc (a, r)).1 ∧ P (enc (a, r)).2)
    (hM : ∀ t a, P a → P (mark t a)) (hD : ∀ a r, P a → P r → dec (enc (a, r)) = (a, r))
    (hI : ∀ t a, P a → mark t (mark t a) = a) (n k : ℕ) (st : α × List α) (h : Proper P st) :
    unwrapPasses dec mark n k (wrapPasses enc mark n k st) = st := by
  induction k with
  | zero => rfl
  | succ k ih =>
    have hk := proper_wrapPasses hE hM n k st h
    rw [wrapPasses, unwrapPasses, unwrapPass_wrapPass hE hM hD hI _ _ _ hk]
    exact ih

theorem length_unwrapPass (dec : α × α → α × α) (mark : ℕ → α → α) (t : ℕ) (a : α) (rs : List α) :
    (unwrapPass dec mark t a rs).2.length = rs.length := by
  induction rs generalizing t with
  | nil => rfl
  | cons r rs ih => rw [unwrapPass, List.length_cons, ih, List.length_cons]

theorem length_unwrapPasses (dec : α × α → α × α) (mark : ℕ → α → α) (n k : ℕ) (st : α × List α) :
    (unwrapPasses dec mark n k st).2.length = st.2.length := by
  induction k generalizing st with
  | zero => rfl
  | succ k ih => rw [unwrapPasses, ih, length_unwrapPass]

theorem proper_unwrapPass (hD : ∀ a r, P a → P r → P (dec (a, r)).1 ∧ P (dec (a, r)).2)
    (hM : ∀ t a, P a → P (mark t a)) (t : ℕ) (a : α) (rs : List α) (h : Proper P (a, rs)) :
    Proper P (unwrapPass dec mark t a rs) := by
  induction rs generalizing t with
  | nil => exact h
  | cons r rs ih =>
    obtain ⟨ha, hrs⟩ := h
    obtain ⟨hr, hrs⟩ := List.forall_mem_cons.1 hrs
    obtain ⟨hrest, hrests⟩ := ih (t + 1) ⟨ha, hrs⟩
    obtain ⟨h1, h2⟩ := hD _ r (hM t _ hrest) hr
    exact ⟨h1, List.forall_mem_cons.2 ⟨h2, hrests⟩⟩

theorem proper_unwrapPasses (hD : ∀ a r, P a → P r → P (dec (a, r)).1 ∧ P (dec (a, r)).2)
    (hM : ∀ t a, P a → P (mark t a)) (n k : ℕ) (st : α × List α) (h : Proper P st) :
    Proper P (unwrapPasses dec mark n k st) := by
  induction k generalizing st with
  | zero => exact h
  | succ k ih => exact ih _ (proper_unwrapPass hD hM _ _ _ h)

theorem wrapPass_unwrapPass (hD : ∀ a r, P a → P r → P (dec (a, r)).1 ∧ P (dec (a, r)).2)
    (hM : ∀ t a, P a → P (mark t a)) (hE : ∀ a r, P a → P r → enc (dec (a, r)) = (a, r))
    (hI : ∀ t a, P a → mark t (mark t a) = a) (t : ℕ) (a : α) (rs : List α) (h : Proper P (a, rs)) :
    wrapPass enc mark t (unwrapPass dec mark t a rs).1 (unwrapPass dec mark t a rs).2 = (a, rs) := by
  induction rs generalizing t with
  | nil => rfl
  | cons r rs ih =>
    obtain ⟨ha, hrs⟩ := h
    obtain ⟨hr, hrs⟩ := List.forall_mem_cons.1 hrs
    have hrest := ih (t + 1) ⟨ha, hrs⟩
    obtain ⟨hp, -⟩ := proper_unwrapPass hD hM (t + 1) a rs ⟨ha, hrs⟩
    simp only [unwrapPass, wrapPass, hE _ r (hM t _ hp) hr, hI t _ hp, hrest]

/-- **Wrapping undoes unwrapping.** The passes are put back first to last. -/
theorem wrapPasses_unwrapPasses (hD : ∀ a r, P a → P r → P (dec (a, r)).1 ∧ P (dec (a, r)).2)
    (hM : ∀ t a, P a → P (mark t a)) (hE : ∀ a r, P a → P r → enc (dec (a, r)) = (a, r))
    (hI : ∀ t a, P a → mark t (mark t a) = a) (n k : ℕ) (st : α × List α) (h : Proper P st) :
    wrapPasses enc mark n k (unwrapPasses dec mark n k st) = st := by
  induction k generalizing st with
  | zero => rfl
  | succ k ih =>
    have hk := proper_unwrapPass hD hM (n * k + 1) st.1 st.2 h
    rw [unwrapPasses, wrapPasses, ih _ hk, wrapPass_unwrapPass hD hM hE hI _ _ _ h]

end Inverse

end Mt7610u.Lib
