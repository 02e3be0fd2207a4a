import Mt7610u.Lib.Elements

/-! # Reads that are noted

A computation over a memory that notes the place of every octet it reads, so that where a piece of code reads is part of
what the code is. -/

namespace Mt7610u.Lib

structure Noted (α : Type) where
  val : α
  reads : List ℕ

namespace Noted

instance : Monad Noted where
  pure a := ⟨a, []⟩
  bind x f := ⟨(f x.val).val, x.reads ++ (f x.val).reads⟩

section

variable {α β : Type} (a : α) (x : Noted α) (f : α → Noted β)

@[simp] theorem val_pure : (pure a : Noted α).val = a := rfl
@[simp] theorem reads_pure : (pure a : Noted α).reads = [] := rfl
@[simp] theorem val_bind : (x >>= f).val = (f x.val).val := rfl
@[simp] theorem reads_bind : (x >>= f).reads = x.reads ++ (f x.val).reads := rfl

@[simp] theorem val_ite (c : Prop) [Decidable c] (x y : Noted α) :
    (if c then x else y).val = if c then x.val else y.val := apply_ite Noted.val c x y

@[simp] theorem reads_ite (c : Prop) [Decidable c] (x y : Noted α) :
    (if c then x else y).reads = if c then x.reads else y.reads := apply_ite Noted.reads c x y

end

def fetch (m : ℕ → Byte) (i : ℕ) : Noted Byte := ⟨m i, [i]⟩

/-- The `k` octets from `i` on. -/
def fetchMany (m : ℕ → Byte) (i k : ℕ) : Noted (List Byte) := ⟨readAt m i k, List.range' i k⟩

section

variable (m : ℕ → Byte) (i k : ℕ)

@[simp] theorem val_fetch : (fetch m i).val = m i := rfl
@[simp] theorem reads_fetch : (fetch m i).reads = [i] := rfl
@[simp] theorem val_fetchMany : (fetchMany m i k).val = readAt m i k := rfl
@[simp] theorem reads_fetchMany : (fetchMany m i k).reads = List.range' i k := rfl

end

/-! ### Along the elements -/

section walk

open Elements

variable {σ : Type} (m : ℕ → Byte) (n : ℕ) (body : ℕ → σ → Noted σ)

/-- The loop from the element at `p` on: its test reads the length octet, and as long as the element ends within the
first `n` octets the body is run on it. -/
def walk (p : ℕ) (s : σ) : Noted σ :=
  if next m p ≤ n then do
    let s ← (do
      let _ ← fetch m (p + 1)
      body p s)
    walk (next m p) s
  else do
    let _ ← fetch m (p + 1)
    pure s
termination_by n - p
decreasing_by
  have := lt_next m p
  omega

variable {m n body} {p : ℕ} {s : σ}

theorem walk_of_le (h : next m p ≤ n) :
    walk m n body p s = (do
      let s ← (do
        let _ ← fetch m (p + 1)
        body p s)
      walk m n body (next m p) s) := by
  rw [walk, if_pos h]

theorem walk_of_lt (h : n < next m p) :
    walk m n body p s = (do
      let _ ← fetch m (p + 1)
      pure s) := by
  rw [walk, if_neg (by omega)]

/-- **What the loop computes**: the body, run on the elements in order. -/
theorem val_walk : (walk m n body p s).val = (complete m n p).foldl (fun s q => (body q s).val) s := by
  induction p using complete_induction (m := m) (n := n) generalizing s with
  | hlast p h =>
    rw [walk_of_lt h, complete_of_lt h]
    rfl
  | hnext p h ih =>
    rw [walk_of_le h, complete_of_le h, List.foldl_cons, val_bind, ih]
    rfl

/-- **Where the loop reads**, when the places the body reads depend on the element alone. -/
theorem mem_reads_walk {places : ℕ → List ℕ} (hbody : ∀ q s, (body q s).reads = places q) {i : ℕ} :
    i ∈ (walk m n body p s).reads ↔
      (∃ q ∈ complete m n p, i = q + 1 ∨ i ∈ places q) ∨ i = rest m n p + 1 := by
  induction p using complete_induction (m := m) (n := n) generalizing s with
  | hlast p h =>
    rw [walk_of_lt h, complete_of_lt h, rest_of_lt h]
    simp
  | hnext p h ih =>
    rw [walk_of_le h, complete_of_le h, rest_of_le h, reads_bind, List.mem_append, ih, List.exists_mem_cons_iff]
    simp only [reads_bind, reads_fetch, hbody, List.mem_append, List.mem_singleton]
    exact or_assoc.symm

end walk

end Noted

end Mt7610u.Lib
