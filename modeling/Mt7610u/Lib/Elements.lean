import Mt7610u.Lib.Bytes

/-! # Elements of number, length and body

A row of elements in a memory, each with one octet for its number, one for the length of its body, and the body. -/

namespace Mt7610u.Lib.Elements

/-- The length of the body of the element at `p`. -/
def len (m : ℕ → Byte) (p : ℕ) : ℕ := (m (p + 1)).toNat

/-- Behind the element at `p`. -/
def next (m : ℕ → Byte) (p : ℕ) : ℕ := p + 2 + len m p

theorem lt_next (m : ℕ → Byte) (p : ℕ) : p + 1 < next m p := by
  unfold next
  omega

/-- The elements from `p` on that end within `n` octets. -/
def complete (m : ℕ → Byte) (n p : ℕ) : List ℕ := if next m p ≤ n then p :: complete m n (next m p) else []
termination_by n - p
decreasing_by
  have := lt_next m p
  omega

def rest (m : ℕ → Byte) (n p : ℕ) : ℕ := if next m p ≤ n then rest m n (next m p) else p
termination_by n - p
decreasing_by
  have := lt_next m p
  omega

section

variable {m : ℕ → Byte} {n p : ℕ}

theorem complete_of_le (h : next m p ≤ n) : complete m n p = p :: complete m n (next m p) := by
  rw [complete, if_pos h]

theorem complete_of_lt (h : n < next m p) : complete m n p = [] := by
  rw [complete, if_neg (by omega)]

theorem rest_of_le (h : next m p ≤ n) : rest m n p = rest m n (next m p) := by
  rw [rest, if_pos h]

theorem rest_of_lt (h : n < next m p) : rest m n p = p := by
  rw [rest, if_neg (by omega)]

/-- **Induction along the elements.** -/
theorem complete_induction {C : ℕ → Prop} (hlast : ∀ p, n < next m p → C p)
    (hnext : ∀ p, next m p ≤ n → C (next m p) → C p) (p : ℕ) : C p := by
  induction h : n - p using Nat.strong_induction_on generalizing p with
  | _ k ih =>
    rcases Nat.lt_or_ge n (next m p) with hlt | hle
    · exact hlast p hlt
    · have := lt_next m p
      exact hnext p hle (ih _ (by omega) _ rfl)

theorem le_rest : p ≤ rest m n p := by
  induction p using complete_induction (m := m) (n := n) with
  | hlast p h => rw [rest_of_lt h]
  | hnext p h ih =>
    rw [rest_of_le h]
    have := lt_next m p
    omega

theorem le_of_mem {q : ℕ} (h : q ∈ complete m n p) : p ≤ q ∧ next m q ≤ n ∧ next m q ≤ rest m n p := by
  induction p using complete_induction (m := m) (n := n) with
  | hlast p hp =>
    rw [complete_of_lt hp] at h
    exact absurd h List.not_mem_nil
  | hnext p hp ih =>
    rw [complete_of_le hp] at h
    rw [rest_of_le hp]
    have hlt := lt_next m p
    rcases List.mem_cons.1 h with rfl | h
    · exact ⟨le_rfl, hp, le_rest⟩
    · obtain ⟨h1, h2, h3⟩ := ih h
      exact ⟨by omega, h2, h3⟩

end

/-! ### Strings -/

inductive IsRow : List Byte → Prop
  | nil : IsRow []
  | cons {eid : Byte} {body bs : List Byte} (hbody : body.length < 256) (hbs : IsRow bs) :
      IsRow (eid :: BitVec.ofNat 8 body.length :: body ++ bs)

theorem IsRow.append {xs ys : List Byte} (hx : IsRow xs) (hy : IsRow ys) : IsRow (xs ++ ys) := by
  induction hx with
  | nil => exact hy
  | cons hbody _ ih =>
    rw [List.append_assoc]
    exact .cons hbody ih

theorem isRow_element (eid len : Byte) {body : List Byte} (h : body.length = len.toNat) :
    IsRow (eid :: len :: body) := by
  have hlen : BitVec.ofNat 8 body.length = len := by rw [h, BitVec.ofNat_toNat, BitVec.setWidth_eq]
  have hrow : IsRow (eid :: BitVec.ofNat 8 body.length :: body ++ []) := .cons (h ▸ len.isLt) .nil
  rwa [hlen, List.append_nil] at hrow

theorem isRow_read (eid len : Byte) (m : ℕ → Byte) : IsRow (eid :: len :: read m len.toNat) :=
  isRow_element eid len (length_read m _)

end Mt7610u.Lib.Elements
