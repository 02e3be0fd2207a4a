import Mathlib.Data.List.Basic
import Mathlib.Tactic.Ring

/-! # Bytes

Byte strings and the memory they lie in, for code that compares, copies and xors buffers. -/

namespace Mt7610u.Lib

abbrev Byte := BitVec 8

/-- A buffer of `n` octets. -/
abbrev Bytes (n : ℕ) := Fin n → Byte

def zeros (n : ℕ) : Bytes n := fun _ => 0#8

/-! ### Instances for numerals and comparisons, switched on where a module wants them -/

theorem neZero_two : NeZero 2 := ⟨by decide⟩

theorem neZero_four : NeZero 4 := ⟨by decide⟩

theorem neZero_eight : NeZero 8 := ⟨by decide⟩

theorem neZero_16 : NeZero 16 := ⟨by decide⟩

theorem neZero_128 : NeZero 128 := ⟨by decide⟩

theorem neZero_256 : NeZero 256 := ⟨by decide⟩

theorem lawfulBEq_byte : LawfulBEq Byte := inferInstance

/-! ### Big-endian numbers -/

/-- The number that a byte string spells, most significant byte first. -/
def bigEndian : List Byte → ℕ
  | [] => 0
  | b :: bs => b.toNat * 256 ^ bs.length + bigEndian bs

@[simp] theorem bigEndian_nil : bigEndian [] = 0 := rfl

theorem bigEndian_cons (b : Byte) (bs : List Byte) :
    bigEndian (b :: bs) = b.toNat * 256 ^ bs.length + bigEndian bs := rfl

theorem bigEndian_lt (bs : List Byte) : bigEndian bs < 256 ^ bs.length := by
  induction bs with
  | nil => simp
  | cons b bs ih =>
    have hb : b.toNat + 1 ≤ 256 := b.isLt
    have hm := Nat.mul_le_mul_right (256 ^ bs.length) hb
    rw [bigEndian_cons, List.length_cons, pow_succ]
    rw [Nat.add_mul, one_mul] at hm
    omega

/-- **Big-endian order is lexicographic.** The first byte decides, and on a tie the rest does. -/
theorem bigEndian_lt_iff_cons {a b : Byte} {as bs : List Byte} (h : as.length = bs.length) :
    bigEndian (a :: as) < bigEndian (b :: bs) ↔
      a.toNat < b.toNat ∨ a = b ∧ bigEndian as < bigEndian bs := by
  have ha := bigEndian_lt as
  have hb := bigEndian_lt bs
  rw [bigEndian_cons, bigEndian_cons, h]
  rw [h] at ha
  rcases lt_trichotomy a.toNat b.toNat with hlt | heq | hgt
  · have := Nat.mul_le_mul_right (256 ^ bs.length) (Nat.succ_le_of_lt hlt)
    rw [Nat.succ_mul] at this
    exact ⟨fun _ => Or.inl hlt, fun _ => by omega⟩
  · have hab : a = b := BitVec.eq_of_toNat_eq heq
    subst hab
    simp
  · have := Nat.mul_le_mul_right (256 ^ bs.length) (Nat.succ_le_of_lt hgt)
    rw [Nat.succ_mul] at this
    constructor
    · intro hlt
      omega
    · rintro (hlt | ⟨rfl, -⟩)
      · omega
      · omega

theorem bigEndian_eq_zero {bs : List Byte} : bigEndian bs = 0 ↔ ∀ b ∈ bs, b = 0 := by
  induction bs with
  | nil => simp
  | cons b bs ih =>
    have hpow : 256 ^ bs.length ≠ 0 := pow_ne_zero _ (by decide)
    rw [bigEndian_cons, Nat.add_eq_zero_iff, Nat.mul_eq_zero, ih, List.forall_mem_cons]
    constructor
    · rintro ⟨hb | hb, hbs⟩
      · exact ⟨BitVec.eq_of_toNat_eq hb, hbs⟩
      · exact absurd hb hpow
    · rintro ⟨rfl, hbs⟩
      exact ⟨Or.inl rfl, hbs⟩

/-! ### Memory -/

/-- The buffer that holds `bs` and zeros behind it. -/
def mem (bs : List Byte) : ℕ → Byte := fun i => bs.getD i 0

theorem mem_append_right (xs ys : List Byte) (j : ℕ) : mem (xs ++ ys) (xs.length + j) = mem ys j := by
  simp [mem, List.getElem?_append_right]

theorem mem_append_left {xs : List Byte} (ys : List Byte) {j : ℕ} (h : j < xs.length) :
    mem (xs ++ ys) j = mem xs j := by
  simp [mem, List.getElem?_append_left h]

/-- The first `n` bytes of a buffer. -/
def read (m : ℕ → Byte) (n : ℕ) : List Byte := (List.range n).map m

@[simp] theorem length_read (m : ℕ → Byte) (n : ℕ) : (read m n).length = n := by
  simp [read]

theorem read_mem_length (bs : List Byte) : read (mem bs) bs.length = bs := by
  refine List.ext_getElem (by simp) fun i hi hi' => ?_
  simp [read, mem, hi']

theorem mem_read {m : ℕ → Byte} {n i : ℕ} (h : i < n) : mem (read m n) i = m i := by
  simp [mem, read, h]

/-- The `n` bytes of a buffer from `off` on. -/
def readAt (m : ℕ → Byte) (off n : ℕ) : List Byte := read (fun i => m (off + i)) n

@[simp] theorem length_readAt (m : ℕ → Byte) (off n : ℕ) : (readAt m off n).length = n := length_read _ n

theorem read_add (m : ℕ → Byte) (off n : ℕ) : read m (off + n) = read m off ++ readAt m off n := by
  unfold readAt read
  rw [List.range_add, List.map_append, List.map_map]
  rfl

theorem readAt_shift (m : ℕ → Byte) (a b n : ℕ) : readAt (fun i => m (a + i)) b n = readAt m (a + b) n := by
  unfold readAt
  simp only [Nat.add_assoc]

/-- The buffer `m` after `bs` was copied to `off`. -/
def copy (m : ℕ → Byte) (off : ℕ) (bs : List Byte) : ℕ → Byte := fun i =>
  if off ≤ i ∧ i < off + bs.length then mem bs (i - off) else m i

theorem read_copy (m : ℕ → Byte) (off : ℕ) (bs : List Byte) : read (copy m off bs) off = read m off := by
  unfold read
  refine List.map_congr_left fun i hi => ?_
  have hlt : i < off := List.mem_range.1 hi
  unfold copy
  rw [if_neg (by omega)]

theorem readAt_copy (m : ℕ → Byte) (off : ℕ) (bs : List Byte) : readAt (copy m off bs) off bs.length = bs := by
  have h : ∀ i ∈ List.range bs.length, copy m off bs (off + i) = mem bs i := by
    intro i hi
    have hlt : i < bs.length := List.mem_range.1 hi
    unfold copy
    rw [if_pos (by omega), Nat.add_sub_cancel_left]
  unfold readAt read
  rw [List.map_congr_left h]
  exact read_mem_length bs

theorem read_copy_append (m : ℕ → Byte) (off : ℕ) (bs : List Byte) :
    read (copy m off bs) (off + bs.length) = read m off ++ bs := by
  rw [read_add, read_copy, readAt_copy]

theorem readAt_copy_append (m : ℕ → Byte) (off : ℕ) (bs : List Byte) (n : ℕ) :
    readAt (copy m off bs) off (bs.length + n) = bs ++ readAt m (off + bs.length) n := by
  have hback : readAt (fun i => copy m off bs (off + i)) bs.length n = readAt m (off + bs.length) n := by
    unfold readAt read
    refine List.map_congr_left fun i _ => ?_
    show copy m off bs (off + (bs.length + i)) = m (off + bs.length + i)
    unfold copy
    rw [if_neg (by omega), Nat.add_assoc]
  rw [← hback]
  exact (read_add _ _ _).trans (congrArg (· ++ _) (readAt_copy m off bs))

/-- The buffer begins with `bs`. -/
def Holds (m : ℕ → Byte) (bs : List Byte) : Prop := read m bs.length = bs

theorem holds_copy (m : ℕ → Byte) (bs : List Byte) : Holds (copy m 0 bs) bs := by
  have h := read_copy_append m 0 bs
  rw [Nat.zero_add] at h
  exact h

theorem holds_append {m : ℕ → Byte} {xs ys : List Byte} :
    Holds m (xs ++ ys) ↔ Holds m xs ∧ Holds (fun i => m (xs.length + i)) ys := by
  unfold Holds
  rw [List.length_append, read_add]
  constructor
  · intro h
    exact List.append_inj h (length_read _ _)
  · rintro ⟨h1, h2⟩
    rw [h1]
    exact congrArg (xs ++ ·) h2

theorem Holds.readAt {m : ℕ → Byte} {xs ys zs : List Byte} (h : Holds m (xs ++ ys ++ zs)) :
    readAt m xs.length ys.length = ys :=
  (holds_append.1 (holds_append.1 h).1).2

/-- The buffer has `bs` at `off`. -/
def HoldsAt (m : ℕ → Byte) (off : ℕ) (bs : List Byte) : Prop := readAt m off bs.length = bs

theorem holdsAt_iff {m : ℕ → Byte} {off : ℕ} {bs : List Byte} :
    HoldsAt m off bs ↔ ∀ i < bs.length, m (off + i) = mem bs i := by
  constructor
  · intro h i hi
    have hread := mem_read (m := fun i => m (off + i)) hi
    rw [← hread]
    exact congrArg (fun l => mem l i) h
  · intro h
    unfold HoldsAt readAt read
    rw [List.map_congr_left fun i hi => h i (List.mem_range.1 hi)]
    exact read_mem_length bs

@[simp] theorem holdsAt_nil (m : ℕ → Byte) (off : ℕ) : HoldsAt m off [] := rfl

theorem holdsAt_append {m : ℕ → Byte} {off : ℕ} {xs ys : List Byte} :
    HoldsAt m off (xs ++ ys) ↔ HoldsAt m off xs ∧ HoldsAt m (off + xs.length) ys := by
  unfold HoldsAt
  rw [← readAt_shift]
  exact holds_append

theorem HoldsAt.congr {m m' : ℕ → Byte} {off : ℕ} {bs : List Byte} (h : HoldsAt m off bs)
    (heq : ∀ i, off ≤ i → i < off + bs.length → m' i = m i) : HoldsAt m' off bs := by
  rw [holdsAt_iff] at h ⊢
  intro i hi
  rw [heq (off + i) (by omega) (by omega)]
  exact h i hi

theorem copy_of_lt {m : ℕ → Byte} {off i : ℕ} {bs : List Byte} (h : i < off) : copy m off bs i = m i := by
  unfold copy
  rw [if_neg (by omega)]

theorem copy_of_ge {m : ℕ → Byte} {off i : ℕ} {bs : List Byte} (h : off + bs.length ≤ i) :
    copy m off bs i = m i := by
  unfold copy
  rw [if_neg (by omega)]

theorem holdsAt_copy (m : ℕ → Byte) (off : ℕ) (bs : List Byte) : HoldsAt (copy m off bs) off bs :=
  readAt_copy m off bs

theorem HoldsAt.copy {m : ℕ → Byte} {off p : ℕ} {bs xs : List Byte} (h : HoldsAt m p xs)
    (hd : p + xs.length ≤ off ∨ off + bs.length ≤ p) : HoldsAt (copy m off bs) p xs := by
  refine h.congr fun i h1 h2 => ?_
  rcases hd with hd | hd
  · exact copy_of_lt (by omega)
  · exact copy_of_ge (by omega)

theorem HoldsAt.append_copy {m : ℕ → Byte} {off p : ℕ} {xs : List Byte} (bs : List Byte) (h : HoldsAt m off xs)
    (hp : p = off + xs.length) : HoldsAt (Lib.copy m p bs) off (xs ++ bs) := by
  subst hp
  rw [holdsAt_append]
  exact ⟨h.copy (Or.inl le_rfl), holdsAt_copy m _ bs⟩

theorem HoldsAt.patch {m : ℕ → Byte} {off p : ℕ} {xs ys zs : List Byte} (bs : List Byte)
    (h : HoldsAt m off (xs ++ (ys ++ zs))) (hlen : bs.length = ys.length) (hp : p = off + xs.length) :
    HoldsAt (Lib.copy m p bs) off (xs ++ (bs ++ zs)) := by
  subst hp
  rw [holdsAt_append, holdsAt_append] at h ⊢
  obtain ⟨hxs, -, hzs⟩ := h
  refine ⟨hxs.copy (Or.inl le_rfl), holdsAt_copy m _ bs, ?_⟩
  rw [hlen]
  exact hzs.copy (Or.inr (by omega))

theorem copy_of_holdsAt {m : ℕ → Byte} {off : ℕ} {bs : List Byte} (h : HoldsAt m off bs) : copy m off bs = m := by
  rw [holdsAt_iff] at h
  funext i
  unfold copy
  split_ifs with hi
  · rw [← h (i - off) (by omega), Nat.add_sub_cancel' hi.1]
  · rfl

theorem copy_comm {m : ℕ → Byte} {p q : ℕ} {xs ys : List Byte} (h : p + xs.length ≤ q ∨ q + ys.length ≤ p) :
    copy (copy m p xs) q ys = copy (copy m q ys) p xs := by
  funext i
  unfold copy
  split_ifs <;> first | rfl | omega

end Mt7610u.Lib
