import Mathlib.Data.List.Pairwise
import Mathlib.Data.Nat.Bitwise
import Mt7610u.BlockAck.SessionSpec
import Mt7610u.Lib.SerialNumber

/-! # Sequence windows

The comparisons of `mlme.h` read as distances, and what the list operations do to a list that is
sorted by the distance from a base. -/

namespace Mt7610u.BlockAck.Window

open Reorder SessionSpec Lib.SerialNumber

/-! ### The macros -/

/-- The distance from `base` forward to `s` on the circle of sequence numbers. -/
def gap (base s : ℕ) : ℕ := ahead 4096 base s

/-- The distance of a block from `base`. -/
def off (base : ℕ) (m : ReorderingMpdu) : ℕ := gap base m.sequence

theorem gap_trans {a b c : ℕ} (h : gap a b + gap b c < 4096) : gap a c = gap a b + gap b c :=
  ahead_trans (by norm_num) h

theorem gap_rebase {b b' c : ℕ} (h : gap b b' ≤ gap b c) : gap b' c = gap b c - gap b b' :=
  ahead_rebase (by norm_num) h

theorem seqSmaller_iff (s t : ℕ) : seqSmaller s t = true ↔ 2048 ≤ gap t s := by
  have hbit : ∀ n : ℕ, n &&& 2048 = if n / 2048 % 2 = 1 then 2048 else 0 := by
    intro n
    have h := Nat.and_two_pow n 11
    rw [Nat.testBit_eq_decide_div_mod_eq] at h
    norm_num at h
    rw [h]
    split_ifs with hc <;> simp [hc]
  have hmask : BitVec.ofNat 32 ((maxSeq + 1) >>> 1) = 2048#32 := rfl
  simp only [seqSmaller, hmask, gap, ahead, bne_iff_ne, ne_eq]
  rw [← BitVec.toNat_inj]
  simp only [BitVec.toNat_and, BitVec.toNat_sub, BitVec.toNat_ofNat]
  norm_num
  rw [hbit]
  split_ifs with hc
  · simp only [not_false_eq_true, true_iff]
    omega
  · simp only [not_true_eq_false, false_iff]
    omega

theorem and_maxSeq (n : ℕ) : n &&& maxSeq = n % 4096 := by
  rw [maxSeq, show (0xFFF : ℕ) = 2 ^ 12 - 1 by norm_num, Nat.and_two_pow_sub_one_eq_mod]

theorem seqStepone_iff (s t : ℕ) : seqStepone s t = true ↔ s = (t + 1) % 4096 := by
  unfold seqStepone
  rw [beq_iff_eq, and_maxSeq]

theorem seqLarger_iff {s t : ℕ} (hs : s < 4096) (ht : t < 4096) :
    seqLarger s t = true ↔ 0 < gap t s ∧ gap t s < 2048 := by
  have h := seqSmaller_iff s t
  have h0 : s = t ↔ gap t s = 0 := by
    simp only [gap, ahead]
    omega
  simp only [seqLarger, Bool.and_eq_true, bne_iff_ne, ne_eq, Bool.not_eq_eq_eq_not, Bool.not_true]
  rw [Bool.eq_false_iff, ne_eq, h, h0]
  omega

/-! ### Sorted lists -/

/-- Sorted by the distance from `base`, without repetition. -/
def Sorted (base : ℕ) (l : List ReorderingMpdu) : Prop := l.Pairwise fun a b => off base a < off base b

/-- All distances from `base` lie in `lo..hi`. -/
def Within (base lo hi : ℕ) (l : List ReorderingMpdu) : Prop := ∀ m ∈ l, lo ≤ off base m ∧ off base m ≤ hi

theorem off_inj {b : ℕ} {x y : ReorderingMpdu} (h : off b x = off b y) : x.sequence = y.sequence :=
  Fin.ext (ahead_inj (by norm_num) x.sequence.isLt y.sequence.isLt h)

theorem Sorted.nodup {b : ℕ} {l : List ReorderingMpdu} (h : Sorted b l) :
    (l.map ReorderingMpdu.sequence).Nodup := by
  rw [List.Nodup, List.pairwise_map]
  refine List.Pairwise.imp ?_ h
  intro x y hxy hc
  rw [off, off, hc] at hxy
  exact lt_irrefl _ hxy

theorem Sorted.length_le {b lo hi : ℕ} {l : List ReorderingMpdu} (hs : Sorted b l)
    (hw : Within b lo hi l) : l.length + lo ≤ hi + 1 ∨ l = [] := by
  induction l generalizing lo with
  | nil => exact Or.inr rfl
  | cons m l ih =>
    left
    rw [Sorted, List.pairwise_cons] at hs
    have hm := hw m List.mem_cons_self
    have hw' : Within b (off b m + 1) hi l := fun x hx =>
      ⟨hs.1 x hx, (hw x (List.mem_cons_of_mem m hx)).2⟩
    rcases ih hs.2 hw' with h | h
    · simp only [List.length_cons]
      omega
    · subst h
      simp only [List.length_cons, List.length_nil]
      omega

theorem Sorted.rebase {b b' : ℕ} {l : List ReorderingMpdu} (h : Sorted b l)
    (hk : ∀ m ∈ l, gap b b' ≤ off b m) : Sorted b' l := by
  refine List.Pairwise.imp_of_mem ?_ h
  intro x y hx hy hxy
  have h1 : off b' x = off b x - gap b b' := gap_rebase (hk x hx)
  have h2 : off b' y = off b y - gap b b' := gap_rebase (hk y hy)
  have h3 := hk x hx
  omega

/-! ### What the release loops take -/

theorem leSeq_iff {b S : ℕ} (hS : S < 4096) (hD : gap b S ≤ 2048) {m : ReorderingMpdu} (hm : off b m < 2048) :
    ((m.sequence : ℕ) = S ∨ seqSmaller m.sequence S = true) ↔ off b m ≤ gap b S := by
  have h1 := ahead_ahead (show 0 < 4096 by norm_num) b S m.sequence
  have h2 : (m.sequence : ℕ) = S ↔ off b m = gap b S := by
    constructor
    · rintro rfl
      rfl
    · intro h
      exact ahead_inj (by norm_num) m.sequence.isLt hS h
  rw [seqSmaller_iff, h2]
  simp only [off, gap] at *
  rw [h1]
  split_ifs <;> omega

theorem dropWhile_sorted {b D : ℕ} {l : List ReorderingMpdu} (h : Sorted b l) :
    ∀ m ∈ l.dropWhile (fun x => decide (off b x ≤ D)), D < off b m := by
  intro m hm
  induction l with
  | nil => simp at hm
  | cons x l ih =>
    rw [Sorted, List.pairwise_cons] at h
    by_cases hx : off b x ≤ D
    · rw [List.dropWhile_cons_of_pos (by simpa using hx)] at hm
      exact ih h.2 hm
    · rw [List.dropWhile_cons_of_neg (by simpa using hx)] at hm
      rcases List.mem_cons.mp hm with rfl | hm
      · omega
      · have := h.1 m hm
        omega

theorem takeWhile_congr_mem {α : Type*} {p q : α → Bool} {l : List α} (h : ∀ x ∈ l, p x = q x) :
    l.takeWhile p = l.takeWhile q := by
  induction l with
  | nil => rfl
  | cons x l ih =>
    rw [List.takeWhile_cons, List.takeWhile_cons, h x List.mem_cons_self,
      ih fun y hy => h y (List.mem_cons_of_mem x hy)]

/-- **The split of `ba_indicate_reordering_mpdus_le_seq`.** The blocks up to `S` go, those beyond it
stay. -/
theorem leSeq_split {s : Session} {b S : ℕ} (hc : Counted s.ent.list) (hs : Sorted b s.ent.list.next)
    (hl : ∀ m ∈ s.ent.list.next, off b m < 2048) (hS : S < 4096) (hD : gap b S ≤ 2048) :
    ∃ pre post, s.ent.list.next = pre ++ post ∧ (∀ m ∈ pre, off b m ≤ gap b S) ∧
      (∀ m ∈ post, gap b S < off b m) ∧ s.indicateLeSeq S = releaseFirst s pre.length := by
  refine ⟨s.ent.list.next.takeWhile fun x => decide (off b x ≤ gap b S),
    s.ent.list.next.dropWhile fun x => decide (off b x ≤ gap b S),
    List.takeWhile_append_dropWhile.symm, fun m hm => ?_, dropWhile_sorted hs, ?_⟩
  · simpa using List.mem_takeWhile_imp hm
  · rw [indicateLeSeq_eq hc]
    congr 2
    refine takeWhile_congr_mem fun x hx => ?_
    rw [Bool.eq_iff_iff]
    simpa using leSeq_iff hS hD (hl x hx)

/-- The distances of a list without a hole after the base: `1, 2, 3, …`. -/
def Consecutive (b : ℕ) (l : List ReorderingMpdu) : Prop := l.map (off b) = List.range' 1 l.length

theorem gap_succ {b : ℕ} {m : ReorderingMpdu} : (m.sequence : ℕ) = (b + 1) % 4096 ↔ off b m = 1 := by
  have := m.sequence.isLt
  simp only [off, gap, ahead]
  omega

theorem off_succ {b b' : ℕ} {m : ReorderingMpdu} (hb : b' = (b + 1) % 4096) (hm : 1 ≤ off b m) :
    off b m = off b' m + 1 := by
  have := m.sequence.isLt
  simp only [off, gap, ahead] at *
  omega

theorem Consecutive.cons {b : ℕ} {x : ReorderingMpdu} {l : List ReorderingMpdu}
    (h : Consecutive x.sequence l) (hx : off b x = 1) (hl : ∀ m ∈ l, 1 ≤ off b m) : Consecutive b (x :: l) := by
  have hmap : l.map (off b) = (l.map (off x.sequence)).map (1 + ·) := by
    rw [List.map_map]
    refine List.map_congr_left fun m hm => ?_
    have := off_succ (gap_succ.mpr hx) (hl m hm)
    simp only [Function.comp_apply]
    omega
  unfold Consecutive at h ⊢
  rw [List.map_cons, hmap, h, hx, List.map_add_range', List.length_cons, List.range'_succ]

theorem runLength_split {l : List ReorderingMpdu} {b : ℕ} (hs : Sorted b l)
    (hl : ∀ m ∈ l, 1 ≤ off b m) : ∃ pre post, l = pre ++ post ∧ Consecutive b pre ∧
      (∀ m ∈ post, pre.length + 1 < off b m) ∧ runLength b l = pre.length ∧
      (pre ≠ [] → lastOf b l pre.length = (b + pre.length) % 4096) := by
  -- The base moves with the run: what is consecutive after the head is so from the head on.
  induction l generalizing b with
  | nil => exact ⟨[], [], rfl, rfl, by simp, rfl, by simp⟩
  | cons x l ih =>
    rw [Sorted, List.pairwise_cons] at hs
    by_cases hx : off b x = 1
    · have hx' := gap_succ.mpr hx
      have hl1 : ∀ m ∈ l, 1 ≤ off b m := fun m hm => hl m (List.mem_cons_of_mem x hm)
      have hs' : Sorted x.sequence l := by
        refine Sorted.rebase hs.2 fun m hm => ?_
        have := hs.1 m hm
        exact le_of_lt this
      have hl' : ∀ m ∈ l, 1 ≤ off x.sequence m := by
        intro m hm
        have h1 := hs.1 m hm
        have h2 := off_succ hx' (hl1 m hm)
        omega
      obtain ⟨pre, post, rfl, hpre, hpost, hn, hlast⟩ := ih hs' hl'
      refine ⟨x :: pre, post, rfl, ?_, fun m hm => ?_, ?_, fun _ => ?_⟩
      · exact hpre.cons hx fun m hm => hl1 m (List.mem_append_left _ hm)
      · have h1 := hpost m hm
        have h2 := off_succ hx' (hl1 m (List.mem_append_right _ hm))
        simp only [List.length_cons]
        omega
      · have hst : seqStepone x.sequence b = true := (seqStepone_iff _ _).mpr hx'
        simp only [runLength, hst, if_true, hn, List.length_cons]
      · rw [List.length_cons, lastOf_cons]
        by_cases hp : pre = []
        · subst hp
          simp [lastOf, hx']
        · rw [hlast hp, hx']
          omega
    · refine ⟨[], x :: l, rfl, rfl, fun m hm => ?_, ?_, by simp⟩
      · have h1 := hl x List.mem_cons_self
        rcases List.mem_cons.mp hm with rfl | hm
        · simp only [List.length_nil]
          omega
        · have h2 := hs.1 m hm
          simp only [List.length_nil]
          omega
      · have hst : ¬ seqStepone x.sequence b = true := by
          rw [seqStepone_iff]
          exact fun h => hx (gap_succ.mp h)
        simp [runLength, hst]

/-! ### Sorted insertion -/

theorem seqSmaller_off {b : ℕ} {x y : ReorderingMpdu} (hx : off b x < 2048) (hy : off b y < 2048) :
    seqSmaller x.sequence y.sequence = true ↔ off b x < off b y := by
  have h1 := ahead_ahead (show 0 < 4096 by norm_num) b y.sequence x.sequence
  rw [seqSmaller_iff]
  simp only [off, gap] at *
  rw [h1]
  split_ifs <;> omega

/-- **Sorted insertion.** A frame that is listed already is refused; any other is put in its place. -/
theorem insertsortedScan_spec {b : ℕ} {m : ReorderingMpdu} {l : List ReorderingMpdu}
    (hm : off b m < 2048) (hs : Sorted b l) (hl : ∀ x ∈ l, off b x < 2048) :
    (insertsortedScan m l = none ∧ m.sequence ∈ l.map ReorderingMpdu.sequence) ∨
    ∃ pre post, l = pre ++ post ∧ insertsortedScan m l = some (pre ++ m :: post) ∧
      (∀ x ∈ pre, off b x < off b m) ∧ ∀ x ∈ post, off b m < off b x := by
  induction l with
  | nil => exact Or.inr ⟨[], [], rfl, rfl, by simp, by simp⟩
  | cons x l ih =>
    rw [Sorted, List.pairwise_cons] at hs
    have hx := hl x List.mem_cons_self
    have hcmp := seqSmaller_off hx hm
    unfold insertsortedScan
    by_cases h1 : off b x < off b m
    · rw [if_pos (hcmp.mpr h1)]
      rcases ih hs.2 fun y hy => hl y (List.mem_cons_of_mem x hy) with
        ⟨h2, h3⟩ | ⟨pre, post, rfl, h2, h3, h4⟩
      · left
        exact ⟨by rw [h2]; rfl, by simp only [List.map_cons, List.mem_cons]; exact Or.inr h3⟩
      · right
        refine ⟨x :: pre, post, rfl, by rw [h2]; rfl, fun y hy => ?_, h4⟩
        rcases List.mem_cons.mp hy with rfl | hy
        · exact h1
        · exact h3 y hy
    · rw [if_neg (fun h => h1 (hcmp.mp h))]
      by_cases h2 : x.sequence = m.sequence
      · left
        rw [if_pos h2]
        exact ⟨rfl, by rw [← h2]; exact List.mem_map_of_mem List.mem_cons_self⟩
      · right
        rw [if_neg h2]
        have h3 : off b m < off b x := by
          have : off b x ≠ off b m := fun h => h2 (off_inj h)
          omega
        refine ⟨[], x :: l, rfl, rfl, by simp, fun y hy => ?_⟩
        rcases List.mem_cons.mp hy with rfl | hy
        · exact h3
        · exact h3.trans (hs.1 y hy)

theorem Sorted.insert {b : ℕ} {m : ReorderingMpdu} {pre post : List ReorderingMpdu}
    (h : Sorted b (pre ++ post)) (h1 : ∀ x ∈ pre, off b x < off b m)
    (h2 : ∀ x ∈ post, off b m < off b x) : Sorted b (pre ++ m :: post) := by
  rw [Sorted, List.pairwise_append] at h ⊢
  refine ⟨h.1, List.pairwise_cons.mpr ⟨h2, h.2.1⟩, fun x hx y hy => ?_⟩
  rcases List.mem_cons.mp hy with rfl | hy
  · exact h1 x hx
  · exact h.2.2 x hx y hy

end Mt7610u.BlockAck.Window
