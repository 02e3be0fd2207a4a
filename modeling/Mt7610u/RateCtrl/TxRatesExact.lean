import Mathlib.Order.Lattice.Nat
import Mathlib.Tactic.IntervalCases
import Mt7610u.RateCtrl.TxRates

/-! # When the summary is exact

The parts of `MlmeUpdateTxRates` one by one, and runs of calls. -/

namespace Mt7610u.RateCtrl.TxRates

open Lib Lib.Runs Lib.RunningMax

/-! ### Elements -/

theorem code_and (e : Byte) : code (code e) = code e := by
  simp [code, BitVec.and_assoc]

theorem code_mark (e : Byte) : code (e ||| 0x80) = code e := by
  ext i hi
  simp only [code, BitVec.getElem_and, BitVec.getElem_or]
  interval_cases i <;> simp

theorem marked_code (e : Byte) : marked (code e) = false := by
  simp [marked, code]

theorem marked_mark (e : Byte) : marked (e ||| 0x80) = true := by
  simp [marked]

theorem marked_rate : ∀ i < maxLen, marked (rate i) = false := by
  decide

theorem rateId_rate : ∀ i < maxLen, rateId (rate i) = some i := by
  decide

theorem rateId_eq_some {c : Byte} {r : ℕ} : rateId c = some r ↔ r < maxLen ∧ rate r = c := by
  constructor
  · intro h
    have hmem := List.mem_of_find?_eq_some h
    have hrate := List.find?_some h
    exact ⟨List.mem_range.1 hmem, by simpa using hrate⟩
  · rintro ⟨hr, rfl⟩
    exact rateId_rate r hr

theorem rateId_lt {c : Byte} {r : ℕ} (h : rateId c = some r) : r < maxLen := (rateId_eq_some.1 h).1

/-! ### Marks -/

def mark (bitmap : BitVec 64) (is : List ℕ) (e : Byte) : Byte :=
  is.foldl (fun e i => if bitmap.getLsbD i then (if e = rate i then e ||| 0x80 else e) else e) e

theorem foldl_markRate (bitmap : BitVec 64) (is : List ℕ) (l : List Byte) :
    is.foldl (markRate bitmap) l = l.map (mark bitmap is) := by
  induction is generalizing l with
  | nil => exact (List.map_id l).symm
  | cons i is ih =>
    rw [List.foldl_cons, ih]
    unfold markRate
    split_ifs with hbit
    · rw [List.map_map]
      refine List.map_congr_left fun e _ => ?_
      simp only [mark, List.foldl_cons, hbit, if_true, Function.comp_apply]
    · refine List.map_congr_left fun e _ => ?_
      simp only [mark, List.foldl_cons, hbit, Bool.false_eq_true, if_false]

theorem code_markStep (bitmap : BitVec 64) (e : Byte) (i : ℕ) :
    code (if bitmap.getLsbD i then (if e = rate i then e ||| 0x80 else e) else e) = code e := by
  split_ifs
  · exact code_mark e
  · rfl
  · rfl

theorem code_mark_foldl (bitmap : BitVec 64) (is : List ℕ) (e : Byte) : code (mark bitmap is e) = code e := by
  induction is generalizing e with
  | nil => rfl
  | cons i is ih => exact (ih _).trans (code_markStep bitmap e i)

theorem mark_of_marked (bitmap : BitVec 64) {is : List ℕ} (his : ∀ i ∈ is, i < maxLen) {e : Byte}
    (h : marked e = true) : mark bitmap is e = e := by
  induction is with
  | nil => rfl
  | cons i is ih =>
    have hne : e ≠ rate i := by
      rintro rfl
      rw [marked_rate i (his i List.mem_cons_self)] at h
      exact Bool.false_ne_true h
    have hcons : mark bitmap (i :: is) e = mark bitmap is e := by
      simp only [mark, List.foldl_cons, hne, if_false, ite_self]
    rw [hcons]
    exact ih fun j hj => his j (List.mem_cons_of_mem _ hj)

theorem marked_mark_foldl (bitmap : BitVec 64) {is : List ℕ} (his : ∀ i ∈ is, i < maxLen) {e : Byte}
    (h : marked e = false) : marked (mark bitmap is e) = true ↔ ∃ i ∈ is, e = rate i ∧ bitmap.getLsbD i = true := by
  induction is with
  | nil => simp [mark, h]
  | cons i is ih =>
    have hrest : ∀ j ∈ is, j < maxLen := fun j hj => his j (List.mem_cons_of_mem _ hj)
    by_cases hhit : e = rate i ∧ bitmap.getLsbD i = true
    · have hcons : mark bitmap (i :: is) e = mark bitmap is (e ||| 0x80) := by
        simp only [mark, List.foldl_cons, hhit.2, if_true, if_pos hhit.1]
      rw [hcons, mark_of_marked bitmap hrest (marked_mark e)]
      exact iff_of_true (marked_mark e) ⟨i, List.mem_cons_self, hhit⟩
    · have hcons : mark bitmap (i :: is) e = mark bitmap is e := by
        simp only [mark, List.foldl_cons]
        congr 1
        split_ifs with hbit heq
        · exact absurd ⟨heq, hbit⟩ hhit
        · rfl
        · rfl
      rw [hcons, ih hrest]
      simp only [List.mem_cons, exists_eq_or_imp, hhit, false_or]

theorem marked_markRates {bitmap : BitVec 64} {l : List Byte} {e : Byte} (he : e ∈ markRates bitmap l) :
    marked e = true ↔ ∃ r, rateId (code e) = some r ∧ bitmap.getLsbD r = true := by
  rw [markRates, foldl_markRate, List.map_map, List.mem_map] at he
  obtain ⟨x, -, rfl⟩ := he
  have hrange : ∀ i ∈ List.range maxLen, i < maxLen := fun i hi => List.mem_range.1 hi
  change marked (mark bitmap _ (code x)) = true ↔ ∃ r, rateId (code (mark bitmap _ (code x))) = some r ∧ _
  rw [marked_mark_foldl bitmap hrange (marked_code x), code_mark_foldl, code_and]
  simp only [rateId_eq_some, List.mem_range]
  constructor
  · rintro ⟨r, hr, heq, hbit⟩
    exact ⟨r, ⟨hr, heq.symm⟩, hbit⟩
  · rintro ⟨r, ⟨hr, heq⟩, hbit⟩
    exact ⟨r, hr, heq.symm, hbit⟩

theorem code_markRates (bitmap : BitVec 64) (l : List Byte) : (markRates bitmap l).map code = l.map code := by
  rw [markRates, foldl_markRate, List.map_map, List.map_map]
  refine List.map_congr_left fun e _ => ?_
  simp only [Function.comp_apply, code_mark_foldl]
  exact code_and e

/-! ### The bitmap of a band -/

def band5 (bitmap : BitVec 64) : BitVec 64 := bitmap &&& ~~~0xF ||| 0x150

theorem forBand_five {b : Bitmaps} {channel : ℕ} (h : 14 < channel) :
    (b.forBand channel).basicRateBitmap = band5 b.basicRateBitmap := by
  unfold Bitmaps.forBand
  rw [if_pos h]
  by_cases hcck : b.basicRateBitmap &&& 0xF = 0
  · have hsame : b.basicRateBitmap &&& ~~~0xF = b.basicRateBitmap := by
      ext i hi
      have hbit := congrArg (fun x => x.getLsbD i) hcck
      simp only [BitVec.getLsbD_and, ← BitVec.getLsbD_eq_getElem] at hbit ⊢
      rw [BitVec.getLsbD_not]
      revert hbit
      cases b.basicRateBitmap.getLsbD i <;> simp [hi]
    simp only [hcck, ne_eq, not_true_eq_false, if_false, band5, hsame]
  · simp only [ne_eq, hcck, not_false_eq_true, if_true, band5]

theorem forBand_two {b : Bitmaps} {channel : ℕ} (h : ¬14 < channel) :
    b.forBand channel = ⟨b.basicRateBitmapOld, b.basicRateBitmapOld⟩ := if_neg h

theorem getLsbD_band5 (bitmap : BitVec 64) {r : ℕ} (hr : r < maxLen) :
    (band5 bitmap).getLsbD r =
      if r < rate6 then false
      else if r = rate6 ∨ r = rate12 ∨ r = rate24 then true else bitmap.getLsbD r := by
  have hr' : r < 12 := hr
  simp only [band5, BitVec.getLsbD_or, BitVec.getLsbD_and, BitVec.getLsbD_not]
  interval_cases r <;> simp [rate6, rate12, rate24]

theorem band5_low (bitmap : BitVec 64) : band5 bitmap &&& 0xF = 0 := by
  have h150 : (0x150 : BitVec 64) &&& 0xF = 0 := by decide
  have hnot : ~~~(0xF : BitVec 64) &&& 0xF = 0 := by decide
  rw [band5, BitVec.and_or_distrib_right, h150, BitVec.and_assoc, hnot]
  simp

theorem band5_band5 (bitmap : BitVec 64) : band5 (band5 bitmap) = band5 bitmap := by
  ext i hi
  simp only [band5, BitVec.getElem_and, BitVec.getElem_or, BitVec.getElem_not]
  cases bitmap[i] <;> cases (0xF : BitVec 64)[i] <;> cases (0x150 : BitVec 64)[i] <;> rfl

theorem le_iff_high (bitmap : BitVec 64) : bitmap ≤ 4095 ↔ ∀ i, 12 ≤ i → bitmap.getLsbD i = false := by
  have hlt : bitmap ≤ 4095 ↔ bitmap.toNat < 2 ^ 12 := by
    rw [BitVec.le_def]
    exact Nat.lt_succ_iff.symm
  rw [hlt]
  constructor
  · intro h i hi
    exact Nat.testBit_lt_two_pow (h.trans_le (Nat.pow_le_pow_right (by decide) hi))
  · intro h
    exact Nat.lt_pow_two_of_testBit _ fun i hi => h i hi

theorem band5_le (bitmap : BitVec 64) : band5 bitmap ≤ 4095 ↔ bitmap ≤ 4095 := by
  rw [le_iff_high, le_iff_high]
  refine forall₂_congr fun i hi => ?_
  have hF : (0xF : BitVec 64).getLsbD i = false := (le_iff_high 0xF).1 (by decide) i hi
  have h150 : (0x150 : BitVec 64).getLsbD i = false := (le_iff_high 0x150).1 (by decide) i hi
  simp only [band5, BitVec.getLsbD_or, BitVec.getLsbD_and, BitVec.getLsbD_not]
  by_cases h64 : i < 64
  · simp only [hF, h150, h64, decide_true, Bool.not_false, Bool.and_true, Bool.or_false]
  · simp [h64, BitVec.getLsbD_of_ge _ _ (Nat.le_of_not_lt h64)]

/-! ### Lists with the same codes -/

variable {l l' : List Byte} {r : ℕ}

theorem occurs_iff : Occurs l r ↔ ∃ c ∈ l.map code, rateId c = some r := by
  simp only [Occurs, List.mem_map, exists_exists_and_eq_and]

theorem occurs_congr (h : l.map code = l'.map code) : Occurs l r ↔ Occurs l' r := by
  rw [occurs_iff, occurs_iff, h]

theorem Occurs.lt (h : Occurs l r) : r < maxLen := by
  obtain ⟨e, -, hid⟩ := h
  exact rateId_lt hid

theorem forall_code_congr (h : l.map code = l'.map code) (P : Byte → Prop) :
    (∀ e ∈ l, P (code e)) ↔ ∀ e ∈ l', P (code e) := by
  have hmap : ∀ xs : List Byte, (∀ e ∈ xs, P (code e)) ↔ ∀ c ∈ xs.map code, P c := fun xs => by simp
  rw [hmap l, hmap l', h]

/-! ### The lists in use -/

def idOf (e : Byte) : ℕ := (rateId (code e)).getD rate1

theorem Occurs.mem_ids (h : Occurs l r) : r ∈ l.map idOf := by
  obtain ⟨e, he, hid⟩ := h
  exact List.mem_map.2 ⟨e, he, by rw [idOf, hid, Option.getD_some]⟩

theorem occurs_or_zero (h : r ∈ l.map idOf) : Occurs l r ∨ r = rate1 ∧ ∃ e ∈ l, rateId (code e) = none := by
  obtain ⟨e, he, rfl⟩ := List.mem_map.1 h
  cases hid : rateId (code e) with
  | none => exact .inr ⟨by rw [idOf, hid, Option.getD_none], e, he, hid⟩
  | some r => exact .inl ⟨e, he, by rw [idOf, hid, Option.getD_some]⟩

/-- **The loops over the lists** find the extremes and the basic rates. -/
theorem support_eq (l : List Byte) (s : Support) :
    (l.foldl Support.turn s).maxSupport = (l.map idOf).foldl max s.maxSupport ∧
    (l.foldl Support.turn s).minSupport = (l.map idOf).foldl min s.minSupport ∧
    ∀ r, ((l.foldl Support.turn s).basicRateBitmap.getLsbD r = true ↔
      s.basicRateBitmap.getLsbD r = true ∨ Basic l r) := by
  induction l generalizing s with
  | nil => simp [Basic]
  | cons e l ih =>
    obtain ⟨hmax, hmin, hbits⟩ := ih (s.turn e)
    refine ⟨hmax, hmin, fun r => ?_⟩
    have hturn : (s.turn e).basicRateBitmap.getLsbD r = true ↔
        s.basicRateBitmap.getLsbD r = true ∨ rateId (code e) = some r ∧ countsBasic e r = true := by
      simp only [Support.turn]
      cases hid : rateId (code e) with
      | none => simp
      | some k =>
        have hk : k < 32 := (rateId_lt hid).trans (by decide)
        dsimp only
        by_cases hkr : k = r
        · subst hkr
          split_ifs with hc <;> simp [hc, hk]
        · split_ifs with hc <;> simp [hkr]
    rw [List.foldl_cons, hbits r, hturn, or_assoc]
    simp only [Basic, List.mem_cons, exists_eq_or_imp]

theorem isLeast_foldl_min (a : ℕ) (xs : List ℕ) : IsLeast {x | x = a ∨ x ∈ xs} (xs.foldl min a) :=
  isGreatest_foldl_max (α := ℕᵒᵈ) a xs

/-- **The lowest rate** is found exactly if no other element counts as 1M. -/
theorem lowest_iff (l : List Byte) :
    (∀ r, IsLeast {r | Occurs l r} r → (l.map idOf).foldl min rate54 = r) ↔
      (∀ e ∈ l, rateId (code e) ≠ none) ∨ (∀ e ∈ l, rateId (code e) = none) ∨ Occurs l rate1 := by
  have hleast := isLeast_foldl_min rate54 (l.map idOf)
  constructor
  · intro h
    by_contra! hcon
    obtain ⟨⟨e, he, hnone⟩, ⟨e', he', hsome⟩, hone⟩ := hcon
    obtain ⟨r', hr'⟩ := Option.ne_none_iff_exists'.1 hsome
    have hoccurs : ∃ r, Occurs l r := ⟨r', e', he', hr'⟩
    classical
    have hfind : IsLeast {r | Occurs l r} (Nat.find hoccurs) :=
      ⟨Nat.find_spec hoccurs, fun r hr => Nat.find_min' hoccurs hr⟩
    have hzero : (l.map idOf).foldl min rate54 = 0 := by
      refine Nat.le_zero.1 (hleast.2 (.inr (List.mem_map.2 ⟨e, he, ?_⟩)))
      rw [idOf, hnone, Option.getD_none, rate1]
    refine hone ?_
    rw [show rate1 = Nat.find hoccurs from hzero.symm.trans (h _ hfind)]
    exact Nat.find_spec hoccurs
  · rintro h r ⟨hr, hmin⟩
    have hle : (l.map idOf).foldl min rate54 ≤ r := hleast.2 (.inr (Occurs.mem_ids hr))
    refine le_antisymm hle ?_
    rcases hleast.1 with h54 | hmem
    · rw [h54]
      exact Nat.le_of_lt_succ (Occurs.lt hr)
    · rcases occurs_or_zero hmem with hocc | ⟨hone, e, he, hnone⟩
      · exact hmin hocc
      · rcases h with hall | hno | hone'
        · exact absurd hnone (hall e he)
        · obtain ⟨e', he', hsome⟩ := hr
          rw [hno e' he'] at hsome
          cases hsome
        · rw [hone]
          exact hmin hone'

theorem highest_eq {l : List Byte} {r : ℕ} (h : IsGreatest {r | Occurs l r} r) :
    (l.map idOf).foldl max rate1 = r := by
  have hgreatest := isGreatest_foldl_max rate1 (l.map idOf)
  refine le_antisymm ?_ (hgreatest.2 (.inr (Occurs.mem_ids h.1)))
  rcases hgreatest.1 with hone | hmem
  · rw [hone]
    exact Nat.zero_le r
  · rcases occurs_or_zero hmem with hocc | ⟨hone, -⟩
    · exact h.2 hocc
    · rw [hone]
      exact Nat.zero_le r

/-! ### Acknowledgements -/

theorem currBasicRate_le (bitmap : BitVec 32) (i : ℕ) : currBasicRate bitmap i ≤ i := by
  induction i with
  | zero => simp [currBasicRate, rate1]
  | succ i ih =>
    rw [currBasicRate]
    split_ifs
    · exact le_rfl
    · exact ih.trans (Nat.le_succ i)

/-- **The rate of an acknowledgement** is the highest bit up to the rate, or 1M without one. -/
theorem currBasicRate_spec (bitmap : BitVec 32) (i : ℕ) :
    (∀ r, IsGreatest {r | bitmap.getLsbD r = true ∧ r ≤ i} r → currBasicRate bitmap i = r) ∧
      ((∀ r ≤ i, ¬bitmap.getLsbD r = true) → currBasicRate bitmap i = rate1) := by
  induction i with
  | zero =>
    refine ⟨?_, fun _ => ?_⟩
    · rintro r ⟨⟨-, hr⟩, -⟩
      have := currBasicRate_le bitmap 0
      omega
    · simp [currBasicRate, rate1]
  | succ i ih =>
    rw [currBasicRate]
    split_ifs with hbit
    · refine ⟨?_, fun h => absurd hbit (h _ le_rfl)⟩
      rintro r ⟨⟨-, hr⟩, hub⟩
      exact le_antisymm (hub ⟨hbit, le_rfl⟩) hr
    · refine ⟨?_, fun h => ih.2 fun r hr => h r (hr.trans (Nat.le_succ i))⟩
      rintro r ⟨⟨hr, hri⟩, hub⟩
      refine ih.1 r ⟨⟨hr, ?_⟩, fun k hk => hub ⟨hk.1, hk.2.trans (Nat.le_succ i)⟩⟩
      refine Nat.le_of_lt_succ (lt_of_le_of_ne hri ?_)
      rintro rfl
      exact hbit hr

/-! ### One call -/

variable {b : Bitmaps} {env : Env} {configured : BitVec 64}

theorem update_bitmaps : (mlmeUpdateTxRates b env).1 = b.forBand env.channel := by
  unfold mlmeUpdateTxRates updateBasicRateBitmap
  dsimp only
  split_ifs <;> rfl

theorem update_lists : ((mlmeUpdateTxRates b env).2.supRate, (mlmeUpdateTxRates b env).2.extRate) =
    if (b.forBand env.channel).basicRateBitmap > 4095 then (env.supRate, env.extRate)
    else (markRates b.basicRateBitmap env.supRate, markRates b.basicRateBitmap env.extRate) := by
  unfold mlmeUpdateTxRates updateBasicRateBitmap
  dsimp only
  split_ifs <;> rfl

theorem update_lists_le (h : (b.forBand env.channel).basicRateBitmap ≤ 4095) :
    (mlmeUpdateTxRates b env).2.supRate = markRates b.basicRateBitmap env.supRate ∧
      (mlmeUpdateTxRates b env).2.extRate = markRates b.basicRateBitmap env.extRate := by
  have hlists := @update_lists b env
  rw [if_neg (BitVec.not_lt.2 h)] at hlists
  exact Prod.mk.inj hlists

theorem update_codes : (mlmeUpdateTxRates b env).2.supRate.map code = env.supRate.map code ∧
    (mlmeUpdateTxRates b env).2.extRate.map code = env.extRate.map code := by
  have hlists := @update_lists b env
  split_ifs at hlists with h
  · obtain ⟨hsup, hext⟩ := Prod.mk.inj hlists
    rw [hsup, hext]
    exact ⟨rfl, rfl⟩
  · obtain ⟨hsup, hext⟩ := Prod.mk.inj hlists
    rw [hsup, hext, code_markRates, code_markRates]
    exact ⟨rfl, rfl⟩

theorem inUse_codes {sup ext : List Byte} (hsup : sup.map code = env.supRate.map code)
    (hext : ext.map code = env.extRate.map code) :
    (inUse env sup ext).map code = (inUse env env.supRate env.extRate).map code := by
  unfold inUse
  split_ifs
  · rfl
  · rw [List.map_append, List.map_append, hsup, hext]

def Agree (b : Bitmaps) (env : Env) : Prop :=
  (b.forBand env.channel).basicRateBitmap ≤ 4095 → ∀ r, Occurs (env.supRate ++ env.extRate) r →
    b.basicRateBitmap.getLsbD r = (b.forBand env.channel).basicRateBitmap.getLsbD r

theorem agree_iff : Agree b env ↔ Found b env := by
  unfold Agree Found
  split_ifs with hch
  · rw [forBand_five hch, band5_le]
    refine imp_congr_right fun _ => forall₂_congr fun r hr => ?_
    rw [getLsbD_band5 _ hr.lt]
    by_cases hcck : r < rate6
    · have hofdm : ¬(r = rate6 ∨ r = rate12 ∨ r = rate24) := by
        simp only [rate6, rate12, rate24] at hcck ⊢
        omega
      rw [if_pos hcck]
      exact ⟨fun h => ⟨fun _ => h, fun hn => absurd hn hofdm⟩, fun h => h.1 hcck⟩
    · rw [if_neg hcck]
      by_cases hofdm : r = rate6 ∨ r = rate12 ∨ r = rate24
      · rw [if_pos hofdm]
        exact ⟨fun h => ⟨fun hn => absurd hn hcck, fun _ => h⟩, fun h => h.2 hofdm⟩
      · rw [if_neg hofdm]
        exact iff_of_true rfl ⟨fun hn => absurd hn hcck, fun hn => absurd hn hofdm⟩
  · rw [forBand_two hch]

theorem marks_iff :
    ((b.forBand env.channel).basicRateBitmap ≤ 4095 →
      ∀ e ∈ (mlmeUpdateTxRates b env).2.supRate ++ (mlmeUpdateTxRates b env).2.extRate,
        (marked e = true ↔ ∃ r, rateId (code e) = some r ∧
          (b.forBand env.channel).basicRateBitmap.getLsbD r = true)) ↔ Agree b env := by
  refine imp_congr_right fun hle => ?_
  obtain ⟨hsup, hext⟩ := update_lists_le hle
  have hcodes : ((mlmeUpdateTxRates b env).2.supRate ++ (mlmeUpdateTxRates b env).2.extRate).map code =
      (env.supRate ++ env.extRate).map code := by
    rw [List.map_append, List.map_append, update_codes.1, update_codes.2]
  have hmarked : ∀ e ∈ (mlmeUpdateTxRates b env).2.supRate ++ (mlmeUpdateTxRates b env).2.extRate,
      (marked e = true ↔ ∃ r, rateId (code e) = some r ∧ b.basicRateBitmap.getLsbD r = true) := by
    intro e he
    rw [hsup, hext, List.mem_append] at he
    rcases he with he | he
    · exact marked_markRates he
    · exact marked_markRates he
  constructor
  · intro h r hr
    obtain ⟨e, he, hid⟩ := (occurs_congr hcodes).2 hr
    have hiff := (hmarked e he).symm.trans (h e he)
    simp only [hid, Option.some.injEq, exists_eq_left'] at hiff
    exact Bool.eq_iff_iff.2 hiff
  · intro h e he
    rw [hmarked e he]
    refine exists_congr fun r => and_congr_right fun hid => ?_
    rw [h r ((occurs_congr hcodes).1 ⟨e, he, hid⟩)]

def used (b : Bitmaps) (env : Env) : List Byte :=
  inUse env (mlmeUpdateTxRates b env).2.supRate (mlmeUpdateTxRates b env).2.extRate

def support (b : Bitmaps) (env : Env) : Support := (used b env).foldl Support.turn ⟨rate1, rate54, 0⟩

theorem update_support (b : Bitmaps) (env : Env) :
    (mlmeUpdateTxRates b env).2.minTxRate = (support b env).minSupport ∧
    (mlmeUpdateTxRates b env).2.maxTxRate =
      (if (support b env).maxSupport < (mlmeUpdateTxRates b env).2.maxDesiredRate then (support b env).maxSupport
        else (mlmeUpdateTxRates b env).2.maxDesiredRate) ∧
    (mlmeUpdateTxRates b env).2.expectedACKRate = currBasicRate (support b env).basicRateBitmap :=
  ⟨rfl, rfl, rfl⟩

theorem support_spec (b : Bitmaps) (env : Env) :
    (support b env).maxSupport = ((used b env).map idOf).foldl max rate1 ∧
    (support b env).minSupport = ((used b env).map idOf).foldl min rate54 ∧
    ∀ r, ((support b env).basicRateBitmap.getLsbD r = true ↔ Basic (used b env) r) := by
  obtain ⟨hmax, hmin, hbits⟩ := support_eq (used b env) ⟨rate1, rate54, 0⟩
  refine ⟨hmax, hmin, fun r => (hbits r).trans (or_iff_right ?_)⟩
  simp

theorem highest_exact {r : ℕ} (h : IsGreatest {r | Occurs (used b env) r} r) :
    (mlmeUpdateTxRates b env).2.maxTxRate = min (mlmeUpdateTxRates b env).2.maxDesiredRate r := by
  rw [(update_support b env).2.1, (support_spec b env).1, highest_eq h]
  split_ifs with hlt
  · exact (min_eq_right hlt.le).symm
  · exact (min_eq_left (Nat.le_of_not_lt hlt)).symm

theorem ack_exact (i : ℕ) :
    (∀ r, IsGreatest {r | Basic (used b env) r ∧ r ≤ i} r → (mlmeUpdateTxRates b env).2.expectedACKRate i = r) ∧
    ((∀ r ≤ i, ¬Basic (used b env) r) → (mlmeUpdateTxRates b env).2.expectedACKRate i = rate1) := by
  have hspec := currBasicRate_spec (support b env).basicRateBitmap i
  simp only [(support_spec b env).2.2] at hspec
  rwa [(update_support b env).2.2]

structure Kept (b : Bitmaps) (configured : BitVec 64) : Prop where
  old : b.basicRateBitmapOld = configured
  current : b.basicRateBitmap = configured ∨ b.basicRateBitmap = band5 configured

theorem kept_forBand (h : Kept b configured) (channel : ℕ) : Kept (b.forBand channel) configured := by
  by_cases hch : 14 < channel
  · refine ⟨?_, .inr ?_⟩
    · unfold Bitmaps.forBand
      rw [if_pos hch]
      by_cases hcck : b.basicRateBitmap &&& 0xF = 0
      · simp only [hcck, ne_eq, not_true_eq_false, if_false]
        exact h.old
      · simp only [ne_eq, hcck, not_false_eq_true, if_true]
        refine h.current.resolve_right fun hband => hcck ?_
        rw [hband, band5_low]
    · rw [forBand_five hch]
      rcases h.current with hc | hc
      · rw [hc]
      · rw [hc, band5_band5]
  · rw [forBand_two hch]
    exact ⟨h.old, .inl h.old⟩

theorem exact_iff (h : Kept b configured) :
    Exact configured (mlmeUpdateTxRates b env).1.basicRateBitmap env (mlmeUpdateTxRates b env).2 ↔
      Found b env ∧ RatesOnly env := by
  have hcodes : (used b env).map code = (inUse env env.supRate env.extRate).map code :=
    inUse_codes update_codes.1 update_codes.2
  have hlowest := lowest_iff (used b env)
  rw [← (support_spec b env).2.1, ← (update_support b env).1, forall_code_congr hcodes fun c => rateId c ≠ none,
    forall_code_congr hcodes fun c => rateId c = none, occurs_congr hcodes] at hlowest
  rw [update_bitmaps, ← agree_iff, ← marks_iff]
  constructor
  · intro he
    exact ⟨he.marks, hlowest.1 he.lowest⟩
  · rintro ⟨hmarks, hrates⟩
    refine ⟨update_codes, hmarks, fun hle hch e he hm => ?_, fun hch => ?_, hlowest.2 hrates,
      fun r hr => highest_exact hr, fun i _ => ack_exact i⟩
    · obtain ⟨r, hid, hbit⟩ := (hmarks hle e he).1 hm
      refine ⟨r, hid, ?_⟩
      rw [forBand_five hch, getLsbD_band5 _ (rateId_lt hid)] at hbit
      split_ifs at hbit <;> omega
    · rw [forBand_two (Nat.not_lt.2 hch)]
      exact h.old

/-! ### Runs -/

/-- What holds while the calls find what they should. -/
structure Inv (s : State) : Prop where
  kept : Kept s.bitmaps s.configured
  exact : Summarized s

theorem summarized_update (s : State) (env : Env) (hinv : Inv s) :
    Summarized (step s (.update env)) ↔ Sound s (.update env) := by
  rw [show Sound s (.update env) ↔ _ from (exact_iff hinv.kept).symm]
  constructor
  · intro h
    exact h env (mlmeUpdateTxRates s.bitmaps env).2 rfl
  · rintro h env' out heq
    obtain ⟨rfl, rfl⟩ := Prod.mk.inj (Option.some.inj heq)
    exact h

theorem inv_step (s : State) (op : Op) (hinv : Inv s) (hok : Sound s op) : Inv (step s op) := by
  cases op with
  | configure bitmap => exact ⟨⟨rfl, .inl rfl⟩, fun _ _ h => by cases h⟩
  | update env =>
    refine ⟨?_, (summarized_update s env hinv).2 hok⟩
    have hb : (step s (.update env)).bitmaps = s.bitmaps.forBand env.channel := update_bitmaps
    rw [hb]
    exact kept_forBand hinv.kept env.channel

theorem inv_init : Inv .init := ⟨⟨rfl, .inl rfl⟩, fun _ _ h => by cases h⟩

/-- **The summary is exact after every call** of a run exactly if each call finds a bitmap that has the bits of
the listed rates right already, and lists in which 1M occurs or everything is a rate. -/
theorem summarized_iff (ops : List Op) :
    (∀ pre, pre <+: ops → Summarized (Lib.Runs.run step .init pre)) ↔ Along step Sound .init ops := by
  refine forall_prefix_iff_along (fun _ h => h.exact) inv_step (fun s op hinv hok => ?_) ops .init inv_init
  cases op with
  | configure bitmap => exact absurd trivial hok
  | update env => exact fun h => hok ((summarized_update s env hinv).1 h)

/-- A station on `channel` with only the list `supRate`, all of it desired. -/
def Env.single (channel : ℕ) (supRate : List Byte) : Env :=
  { bLinkUp := false, channel := channel, wmodeEqualB := false, wmodeCapB := false, bssAdhoc := false
    linkOn := false, supRate := supRate, extRate := [], activeSupRate := [], activeExtRate := []
    desireRate := supRate, htMcs := mcsAuto, dbm := 0 }

/-- The first call above channel 14 marks by the bitmap of the other band: 6M is basic in the bitmap and not in
the list. And the membership selector 255 of a list makes 1M its lowest rate. -/
theorem not_summarized :
    ¬Summarized (Lib.Runs.run step .init [.update (.single 36 [12, 18, 24])]) ∧
      ¬Summarized (Lib.Runs.run step .init [.update (.single 1 [4, 255])]) := by
  constructor
  · intro h
    have hmarks := (h (.single 36 [12, 18, 24]) _ rfl).marks (by decide) 12 (by decide)
    exact absurd (hmarks.2 ⟨rate6, by decide, by decide⟩) (by decide)
  · intro h
    have hrates : ∀ e ∈ used State.init.bitmaps (.single 1 [4, 255]),
        rateId (code e) = some 1 ∨ rateId (code e) = none := by decide
    have hlowest := (h (.single 1 [4, 255]) _ rfl).lowest 1 ⟨⟨0x84, by decide, by decide⟩, ?_⟩
    · exact absurd hlowest (by decide)
    · rintro r ⟨e, he, hid⟩
      rcases hrates e he with h2 | hnone
      · exact (Option.some.inj (h2.symm.trans hid)).le
      · cases hnone.symm.trans hid

/-! ### What else the summary says -/

end Mt7610u.RateCtrl.TxRates
