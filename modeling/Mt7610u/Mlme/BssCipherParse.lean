import Mt7610u.Mlme.BssCipherSuites

/-! # When `BssCipherParse` is right -/

namespace Mt7610u.Mlme.Cipher

open Mt7610u.Lib Mt7610u.Mgmt.Beacon

section

variable (b : Bss) (p : ℕ)

/-- **What is asked of the parser**: it comes to an end, it reads inside the variable elements, it stores the suites
of every well-formed element when it comes to it, and in the end every listed mode is one of the two. -/
structure Correct : Prop where
  ends : ∀ more s, loop b (b.varIELen + more) 0 s = loop b b.varIELen 0 s
  reads : ∀ i ∈ reads b, i < b.varIELen
  wpa : ∀ v ∈ parseVisits b, WpaWhole b v.1 →
    SuitesRight (arm b v.1 v.2).wpa (b.varIEs (v.1 + 11)) (ciphers b (b.count (v.1 + 12)) (v.1 + 14))
  rsn : ∀ v ∈ parseVisits b, RsnWhole b v.1 →
    SuitesRight (arm b v.1 v.2).wpa2 (b.varIEs (v.1 + 7)) (ciphers b (b.count (v.1 + 8)) (v.1 + 10))
  wpaModes : ∀ v ∈ parseVisits b, WpaWhole b v.1 → ∀ mode ∈ wpaListed b v.1,
    mode = (bssCipherParse b).authMode ∨ mode = (bssCipherParse b).authModeAux
  rsnModes : ∀ v ∈ parseVisits b, RsnWhole b v.1 → ∀ mode ∈ rsnListed b v.1,
    mode = (bssCipherParse b).authMode ∨ mode = (bssCipherParse b).authModeAux

/-- How far the element at `p` must reach into the buffer, with what is read behind it. -/
def need : ℕ :=
  if b.varIEs p = 221 then
    if isSes b p then p + 5 else if isWpa b p then wpaAkm b p + 6 else p + 6
  else if b.varIEs p = 48 then
    if isVersion1 b p then
      if isRsn b p then
        rsnAkm b p + 2 + 4 * (rsnModes b p).length +
          if (rsnModes b p).length < b.count (rsnAkm b p) then 3 else 2
      else p + 7
    else p + 4
  else p + 2

/-- The variable elements of an entry for which the parser does what is asked. -/
structure Fits : Prop where
  bounds : ∀ v ∈ parseVisits b, need b v.1 ≤ b.varIELen
  wpa : ∀ v ∈ parseVisits b, WpaWhole b v.1 →
    GroupFits v.2.wpa.groupCipher (b.varIEs (v.1 + 11)) ∧
      PairFits v.2.wpa.pairCipher (ciphers b (b.count (v.1 + 12)) (v.1 + 14)) ∧
        WpaAuxFits b v.2.wpa (b.varIEs (v.1 + 11)) (ciphers b (b.count (v.1 + 12)) (v.1 + 14))
  rsn : ∀ v ∈ parseVisits b, RsnWhole b v.1 →
    GroupFits v.2.wpa2.groupCipher (b.varIEs (v.1 + 7)) ∧
      PairFits v.2.wpa2.pairCipher (ciphers b (b.count (v.1 + 8)) (v.1 + 10)) ∧
        AuxFits v.2.wpa2.pairCipher v.2.wpa2.pairCipherAux (ciphers b (b.count (v.1 + 8)) (v.1 + 10))
  wpaModes : ∀ v ∈ parseVisits b, WpaWhole b v.1 → ∀ mode ∈ wpaListed b v.1, FirstOrLast b mode
  rsnModes : ∀ v ∈ parseVisits b, RsnWhole b v.1 → ∀ mode ∈ rsnListed b v.1, FirstOrLast b mode

end

/-! ### How far it reads -/

/-- All of them are in front of `n`. -/
def AllBelow (n : ℕ) (l : List ℕ) : Prop := ∀ i ∈ l, i < n

section

variable {n : ℕ}

@[simp] theorem allBelow_nil : AllBelow n [] := List.forall_mem_nil _

@[simp] theorem allBelow_cons {i : ℕ} {l : List ℕ} : AllBelow n (i :: l) ↔ i < n ∧ AllBelow n l := List.forall_mem_cons

@[simp] theorem allBelow_append {l l' : List ℕ} : AllBelow n (l ++ l') ↔ AllBelow n l ∧ AllBelow n l' :=
  List.forall_mem_append

@[simp] theorem allBelow_span {p k : ℕ} : AllBelow n (span p k) ↔ k = 0 ∨ p + k ≤ n := by
  unfold AllBelow span
  rw [List.forall_mem_map]
  constructor
  · intro h
    by_cases hk : k = 0
    · exact Or.inl hk
    · have hlast := h (k - 1) (List.mem_range.2 (by omega))
      omega
  · intro h i hi
    have hlt := List.mem_range.1 hi
    omega

theorem allBelow_typeReads {count pTmp : ℕ} (h : pTmp + 4 * count < n) : AllBelow n (typeReads count pTmp) := by
  unfold AllBelow typeReads
  rw [List.forall_mem_map]
  intro i hi
  have hlt := List.mem_range.1 hi
  omega

theorem allBelow_akmReads (m : ℕ → Byte) (count : ℕ) : ∀ pTmp : ℕ,
    AllBelow n (akmReads m count pTmp) ∧ AllBelow n (span (pTmp + 4 * (akmModes m count pTmp).length) 2) ↔
      (pTmp + 4 * (akmModes m count pTmp).length +
        if (akmModes m count pTmp).length < count then 3 else 2) ≤ n := by
  induction count with
  | zero =>
    intro pTmp
    show AllBelow n [] ∧ AllBelow n (span pTmp 2) ↔ pTmp + 2 ≤ n
    rw [and_iff_right allBelow_nil, allBelow_span]
    omega
  | succ count ih =>
    intro pTmp
    have hrest := ih (pTmp + 4)
    rw [allBelow_span] at hrest ⊢
    rw [akmReads, akmModes]
    by_cases houi : equalMemory (fun i => m (pTmp + i)) (mem rsnOui) 3 = true
    · rw [if_pos houi, if_pos houi, List.length_cons, allBelow_append, allBelow_span, allBelow_cons]
      generalize (akmModes m count (pTmp + 4)).length = k at hrest ⊢
      by_cases hk : k < count
      · rw [if_pos hk] at hrest
        rw [if_pos (Nat.succ_lt_succ hk)]
        constructor
        · rintro ⟨⟨-, -, h⟩, hend⟩
          have := hrest.1 ⟨h, by omega⟩
          omega
        · intro hend
          obtain ⟨h, -⟩ := hrest.2 (by omega)
          exact ⟨⟨by omega, by omega, h⟩, by omega⟩
      · rw [if_neg hk] at hrest
        rw [if_neg fun h => hk (Nat.lt_of_succ_lt_succ h)]
        constructor
        · rintro ⟨-, hend⟩
          omega
        · intro hend
          obtain ⟨h, -⟩ := hrest.2 (by omega)
          exact ⟨⟨by omega, by omega, h⟩, by omega⟩
    · rw [if_neg houi, if_neg houi, List.append_nil, allBelow_span, List.length_nil, if_pos (Nat.succ_pos count)]
      omega

end

section

variable (b : Bss) (p : ℕ)

theorem turnReads_lt_iff : (∀ i ∈ turnReads b p, i < b.varIELen) ↔ need b p ≤ b.varIELen := by
  show AllBelow b.varIELen (turnReads b p) ↔ _
  unfold turnReads need
  rw [List.cons_append, allBelow_cons, allBelow_append, allBelow_cons, and_iff_left allBelow_nil]
  by_cases hwpa : b.varIEs p = 221
  · rw [if_pos hwpa, if_pos hwpa, wpaReads]
    cases isSes b p with
    | true =>
      simp only [if_true, allBelow_append, allBelow_span, allBelow_nil, and_true]
      omega
    | false =>
      cases isWpa b p with
      | false =>
        simp only [Bool.false_eq_true, if_false, Bool.not_false, if_true, allBelow_append, allBelow_span,
          allBelow_nil, and_true]
        omega
      | true =>
        simp only [Bool.false_eq_true, if_false, Bool.not_true, if_true, allBelow_append, allBelow_cons,
          allBelow_span, allBelow_nil, and_true]
        have hakm : wpaAkm b p = p + 14 + 4 * b.count (p + 12) := rfl
        constructor
        · rintro ⟨-, ⟨-, -, -, h⟩, -⟩
          omega
        · intro h
          have htypes : AllBelow b.varIELen (typeReads (b.count (p + 12)) (p + 14)) := allBelow_typeReads (by omega)
          exact ⟨by omega, ⟨by omega, by omega, ⟨⟨by omega, htypes⟩, by omega⟩, by omega⟩, by omega⟩
  rw [if_neg hwpa, if_neg hwpa]
  by_cases hrsn : b.varIEs p = 48
  · rw [if_pos hrsn, if_pos hrsn, rsnReads]
    cases isVersion1 b p with
    | false =>
      simp only [Bool.not_false, if_true, allBelow_append, allBelow_span, allBelow_nil, and_true,
        Bool.false_eq_true, if_false]
      omega
    | true =>
      cases isRsn b p with
      | false =>
        simp only [Bool.false_eq_true, if_false, Bool.not_true, Bool.not_false, if_true, allBelow_append,
          allBelow_span, allBelow_nil, and_true]
        omega
      | true =>
        have hakm : rsnAkm b p = p + 10 + 4 * b.count (p + 8) := rfl
        have hreads := allBelow_akmReads (n := b.varIELen) b.varIEs (b.count (rsnAkm b p)) (rsnAkm b p + 2)
        rw [← rsnModes] at hreads
        simp only [Bool.false_eq_true, if_false, Bool.not_true, if_true, allBelow_append, allBelow_cons, akms_eq]
        rw [← rsnModes, ← hreads]
        constructor
        · rintro ⟨-, ⟨-, -, ⟨-, h⟩, hend⟩, -⟩
          exact ⟨h, hend⟩
        · rintro ⟨h, hend⟩
          have hlt := allBelow_span.1 hend
          have htypes : AllBelow b.varIELen (typeReads (b.count (p + 8)) (p + 10)) := allBelow_typeReads (by omega)
          simp only [allBelow_span]
          exact ⟨by omega, ⟨by omega, by omega, ⟨⟨⟨⟨by omega, by omega⟩, htypes⟩, by omega⟩, h⟩, hlt⟩, by omega⟩
  · rw [if_neg hrsn, if_neg hrsn, and_iff_right allBelow_nil]
    omega

end

section

variable (b : Bss)

theorem loop_turns (turns : ℕ) : ∀ (p : ℕ) (s : State) (more : ℕ), b.varIELen ≤ p + turns →
    loop b (turns + more) p s = loop b turns p s := by
  induction turns with
  | zero =>
    intro p s more hlen
    cases more with
    | zero => rfl
    | succ more =>
      rw [Nat.zero_add]
      exact if_neg (by omega)
  | succ turns ih =>
    intro p s more hlen
    rw [Nat.add_right_comm, loop, loop]
    split_ifs
    · exact ih _ _ more (by omega)
    · rfl

theorem reads_lt_iff : (∀ i ∈ reads b, i < b.varIELen) ↔ ∀ v ∈ parseVisits b, need b v.1 ≤ b.varIELen := by
  have hflat : (∀ i ∈ reads b, i < b.varIELen) ↔ ∀ v ∈ parseVisits b, ∀ i ∈ turnReads b v.1, i < b.varIELen := by
    unfold reads
    constructor
    · intro h v hv i hi
      exact h i (List.mem_flatMap.2 ⟨v, hv, hi⟩)
    · intro h i hi
      obtain ⟨v, hv, hi⟩ := List.mem_flatMap.1 hi
      exact h v hv i hi
  rw [hflat]
  exact forall₂_congr fun v _ => turnReads_lt_iff b v.1

/-! ### The result -/

theorem noWep_parse : ∀ v ∈ parseVisits b, NoWep v.2.wpa.pairCipher ∧ NoWep v.2.wpa2.pairCipher :=
  noWep_visits b b.varIELen ⟨Or.inl rfl, Or.inl rfl⟩

theorem wpaListed_ne (p : ℕ) : ∀ mode ∈ wpaListed b p, mode ≠ .modeOpen := by
  unfold wpaListed
  rw [List.forall_mem_map]
  intro i _
  unfold wpaListedMode
  split_ifs <;> nofun

theorem rsnListed_ne (p : ℕ) : ∀ mode ∈ rsnListed b p, mode ≠ .modeOpen := by
  unfold rsnListed
  rw [List.forall_mem_map]
  exact fun i _ => rsnMode_ne _

theorem firstOrLast_iff {mode : AuthMode} (hm : mode ≠ .modeOpen) :
    mode = (bssCipherParse b).authMode ∨ mode = (bssCipherParse b).authModeAux ↔ FirstOrLast b mode :=
  (holds_parse b).mode_iff hm

/-- **When the parser is right.** It always comes to an end. It reads inside the variable elements and stores what
the well-formed ones list exactly if every element it comes to reaches far enough, the pairwise suites of the
well-formed ones stand in an order in which the two strongest are found, and every listed mode is the first or the
last that is taken up. -/
theorem correct_iff : Correct b ↔ Fits b := by
  constructor
  · intro h
    refine ⟨(reads_lt_iff b).1 h.reads, ?_, ?_, ?_, ?_⟩
    · exact fun v hv hw => (wpa_right_iff b v.1 v.2 hw (noWep_parse b v hv).1).1 (h.wpa v hv hw)
    · exact fun v hv hw => (rsn_right_iff b v.1 v.2 hw (noWep_parse b v hv).2).1 (h.rsn v hv hw)
    · exact fun v hv hw mode hm => (firstOrLast_iff b (wpaListed_ne b v.1 mode hm)).1 (h.wpaModes v hv hw mode hm)
    · exact fun v hv hw mode hm => (firstOrLast_iff b (rsnListed_ne b v.1 mode hm)).1 (h.rsnModes v hv hw mode hm)
  · intro h
    refine ⟨fun more s => loop_turns b b.varIELen 0 s more (by omega), (reads_lt_iff b).2 h.bounds, ?_, ?_, ?_, ?_⟩
    · exact fun v hv hw => (wpa_right_iff b v.1 v.2 hw (noWep_parse b v hv).1).2 (h.wpa v hv hw)
    · exact fun v hv hw => (rsn_right_iff b v.1 v.2 hw (noWep_parse b v hv).2).2 (h.rsn v hv hw)
    · exact fun v hv hw mode hm => (firstOrLast_iff b (wpaListed_ne b v.1 mode hm)).2 (h.wpaModes v hv hw mode hm)
    · exact fun v hv hw mode hm => (firstOrLast_iff b (rsnListed_ne b v.1 mode hm)).2 (h.rsnModes v hv hw mode hm)

end

def bssWith (ies : List Byte) : Bss where
  bssType := 1
  privacy := true
  bSES := false
  varIELen := ies.length
  varIEs := mem ies

/-- An RSN element that ends behind the group suite: the counts are read behind the buffer. -/
theorem not_correct : ¬ Correct (bssWith [48, 6, 1, 0, 0x00, 0x0f, 0xac, 4]) := by
  intro h
  have hlt := h.reads 9
  revert hlt
  decide

/-- TKIP and AES in this order, and a key-management suite of each of the two elements. -/
example : (bssCipherParse (bssWith ([221, 22, 0x00, 0x50, 0xf2, 1, 1, 0, 0x00, 0x50, 0xf2, 2, 1, 0, 0x00, 0x50, 0xf2, 2,
      1, 0, 0x00, 0x50, 0xf2, 2] ++ [48, 24, 1, 0, 0x00, 0x0f, 0xac, 2, 2, 0, 0x00, 0x0f, 0xac, 2, 0x00, 0x0f, 0xac, 4,
        1, 0, 0x00, 0x0f, 0xac, 2, 0, 0]))).wpa2.pairCipherAux = .encryption2Enabled := by
  decide

end Mt7610u.Mlme.Cipher
