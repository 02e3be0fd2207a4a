import Mt7610u.Mlme.BssCipher

/-! # What `BssCipherParse` makes of an element -/

namespace Mt7610u.Mlme.Cipher

open Mt7610u.Lib Mt7610u.Mgmt.Beacon

/-! ### What is asked -/

def strongest (cs : List EncryptionStatus) : EncryptionStatus :=
  if .encryption3Enabled ∈ cs then .encryption3Enabled
  else if .encryption2Enabled ∈ cs then .encryption2Enabled
  else if .encryption1Enabled ∈ cs then .encryption1Enabled
  else .wepDisabled

def second (cs : List EncryptionStatus) : EncryptionStatus := strongest (cs.filter (· ≠ strongest cs))

section

variable (b : Bss) (p : ℕ)

/-- The ciphers of `count` suites from `pTmp` on. -/
def ciphers (count pTmp : ℕ) : List EncryptionStatus :=
  (List.range count).map fun i => tmpCipher (b.varIEs (pTmp + 4 * i + 3))

/-- `count` suites from `pTmp` on have the OUI. -/
def OwnOui (oui : List Byte) (count pTmp : ℕ) : Prop :=
  ∀ i < count, equalMemory (fun j => b.varIEs (pTmp + 4 * i + j)) (mem oui) 3 = true

structure WpaWhole : Prop where
  eid : b.varIEs p = 221
  inside : p + 2 + b.len p ≤ b.varIELen
  oui : isWpa b p = true
  version : b.count (p + 6) = 1
  group : OwnOui b wpaOui 1 (p + 8)
  length : 12 + 4 * b.count (p + 12) + 2 + 4 * b.count (wpaAkm b p) ≤ b.len p
  pairwise : OwnOui b wpaOui (b.count (p + 12)) (p + 14)
  akm : OwnOui b wpaOui (b.count (wpaAkm b p)) (wpaAkm b p + 2)

structure RsnWhole : Prop where
  eid : b.varIEs p = 48
  inside : p + 2 + b.len p ≤ b.varIELen
  version : isVersion1 b p = true
  group : isRsn b p = true
  length : 8 + 4 * b.count (p + 8) + 2 + 4 * b.count (rsnAkm b p) ≤ b.len p
  pairwise : OwnOui b rsnOui (b.count (p + 8)) (p + 10)
  akm : OwnOui b rsnOui (b.count (rsnAkm b p)) (rsnAkm b p + 2)

/-- The mode that stands for a suite type of a WPA element, `AuthModeMax` where there is none. -/
def wpaListedMode (type : Byte) : AuthMode :=
  if type = 0 then .modeWpaNone else if type = 1 then .modeWpa else if type = 2 then .modeWpaPsk else .modeMax

def wpaListed : List AuthMode :=
  (List.range (b.count (wpaAkm b p))).map fun i => wpaListedMode (b.varIEs (wpaAkm b p + 2 + 4 * i + 3))

def rsnListed : List AuthMode :=
  (List.range (b.count (rsnAkm b p))).map fun i => rsnMode (b.varIEs (rsnAkm b p + 2 + 4 * i + 3))

structure SuitesRight (c : CipherSuite) (type : Byte) (cs : List EncryptionStatus) : Prop where
  group : c.groupCipher = groupCipher type .wepDisabled
  pair : c.pairCipher = strongest cs
  aux : c.pairCipherAux = second cs

/-! ### When it does -/

/-- The modes of `count` AKM suites from `pTmp` on, up to a foreign one. -/
def akmModes (m : ℕ → Byte) : ℕ → ℕ → List AuthMode
  | 0, _ => []
  | count + 1, pTmp =>
    if equalMemory (fun i => m (pTmp + i)) (mem rsnOui) 3 then rsnMode (m (pTmp + 3)) :: akmModes m count (pTmp + 4)
    else []

/-- The modes of the RSN element at `p`. -/
def rsnModes : List AuthMode := akmModes b.varIEs (b.count (rsnAkm b p)) (rsnAkm b p + 2)

def GroupFits (before : EncryptionStatus) (type : Byte) : Prop :=
  type = 1 ∨ type = 5 ∨ type = 2 ∨ type = 4 ∨ before = .wepDisabled

def PairFits (before : EncryptionStatus) (cs : List EncryptionStatus) : Prop :=
  match strongest cs with
  | .encryption3Enabled => True
  | .encryption2Enabled => before ≠ .encryption3Enabled
  | .wepDisabled => before = .wepDisabled
  | _ => False

def AuxFits (before aux : EncryptionStatus) (cs : List EncryptionStatus) : Prop :=
  (cs = [] → aux = .wepDisabled) ∧ ∀ last ∈ cs.getLast?,
    if ∀ c ∈ before :: cs.dropLast, c.value < last.value then PairFits before cs.dropLast else last = second cs

def LeavesNone (before aux : EncryptionStatus) (cs : List EncryptionStatus) : Prop :=
  (cs = [] → aux = .wepDisabled) ∧ ∀ last ∈ cs.getLast?,
    last = .wepDisabled ∨
      ∀ c ∈ before :: cs.dropLast, c.value < last.value ∧ c.value ≤ EncryptionStatus.wepDisabled.value

instance (before aux : EncryptionStatus) (cs : List EncryptionStatus) : Decidable (LeavesNone before aux cs) :=
  inferInstanceAs (Decidable (_ ∧ _))

def WpaAuxFits (c : CipherSuite) (type : Byte) (cs : List EncryptionStatus) : Prop :=
  if b.bssType = 0 ∧ LeavesNone c.pairCipher c.pairCipherAux cs then groupCipher type .wepDisabled = second cs
  else AuxFits c.pairCipher c.pairCipherAux cs

/-- The modes that are taken up at the element at `p`, behind those before: of a WPA element that of the first suite,
of an RSN element all up to a foreign one. In an ad hoc BSS a WPA element takes the place of all. -/
def takeModes (taken : List AuthMode) : List AuthMode :=
  if b.varIEs p = 221 then
    if isSes b p ∨ isWpa b p = false then taken
    else if b.bssType = 0 then [.modeWpaNone, .modeWpaNone]
    else taken ++ (wpaMode (b.varIEs (wpaAkm b p + 5))).toList
  else if b.varIEs p = 48 ∧ isVersion1 b p ∧ isRsn b p then taken ++ rsnModes b p
  else taken

def taken : List AuthMode := (parseVisits b).foldl (fun t v => takeModes b v.1 t) []

def FirstOrLast (mode : AuthMode) : Prop := (taken b).head? = some mode ∨ (taken b).getLast? = some mode

end

/-! ### The pairwise suites -/

def NoWep (c : EncryptionStatus) : Prop := c = .wepDisabled ∨ c = .encryption2Enabled ∨ c = .encryption3Enabled

def Listed (c : EncryptionStatus) : Prop := c = .encryption1Enabled ∨ NoWep c

theorem listed_tmpCipher (type : Byte) : Listed (tmpCipher type) := by
  unfold tmpCipher
  split_ifs
  · exact Or.inl rfl
  · exact Or.inr (Or.inr (Or.inl rfl))
  · exact Or.inr (Or.inr (Or.inr rfl))
  · exact Or.inr (Or.inl rfl)

theorem listed_ciphers (b : Bss) (count pTmp : ℕ) : ∀ c ∈ ciphers b count pTmp, Listed c := by
  unfold ciphers
  rw [List.forall_mem_map]
  exact fun i _ => listed_tmpCipher _

def stronger (c tmp : EncryptionStatus) : EncryptionStatus := if c.value < tmp.value then tmp else c

theorem noWep_stronger {c tmp : EncryptionStatus} (hc : NoWep c) (ht : Listed tmp) : NoWep (stronger c tmp) := by
  unfold stronger
  split_ifs with hlt
  · rcases ht with rfl | ht
    · exact absurd hlt (Nat.not_lt_zero _)
    · exact ht
  · exact hc

theorem foldl_stronger {cs : List EncryptionStatus} (hcs : ∀ c ∈ cs, Listed c) : ∀ {before : EncryptionStatus},
    NoWep before → cs.foldl stronger before =
      if .encryption3Enabled ∈ before :: cs then .encryption3Enabled
      else if .encryption2Enabled ∈ before :: cs then .encryption2Enabled else .wepDisabled := by
  induction cs with
  | nil =>
    intro before hb
    rcases hb with rfl | rfl | rfl <;> rfl
  | cons c cs ih =>
    intro before hb
    obtain ⟨hc, hcs⟩ := List.forall_mem_cons.1 hcs
    rw [List.foldl_cons, ih hcs (noWep_stronger hb hc)]
    rcases hb with rfl | rfl | rfl <;> rcases hc with rfl | rfl | rfl | rfl <;>
      simp [stronger, EncryptionStatus.value]

theorem noWep_foldl_stronger {cs : List EncryptionStatus} (hcs : ∀ c ∈ cs, Listed c) :
    ∀ {before : EncryptionStatus}, NoWep before → NoWep (cs.foldl stronger before) := by
  induction cs with
  | nil => exact fun hb => hb
  | cons c cs ih =>
    intro before hb
    obtain ⟨hc, hcs⟩ := List.forall_mem_cons.1 hcs
    exact ih hcs (noWep_stronger hb hc)

theorem foldl_stronger_eq_iff {cs : List EncryptionStatus} (hcs : ∀ c ∈ cs, Listed c) {before : EncryptionStatus}
    (hb : NoWep before) : cs.foldl stronger before = strongest cs ↔ PairFits before cs := by
  rw [foldl_stronger hcs hb]
  unfold PairFits strongest
  by_cases h3 : .encryption3Enabled ∈ cs
  · simp [h3]
  by_cases h2 : .encryption2Enabled ∈ cs
  · rcases hb with rfl | rfl | rfl <;> simp [h2, h3]
  by_cases h1 : .encryption1Enabled ∈ cs
  · rcases hb with rfl | rfl | rfl <;> simp [h1, h2, h3]
  · rcases hb with rfl | rfl | rfl <;> simp [h1, h2, h3]

theorem foldl_stronger_lt_iff {cs : List EncryptionStatus} {n : ℕ} : ∀ {before : EncryptionStatus},
    (cs.foldl stronger before).value < n ↔ ∀ c ∈ before :: cs, c.value < n := by
  induction cs with
  | nil =>
    intro before
    rw [List.foldl_nil, List.forall_mem_singleton]
  | cons c cs ih =>
    intro before
    have hstep : (stronger before c).value < n ↔ before.value < n ∧ c.value < n := by
      unfold stronger
      split_ifs <;> omega
    rw [List.foldl_cons, ih, List.forall_mem_cons, List.forall_mem_cons, List.forall_mem_cons, hstep, and_assoc]

section

variable {c : CipherSuite} {cs : List EncryptionStatus}

theorem list_pairCipher (c : CipherSuite) (tmp : EncryptionStatus) :
    (c.list tmp).pairCipher = stronger c.pairCipher tmp := by
  unfold CipherSuite.list stronger
  split_ifs <;> rfl

theorem list_pairCipherAux (c : CipherSuite) (tmp : EncryptionStatus) :
    (c.list tmp).pairCipherAux = if c.pairCipher.value < tmp.value then c.pairCipher else tmp := by
  unfold CipherSuite.list
  split_ifs <;> rfl

theorem foldl_list_pairCipher (cs : List EncryptionStatus) :
    ∀ c : CipherSuite, (cs.foldl CipherSuite.list c).pairCipher = cs.foldl stronger c.pairCipher := by
  induction cs with
  | nil => exact fun c => rfl
  | cons x cs ih =>
    intro c
    rw [List.foldl_cons, ih, list_pairCipher, List.foldl_cons]

theorem foldl_list_groupCipher (cs : List EncryptionStatus) :
    ∀ c : CipherSuite, (cs.foldl CipherSuite.list c).groupCipher = c.groupCipher := by
  induction cs with
  | nil => exact fun c => rfl
  | cons x cs ih =>
    intro c
    rw [List.foldl_cons, ih]
    unfold CipherSuite.list
    split_ifs <;> rfl

theorem foldl_list_aux (init : List EncryptionStatus) (last : EncryptionStatus) (c : CipherSuite) :
    ((init ++ [last]).foldl CipherSuite.list c).pairCipherAux =
      if ∀ x ∈ c.pairCipher :: init, x.value < last.value then init.foldl stronger c.pairCipher else last := by
  rw [List.foldl_append, List.foldl_cons, List.foldl_nil, list_pairCipherAux, foldl_list_pairCipher]
  simp only [foldl_stronger_lt_iff]

theorem second_append_of_lt {init : List EncryptionStatus} {last before : EncryptionStatus} (hb : NoWep before)
    (hlast : Listed last) (hlt : ∀ x ∈ before :: init, x.value < last.value) :
    second (init ++ [last]) = strongest init := by
  obtain ⟨hbefore, hinit⟩ := List.forall_mem_cons.1 hlt
  have hmem : last ∉ init := fun hm => lt_irrefl _ (hinit last hm)
  have htop : strongest (init ++ [last]) = last := by
    rcases hlast with rfl | rfl | rfl | rfl
    · exact absurd hbefore (Nat.not_lt_zero _)
    · rcases hb with rfl | rfl | rfl <;> exact absurd hbefore (by decide)
    · have h3 : .encryption3Enabled ∉ init := fun hm => absurd (hinit _ hm) (by decide)
      simp [strongest, h3]
    · simp [strongest]
  have hfilter : (init ++ [last]).filter (· ≠ last) = init := by
    have hkeep : ∀ x ∈ init, decide (x ≠ last) = true := fun x hx => decide_eq_true fun h => hmem (h ▸ hx)
    rw [List.filter_append, List.filter_eq_self.2 hkeep]
    simp
  unfold second
  rw [htop, hfilter]

theorem foldl_list_aux_eq_iff (hcs : ∀ x ∈ cs, Listed x) (hb : NoWep c.pairCipher) :
    (cs.foldl CipherSuite.list c).pairCipherAux = second cs ↔ AuxFits c.pairCipher c.pairCipherAux cs := by
  unfold AuxFits
  rcases cs.eq_nil_or_concat with rfl | ⟨init, last, rfl⟩
  · exact ⟨fun h => ⟨fun _ => h, nofun⟩, fun h => h.1 rfl⟩
  · rw [List.concat_eq_append] at hcs ⊢
    obtain ⟨hinit, hlast⟩ := List.forall_mem_append.1 hcs
    rw [foldl_list_aux]
    simp only [List.append_eq_nil_iff, List.cons_ne_nil, and_false, false_implies, true_and, List.getLast?_append,
      List.getLast?_singleton, Option.some_or, Option.mem_some_iff, forall_eq', List.dropLast_concat]
    split_ifs with hlt
    · rw [second_append_of_lt hb (hlast last (List.mem_singleton_self _)) hlt]
      exact foldl_stronger_eq_iff hinit hb
    · exact Iff.rfl

theorem NoWep.eq_wepDisabled_iff {x : EncryptionStatus} (h : NoWep x) :
    x = .wepDisabled ↔ x.value < EncryptionStatus.wepDisabled.value + 1 := by
  rcases h with rfl | rfl | rfl <;> decide

theorem foldl_list_aux_eq_none_iff (hcs : ∀ x ∈ cs, Listed x) (hb : NoWep c.pairCipher) :
    (cs.foldl CipherSuite.list c).pairCipherAux = .wepDisabled ↔ LeavesNone c.pairCipher c.pairCipherAux cs := by
  unfold LeavesNone
  rcases cs.eq_nil_or_concat with rfl | ⟨init, last, rfl⟩
  · exact ⟨fun h => ⟨fun _ => h, nofun⟩, fun h => h.1 rfl⟩
  · rw [List.concat_eq_append] at hcs ⊢
    obtain ⟨hinit, -⟩ := List.forall_mem_append.1 hcs
    rw [foldl_list_aux]
    simp only [List.append_eq_nil_iff, List.cons_ne_nil, and_false, false_implies, true_and, List.getLast?_append,
      List.getLast?_singleton, Option.some_or, Option.mem_some_iff, forall_eq', List.dropLast_concat]
    split_ifs with hlt
    · rw [(noWep_foldl_stronger hinit hb).eq_wepDisabled_iff, foldl_stronger_lt_iff]
      have hlast : last ≠ .wepDisabled := by
        rintro rfl
        have hbefore := (List.forall_mem_cons.1 hlt).1
        rcases hb with h | h | h <;> rw [h] at hbefore <;> exact absurd hbefore (by decide)
      constructor
      · intro h
        exact Or.inr fun x hx => ⟨hlt x hx, Nat.lt_succ_iff.1 (h x hx)⟩
      · rintro (h | h) x hx
        · exact absurd h hlast
        · exact Nat.lt_succ_iff.2 (h x hx).2
    · refine ⟨Or.inl, fun h => h.resolve_right fun hall => hlt fun x hx => (hall x hx).1⟩

end

/-! ### The suites of an element -/

theorem groupCipher_eq_iff {before : EncryptionStatus} {type : Byte} :
    groupCipher type before = groupCipher type .wepDisabled ↔ GroupFits before type := by
  unfold groupCipher GroupFits
  by_cases h1 : type = 1
  · simp [h1]
  by_cases h5 : type = 5
  · simp [h5]
  by_cases h2 : type = 2
  · simp [h2]
  by_cases h4 : type = 4
  · simp [h4]
  · simp only [h1, h5, h2, h4, if_false, false_or]

section

variable (b : Bss) (p : ℕ) (s : State)

theorem pairwise_eq (count : ℕ) : ∀ (pTmp : ℕ) (c : CipherSuite),
    pairwise b.varIEs count pTmp c = (ciphers b count pTmp).foldl CipherSuite.list c := by
  induction count with
  | zero => exact fun _ _ => rfl
  | succ count ih =>
    intro pTmp c
    have hcons : ciphers b (count + 1) pTmp = tmpCipher (b.varIEs (pTmp + 3)) :: ciphers b count (pTmp + 4) := by
      unfold ciphers
      rw [List.range_succ_eq_map, List.map_cons, List.map_map]
      refine congrArg (_ :: ·) (List.map_congr_left fun i _ => ?_)
      show tmpCipher (b.varIEs (pTmp + 4 * (i + 1) + 3)) = tmpCipher (b.varIEs (pTmp + 4 + 4 * i + 3))
      rw [show pTmp + 4 * (i + 1) + 3 = pTmp + 4 + 4 * i + 3 by omega]
    rw [pairwise, ih, hcons, List.foldl_cons]

theorem isSes_of_isWpa {b : Bss} {p : ℕ} (h : isWpa b p = true) : isSes b p = false := by
  have hwpa := of_decide_eq_true h
  refine decide_eq_false fun hses => ?_
  have hses := of_decide_eq_true hses.1
  have h1 := congrArg (fun l => mem l 1) hwpa
  have h2 := congrArg (fun l => mem l 1) hses
  simp only [mem_read (show 1 < 4 by omega), mem_read (show 1 < 3 by omega)] at h1 h2
  exact absurd (h1.symm.trans h2) (by decide)

/-- The WPA suites of the element at `p`, as they stand when the list is through. -/
def wpaStored : CipherSuite :=
  (ciphers b (b.count (p + 12)) (p + 14)).foldl CipherSuite.list
    { s.wpa with groupCipher := groupCipher (b.varIEs (p + 11)) s.wpa.groupCipher }

/-- The RSN suites of the element at `p`, as they stand when the list is through. -/
def rsnStored : CipherSuite :=
  (ciphers b (b.count (p + 8)) (p + 10)).foldl CipherSuite.list
    { s.wpa2 with groupCipher := groupCipher (b.varIEs (p + 7)) s.wpa2.groupCipher }

theorem wpaArm_wpa (h : isWpa b p = true) :
    (wpaArm b p s).wpa.groupCipher = (wpaStored b p s).groupCipher ∧
      (wpaArm b p s).wpa.pairCipher = (wpaStored b p s).pairCipher ∧
        (wpaArm b p s).wpa.pairCipherAux =
          if b.bssType = 0 ∧ (wpaStored b p s).pairCipherAux = .wepDisabled then (wpaStored b p s).groupCipher
          else (wpaStored b p s).pairCipherAux := by
  unfold wpaArm
  rw [isSes_of_isWpa h, h]
  simp only [Bool.false_eq_true, if_false, Bool.not_true, pairwise_eq]
  rw [← wpaStored]
  generalize wpaStored b p s = c
  by_cases hb : b.bssType = 0
  · by_cases haux : c.pairCipherAux = .wepDisabled
    · simp only [if_pos hb, if_pos haux, if_pos (And.intro hb haux)]
      split_ifs <;> exact ⟨rfl, rfl, rfl⟩
    · simp only [if_pos hb, if_neg haux, if_neg fun hc : b.bssType = 0 ∧ _ => haux hc.2]
      split_ifs <;> exact ⟨rfl, rfl, rfl⟩
  · simp only [if_neg hb, if_neg fun hc : b.bssType = 0 ∧ _ => hb hc.1]
    split_ifs <;> exact ⟨rfl, rfl, rfl⟩

theorem rsnArm_wpa2 (hv : isVersion1 b p = true) (h : isRsn b p = true) :
    (rsnArm b p s).wpa2.groupCipher = (rsnStored b p s).groupCipher ∧
      (rsnArm b p s).wpa2.pairCipher = (rsnStored b p s).pairCipher ∧
        (rsnArm b p s).wpa2.pairCipherAux = (rsnStored b p s).pairCipherAux := by
  unfold rsnArm
  rw [hv, h]
  simp only [Bool.false_eq_true, if_false, Bool.not_true, pairwise_eq]
  rw [← rsnStored]
  split_ifs <;> exact ⟨rfl, rfl, rfl⟩

theorem wpa_right_iff (h : WpaWhole b p) (hb : NoWep s.wpa.pairCipher) :
    SuitesRight (arm b p s).wpa (b.varIEs (p + 11)) (ciphers b (b.count (p + 12)) (p + 14)) ↔
      GroupFits s.wpa.groupCipher (b.varIEs (p + 11)) ∧
        PairFits s.wpa.pairCipher (ciphers b (b.count (p + 12)) (p + 14)) ∧
          WpaAuxFits b s.wpa (b.varIEs (p + 11)) (ciphers b (b.count (p + 12)) (p + 14)) := by
  have harm : arm b p s = wpaArm b p s := by rw [arm, if_pos h.eid]
  obtain ⟨hgroup, hpair, haux⟩ := wpaArm_wpa b p s h.oui
  have hcs := listed_ciphers b (b.count (p + 12)) (p + 14)
  have hstored : (wpaStored b p s).groupCipher = groupCipher (b.varIEs (p + 11)) s.wpa.groupCipher :=
    foldl_list_groupCipher _ _
  have hg : (arm b p s).wpa.groupCipher = groupCipher (b.varIEs (p + 11)) .wepDisabled ↔
      GroupFits s.wpa.groupCipher (b.varIEs (p + 11)) := by
    rw [harm, hgroup, hstored]
    exact groupCipher_eq_iff
  have hp : (arm b p s).wpa.pairCipher = strongest (ciphers b (b.count (p + 12)) (p + 14)) ↔
      PairFits s.wpa.pairCipher (ciphers b (b.count (p + 12)) (p + 14)) := by
    rw [harm, hpair, wpaStored, foldl_list_pairCipher]
    exact foldl_stronger_eq_iff hcs hb
  have ha (hfits : GroupFits s.wpa.groupCipher (b.varIEs (p + 11))) :
      (arm b p s).wpa.pairCipherAux = second (ciphers b (b.count (p + 12)) (p + 14)) ↔
        WpaAuxFits b s.wpa (b.varIEs (p + 11)) (ciphers b (b.count (p + 12)) (p + 14)) := by
    have hnone : (wpaStored b p s).pairCipherAux = .wepDisabled ↔
        LeavesNone s.wpa.pairCipher s.wpa.pairCipherAux (ciphers b (b.count (p + 12)) (p + 14)) :=
      foldl_list_aux_eq_none_iff hcs hb
    rw [harm, haux, hstored, groupCipher_eq_iff.2 hfits]
    simp only [hnone, WpaAuxFits]
    split_ifs
    · exact Iff.rfl
    · exact foldl_list_aux_eq_iff hcs hb
  constructor
  · rintro ⟨h1, h2, h3⟩
    exact ⟨hg.1 h1, hp.1 h2, (ha (hg.1 h1)).1 h3⟩
  · rintro ⟨h1, h2, h3⟩
    exact ⟨hg.2 h1, hp.2 h2, (ha h1).2 h3⟩

theorem rsn_right_iff (h : RsnWhole b p) (hb : NoWep s.wpa2.pairCipher) :
    SuitesRight (arm b p s).wpa2 (b.varIEs (p + 7)) (ciphers b (b.count (p + 8)) (p + 10)) ↔
      GroupFits s.wpa2.groupCipher (b.varIEs (p + 7)) ∧
        PairFits s.wpa2.pairCipher (ciphers b (b.count (p + 8)) (p + 10)) ∧
          AuxFits s.wpa2.pairCipher s.wpa2.pairCipherAux (ciphers b (b.count (p + 8)) (p + 10)) := by
  have harm : arm b p s = rsnArm b p s := by rw [arm, h.eid, if_neg (by decide), if_pos rfl]
  obtain ⟨hgroup, hpair, haux⟩ := rsnArm_wpa2 b p s h.version h.group
  have hcs := listed_ciphers b (b.count (p + 8)) (p + 10)
  have hg : (arm b p s).wpa2.groupCipher = groupCipher (b.varIEs (p + 7)) .wepDisabled ↔
      GroupFits s.wpa2.groupCipher (b.varIEs (p + 7)) := by
    rw [harm, hgroup, rsnStored, foldl_list_groupCipher]
    exact groupCipher_eq_iff
  have hp : (arm b p s).wpa2.pairCipher = strongest (ciphers b (b.count (p + 8)) (p + 10)) ↔
      PairFits s.wpa2.pairCipher (ciphers b (b.count (p + 8)) (p + 10)) := by
    rw [harm, hpair, rsnStored, foldl_list_pairCipher]
    exact foldl_stronger_eq_iff hcs hb
  have ha : (arm b p s).wpa2.pairCipherAux = second (ciphers b (b.count (p + 8)) (p + 10)) ↔
      AuxFits s.wpa2.pairCipher s.wpa2.pairCipherAux (ciphers b (b.count (p + 8)) (p + 10)) := by
    rw [harm, haux, rsnStored]
    exact foldl_list_aux_eq_iff hcs hb
  constructor
  · rintro ⟨h1, h2, h3⟩
    exact ⟨hg.1 h1, hp.1 h2, ha.1 h3⟩
  · rintro ⟨h1, h2, h3⟩
    exact ⟨hg.2 h1, hp.2 h2, ha.2 h3⟩

/-! ### The modes -/

/-- The two modes are the first and the last of those taken up. -/
structure Holds (taken : List AuthMode) (s : State) : Prop where
  authMode : s.authMode = taken.head?.getD .modeOpen
  authModeAux : s.authModeAux = if 2 ≤ taken.length then taken.getLast?.getD .modeOpen else .modeOpen
  mode : ∀ mode ∈ taken, mode ≠ .modeOpen

theorem akms_eq (m : ℕ → Byte) (count : ℕ) : ∀ (pTmp : ℕ) (s : State),
    akms m count pTmp s =
      ((akmModes m count pTmp).foldl State.addMode s, pTmp + 4 * (akmModes m count pTmp).length) := by
  induction count with
  | zero => exact fun _ _ => rfl
  | succ count ih =>
    intro pTmp s
    rw [akms, akmModes]
    split_ifs with houi
    · rw [ih, List.foldl_cons, List.length_cons]
      exact congrArg (Prod.mk _) (by omega)
    · rfl

theorem rsnMode_ne (type : Byte) : rsnMode type ≠ .modeOpen := by
  unfold rsnMode
  split_ifs <;> nofun

theorem akmModes_ne (m : ℕ → Byte) (count : ℕ) : ∀ pTmp, ∀ mode ∈ akmModes m count pTmp, mode ≠ .modeOpen := by
  induction count with
  | zero => exact fun _ => List.forall_mem_nil _
  | succ count ih =>
    intro pTmp
    rw [akmModes]
    split_ifs
    · exact List.forall_mem_cons.2 ⟨rsnMode_ne _, ih _⟩
    · exact List.forall_mem_nil _

namespace Holds

variable {b : Bss} {p : ℕ} {s : State} {taken : List AuthMode}

theorem addMode (h : Holds taken s) {mode : AuthMode} (hm : mode ≠ .modeOpen) :
    Holds (taken ++ [mode]) (s.addMode mode) := by
  have hmode : ∀ x ∈ taken ++ [mode], x ≠ .modeOpen :=
    List.forall_mem_append.2 ⟨h.mode, List.forall_mem_singleton.2 hm⟩
  unfold State.addMode
  cases taken with
  | nil =>
    rw [if_pos (show s.authMode = .modeOpen from h.authMode)]
    exact ⟨rfl, h.authModeAux, hmode⟩
  | cons x xs =>
    have hfirst : s.authMode = x := h.authMode
    rw [if_neg (hfirst ▸ h.mode x List.mem_cons_self)]
    refine ⟨hfirst, ?_, hmode⟩
    rw [if_pos (by simp), List.getLast?_concat]
    rfl

theorem foldl_addMode {modes : List AuthMode} : ∀ {taken : List AuthMode} {s : State}, Holds taken s →
    (∀ mode ∈ modes, mode ≠ .modeOpen) → Holds (taken ++ modes) (modes.foldl State.addMode s) := by
  induction modes with
  | nil =>
    intro taken s h _
    rw [List.append_nil]
    exact h
  | cons mode modes ih =>
    intro taken s h hm
    obtain ⟨hmode, hmodes⟩ := List.forall_mem_cons.1 hm
    have hnext := ih (h.addMode hmode) hmodes
    rw [List.append_assoc] at hnext
    exact hnext

theorem congr (h : Holds taken s) {s' : State} (h1 : s'.authMode = s.authMode) (h2 : s'.authModeAux = s.authModeAux) :
    Holds taken s' := ⟨h1.trans h.authMode, h2.trans h.authModeAux, h.mode⟩

theorem wpaArm (h : Holds taken s) :
    Holds (if isSes b p ∨ isWpa b p = false then taken
      else if b.bssType = 0 then [.modeWpaNone, .modeWpaNone]
      else taken ++ (wpaMode (b.varIEs (wpaAkm b p + 5))).toList) (wpaArm b p s) := by
  unfold Cipher.wpaArm
  cases hses : isSes b p with
  | true =>
    rw [if_pos (Or.inl rfl), if_pos rfl]
    exact h.congr rfl rfl
  | false =>
    cases hwpa : isWpa b p with
    | false =>
      rw [if_pos (Or.inr rfl)]
      exact h
    | true =>
      rw [if_neg (by decide)]
      simp only [Bool.false_eq_true, if_false, Bool.not_true]
      by_cases hb : b.bssType = 0
      · simp only [if_pos hb]
        split_ifs <;> exact ⟨rfl, rfl, by decide⟩
      · simp only [if_neg hb]
        have hnone : Holds (taken ++ (none : Option AuthMode).toList) s := by
          rw [Option.toList_none, List.append_nil]
          exact h
        have hpsk : Holds (taken ++ [.modeWpaPsk]) (s.addMode .modeWpaPsk) := h.addMode nofun
        have hwpa : Holds (taken ++ [.modeWpa]) (s.addMode .modeWpa) := h.addMode nofun
        unfold wpaMode
        split_ifs
        all_goals first | exact hpsk.congr rfl rfl | exact hwpa.congr rfl rfl | exact hnone.congr rfl rfl

theorem rsnArm (h : Holds taken s) :
    Holds (if isVersion1 b p ∧ isRsn b p then taken ++ rsnModes b p else taken) (rsnArm b p s) := by
  unfold Cipher.rsnArm
  cases isVersion1 b p with
  | false =>
    rw [if_neg fun hc => absurd hc.1 nofun]
    exact h
  | true =>
    cases isRsn b p with
    | false =>
      rw [if_neg fun hc => absurd hc.2 nofun]
      exact h
    | true =>
      rw [if_pos ⟨rfl, rfl⟩]
      simp only [Bool.false_eq_true, if_false, Bool.not_true, akms_eq]
      have hmodes := h.foldl_addMode (akmModes_ne b.varIEs (b.count (rsnAkm b p)) (rsnAkm b p + 2))
      split_ifs <;> exact hmodes.congr rfl rfl

theorem arm (h : Holds taken s) : Holds (takeModes b p taken) (arm b p s) := by
  unfold takeModes Cipher.arm
  by_cases hwpa : b.varIEs p = 221
  · rw [if_pos hwpa, if_pos hwpa]
    exact h.wpaArm
  by_cases hrsn : b.varIEs p = 48
  · rw [if_neg hwpa, if_neg hwpa, if_pos hrsn]
    simp only [hrsn, true_and]
    exact h.rsnArm
  · rw [if_neg hwpa, if_neg hwpa, if_neg hrsn, if_neg fun hc => hrsn hc.1]
    exact h

theorem mode_iff (h : Holds taken s) {mode : AuthMode} (hm : mode ≠ .modeOpen) :
    mode = s.authMode ∨ mode = s.authModeAux ↔ taken.head? = some mode ∨ taken.getLast? = some mode := by
  rw [h.authMode, h.authModeAux]
  rcases taken with - | ⟨x, - | ⟨y, xs⟩⟩
  · simp [hm]
  · simp [hm, eq_comm]
  · have hlast := List.getLast?_eq_some_getLast (List.cons_ne_nil y xs)
    rw [if_pos (by simp), List.getLast?_cons_cons, hlast]
    simp [eq_comm]

end Holds

/-! ### The loop -/

theorem addMode_suites (s : State) (mode : AuthMode) :
    (s.addMode mode).wpa = s.wpa ∧ (s.addMode mode).wpa2 = s.wpa2 := by
  unfold State.addMode
  split_ifs <;> exact ⟨rfl, rfl⟩

theorem foldl_addMode_suites (modes : List AuthMode) : ∀ s : State,
    (modes.foldl State.addMode s).wpa = s.wpa ∧ (modes.foldl State.addMode s).wpa2 = s.wpa2 := by
  induction modes with
  | nil => exact fun _ => ⟨rfl, rfl⟩
  | cons mode modes ih =>
    intro s
    obtain ⟨h1, h2⟩ := ih (s.addMode mode)
    obtain ⟨h3, h4⟩ := addMode_suites s mode
    exact ⟨h1.trans h3, h2.trans h4⟩

theorem wpaArm_wpa2 : (wpaArm b p s).wpa2 = s.wpa2 := by
  unfold wpaArm
  dsimp only
  cases wpaMode (b.varIEs (wpaAkm b p + 5)) with
  | none => split_ifs <;> rfl
  | some mode => split_ifs <;> first | rfl | exact (addMode_suites s mode).2

theorem rsnArm_wpa_pairCipher : (rsnArm b p s).wpa.pairCipher = s.wpa.pairCipher := by
  unfold rsnArm
  dsimp only
  rw [akms_eq]
  have hpair := congrArg CipherSuite.pairCipher
    (foldl_addMode_suites (akmModes b.varIEs (b.count (rsnAkm b p)) (rsnAkm b p + 2)) s).1
  dsimp only
  split_ifs <;> first | rfl | exact hpair

theorem noWep_arm (h : NoWep s.wpa.pairCipher ∧ NoWep s.wpa2.pairCipher) :
    NoWep (arm b p s).wpa.pairCipher ∧ NoWep (arm b p s).wpa2.pairCipher := by
  unfold arm
  split_ifs
  · rw [wpaArm_wpa2]
    refine ⟨?_, h.2⟩
    cases hwpa : isWpa b p with
    | false =>
      have hkeep : (wpaArm b p s).wpa = s.wpa := by
        unfold wpaArm
        rw [hwpa]
        simp only [Bool.not_false, if_true]
        split_ifs <;> rfl
      rw [hkeep]
      exact h.1
    | true =>
      rw [(wpaArm_wpa b p s hwpa).2.1, wpaStored, foldl_list_pairCipher]
      exact noWep_foldl_stronger (listed_ciphers _ _ _) h.1
  · rw [rsnArm_wpa_pairCipher]
    refine ⟨h.1, ?_⟩
    cases hv : isVersion1 b p with
    | false =>
      rw [rsnArm, hv]
      exact h.2
    | true =>
      cases hrsn : isRsn b p with
      | false =>
        rw [rsnArm, hv, hrsn]
        exact h.2
      | true =>
        rw [(rsnArm_wpa2 b p s hv hrsn).2.1, rsnStored, foldl_list_pairCipher]
        exact noWep_foldl_stronger (listed_ciphers _ _ _) h.2
  · exact h

theorem noWep_visits (turns : ℕ) : ∀ {p : ℕ} {s : State}, NoWep s.wpa.pairCipher ∧ NoWep s.wpa2.pairCipher →
    ∀ v ∈ visits b turns p s, NoWep v.2.wpa.pairCipher ∧ NoWep v.2.wpa2.pairCipher := by
  induction turns with
  | zero => exact fun _ => List.forall_mem_nil _
  | succ turns ih =>
    intro p s h
    rw [visits]
    split_ifs
    · exact List.forall_mem_cons.2 ⟨h, ih (noWep_arm b p s h)⟩
    · exact List.forall_mem_nil _

theorem holds_loop (turns : ℕ) : ∀ {p : ℕ} {s : State} {taken : List AuthMode}, Holds taken s →
    Holds ((visits b turns p s).foldl (fun t v => takeModes b v.1 t) taken) (loop b turns p s) := by
  induction turns with
  | zero => exact fun h => h
  | succ turns ih =>
    intro p s taken h
    rw [visits, loop]
    split_ifs
    · exact ih h.arm
    · exact h

theorem holds_parse : Holds (taken b) (bssCipherParse b) :=
  holds_loop b b.varIELen ⟨rfl, rfl, List.forall_mem_nil _⟩

end

end Mt7610u.Mlme.Cipher
