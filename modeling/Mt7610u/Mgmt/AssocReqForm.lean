import Mt7610u.Mgmt.AssocReq

/-! # Association requests are well formed

A request without security keeps the length of an earlier one; the elements of a supplicant are as long as they are;
two tests of the same fields differ; and `RTMPMakeRSNIE` may return before it clears the element that the PMKID is
appended to. -/

namespace Mt7610u.Mgmt.AssocReq

open Mt7610u.Lib Mt7610u.Lib.Elements Mt7610u.Wpa

/-! ### What a request is to be -/

/-- What the join leaves, with elements of the supplicant that are well formed. -/
structure Joined (pAd : Adapter) : Prop where
  ssidLen : pAd.mlmeAux.ssidLen.toNat ≤ 32
  supRateLen : pAd.mlmeAux.supRateLen.toNat ≤ 12
  extRateLen : pAd.mlmeAux.extRateLen.toNat ≤ 12
  htCapabilityLen : pAd.mlmeAux.htCapabilityLen = 0#8 ∨ pAd.mlmeAux.htCapabilityLen = 26#8
  wpaAssocIe : IsRow (wpaAssocIe pAd.staCfg)

/-- `ReqVarIEs` up to `ReqVarIELen`. -/
def StaCfg.kept (s : StaCfg) : List Byte := read s.reqVarIes s.reqVarIeLen.toNat

/-- A frame whose elements begin with `first` and end with `last` behind the fixed fields, and what was kept of it. -/
structure WellFormed (d : Done) (frame : List Byte) (fixed : ℕ) (first last : List Byte) : Prop where
  row : IsRow (frame.drop fixed)
  fits : frame.length ≤ mgmtDmaBufferSize
  sent : ∃ options, frame.drop fixed = first ++ options ++ last
  kept_row : IsRow d.pAd.staCfg.kept
  kept_sent : d.pAd.staCfg.kept = first ++ last
  kept_within : d.reqVarEnd ≤ maxVieLen ∧ d.pAd.staCfg.reqVarIeLen.toNat ≤ maxVieLen
  pmkid : d.pmkidEnd ≤ maxLenOfRsnIe

/-- `SSID` and rates, which both requests begin with. -/
def firstIes (a : MlmeAux) : List Byte := ssidIe a ++ supRateIe a

def AssocWellFormed (d : Done) : Prop :=
  ∀ frame, .miniportMMRequest frame ∈ d.effects →
    WellFormed d frame 28 (firstIes d.pAd.mlmeAux) (securityIe d.pAd.staCfg)

/-- The frames of a reassociation request, which has no security, are well formed. -/
def ReassocWellFormed (d : Done) : Prop :=
  ∀ frame, .miniportMMRequest frame ∈ d.effects → WellFormed d frame 34 (firstIes d.pAd.mlmeAux) []

/-! ### When it is -/

/-- The octets of `SSID` and rates. -/
def firstLen (a : MlmeAux) : ℕ := 4 + a.ssidLen.toNat + a.supRateLen.toNat

/-- What a supplicant supplies fits and comes without an element of the driver, and a request without security finds
the length that it needs. -/
def Keeps (a : MlmeAux) (s : StaCfg) : Prop :=
  if suppliesIes s then
    firstLen a + s.wpaAssocIeLen ≤ maxVieLen ∧ (hasRsn s.authMode → s.wpaSupplicantUP &&& 0x7f#8 = 1#8)
  else hasRsn s.authMode = false → s.reqVarIeLen.toNat = firstLen a

/-- Without a supplicant the element of an earlier request leaves room for a PMKID. -/
def InsideRsn (s : StaCfg) (lastBssid apAddr : Bytes 6) : Prop :=
  (pmkOf s lastBssid apAddr).isSome → s.wpaSupplicantUP = 0#8 → s.rsn.rsnIeLen.toNat + 18 ≤ maxLenOfRsnIe

def Refused (pAd : Adapter) (allocated : Bool) : Prop := pAd.staCfg.bBlockAssoc = true ∨ allocated = false

/-! ### The elements -/

theorem fieldIe_eq (eid len : Byte) (field : ℕ → Byte) :
    fieldIe eid len field = eid :: len :: read field len.toNat := by
  simp [fieldIe, makeOutgoingFrame]

theorem length_fieldIe (eid len : Byte) (field : ℕ → Byte) : (fieldIe eid len field).length = len.toNat + 2 := by
  simp [fieldIe_eq]

theorem isRow_fieldIe (eid len : Byte) (field : ℕ → Byte) : IsRow (fieldIe eid len field) := by
  rw [fieldIe_eq]
  exact isRow_read eid len field

theorem isRow_firstIes (a : MlmeAux) : IsRow (firstIes a) := (isRow_fieldIe _ _ _).append (isRow_fieldIe _ _ _)

theorem length_firstIes (a : MlmeAux) : (firstIes a).length = firstLen a := by
  unfold firstIes firstLen ssidIe supRateIe
  rw [List.length_append, length_fieldIe, length_fieldIe]
  omega

theorem isRow_extRateIe (a : MlmeAux) : IsRow (extRateIe a) := by
  unfold extRateIe
  split_ifs
  · exact isRow_fieldIe _ _ _
  · exact .nil

theorem length_vhtMcs (isMt76 : Bool) (streams : ℕ) : (vhtMcs isMt76 streams).length = 4 := by
  unfold vhtMcs
  split <;> rfl

theorem length_buildVhtCapIe (c : CommonCfg) : (buildVhtCapIe c).length = 12 := by
  simp [buildVhtCapIe, length_vhtMcs, ushortOctets]

theorem buildVhtIes_eq (c : CommonCfg) : buildVhtIes c = 191#8 :: 12#8 :: buildVhtCapIe c := by
  simp [buildVhtIes, makeOutgoingFrame]

theorem isRow_buildVhtIes (c : CommonCfg) : IsRow (buildVhtIes c) := by
  rw [buildVhtIes_eq]
  exact isRow_element _ _ (length_buildVhtCapIe c)

theorem length_buildVhtIes (c : CommonCfg) : (buildVhtIes c).length = 14 := by
  rw [buildVhtIes_eq, List.length_cons, List.length_cons, length_buildVhtCapIe]

theorem isRow_htIes {a : MlmeAux} (h : a.htCapabilityLen = 0#8 ∨ a.htCapabilityLen = 26#8) (c : CommonCfg) :
    IsRow (htIes a c) := by
  unfold htIes
  split
  case isTrue hht =>
    have hlen : a.htCapabilityLen = 26#8 := h.resolve_left fun h0 => by simp [h0] at hht
    refine IsRow.append ?_ ?_
    · split
      · exact isRow_element 221#8 30#8 (by simp [hlen])
      · exact isRow_fieldIe _ _ _
    · split
      · exact isRow_buildVhtIes c
      · exact .nil
  case isFalse => exact .nil

theorem length_htIes_le {a : MlmeAux} (h : a.htCapabilityLen = 0#8 ∨ a.htCapabilityLen = 26#8) (c : CommonCfg) :
    (htIes a c).length ≤ 46 := by
  unfold htIes
  split
  case isTrue hht =>
    have hlen : a.htCapabilityLen = 26#8 := h.resolve_left fun h0 => by simp [h0] at hht
    rw [List.length_append]
    refine Nat.add_le_add (b := 32) (d := 14) ?_ ?_
    · split
      · simp [makeOutgoingFrame, hlen]
      · rw [length_fieldIe, hlen]
        decide
    · split
      · exact (length_buildVhtIes c).le
      · exact Nat.zero_le _
  case isFalse => exact Nat.zero_le _

theorem isRow_extCapIe (c : CommonCfg) : IsRow (extCapIe c) := isRow_element 127#8 4#8 rfl

theorem isRow_ralinkIe (a : MlmeAux) (c : CommonCfg) (none : Byte) : IsRow (ralinkIe a c none) := by
  have hrow : ∀ x, IsRow (ralinkIeOf x) := fun x => isRow_element 221#8 7#8 rfl
  unfold ralinkIe
  split_ifs
  · exact hrow _
  · exact hrow _
  · exact .nil
  · exact hrow _

theorem length_ralinkIe_le (a : MlmeAux) (c : CommonCfg) (none : Byte) : (ralinkIe a c none).length ≤ 9 := by
  unfold ralinkIe
  split_ifs
  · exact le_rfl
  · exact le_rfl
  · exact Nat.zero_le _
  · exact le_rfl

theorem isRow_wmeIe (a : MlmeAux) (c : CommonCfg) (s : StaCfg) : IsRow (wmeIe a c s) := by
  unfold wmeIe
  split
  · exact isRow_element 221#8 7#8 rfl
  · exact .nil

theorem length_wmeIe_le (a : MlmeAux) (c : CommonCfg) (s : StaCfg) : (wmeIe a c s).length ≤ 9 := by
  unfold wmeIe
  split
  · exact le_rfl
  · exact Nat.zero_le _

theorem length_extRateIe_le {a : MlmeAux} (h : a.extRateLen.toNat ≤ 12) : (extRateIe a).length ≤ 14 := by
  unfold extRateIe
  split
  · rw [length_fieldIe]
    omega
  · exact Nat.zero_le _

section

variable {pAd : Adapter} (h : Joined pAd) (c : CommonCfg) (s : StaCfg)
include h

theorem isRow_assocOptions : IsRow (assocOptions pAd.mlmeAux c s) :=
  ((((isRow_extRateIe _).append (isRow_htIes h.htCapabilityLen c)).append (isRow_extCapIe c)).append
    (isRow_ralinkIe _ c _)).append (isRow_wmeIe _ c s)

theorem isRow_reassocOptions : IsRow (reassocOptions pAd.mlmeAux c s) :=
  (((isRow_extRateIe _).append (isRow_wmeIe _ c s)).append (isRow_htIes h.htCapabilityLen c)).append
    (isRow_ralinkIe _ c _)

theorem length_assocOptions_le : (assocOptions pAd.mlmeAux c s).length ≤ 84 := by
  have hext := length_extRateIe_le h.extRateLen
  have hht := length_htIes_le h.htCapabilityLen c
  have hcap : (extCapIe c).length = 6 := rfl
  have hralink := length_ralinkIe_le pAd.mlmeAux c 6#8
  have hwme := length_wmeIe_le pAd.mlmeAux c s
  simp only [assocOptions, List.length_append]
  omega

theorem length_reassocOptions_le : (reassocOptions pAd.mlmeAux c s).length ≤ 78 := by
  have hext := length_extRateIe_le h.extRateLen
  have hht := length_htIes_le h.htCapabilityLen c
  have hralink := length_ralinkIe_le pAd.mlmeAux c 4#8
  have hwme := length_wmeIe_le pAd.mlmeAux c s
  simp only [reassocOptions, List.length_append]
  omega

theorem firstLen_le : firstLen pAd.mlmeAux ≤ 48 := by
  have h1 := h.ssidLen
  have h2 := h.supRateLen
  unfold firstLen
  omega

end

theorem length_rsnElement_le (s : StaCfg) : (rsnElement s).length ≤ 257 := by
  have hlen := s.rsn.rsnIeLen.isLt
  rw [rsnElement, length_fieldIe]
  omega

theorem length_wpaAssocIe (s : StaCfg) : (wpaAssocIe s).length = s.wpaAssocIeLen := length_read _ _

theorem securityIe_of_supplies {s : StaCfg} (h : suppliesIes s = true) : securityIe s = wpaAssocIe s := by
  simp [securityIe, h]

theorem securityIe_of_hasRsn {s : StaCfg} (h : suppliesIes s = false) (hrsn : hasRsn s.authMode = true) :
    securityIe s = rsnElement s := by
  simp [securityIe, h, hrsn]

theorem securityIe_of_none {s : StaCfg} (h : suppliesIes s = false) (hrsn : hasRsn s.authMode = false) :
    securityIe s = [] := by
  simp [securityIe, h, hrsn]

theorem isRow_securityIe {s : StaCfg} (h : IsRow (wpaAssocIe s)) : IsRow (securityIe s) := by
  cases hs : suppliesIes s with
  | true => rwa [securityIe_of_supplies hs]
  | false =>
    cases hrsn : hasRsn s.authMode with
    | true =>
      rw [securityIe_of_hasRsn hs hrsn]
      exact isRow_fieldIe _ _ _
    | false =>
      rw [securityIe_of_none hs hrsn]
      exact .nil

/-! ### What is kept -/

/-- The octets from the beginning to the offset are `bs`, and nothing was written behind the buffer. -/
structure VarIes.Has (v : VarIes) (bs : List Byte) : Prop where
  offset : v.offset = bs.length
  holds : Holds v.ies bs
  reach : v.reach = maxVieLen

theorem VarIes.has_cleared (reqVarIes : ℕ → Byte) : (VarIes.cleared reqVarIes).Has [] := ⟨rfl, rfl, rfl⟩

theorem VarIes.Has.append {v : VarIes} {xs : List Byte} (h : v.Has xs) (bs : List Byte)
    (hlen : xs.length + bs.length ≤ maxVieLen) : (v.append bs).Has (xs ++ bs) := by
  have hsmall : xs.length + bs.length ≤ 1024 := hlen
  refine ⟨?_, ?_, ?_⟩
  · show (v.offset + bs.length) % 2 ^ 16 = (xs ++ bs).length
    rw [h.offset, List.length_append]
    exact Nat.mod_eq_of_lt (by omega)
  · have hread := read_copy_append v.ies v.offset bs
    have hold : read v.ies xs.length = xs := h.holds
    rw [h.offset, hold] at hread
    show read (copy v.ies v.offset bs) (xs ++ bs).length = xs ++ bs
    rw [h.offset, List.length_append]
    exact hread
  · show max v.reach (v.offset + bs.length) = maxVieLen
    rw [h.reach, h.offset]
    exact max_eq_left hlen

theorem VarIes.Has.lt_reach {v : VarIes} {xs : List Byte} (h : v.Has xs) {bs : List Byte}
    (hlen : maxVieLen < xs.length + bs.length) : maxVieLen < (v.append bs).reach := by
  show maxVieLen < max v.reach (v.offset + bs.length)
  rw [h.offset]
  exact lt_max_of_lt_right hlen

theorem VarIes.Has.appendField {v : VarIes} {xs : List Byte} (h : v.Has xs) (eid len : Byte) (field : ℕ → Byte)
    (hlen : xs.length + (len.toNat + 2) ≤ maxVieLen) :
    (v.appendField eid len field).Has (xs ++ fieldIe eid len field) := by
  have h1 := h.append [eid] (by rw [List.length_singleton]; omega)
  have h2 := h1.append [len] (by simp only [List.length_append, List.length_singleton]; omega)
  have h3 := h2.append (read field len.toNat)
    (by simp only [List.length_append, List.length_singleton, length_read]; omega)
  rw [fieldIe_eq]
  simpa [VarIes.appendField] using h3

theorem VarIes.has_begun {a : MlmeAux} (h : firstLen a ≤ maxVieLen) (reqVarIes : ℕ → Byte) :
    (VarIes.begun a reqVarIes).Has (firstIes a) := by
  unfold firstLen at h
  have h1 := (VarIes.has_cleared reqVarIes).appendField 0#8 a.ssidLen a.ssid
    (by rw [List.length_nil]; omega)
  rw [List.nil_append] at h1
  exact h1.appendField 1#8 a.supRateLen a.supRate (by rw [length_fieldIe]; omega)

theorem VarIes.Has.store {v : VarIes} {bs : List Byte} (h : v.Has bs) (hlen : bs.length ≤ maxVieLen) :
    v.store.reqVarIeLen.toNat = bs.length ∧ read v.store.varIes.ies v.store.reqVarIeLen.toNat = bs := by
  have hsmall : bs.length ≤ 1024 := hlen
  have hoffset : v.store.reqVarIeLen.toNat = bs.length := by
    show (BitVec.ofNat 16 v.offset).toNat = bs.length
    rw [BitVec.toNat_ofNat, h.offset]
    exact Nat.mod_eq_of_lt (by omega)
  exact ⟨hoffset, by rw [hoffset]; exact h.holds⟩

def Kept.Good (k : Kept) (bs : List Byte) : Prop :=
  read k.varIes.ies k.reqVarIeLen.toNat = bs ∧ k.varIes.reach ≤ maxVieLen ∧ k.reqVarIeLen.toNat ≤ maxVieLen

theorem VarIes.Has.good {v : VarIes} {bs : List Byte} (h : v.Has bs) (hlen : bs.length ≤ maxVieLen) :
    v.store.Good bs :=
  ⟨(h.store hlen).2, h.reach.le, (h.store hlen).1.trans_le hlen⟩

theorem VarIes.Has.good_append_iff {v : VarIes} {xs : List Byte} (h : v.Has xs) {bs zs : List Byte} :
    (v.append bs).store.Good zs ↔ xs.length + bs.length ≤ maxVieLen ∧ xs ++ bs = zs := by
  constructor
  · rintro ⟨hread, hreach, -⟩
    have hlen : xs.length + bs.length ≤ maxVieLen := by
      by_contra hlt
      exact absurd hreach (h.lt_reach (not_le.1 hlt)).not_ge
    exact ⟨hlen, ((h.append bs hlen).store (List.length_append.trans_le hlen)).2.symm.trans hread⟩
  · rintro ⟨hlen, rfl⟩
    exact (h.append bs hlen).good (List.length_append.trans_le hlen)

theorem keepsRsn_of_not_supplies {s : StaCfg} (hs : suppliesIes s = false) : keepsRsn s = true := by
  simp only [suppliesIes, decide_eq_false_iff_not, not_and, Bool.not_eq_true] at hs
  simp only [keepsRsn, decide_eq_true_eq]
  by_cases hup : s.wpaSupplicantUP &&& 0x7f#8 = 1#8
  · -- the enabling bit is among the seven bits of the other test
    have hbit : s.wpaSupplicantUP &&& 1#8 = s.wpaSupplicantUP &&& 0x7f#8 &&& 1#8 := by
      rw [BitVec.and_assoc]
      rfl
    exact Or.inr (hs (by rw [hbit, hup]; decide))
  · exact Or.inl hup

theorem keepsRsn_iff_of_supplies {s : StaCfg} (hs : suppliesIes s = true) :
    keepsRsn s = true ↔ s.wpaSupplicantUP &&& 0x7f#8 ≠ 1#8 := by
  simp only [suppliesIes, decide_eq_true_eq] at hs
  simp [keepsRsn, hs.2]

theorem has_keepRsn {a : MlmeAux} (h : firstLen a ≤ 48) (s : StaCfg) :
    ((VarIes.begun a s.reqVarIes).appendField (rsnEid s.authMode) s.rsn.rsnIeLen s.rsn.rsnIe).Has
      (firstIes a ++ rsnElement s) := by
  have hlen := s.rsn.rsnIeLen.isLt
  refine (VarIes.has_begun (h.trans (by decide)) s.reqVarIes).appendField _ _ _ ?_
  rw [length_firstIes]
  show _ ≤ 1024
  omega

theorem keep_iff {a : MlmeAux} (h : firstLen a ≤ 48) (s : StaCfg) :
    (keep a s).Good (firstIes a ++ securityIe s) ↔ Keeps a s := by
  have hbegun := VarIes.has_begun (h.trans (by decide)) s.reqVarIes
  have hrsn := has_keepRsn h s
  cases hs : suppliesIes s with
  | true =>
    rw [securityIe_of_supplies hs, Keeps, if_pos hs, keep, keepWpaAssocIe, if_pos hs, keepRsn]
    split
    case isTrue hboth =>
      -- the element of the driver was kept, but it was not sent
      have hup := (keepsRsn_iff_of_supplies hs).1 hboth.2
      refine iff_of_false (fun hgood => ?_) fun hkeeps => hup (hkeeps.2 hboth.1)
      have heq := congrArg List.length (hrsn.good_append_iff.1 hgood).2
      have hlen : (rsnElement s).length = s.rsn.rsnIeLen.toNat + 2 := length_fieldIe _ _ _
      simp only [List.length_append] at heq
      omega
    case isFalse hboth =>
      rw [hbegun.good_append_iff, length_firstIes, length_wpaAssocIe]
      refine and_congr_right fun _ => iff_of_true rfl fun hmode => ?_
      by_contra hup
      exact hboth ⟨hmode, (keepsRsn_iff_of_supplies hs).2 hup⟩
  | false =>
    rw [Keeps, if_neg (by simp [hs]), keep, keepWpaAssocIe, if_neg (by simp [hs]), keepRsn]
    cases hmode : hasRsn s.authMode with
    | true =>
      rw [securityIe_of_hasRsn hs hmode, if_pos ⟨rfl, keepsRsn_of_not_supplies hs⟩]
      refine iff_of_true (hrsn.good ?_) fun hfalse => absurd hfalse (by decide)
      have hlen := length_rsnElement_le s
      rw [List.length_append, length_firstIes]
      show _ ≤ 1024
      omega
    | false =>
      -- nothing is stored: the length is that of an earlier request
      rw [securityIe_of_none hs hmode, List.append_nil, if_neg (by simp)]
      constructor
      · rintro ⟨hread, -⟩ -
        have hlen := congrArg List.length hread
        rwa [length_read, length_firstIes] at hlen
      · intro hlen
        have hold := (hlen rfl).trans (length_firstIes a).symm
        refine ⟨?_, hbegun.reach.le, ?_⟩
        · show read _ s.reqVarIeLen.toNat = _
          rw [hold]
          exact hbegun.holds
        · show s.reqVarIeLen.toNat ≤ 1024
          rw [hold, length_firstIes]
          omega

/-- **When the PMKID stays inside `RSN_IE`.** An element that was made leaves room for it. -/
theorem pmkidEnd_iff (s : StaCfg) (lastBssid apAddr : Bytes 6) :
    pmkidEnd s lastBssid apAddr ≤ maxLenOfRsnIe ↔ InsideRsn s lastBssid apAddr := by
  unfold pmkidEnd InsideRsn
  cases hp : pmkOf s lastBssid apAddr with
  | none => simp
  | some p =>
    have hmode : s.bRsnIeFromWpaSupplicant = false ∧ s.authMode = .wpa2 := by
      by_contra hno
      rw [pmkOf, if_neg hno] at hp
      cases hp
    have hmade : madeRsn s = rtmpMakeRsnIe s.rsnCfg s.authMode s.wepStatus s.rsn :=
      if_pos ⟨by rw [hmode.2]; rfl, hmode.1⟩
    by_cases hup : s.wpaSupplicantUP = 0#8
    · have hself : makesNoRsnIe s.rsnCfg.wpaSupplicantUP s.authMode = true := by
        rw [hmode.2]
        show makesNoRsnIe s.wpaSupplicantUP .wpa2 = true
        rw [hup]
        rfl
      simp [hmade, rtmpMakeRsnIe_eq_self hself, hup]
    · have hmakes : makesNoRsnIe s.rsnCfg.wpaSupplicantUP s.authMode = false := by
        rw [hmode.2]
        exact if_pos hup
      have hlen := rsnIeLen_rtmpMakeRsnIe_le hmakes s.wepStatus s.rsn
      rw [hmade]
      refine iff_of_true ?_ fun _ h0 => absurd h0 hup
      show _ + 18 ≤ 255
      omega

/-! ### The requests -/

theorem length_assocFixed (pAd : Adapter) (r : AssocReqStruct) : (assocFixed pAd r).length = 28 := by
  simp [assocFixed, makeOutgoingFrame, mgtMacHeader, ushort, ushortOctets]

theorem length_reassocFixed (pAd : Adapter) (r : AssocReqStruct) : (reassocFixed pAd r).length = 34 := by
  simp [reassocFixed, makeOutgoingFrame, mgtMacHeader, ushort, ushortOctets]

theorem isRow_drop {fixed first options last : List Byte} {n : ℕ} (hn : fixed.length = n) (hfirst : IsRow first)
    (hoptions : IsRow options) (hlast : IsRow last) :
    IsRow ((fixed ++ first ++ options ++ last).drop n) ∧
      (fixed ++ first ++ options ++ last).drop n = first ++ options ++ last := by
  have hdrop : (fixed ++ first ++ options ++ last).drop n = first ++ options ++ last := by
    rw [← hn, List.append_assoc, List.append_assoc, List.drop_left, List.append_assoc]
  exact ⟨hdrop ▸ (hfirst.append hoptions).append hlast, hdrop⟩

theorem length_securityIe_le {a : MlmeAux} {s : StaCfg} (h : Keeps a s) : (securityIe s).length ≤ 1024 := by
  cases hs : suppliesIes s with
  | true =>
    rw [Keeps, if_pos hs] at h
    have hlen : firstLen a + s.wpaAssocIeLen ≤ 1024 := h.1
    rw [securityIe_of_supplies hs, length_wpaAssocIe]
    omega
  | false =>
    cases hmode : hasRsn s.authMode with
    | true =>
      rw [securityIe_of_hasRsn hs hmode]
      exact (length_rsnElement_le s).trans (by decide)
    | false =>
      rw [securityIe_of_none hs hmode]
      exact Nat.zero_le _

theorem not_mem_refuse {pAd : Adapter} {before : List Effect} {status : Status} {frame : List Byte}
    (h : ∀ f, .miniportMMRequest f ∉ before) : .miniportMMRequest frame ∉ (refuse pAd before status).effects := by
  simp [refuse, h]

theorem mem_sendAssocReq {pAd : Adapter} {r : AssocReqStruct} {frame : List Byte} :
    .miniportMMRequest frame ∈ (sendAssocReq pAd r).effects ↔ frame = assocFrame pAd r := by
  simp [sendAssocReq]

theorem mem_sendReassocReq {pAd : Adapter} {r : AssocReqStruct} {frame : List Byte} :
    .miniportMMRequest frame ∈ (sendReassocReq pAd r).effects ↔ frame = reassocFrame pAd r := by
  simp [sendReassocReq]

section

variable {pAd : Adapter} (h : Joined pAd) (r : AssocReqStruct)
include h

theorem assocWellFormed_send_iff : AssocWellFormed (sendAssocReq pAd r) ↔
    Keeps pAd.mlmeAux pAd.staCfg ∧ InsideRsn pAd.staCfg pAd.commonCfg.lastBssid r.addr := by
  have hkeep := keep_iff (a := reqMlmeAux pAd r) (firstLen_le h) (assocStaCfg pAd r)
  have hpmkid := pmkidEnd_iff pAd.staCfg pAd.commonCfg.lastBssid r.addr
  have hsecurity : IsRow (securityIe (assocStaCfg pAd r)) := isRow_securityIe (s := assocStaCfg pAd r) h.wpaAssocIe
  obtain ⟨hrow, hdrop⟩ := isRow_drop (length_assocFixed pAd r) (isRow_firstIes (reqMlmeAux pAd r))
    (isRow_assocOptions h pAd.commonCfg (assocStaCfg pAd r)) hsecurity
  constructor
  · intro hwell
    have hframe := hwell _ (mem_sendAssocReq.2 rfl)
    exact ⟨hkeep.1 ⟨hframe.kept_sent, hframe.kept_within⟩, hpmkid.1 hframe.pmkid⟩
  · rintro ⟨hkeeps, hinside⟩ frame hmem
    rw [mem_sendAssocReq] at hmem
    subst hmem
    obtain ⟨hsent, hwithin⟩ := hkeep.2 hkeeps
    refine ⟨hrow, ?_, ⟨_, hdrop⟩, ?_, hsent, hwithin, hpmkid.2 hinside⟩
    · have hfixed := length_assocFixed pAd r
      have hfirst := length_firstIes (reqMlmeAux pAd r)
      have hfirstLen : firstLen (reqMlmeAux pAd r) ≤ 48 := firstLen_le h
      have hoptions : (assocOptions (reqMlmeAux pAd r) pAd.commonCfg (assocStaCfg pAd r)).length ≤ 84 :=
        length_assocOptions_le h pAd.commonCfg (assocStaCfg pAd r)
      have hlast := length_securityIe_le (a := reqMlmeAux pAd r) (s := assocStaCfg pAd r) hkeeps
      show (assocFixed pAd r ++ firstIes (reqMlmeAux pAd r) ++ assocOptions (reqMlmeAux pAd r) pAd.commonCfg
        (assocStaCfg pAd r) ++ securityIe (assocStaCfg pAd r)).length ≤ 1600
      simp only [List.length_append]
      omega
    · have hboth := (isRow_firstIes (reqMlmeAux pAd r)).append hsecurity
      rw [← hsent] at hboth
      exact hboth

theorem reassocWellFormed_send_iff : ReassocWellFormed (sendReassocReq pAd r) ↔
    pAd.staCfg.kept = firstIes pAd.mlmeAux := by
  have hfirst := length_firstIes (reqMlmeAux pAd r)
  have hfirstLen : firstLen (reqMlmeAux pAd r) ≤ 48 := firstLen_le h
  obtain ⟨hrow, hdrop⟩ := isRow_drop (length_reassocFixed pAd r) (isRow_firstIes (reqMlmeAux pAd r))
    (isRow_reassocOptions h pAd.commonCfg pAd.staCfg) .nil
  rw [List.append_nil] at hrow hdrop
  constructor
  · intro hwell
    have hsent := (hwell _ (mem_sendReassocReq.2 rfl)).kept_sent
    rwa [List.append_nil] at hsent
  · intro hkept frame hmem
    rw [mem_sendReassocReq] at hmem
    subst hmem
    have hlen : pAd.staCfg.reqVarIeLen.toNat = (firstIes (reqMlmeAux pAd r)).length := by
      have := congrArg List.length hkept
      rwa [StaCfg.kept, length_read] at this
    refine ⟨hrow, ?_, ⟨reassocOptions (reqMlmeAux pAd r) pAd.commonCfg pAd.staCfg, ?_⟩, ?_, ?_, ⟨Nat.zero_le _, ?_⟩,
      Nat.zero_le _⟩
    · have hfixed := length_reassocFixed pAd r
      have hoptions : (reassocOptions (reqMlmeAux pAd r) pAd.commonCfg pAd.staCfg).length ≤ 78 :=
        length_reassocOptions_le h pAd.commonCfg pAd.staCfg
      show (reassocFixed pAd r ++ firstIes (reqMlmeAux pAd r) ++ reassocOptions (reqMlmeAux pAd r) pAd.commonCfg
        pAd.staCfg).length ≤ 1600
      simp only [List.length_append]
      omega
    · exact hdrop
    · show IsRow pAd.staCfg.kept
      rw [hkept]
      exact isRow_firstIes _
    · exact hkept.trans (List.append_nil _).symm
    · show pAd.staCfg.reqVarIeLen.toNat ≤ 1024
      omega

/-- **Exactly which requests are well formed.** Of those that are built, an association request must meet the conditions
on what it keeps and on the PMKID, and before a reassociation request exactly its first elements must have been kept. -/
theorem requests_iff (allocated : Bool) :
    (AssocWellFormed (mlmeAssocReqAction pAd r allocated) ↔
      Refused pAd allocated ∨ Keeps pAd.mlmeAux pAd.staCfg ∧ InsideRsn pAd.staCfg pAd.commonCfg.lastBssid r.addr) ∧
    (ReassocWellFormed (mlmeReassocReqAction pAd r allocated) ↔
      Refused pAd allocated ∨ pAd.staCfg.kept = firstIes pAd.mlmeAux) := by
  unfold mlmeAssocReqAction mlmeReassocReqAction Refused
  cases hblock : pAd.staCfg.bBlockAssoc with
  | true =>
    have hno : ∀ frame, .miniportMMRequest frame ∉ (refuse pAd [] .stateMachineReject).effects :=
      fun _ => not_mem_refuse (by simp)
    exact ⟨iff_of_true (fun frame hmem => absurd hmem (hno frame)) (Or.inl (Or.inl rfl)),
      iff_of_true (fun frame hmem => absurd hmem (hno frame)) (Or.inl (Or.inl rfl))⟩
  | false =>
    cases allocated with
    | false =>
      have hno : ∀ p frame, .miniportMMRequest frame ∉
          (refuse p [.removeAllKeys, .cancelTimer] .failNoResource).effects := fun _ _ => not_mem_refuse (by simp)
      exact ⟨iff_of_true (fun frame hmem => absurd hmem (hno _ frame)) (Or.inl (Or.inr rfl)),
        iff_of_true (fun frame hmem => absurd hmem (hno _ frame)) (Or.inl (Or.inr rfl))⟩
    | true =>
      simp only [Bool.false_eq_true, Bool.true_eq_false, or_self, false_or, if_false]
      exact ⟨assocWellFormed_send_iff h r, reassocWellFormed_send_iff h r⟩

end

/-- A station before its first request, of 4 octets of `SSID` and 8 rates, without security. -/
def openStation : Adapter where
  currentAddress := fun _ => 2#8
  mlmeAux :=
    { bssid := fun _ => 0#8, ssid := fun _ => 0x61#8, ssidLen := 4#8, supRate := fun _ => 0x82#8, supRateLen := 8#8
      extRate := fun _ => 0#8, extRateLen := 4#8, htCapability := fun _ => 0#8, htCapabilityLen := 26#8
      vhtCapLen := 0#8, channel := 6#8, apRalinkIe := 0#32, edcaValid := true, edcaApsdCapable := false
      bPreNHt := false }
  commonCfg :=
    { phyMode := 0x0e#8, channel := 6#8, bBssCoexEnable := true, bAggregationCapable := true
      bPiggyBackCapable := false, bApsdAcBe := false, bApsdAcBk := false, bApsdAcVi := false, bApsdAcVo := false
      maxSpLength := 0#8, lastBssid := fun _ => 0#8, vhtSgi80 := 0#8, vhtStbc := false, txStream := 1, rxStream := 1
      isMt76 := true }
  staCfg :=
    { bBlockAssoc := false, authMode := .openSystem, wepStatus := .wepDisabled, groupCipher := .wepDisabled
      bMixCipher := false, rsn := ⟨fun _ => 0#8, 0#8⟩, savedPmk := fun _ => ⟨fun _ => 0#8, fun _ => 0#8⟩
      bApsdCapable := false, wpaSupplicantUP := 0#8, bRsnIeFromWpaSupplicant := false, pWpaAssocIe := fun _ => 0#8
      wpaAssocIeLen := 0, requestFixedIes := ⟨0#16, 0#16⟩, reqVarIes := fun _ => 0#8, reqVarIeLen := 0#16 }
  currState := .assocIdle

def openRequest : AssocReqStruct := ⟨fun _ => 1#8, 0x0421#16, 5#16, 300⟩

theorem joined_openStation : Joined openStation := ⟨by decide, by decide, by decide, Or.inr rfl, IsRow.nil⟩

theorem requests_iff_openStation :
    Joined openStation ∧
      (AssocWellFormed (mlmeAssocReqAction openStation openRequest true) ↔
        Refused openStation true ∨ Keeps openStation.mlmeAux openStation.staCfg ∧
          InsideRsn openStation.staCfg openStation.commonCfg.lastBssid openRequest.addr) ∧
      (ReassocWellFormed (mlmeReassocReqAction openStation openRequest true) ↔
        Refused openStation true ∨ openStation.staCfg.kept = firstIes openStation.mlmeAux) :=
  ⟨joined_openStation, requests_iff joined_openStation openRequest true⟩

/-- The station's request is kept with a length of 0, though its first elements were sent. -/
theorem openStation_not_wellFormed :
    Joined openStation ∧ ¬ AssocWellFormed (mlmeAssocReqAction openStation openRequest true) := by
  refine ⟨joined_openStation, fun hwell => ?_⟩
  have hframe := hwell _ (mem_sendAssocReq.2 rfl)
  have hlen := congrArg List.length hframe.kept_sent
  revert hlen
  decide

end Mt7610u.Mgmt.AssocReq
