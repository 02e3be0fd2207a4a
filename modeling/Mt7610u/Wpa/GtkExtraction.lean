import Mathlib.Data.List.TakeWhile
import Mt7610u.Wpa.Effects

/-! # The group key in the key data (`RTMPParseEapolKeyData` of `common/cmm_wpa.c`)

The parser with what it touches: the octets of the key data that it reads, its two copies and its call of
`WPAInstallSharedKey`. It takes any message kind, whereas `PeerWpaMessageSanity` calls it for three of them only. -/

namespace Mt7610u.Wpa

open Lib Crypto

/-! ### The code -/

def maxLenGtk : ℕ := 32

/-- What the parser touches: an octet of the key data; the copy of `len` octets from `src` into `GTK`, where
`DefaultIdx` is `keyIdx` and the GTK KDE (for WPA the key data) goes from `lo` to `hi`; the copy into `StaCfg.GTK`;
`WPAInstallSharedKey`. -/
inductive Access
  | read (i : ℕ)
  | copy (keyIdx src len lo hi : ℕ)
  | store (len : ℕ)
  | install (keyIdx gtkLen : ℕ)
deriving DecidableEq, Repr

def eidLen (data : ℕ → Byte) (skip : ℕ) : ℕ := (data (skip + 1)).toNat

/-- `NdisEqualMemory(pKDE->OUI, OUI_WPA2, 3)` -/
def IsOuiWpa2 (data : ℕ → Byte) (skip : ℕ) : Prop :=
  data (skip + 2) = 0x00 ∧ data (skip + 3) = 0x0F ∧ data (skip + 4) = 0xAC

instance (data : ℕ → Byte) (skip : ℕ) : Decidable (IsOuiWpa2 data skip) := inferInstanceAs (Decidable (_ ∧ _ ∧ _))

/-- `DefaultIdx = pKdeGtk->Kid` -/
def kdeKid (data : ℕ → Byte) (skip : ℕ) : ℕ := (data (skip + 6)).toNat % 4

/-- `GTKLEN = pKDE->Len -6`, in eight bits. -/
def kdeGtkLen (data : ℕ → Byte) (skip : ℕ) : ℕ := (data (skip + 1) - 6).toNat

def elementReads (data : ℕ → Byte) (skip : ℕ) : List Access :=
  .read skip ::
    if data skip = 0xDD then
      .read (skip + 2) :: .read (skip + 3) :: .read (skip + 4) ::
        if IsOuiWpa2 data skip then
          .read (skip + 5) :: if data (skip + 5) = 1 then [.read (skip + 6)] else []
        else []
    else []

/-- What the loop over the elements touches, from `skip_offset` on. -/
def kdeTrace (data : ℕ → Byte) (keyDataLength skip : ℕ) : List Access :=
  .read (skip + 1) ::
    if skip + 2 + eidLen data skip ≤ keyDataLength then
      elementReads data skip ++
        if IsGtkKde data skip then
          if kdeGtkLen data skip < 5 then []
          else
            .copy (kdeKid data skip) (skip + 8) (kdeGtkLen data skip) skip (skip + 2 + eidLen data skip) ::
              kdeTrace data keyDataLength (skip + 2 + eidLen data skip)
        else kdeTrace data keyDataLength (skip + 2 + eidLen data skip)
    else []
termination_by keyDataLength - skip

/-- `RTMPParseEapolKeyData` for key data of `keyDataLen` octets and any message kind: what it touches, its result
and the station. -/
def parseEapolKeyData (data : ℕ → Byte) (keyDataLen groupKeyIndex : ℕ) (k : MsgType) (bWpa2 : Bool) (s : Sta) :
    List Access × Bool × Sta :=
  let keyDataLength := keyDataLen % 256
  if k = .pairMsg2 ∨ k = .pairMsg3 ∧ bWpa2 = false then ([], true, s)
  else
    let gtk : List Access × Option GroupKey :=
      if bWpa2 = true ∧ (k = .pairMsg3 ∨ k = .groupMsg1) then
        (kdeTrace data keyDataLength 0, kdeWalk data keyDataLength 0 ⟨0, 0, fun _ => 0⟩)
      else if bWpa2 = false ∧ k = .groupMsg1 then
        ([.copy groupKeyIndex 0 keyDataLength 0 keyDataLen],
          some ⟨groupKeyIndex, keyDataLength, overwrite (fun _ => 0) keyDataLength data⟩)
      else ([], some ⟨0, 0, fun _ => 0⟩)
    match gtk.2.filter fun g => g.defaultIdx ≤ 3 with
    | none => (gtk.1, false, s)
    | some g => (gtk.1 ++ [.store g.gtkLen, .install g.defaultIdx g.gtkLen], true, installGroupKey g s)

/-! ### The property -/

def gtkLength : WepStatus → Option ℕ
  | .groupWep40Enabled => some 5
  | .groupWep104Enabled => some 13
  | .encryption2Enabled => some 32
  | .encryption3Enabled => some 16
  | _ => none

def Access.Inside (keyDataLen : ℕ) : Access → Prop
  | .read i => i < keyDataLen
  | .copy _ src len lo hi => len ≤ maxLenGtk ∧ lo ≤ src ∧ src + len ≤ hi ∧ hi ≤ keyDataLen
  | .store len => len ≤ maxLenGtk
  | .install _ _ => True

instance (n : ℕ) (a : Access) : Decidable (a.Inside n) := by
  cases a <;> unfold Access.Inside <;> infer_instance

structure GtkSafe (keyDataLen : ℕ) (s : Sta) (r : List Access × Bool × Sta) : Prop where
  inside : ∀ a ∈ r.1, a.Inside keyDataLen
  installed : ∀ keyIdx len, .install keyIdx len ∈ r.1 →
    1 ≤ keyIdx ∧ keyIdx ≤ 3 ∧ gtkLength s.staCfg.groupCipher = some len ∧
      ∃ src lo hi, .copy keyIdx src len lo hi ∈ r.1
  unchanged : (∀ keyIdx len, .install keyIdx len ∉ r.1) →
    r.2.2.sharedKey = s.sharedKey ∧ r.2.2.staCfg.defaultKeyId = s.staCfg.defaultKeyId

/-! ### The elements of the key data -/

/-- The offsets of the complete elements, from `skip` on. -/
def elements (data : ℕ → Byte) (len skip : ℕ) : List ℕ :=
  if skip + 2 + eidLen data skip ≤ len then skip :: elements data len (skip + 2 + eidLen data skip) else []
termination_by len - skip

def elementsEnd (data : ℕ → Byte) (len skip : ℕ) : ℕ :=
  if skip + 2 + eidLen data skip ≤ len then elementsEnd data len (skip + 2 + eidLen data skip) else skip
termination_by len - skip

def ShortGtk (data : ℕ → Byte) (skip : ℕ) : Prop :=
  IsGtkKde data skip ∧ 6 ≤ eidLen data skip ∧ eidLen data skip ≤ 10

instance (data : ℕ → Byte) (skip : ℕ) : Decidable (ShortGtk data skip) := inferInstanceAs (Decidable (_ ∧ _ ∧ _))

def parsed (data : ℕ → Byte) (len skip : ℕ) : List ℕ := (elements data len skip).takeWhile fun e => ¬ShortGtk data e

def ElementFits (data : ℕ → Byte) (keyDataLen skip : ℕ) : Prop :=
  data skip = 0xDD → skip + 4 < keyDataLen ∧ (IsOuiWpa2 data skip → skip + 5 < keyDataLen ∧
    (data (skip + 5) = 1 → 11 ≤ eidLen data skip ∧ eidLen data skip ≤ 38))

def lastGtk (data : ℕ → Byte) (len skip : ℕ) : Option ℕ :=
  ((elements data len skip).filter fun e => IsGtkKde data e).getLast?

theorem parsed_eq {data : ℕ → Byte} {len skip : ℕ} (h : ¬∃ e ∈ elements data len skip, ShortGtk data e) :
    parsed data len skip = elements data len skip := by
  unfold parsed
  rw [List.takeWhile_eq_self_iff]
  exact fun e he => decide_eq_true fun hs => h ⟨e, he, hs⟩

theorem kdeGtkLen_eq (data : ℕ → Byte) (skip : ℕ) : kdeGtkLen data skip = (eidLen data skip + 250) % 256 := by
  unfold kdeGtkLen eidLen
  rw [BitVec.toNat_sub]
  have h6 : (6 : Byte).toNat = 6 := rfl
  omega

theorem eidLen_lt (data : ℕ → Byte) (skip : ℕ) : eidLen data skip < 256 := (data (skip + 1)).isLt

theorem kdeGtkLen_lt_iff (data : ℕ → Byte) (skip : ℕ) :
    kdeGtkLen data skip < 5 ↔ 6 ≤ eidLen data skip ∧ eidLen data skip ≤ 10 := by
  have := eidLen_lt data skip
  rw [kdeGtkLen_eq]
  omega

theorem kdeGtkLen_of_le {data : ℕ → Byte} {skip : ℕ} (h : 6 ≤ eidLen data skip) :
    kdeGtkLen data skip = eidLen data skip - 6 := by
  have := eidLen_lt data skip
  rw [kdeGtkLen_eq]
  omega

theorem isGtkKde_iff (data : ℕ → Byte) (skip : ℕ) :
    IsGtkKde data skip ↔ data skip = 0xDD ∧ IsOuiWpa2 data skip ∧ data (skip + 5) = 1 := by
  simp only [IsGtkKde, IsOuiWpa2, and_assoc]

theorem shortGtk_iff (data : ℕ → Byte) (skip : ℕ) :
    ShortGtk data skip ↔ IsGtkKde data skip ∧ kdeGtkLen data skip < 5 := by
  rw [kdeGtkLen_lt_iff, ShortGtk]

/-! ### The loop -/

theorem elementReads_inside_iff (data : ℕ → Byte) (n skip : ℕ) :
    (∀ a ∈ elementReads data skip, a.Inside n) ↔
      skip < n ∧ (data skip = 0xDD → skip + 4 < n ∧ (IsOuiWpa2 data skip → skip + 5 < n ∧
        (data (skip + 5) = 1 → skip + 6 < n))) := by
  have hread (i : ℕ) : (Access.read i).Inside n ↔ i < n := Iff.rfl
  have hnil : (∀ a ∈ ([] : List Access), a.Inside n) ↔ True := iff_true_intro (List.forall_mem_nil _)
  unfold elementReads
  by_cases hd : data skip = 0xDD
  · by_cases ho : IsOuiWpa2 data skip
    · by_cases ht : data (skip + 5) = 1
      · simp only [hd, ho, ht, if_true, List.forall_mem_cons, hread, hnil, true_implies, and_true]
        omega
      · simp only [hd, ho, ht, if_true, if_false, List.forall_mem_cons, hread, hnil, true_implies, false_implies,
          and_true]
        omega
    · simp only [hd, ho, if_true, if_false, List.forall_mem_cons, hread, hnil, true_implies, false_implies,
        and_true]
      omega
  · simp only [hd, if_false, List.forall_mem_cons, hread, hnil, false_implies]

theorem element_inside_iff {data : ℕ → Byte} {n skip : ℕ} (hlen : skip + 2 + eidLen data skip ≤ n)
    (hg : ¬IsGtkKde data skip) : (∀ a ∈ elementReads data skip, a.Inside n) ↔ ElementFits data n skip := by
  rw [elementReads_inside_iff, ElementFits]
  have hs : skip < n := by omega
  simp only [hs, true_and]
  refine imp_congr_right fun hd => and_congr_right fun _ => imp_congr_right fun ho => and_congr_right fun _ => ?_
  have ht : ¬data (skip + 5) = 1 := fun ht => hg ((isGtkKde_iff data skip).mpr ⟨hd, ho, ht⟩)
  simp only [ht, IsEmpty.forall_iff]

theorem gtk_inside_iff {data : ℕ → Byte} {n skip : ℕ} (hlen : skip + 2 + eidLen data skip ≤ n)
    (hg : IsGtkKde data skip) (hs : ¬kdeGtkLen data skip < 5) :
    ((∀ a ∈ elementReads data skip, a.Inside n) ∧
      (Access.copy (kdeKid data skip) (skip + 8) (kdeGtkLen data skip) skip (skip + 2 + eidLen data skip)).Inside n) ↔
      ElementFits data n skip := by
  obtain ⟨hd, ho, ht⟩ := (isGtkKde_iff data skip).mp hg
  have hlt := eidLen_lt data skip
  rw [kdeGtkLen_lt_iff] at hs
  rw [elementReads_inside_iff, ElementFits]
  simp only [hd, ho, ht, true_implies, Access.Inside, kdeGtkLen_eq, maxLenGtk]
  omega

theorem short_inside {data : ℕ → Byte} {n skip : ℕ} (hlen : skip + 2 + eidLen data skip ≤ n)
    (hs : ShortGtk data skip) : ∀ a ∈ elementReads data skip, a.Inside n := by
  obtain ⟨hg, hle, -⟩ := hs
  obtain ⟨hd, ho, ht⟩ := (isGtkKde_iff data skip).mp hg
  rw [elementReads_inside_iff]
  simp only [hd, ho, ht, true_implies]
  omega

theorem elements_cons {data : ℕ → Byte} {len skip : ℕ} (h : skip + 2 + eidLen data skip ≤ len) :
    elements data len skip = skip :: elements data len (skip + 2 + eidLen data skip) := by
  rw [elements, if_pos h]

theorem parsed_cons {data : ℕ → Byte} {len skip : ℕ} (h : skip + 2 + eidLen data skip ≤ len)
    (hs : ¬ShortGtk data skip) : parsed data len skip = skip :: parsed data len (skip + 2 + eidLen data skip) := by
  unfold parsed
  rw [elements_cons h, List.takeWhile_cons_of_pos (by simpa using hs)]

theorem parsed_short {data : ℕ → Byte} {len skip : ℕ} (h : skip + 2 + eidLen data skip ≤ len)
    (hs : ShortGtk data skip) : parsed data len skip = [] := by
  unfold parsed
  rw [elements_cons h, List.takeWhile_cons_of_neg (by simpa using hs)]

/-- **The loop stays inside** exactly if the elements fit, and it ends at a short key or finds the length field of
an element that is not complete. -/
theorem kdeTrace_inside_iff (data : ℕ → Byte) {n len : ℕ} (hn : len ≤ n) (skip : ℕ) :
    (∀ a ∈ kdeTrace data len skip, a.Inside n) ↔
      (∀ e ∈ parsed data len skip, ElementFits data n e) ∧
        ((∃ e ∈ elements data len skip, ShortGtk data e) ∨ elementsEnd data len skip + 1 < n) := by
  fun_induction elements data len skip with
  | case1 skip hlen ih =>
    have hread : (Access.read (skip + 1)).Inside n := by
      simp only [Access.Inside]
      omega
    have hend : elementsEnd data len skip = elementsEnd data len (skip + 2 + eidLen data skip) := by
      rw [elementsEnd, if_pos hlen]
    rw [kdeTrace, if_pos hlen, hend, List.forall_mem_cons, List.forall_mem_append, List.exists_mem_cons_iff]
    by_cases hs : ShortGtk data skip
    · have hs' := (shortGtk_iff data skip).mp hs
      rw [if_pos hs'.1, if_pos hs'.2, parsed_short hlen hs]
      exact iff_of_true ⟨hread, short_inside (hlen.trans hn) hs, by simp⟩ ⟨by simp, .inl (.inl hs)⟩
    · rw [parsed_cons hlen hs, List.forall_mem_cons]
      by_cases hg : IsGtkKde data skip
      · have hshort : ¬kdeGtkLen data skip < 5 := fun h => hs ((shortGtk_iff data skip).mpr ⟨hg, h⟩)
        rw [if_pos hg, if_neg hshort, List.forall_mem_cons, ih, ← gtk_inside_iff (hlen.trans hn) hg hshort]
        simp only [hread, hs, true_and, false_or, and_assoc]
      · rw [if_neg hg, ih, ← element_inside_iff (hlen.trans hn) hg]
        simp only [hread, hs, true_and, false_or, and_assoc]
  | case2 skip hlen =>
    have hp : parsed data len skip = [] := by
      unfold parsed
      rw [elements, if_neg hlen]
      rfl
    rw [kdeTrace, if_neg hlen, elementsEnd, if_neg hlen, hp]
    simp [Access.Inside]

theorem kdeWalk_turn (data : ℕ → Byte) (len skip : ℕ) (g : GroupKey) :
    kdeWalk data len skip g =
      if skip + 2 + eidLen data skip ≤ len then
        if IsGtkKde data skip then
          if kdeGtkLen data skip < 5 then none
          else
            kdeWalk data len (skip + 2 + eidLen data skip)
              ⟨kdeKid data skip, kdeGtkLen data skip,
                overwrite g.gtk (kdeGtkLen data skip) fun i => data (skip + 8 + i)⟩
        else kdeWalk data len (skip + 2 + eidLen data skip) g
      else some g := by
  rw [kdeWalk]
  rfl

/-- **What the loop leaves** in `DefaultIdx` and `GTKLEN`: the fields of the last GTK KDE. -/
theorem kdeWalk_eq (data : ℕ → Byte) (len skip : ℕ) (g : GroupKey) :
    (kdeWalk data len skip g).map (fun g => (g.defaultIdx, g.gtkLen)) =
      if ∃ e ∈ elements data len skip, ShortGtk data e then none
      else
        some (((lastGtk data len skip).map fun e => (kdeKid data e, kdeGtkLen data e)).getD
          (g.defaultIdx, g.gtkLen)) := by
  unfold lastGtk
  fun_induction elements data len skip generalizing g with
  | case1 skip hlen ih =>
    rw [kdeWalk_turn, if_pos hlen]
    simp only [List.exists_mem_cons_iff]
    by_cases hg : IsGtkKde data skip
    · by_cases hshort : kdeGtkLen data skip < 5
      · have hs : ShortGtk data skip := (shortGtk_iff data skip).mpr ⟨hg, hshort⟩
        rw [if_pos hg, if_pos hshort, if_pos (.inl hs)]
        rfl
      · have hs : ¬ShortGtk data skip := fun h => hshort ((shortGtk_iff data skip).mp h).2
        rw [if_pos hg, if_neg hshort, List.filter_cons_of_pos (by simpa using hg), List.getLast?_cons]
        simp only [hs, false_or]
        refine (ih _).trans ?_
        congr 2
        cases ((elements data len (skip + 2 + eidLen data skip)).filter fun e => IsGtkKde data e).getLast? <;> rfl
    · have hs : ¬ShortGtk data skip := fun h => hg h.1
      rw [if_neg hg, List.filter_cons_of_neg (by simpa using hg)]
      simp only [hs, false_or]
      exact ih g
  | case2 skip hlen =>
    rw [kdeWalk_turn, if_neg hlen]
    simp

theorem copy_mem_kdeTrace {data : ℕ → Byte} {len skip e : ℕ} (he : e ∈ elements data len skip)
    (hg : IsGtkKde data e) (hs : ¬∃ e ∈ elements data len skip, ShortGtk data e) :
    .copy (kdeKid data e) (e + 8) (kdeGtkLen data e) e (e + 2 + eidLen data e) ∈ kdeTrace data len skip := by
  fun_induction elements data len skip with
  | case1 skip hlen ih =>
    rw [List.exists_mem_cons_iff, not_or] at hs
    rw [kdeTrace, if_pos hlen]
    refine List.mem_cons_of_mem _ (List.mem_append_right _ ?_)
    rcases List.mem_cons.mp he with rfl | he
    · have hshort : ¬kdeGtkLen data e < 5 := fun h => hs.1 ((shortGtk_iff data e).mpr ⟨hg, h⟩)
      rw [if_pos hg, if_neg hshort]
      exact List.mem_cons_self
    · by_cases hg' : IsGtkKde data skip
      · have hshort : ¬kdeGtkLen data skip < 5 := fun h => hs.1 ((shortGtk_iff data skip).mpr ⟨hg', h⟩)
        rw [if_pos hg', if_neg hshort]
        exact List.mem_cons_of_mem _ (ih he hs.2)
      · rw [if_neg hg']
        exact ih he hs.2
  | case2 => cases he

theorem install_not_mem_kdeTrace (data : ℕ → Byte) (len skip keyIdx gtkLen : ℕ) :
    .install keyIdx gtkLen ∉ kdeTrace data len skip := by
  have hreads (skip : ℕ) : .install keyIdx gtkLen ∉ elementReads data skip := by
    unfold elementReads
    split_ifs <;> simp
  fun_induction elements data len skip with
  | case1 skip hlen ih =>
    rw [kdeTrace, if_pos hlen]
    split_ifs <;> simp [hreads skip, ih]
  | case2 skip hlen =>
    rw [kdeTrace, if_neg hlen]
    simp

/-! ### Exactly when the extraction is safe -/

def ElementsFit (data : ℕ → Byte) (keyDataLen : ℕ) (groupCipher : WepStatus) : Prop :=
  (∀ e ∈ parsed data (keyDataLen % 256) 0, ElementFits data keyDataLen e) ∧
    ((∃ e ∈ elements data (keyDataLen % 256) 0, ShortGtk data e) ∨
      elementsEnd data (keyDataLen % 256) 0 + 1 < keyDataLen ∧
        ∃ e ∈ lastGtk data (keyDataLen % 256) 0,
          kdeKid data e ≠ 0 ∧ gtkLength groupCipher = some (eidLen data e - 6))

def WpaKeyFits (keyDataLen groupKeyIndex : ℕ) (groupCipher : WepStatus) : Prop :=
  keyDataLen % 256 ≤ maxLenGtk ∧
    (3 < groupKeyIndex ∨ groupKeyIndex ≠ 0 ∧ gtkLength groupCipher = some (keyDataLen % 256))

def Extractable (data : ℕ → Byte) (keyDataLen groupKeyIndex : ℕ) (k : MsgType) (bWpa2 : Bool)
    (groupCipher : WepStatus) : Prop :=
  match k, bWpa2 with
  | .pairMsg2, _ | .pairMsg3, false => True
  | .pairMsg3, true | .groupMsg1, true => ElementsFit data keyDataLen groupCipher
  | .groupMsg1, false => WpaKeyFits keyDataLen groupKeyIndex groupCipher
  | .pairMsg1, _ | .pairMsg4, _ | .groupMsg2, _ => False

theorem gtkSafe_kept_iff {n : ℕ} {s : Sta} {t : List Access} {b : Bool}
    (ht : ∀ keyIdx len, .install keyIdx len ∉ t) : GtkSafe n s (t, b, s) ↔ ∀ a ∈ t, a.Inside n :=
  ⟨GtkSafe.inside, fun h => ⟨h, fun keyIdx len hi => absurd hi (ht keyIdx len), fun _ => ⟨rfl, rfl⟩⟩⟩

theorem gtkSafe_installed_iff {n keyIdx len : ℕ} {s s' : Sta} {t : List Access} {b : Bool}
    (ht : ∀ keyIdx len, .install keyIdx len ∉ t) :
    GtkSafe n s (t ++ [.store len, .install keyIdx len], b, s') ↔
      (∀ a ∈ t, a.Inside n) ∧ len ≤ maxLenGtk ∧ 1 ≤ keyIdx ∧ keyIdx ≤ 3 ∧
        gtkLength s.staCfg.groupCipher = some len ∧ ∃ src lo hi, .copy keyIdx src len lo hi ∈ t := by
  constructor
  · intro h
    obtain ⟨h1, h3, hc, src, lo, hi, hm⟩ := h.installed keyIdx len (by simp)
    exact ⟨fun a ha => h.inside a (List.mem_append_left _ ha), h.inside (.store len) (by simp), h1, h3, hc,
      src, lo, hi, by simpa using hm⟩
  · rintro ⟨hin, hlen, h1, h3, hc, src, lo, hi, hm⟩
    refine ⟨?_, ?_, fun h => absurd (h keyIdx len) (by simp)⟩
    · intro a ha
      simp only [List.mem_append, List.mem_cons, List.not_mem_nil, or_false] at ha
      rcases ha with ha | rfl | rfl
      · exact hin a ha
      · exact hlen
      · trivial
    · intro keyIdx' len' hi'
      simp only [List.mem_append, List.mem_cons, List.not_mem_nil, or_false, reduceCtorEq, false_or,
        ht keyIdx' len', Access.install.injEq] at hi'
      obtain ⟨rfl, rfl⟩ := hi'
      exact ⟨h1, h3, hc, src, lo, hi, List.mem_append_left _ hm⟩

theorem lastGtk_spec {data : ℕ → Byte} {len skip e : ℕ} (h : lastGtk data len skip = some e) :
    e ∈ elements data len skip ∧ IsGtkKde data e := by
  have hmem := List.mem_filter.mp (List.mem_of_getLast? h)
  exact ⟨hmem.1, of_decide_eq_true hmem.2⟩

theorem ElementFits.gtkLen {data : ℕ → Byte} {n e : ℕ} (h : ElementFits data n e) (hg : IsGtkKde data e) :
    kdeGtkLen data e = eidLen data e - 6 ∧ kdeGtkLen data e ≤ maxLenGtk := by
  obtain ⟨hd, ho, ht⟩ := (isGtkKde_iff data e).mp hg
  obtain ⟨hle, hmax⟩ := ((h hd).2 ho).2 ht
  rw [kdeGtkLen_of_le (by omega), maxLenGtk]
  exact ⟨rfl, by omega⟩

theorem parse_wpa2 (data : ℕ → Byte) (n groupKeyIndex : ℕ) {k : MsgType} (s : Sta)
    (hk : k = .pairMsg3 ∨ k = .groupMsg1) :
    parseEapolKeyData data n groupKeyIndex k true s =
      match (kdeWalk data (n % 256) 0 ⟨0, 0, fun _ => 0⟩).filter fun g => g.defaultIdx ≤ 3 with
      | none => (kdeTrace data (n % 256) 0, false, s)
      | some g =>
        (kdeTrace data (n % 256) 0 ++ [.store g.gtkLen, .install g.defaultIdx g.gtkLen], true,
          installGroupKey g s) := by
  rcases hk with rfl | rfl <;> rfl

theorem gtkSafe_wpa2_iff (data : ℕ → Byte) (n groupKeyIndex : ℕ) {k : MsgType} (s : Sta)
    (hk : k = .pairMsg3 ∨ k = .groupMsg1) :
    GtkSafe n s (parseEapolKeyData data n groupKeyIndex k true s) ↔
      ElementsFit data n s.staCfg.groupCipher := by
  have hwalk := kdeWalk_eq data (n % 256) 0 ⟨0, 0, fun _ => 0⟩
  have hinside := kdeTrace_inside_iff data (Nat.mod_le n 256) 0
  have hins := install_not_mem_kdeTrace data (n % 256) 0
  rw [parse_wpa2 data n groupKeyIndex s hk, ElementsFit]
  by_cases hs : ∃ e ∈ elements data (n % 256) 0, ShortGtk data e
  · -- the parser returns FALSE at the short key
    rw [if_pos hs, Option.map_eq_none_iff] at hwalk
    rw [hwalk]
    refine (gtkSafe_kept_iff hins).trans (hinside.trans ?_)
    simp only [hs, true_or]
  · rw [if_neg hs] at hwalk
    obtain ⟨g, hg, hfields⟩ := Option.map_eq_some_iff.mp hwalk
    rw [hg]
    simp only [hs, false_or] at hinside ⊢
    cases hlast : lastGtk data (n % 256) 0 with
    | none =>
      -- no GTK: a key of no octets is installed at index 0
      rw [hlast] at hfields
      obtain ⟨hidx, hlen⟩ := Prod.mk.inj hfields
      simp only [Option.filter_some, hidx, Nat.zero_le, decide_true, if_true]
      rw [gtkSafe_installed_iff hins]
      simp
    | some e =>
      rw [hlast] at hfields
      obtain ⟨hidx, hlen⟩ := Prod.mk.inj hfields
      obtain ⟨hmem, hgtk⟩ := lastGtk_spec hlast
      have hkid : kdeKid data e ≤ 3 := by
        unfold kdeKid
        omega
      have hcopy := copy_mem_kdeTrace hmem hgtk hs
      simp only [Option.filter_some, hidx, hkid, decide_true, if_true, hlen]
      rw [gtkSafe_installed_iff hins, hinside, parsed_eq hs]
      constructor
      · rintro ⟨⟨hfit, htail⟩, -, h1, -, hc, -⟩
        rw [((hfit e hmem).gtkLen hgtk).1] at hc
        exact ⟨hfit, htail, e, rfl, by omega, hc⟩
      · rintro ⟨hfit, htail, e', he', h0, hc⟩
        obtain rfl : e = e' := by simpa using he'
        obtain ⟨heq, hmax⟩ := (hfit e hmem).gtkLen hgtk
        rw [← heq] at hc
        exact ⟨⟨hfit, htail⟩, hmax, by omega, hkid, hc, _, _, _, hcopy⟩

theorem gtkSafe_wpa_iff (data : ℕ → Byte) (n groupKeyIndex : ℕ) (s : Sta) :
    GtkSafe n s (parseEapolKeyData data n groupKeyIndex .groupMsg1 false s) ↔
      WpaKeyFits n groupKeyIndex s.staCfg.groupCipher := by
  have hins : ∀ keyIdx len, .install keyIdx len ∉ [Access.copy groupKeyIndex 0 (n % 256) 0 n] := by simp
  have hmod := Nat.mod_le n 256
  rw [WpaKeyFits]
  by_cases hidx : groupKeyIndex ≤ 3
  · have hparse : parseEapolKeyData data n groupKeyIndex .groupMsg1 false s =
        ([.copy groupKeyIndex 0 (n % 256) 0 n] ++ [.store (n % 256), .install groupKeyIndex (n % 256)], true,
          installGroupKey ⟨groupKeyIndex, n % 256, overwrite (fun _ => 0) (n % 256) data⟩ s) := by
      simp [parseEapolKeyData, Option.filter_some, hidx]
    rw [hparse, gtkSafe_installed_iff hins]
    constructor
    · rintro ⟨-, hlen, h1, -, hc, -⟩
      exact ⟨hlen, .inr ⟨by omega, hc⟩⟩
    · rintro ⟨hlen, h3 | ⟨h0, hc⟩⟩
      · omega
      · refine ⟨?_, hlen, by omega, hidx, hc, 0, 0, n, List.mem_singleton_self _⟩
        exact List.forall_mem_singleton.mpr ⟨hlen, le_rfl, by omega, le_rfl⟩
  · have hparse : parseEapolKeyData data n groupKeyIndex .groupMsg1 false s =
        ([.copy groupKeyIndex 0 (n % 256) 0 n], false, s) := by
      simp [parseEapolKeyData, Option.filter_some, hidx]
    rw [hparse, gtkSafe_kept_iff hins, List.forall_mem_singleton]
    constructor
    · exact fun h => ⟨h.1, .inl (by omega)⟩
    · exact fun h => ⟨h.1, le_rfl, by omega, le_rfl⟩

/-- **The extraction of the group key.** For every key data, length, index, kind and station: the parser reads and
copies inside the key data and the element, and installs a shared key only if it found one of the length that the
group cipher needs with an index from 1 to 3, and otherwise leaves the shared keys and the default index as they
were, if and only if the message meets the condition. -/
theorem gtkSafe_iff (data : ℕ → Byte) (keyDataLen groupKeyIndex : ℕ) (k : MsgType) (bWpa2 : Bool) (s : Sta) :
    GtkSafe keyDataLen s (parseEapolKeyData data keyDataLen groupKeyIndex k bWpa2 s) ↔
      Extractable data keyDataLen groupKeyIndex k bWpa2 s.staCfg.groupCipher := by
  -- the message kinds that carry no key end in an installation at index 0
  have hnone (h : parseEapolKeyData data keyDataLen groupKeyIndex k bWpa2 s =
      ([] ++ [.store 0, .install 0 0], true, installGroupKey ⟨0, 0, fun _ => 0⟩ s)) :
      ¬GtkSafe keyDataLen s (parseEapolKeyData data keyDataLen groupKeyIndex k bWpa2 s) := by
    rw [h, gtkSafe_installed_iff (by simp)]
    simp
  have hkept (h : parseEapolKeyData data keyDataLen groupKeyIndex k bWpa2 s = ([], true, s)) :
      GtkSafe keyDataLen s (parseEapolKeyData data keyDataLen groupKeyIndex k bWpa2 s) := by
    rw [h, gtkSafe_kept_iff (by simp)]
    simp
  cases k with
  | pairMsg1 => cases bWpa2 <;> exact iff_of_false (hnone rfl) id
  | pairMsg2 => cases bWpa2 <;> exact iff_of_true (hkept rfl) trivial
  | pairMsg3 =>
    cases bWpa2
    · exact iff_of_true (hkept rfl) trivial
    · exact gtkSafe_wpa2_iff data keyDataLen groupKeyIndex s (.inl rfl)
  | pairMsg4 => cases bWpa2 <;> exact iff_of_false (hnone rfl) id
  | groupMsg1 =>
    cases bWpa2
    · exact gtkSafe_wpa_iff data keyDataLen groupKeyIndex s
    · exact gtkSafe_wpa2_iff data keyDataLen groupKeyIndex s (.inr rfl)
  | groupMsg2 => cases bWpa2 <;> exact iff_of_false (hnone rfl) id

/-! ### Key data without a GTK -/

def keyedSta : Sta :=
  let s := sampleSta .encryption3Enabled
  { s with
    staCfg := { s.staCfg with defaultKeyId := 2 }
    sharedKey := fun _ => { CipherKey.zero with cipherAlg := .aes, keyLen := 16 } }

def brokenElement : ℕ → Byte := mem [0x30, 0x05]

/-- **The parser installs a key that it has not found**: the group message carries no GTK, and still the key of
slot 0 is erased and slot 0 becomes the default. -/
theorem not_gtkSafe :
    ¬GtkSafe 2 keyedSta (parseEapolKeyData brokenElement 2 0 .groupMsg1 true keyedSta) ∧
      (keyedSta.sharedKey 0).keyLen = 16 ∧ keyedSta.staCfg.defaultKeyId = 2 ∧
      ((parseEapolKeyData brokenElement 2 0 .groupMsg1 true keyedSta).2.2.sharedKey 0).keyLen = 0 ∧
      (parseEapolKeyData brokenElement 2 0 .groupMsg1 true keyedSta).2.2.staCfg.defaultKeyId = 0 := by
  have hlen : ¬0 + 2 + eidLen brokenElement 0 ≤ 2 % 256 := by decide
  have hparse : parseEapolKeyData brokenElement 2 0 .groupMsg1 true keyedSta =
      ([.read 1, .store 0, .install 0 0], true, installGroupKey ⟨0, 0, fun _ => 0⟩ keyedSta) := by
    rw [parse_wpa2 _ _ _ _ (.inr rfl), kdeTrace, if_neg hlen, kdeWalk_turn, if_neg hlen]
    rfl
  rw [hparse]
  refine ⟨fun h => ?_, rfl, rfl, rfl, rfl⟩
  have hidx := (h.installed 0 0 (by simp)).1
  omega

end Mt7610u.Wpa
