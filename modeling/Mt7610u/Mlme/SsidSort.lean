import Mt7610u.Lib.ExchangeSort
import Mt7610u.Mlme.BssTable

/-! # The candidates for a connection

`BssTableSsidSort` fills a table with the BSSs of the scan table that the station may join, and sorts it by
the strength of their signals. -/

namespace Mt7610u.Mlme

open Lib

/-! ### What is compared -/

/-- `NDIS_802_11_AUTHENTICATION_MODE`, the values that are compared with. -/
def authModeWpa : ℕ := 3
def authModeWpaPsk : ℕ := 4
def authModeWpa2 : ℕ := 6
def authModeWpa2Psk : ℕ := 7

/-- `NDIS_802_11_ENCRYPTION_STATUS`, likewise. -/
def encryption2Enabled : ℕ := 4
def groupWep40Enabled : ℕ := 10
def groupWep104Enabled : ℕ := 11

def enumAt (m : ℕ → Byte) (off : ℕ) : ℕ :=
  (m off).toNat + 256 * ((m (off + 1)).toNat + 256 * ((m (off + 2)).toNat + 256 * (m (off + 3)).toNat))

/-- The fields of `CIPHER_SUITE`. -/
def pairCipher (suite : ℕ → Byte) : ℕ := enumAt suite 0
def pairCipherAux (suite : ℕ → Byte) : ℕ := enumAt suite 4
def groupCipher (suite : ℕ → Byte) : ℕ := enumAt suite 8
def bMixMode (suite : ℕ → Byte) : Bool := suite 14 ≠ 0

/-- `WMODE_G | WMODE_GN`. -/
def wmodeGGn : Byte := 0x0c

/-- `WMODE_HT_ONLY`: no mode but `WMODE_GN`, `WMODE_AN` and `WMODE_AC`. -/
def wmodeHtOnly (phyMode : Byte) : Bool := phyMode &&& ~~~0x38#8 = 0

/-- What `BssTableSsidSort` reads of the adapter: of `CommonCfg`, `MlmeAux.Channel`, `ChannelList` with
`Channel` and `DfsReq`, and of `StaCfg`. -/
structure StaConfig where
  bIEEE80211H : Byte
  phyMode : Byte
  auxChannel : Byte
  channelList : List (Byte × Bool)
  bssType : Byte
  bAutoConnectIfNoSSID : Bool
  wpaSupplicantUP : Byte
  ieee80211dClientMode : Byte
  authMode : ℕ
  wepStatus : ℕ

namespace StaConfig

variable (cfg : StaConfig)

def radarChannelCheck (ch : Byte) : Bool :=
  match cfg.channelList.find? fun c => ch = c.1 with
  | some c => c.2
  | none => false

def bIsHiddenApIncluded (b : BssEntry) : Bool :=
  cfg.bIEEE80211H = 1 ∧ cfg.auxChannel.toNat > 14 ∧ cfg.radarChannelCheck b.channel = true ∧ b.hidden = true

/-- `WPA_SUPPLICANT_ENABLE_WPS` is set. -/
def enableWps : Bool := cfg.wpaSupplicantUP &&& 0x80 ≠ 0

/-- `Rt802_11_D_Strict`, and the BSS names no country. -/
def countryMismatch (b : BssEntry) : Bool := cfg.ieee80211dClientMode = 2 ∧ b.bHasCountryIE = false

def modeMismatch (b : BssEntry) : Bool :=
  b.htCapabilityLen = 0 ∧ wmodeHtOnly cfg.phyMode = true ∨ cfg.phyMode = wmodeGGn ∧ b.supRateLen + b.extRateLen < 12

/-- The checks on the suite of a BSS; `weaker` is the one on the group cipher. -/
def suiteMismatch (weaker : Bool) (suite : ℕ → Byte) : Bool :=
  bMixMode suite = false ∧ cfg.wepStatus ≠ groupCipher suite ∨ weaker = true ∨
    cfg.wepStatus = encryption2Enabled ∧ cfg.wepStatus ≠ pairCipher suite ∧ cfg.wepStatus ≠ pairCipherAux suite

def cipherMismatch (wpaWeaker wpa2Weaker legacy : Bool) (b : BssEntry) : Bool :=
  if cfg.authMode ≥ authModeWpa then
    if cfg.authMode ≠ b.cipher.authMode ∧ cfg.authMode ≠ b.cipher.authModeAux then true
    else if cfg.authMode = authModeWpa ∨ cfg.authMode = authModeWpaPsk then
      cfg.suiteMismatch wpaWeaker b.cipher.wpa
    else if cfg.authMode = authModeWpa2 ∨ cfg.authMode = authModeWpa2Psk then
      cfg.suiteMismatch wpa2Weaker b.cipher.wpa2
    else false
  else legacy

/-- The check where an SSID is given. For WPA2 it compares the group cipher of the WPA suite. -/
def ssidMismatch (b : BssEntry) : Bool :=
  cfg.cipherMismatch
    (cfg.wepStatus < groupCipher b.cipher.wpa ∧ groupCipher b.cipher.wpa ≠ groupWep40Enabled ∧
      groupCipher b.cipher.wpa ≠ groupWep104Enabled)
    (cfg.wepStatus < groupCipher b.cipher.wpa ∧ groupCipher b.cipher.wpa2 ≠ groupWep40Enabled ∧
      groupCipher b.cipher.wpa2 ≠ groupWep104Enabled)
    (cfg.wepStatus ≠ b.cipher.wepStatus ∧ b.cipher.bSES = false) b

def anyMismatch (b : BssEntry) : Bool :=
  cfg.cipherMismatch (cfg.wepStatus < groupCipher b.cipher.wpa) (cfg.wepStatus < groupCipher b.cipher.wpa2)
    (cfg.wepStatus ≠ b.cipher.wepStatus) b

end StaConfig

/-! ### The selection -/

/-- How a turn of the loop ends: with nothing copied (`continue`), with the BSS copied and no test of the
number of entries, with the BSS copied and that test, or with the test alone. -/
inductive Turn
  | leave | copy | copyTest | test
deriving DecidableEq

section

variable (cfg : StaConfig) (ssid : ℕ → Byte) (ssidLen : ℕ)

def named (b : BssEntry) : Bool :=
  BssTable.ssidEqual ssid ssidLen b.ssid b.ssidLen = true ∨ cfg.bIsHiddenApIncluded b = true

def turn (b : BssEntry) : Turn :=
  if b.bssType = cfg.bssType ∧ named cfg ssid ssidLen b = true then
    if cfg.enableWps then .copy
    else if cfg.countryMismatch b then .leave
    else if cfg.modeMismatch b then .leave
    else if cfg.ssidMismatch b then .leave
    else if ssidLen = 0 then .leave
    else .copyTest
  else if b.bssType = cfg.bssType ∧ ssidLen = 0 then
    if cfg.modeMismatch b then .leave
    else if cfg.anyMismatch b then .leave
    else .copyTest
  else .test

namespace BssTable

/-- `NdisMoveMemory` of a BSS to the end of the table. -/
def append (out : BssTable) (b : BssEntry) : BssTable :=
  { out with bssEntry := Function.update out.bssEntry out.bssNr b, bssNr := out.bssNr + 1 }

/-- The loop over `n` entries of the scan table from `i` on. -/
def fill (scan : BssTable) : ℕ → ℕ → BssTable → BssTable
  | 0, _, out => out
  | n + 1, i, out =>
    match turn cfg ssid ssidLen (scan.bssEntry i) with
    | .leave => fill scan n (i + 1) out
    | .copy => fill scan n (i + 1) (out.append (scan.bssEntry i))
    | .copyTest =>
      if out.bssNr + 1 ≥ maxLenOfBssTable then out.append (scan.bssEntry i)
      else fill scan n (i + 1) (out.append (scan.bssEntry i))
    | .test => if out.bssNr ≥ maxLenOfBssTable then out else fill scan n (i + 1) out

/-- `BssTableSortByRssi`. `tmp` says that the entry to exchange two others with was allocated. -/
def bssTableSortByRssi (tmp : Bool) (out : BssTable) : BssTable :=
  if tmp then { out with bssEntry := ExchangeSort.sort (fun b => b.rssi.toInt) out.bssNr out.bssEntry } else out

/-- `BssTableSsidSort`. The memory of the buffers is that of `out`. -/
def bssTableSsidSort (tmp : Bool) (scan out : BssTable) : BssTable :=
  if ssidLen = 0 ∧ cfg.bAutoConnectIfNoSSID = false then out.bssTableInit
  else bssTableSortByRssi tmp (fill cfg ssid ssidLen scan scan.bssNr 0 out.bssTableInit)

def entries (t : BssTable) : List BssEntry := (List.range t.bssNr).map t.bssEntry

end BssTable

/-! ### What a BSS has to meet -/

def IsGroupWep (cipher : ℕ) : Prop := cipher = groupWep40Enabled ∨ cipher = groupWep104Enabled

def StaConfig.IsWpa : Prop := cfg.authMode = authModeWpa ∨ cfg.authMode = authModeWpaPsk

def StaConfig.IsWpa2 : Prop := cfg.authMode = authModeWpa2 ∨ cfg.authMode = authModeWpa2Psk

structure SuiteFits (suite : ℕ → Byte) : Prop where
  mixed : bMixMode suite = true ∨ cfg.wepStatus = groupCipher suite
  group : groupCipher suite ≤ cfg.wepStatus ∨ IsGroupWep (groupCipher suite)
  pair : cfg.wepStatus = encryption2Enabled → cfg.wepStatus = pairCipher suite ∨ cfg.wepStatus = pairCipherAux suite

def SecurityFits (b : BssEntry) : Prop :=
  if cfg.authMode < authModeWpa then cfg.wepStatus = b.cipher.wepStatus
  else (cfg.authMode = b.cipher.authMode ∨ cfg.authMode = b.cipher.authModeAux) ∧
    (cfg.IsWpa → SuiteFits cfg b.cipher.wpa) ∧ (cfg.IsWpa2 → SuiteFits cfg b.cipher.wpa2)

/-- A BSS set up by SecureEasySetup is joined whatever its `WepStatus`. -/
def SesAdmits (b : BssEntry) : Prop := cfg.authMode < authModeWpa ∧ b.cipher.bSES = true

/-- **What a candidate meets.** One with the SSID, or hidden on a radar channel, is taken without further
checks in WPS mode, and otherwise if an SSID is given and country, mode and security fit; for any SSID the
others are taken if mode and security fit. -/
def Meets (b : BssEntry) : Prop :=
  b.bssType = cfg.bssType ∧ (ssidLen = 0 → cfg.bAutoConnectIfNoSSID = true) ∧
    if named cfg ssid ssidLen b = true then
      cfg.enableWps = true ∨ ssidLen ≠ 0 ∧ cfg.countryMismatch b = false ∧ cfg.modeMismatch b = false ∧
        (SecurityFits cfg b ∨ SesAdmits cfg b)
    else ssidLen = 0 ∧ cfg.modeMismatch b = false ∧ SecurityFits cfg b

/-- Where an SSID is given: the group ciphers of the two suites of the BSS compare alike. -/
def SsidSettled (b : BssEntry) : Prop :=
  cfg.IsWpa2 → IsGroupWep (groupCipher b.cipher.wpa2) ∨
    (cfg.wepStatus < groupCipher b.cipher.wpa ↔ cfg.wepStatus < groupCipher b.cipher.wpa2)

/-- For any SSID: the group cipher of the suite is none of the original standard. -/
def AnySettled (b : BssEntry) : Prop :=
  (cfg.IsWpa → ¬ IsGroupWep (groupCipher b.cipher.wpa)) ∧ (cfg.IsWpa2 → ¬ IsGroupWep (groupCipher b.cipher.wpa2))

/-- The copy that checks the BSS reads its suites as the other one does. -/
def Settled (b : BssEntry) : Prop :=
  if named cfg ssid ssidLen b = true then SsidSettled cfg b else AnySettled cfg b

end

/-! ### The two copies of the check -/

section

variable {cfg : StaConfig} {b : BssEntry}

theorem suiteMismatch_eq_false_iff {weaker : Bool} {suite : ℕ → Byte}
    (hweaker : weaker = false ↔ groupCipher suite ≤ cfg.wepStatus ∨ IsGroupWep (groupCipher suite)) :
    cfg.suiteMismatch weaker suite = false ↔ SuiteFits cfg suite := by
  unfold StaConfig.suiteMismatch
  rw [decide_eq_false_iff_not]
  constructor
  · intro h
    refine ⟨?_, hweaker.1 ?_, fun htkip => ?_⟩
    · by_contra hn
      exact h (Or.inl (by grind))
    · by_contra hn
      exact h (Or.inr (Or.inl (by simpa using hn)))
    · by_contra hn
      exact h (Or.inr (Or.inr ⟨htkip, by grind⟩))
  · rintro ⟨hmixed, hgroup, hpair⟩ (⟨hmix, hne⟩ | hw | ⟨htkip, hne, hne'⟩)
    · rcases hmixed with hmixed | hmixed
      · rw [hmix] at hmixed
        cases hmixed
      · exact hne hmixed
    · rw [hweaker.2 hgroup] at hw
      cases hw
    · rcases hpair htkip with h | h
      · exact hne h
      · exact hne' h

theorem isWpa_not_isWpa2 (h : cfg.IsWpa) : ¬ cfg.IsWpa2 := by
  unfold StaConfig.IsWpa StaConfig.IsWpa2 authModeWpa authModeWpaPsk authModeWpa2 authModeWpa2Psk at *
  omega

theorem cipherMismatch_eq_false_iff {wpaWeaker wpa2Weaker legacy : Bool}
    (hwpa : cfg.IsWpa → (wpaWeaker = false ↔
      groupCipher b.cipher.wpa ≤ cfg.wepStatus ∨ IsGroupWep (groupCipher b.cipher.wpa)))
    (hwpa2 : cfg.IsWpa2 → (wpa2Weaker = false ↔
      groupCipher b.cipher.wpa2 ≤ cfg.wepStatus ∨ IsGroupWep (groupCipher b.cipher.wpa2))) :
    cfg.cipherMismatch wpaWeaker wpa2Weaker legacy b = false ↔
      if cfg.authMode < authModeWpa then legacy = false
      else (cfg.authMode = b.cipher.authMode ∨ cfg.authMode = b.cipher.authModeAux) ∧
        (cfg.IsWpa → SuiteFits cfg b.cipher.wpa) ∧ (cfg.IsWpa2 → SuiteFits cfg b.cipher.wpa2) := by
  unfold StaConfig.cipherMismatch
  by_cases hmode : cfg.authMode < authModeWpa
  · rw [if_neg (by omega), if_pos hmode]
  · rw [if_pos (by omega), if_neg hmode]
    by_cases hauth : cfg.authMode = b.cipher.authMode ∨ cfg.authMode = b.cipher.authModeAux
    · rw [if_neg (by tauto)]
      by_cases h1 : cfg.IsWpa
      · have h2 := isWpa_not_isWpa2 h1
        rw [if_pos (show _ ∨ _ from h1), suiteMismatch_eq_false_iff (hwpa h1)]
        exact ⟨fun h => ⟨hauth, fun _ => h, fun hc => absurd hc h2⟩, fun h => h.2.1 h1⟩
      · rw [if_neg (show ¬ (_ ∨ _) from h1)]
        by_cases h2 : cfg.IsWpa2
        · rw [if_pos (show _ ∨ _ from h2), suiteMismatch_eq_false_iff (hwpa2 h2)]
          exact ⟨fun h => ⟨hauth, fun hc => absurd hc h1, fun _ => h⟩, fun h => h.2.2 h2⟩
        · rw [if_neg (show ¬ (_ ∨ _) from h2)]
          exact ⟨fun _ => ⟨hauth, fun hc => absurd hc h1, fun hc => absurd hc h2⟩, fun _ => rfl⟩
    · rw [if_pos (by tauto)]
      exact ⟨fun h => (by cases h), fun h => absurd h.1 hauth⟩

theorem ssidMismatch_eq_false_iff (h : SsidSettled cfg b) :
    cfg.ssidMismatch b = false ↔ SecurityFits cfg b ∨ SesAdmits cfg b := by
  unfold StaConfig.ssidMismatch
  rw [cipherMismatch_eq_false_iff]
  · unfold SecurityFits SesAdmits
    by_cases hmode : cfg.authMode < authModeWpa
    · rw [if_pos hmode, if_pos hmode, decide_eq_false_iff_not]
      cases hses : b.cipher.bSES <;> simp [hmode]
    · rw [if_neg hmode, if_neg hmode]
      constructor
      · exact Or.inl
      · rintro (hfits | hses)
        · exact hfits
        · exact absurd hses.1 hmode
  · intro _
    rw [decide_eq_false_iff_not]
    unfold IsGroupWep
    constructor <;> intro hgroup <;> omega
  · intro hwpa2
    have hsame := h hwpa2
    rw [decide_eq_false_iff_not]
    unfold IsGroupWep at hsame ⊢
    constructor <;> intro hgroup <;> omega

theorem anyMismatch_eq_false_iff (h : AnySettled cfg b) : cfg.anyMismatch b = false ↔ SecurityFits cfg b := by
  unfold StaConfig.anyMismatch
  rw [cipherMismatch_eq_false_iff]
  · unfold SecurityFits
    by_cases hmode : cfg.authMode < authModeWpa
    · rw [if_pos hmode, if_pos hmode, decide_eq_false_iff_not, not_not]
    · rw [if_neg hmode, if_neg hmode]
  · intro hwpa
    have hnot := h.1 hwpa
    rw [decide_eq_false_iff_not, not_lt]
    exact ⟨Or.inl, fun hgroup => hgroup.resolve_right hnot⟩
  · intro hwpa2
    have hnot := h.2 hwpa2
    rw [decide_eq_false_iff_not, not_lt]
    exact ⟨Or.inl, fun hgroup => hgroup.resolve_right hnot⟩

end

/-! ### The selection is sound and complete -/

section

variable (cfg : StaConfig) (ssid : ℕ → Byte) (ssidLen : ℕ)

def Taken (b : BssEntry) : Prop := turn cfg ssid ssidLen b = .copy ∨ turn cfg ssid ssidLen b = .copyTest

instance (b : BssEntry) : Decidable (Taken cfg ssid ssidLen b) := inferInstanceAs (Decidable (_ ∨ _))

def chosen (scan : BssTable) : List ℕ :=
  if ssidLen = 0 ∧ cfg.bAutoConnectIfNoSSID = false then []
  else (List.range scan.bssNr).filter fun i => Taken cfg ssid ssidLen (scan.bssEntry i)

variable {cfg ssid ssidLen}

theorem taken_iff {b : BssEntry} (hauto : ¬ (ssidLen = 0 ∧ cfg.bAutoConnectIfNoSSID = false))
    (h : Settled cfg ssid ssidLen b) : Taken cfg ssid ssidLen b ↔ Meets cfg ssid ssidLen b := by
  have hconnect : ssidLen = 0 → cfg.bAutoConnectIfNoSSID = true := fun h0 => by
    by_contra hn
    exact hauto ⟨h0, by simpa using hn⟩
  unfold Settled at h
  unfold Taken turn Meets
  by_cases htype : b.bssType = cfg.bssType
  · by_cases hnamed : named cfg ssid ssidLen b = true
    · rw [if_pos hnamed] at h
      rw [if_pos ⟨htype, hnamed⟩, if_pos hnamed, ← ssidMismatch_eq_false_iff h]
      cases hwps : cfg.enableWps <;> cases hcountry : cfg.countryMismatch b <;>
        cases hmode : cfg.modeMismatch b <;> cases hcheck : cfg.ssidMismatch b <;>
        by_cases hlen : ssidLen = 0 <;> simp_all
    · rw [if_neg hnamed] at h
      rw [if_neg (fun hc => hnamed hc.2), if_neg hnamed, ← anyMismatch_eq_false_iff h]
      by_cases hlen : ssidLen = 0
      · cases hmode : cfg.modeMismatch b <;> cases hcheck : cfg.anyMismatch b <;> simp_all
      · simp [htype, hlen]
  · simp [htype]

def SameButSsid (b b' : BssEntry) : Prop :=
  ∃ (ssid : ℕ → Byte) (ssidLen : ℕ), b' = { b with ssid := ssid, ssidLen := ssidLen }

/-- **Both copies check the same**, up to what is left to the SSID: a BSS set up by SecureEasySetup. -/
theorem ssidMismatch_iff_anyMismatch {b b' : BssEntry} (hsame : SameButSsid b b') (h : SsidSettled cfg b)
    (h' : AnySettled cfg b') (hses : ¬ SesAdmits cfg b) : cfg.ssidMismatch b = cfg.anyMismatch b' := by
  obtain ⟨name, len, rfl⟩ := hsame
  have hiff : cfg.ssidMismatch b = false ↔
      cfg.anyMismatch { b with ssid := name, ssidLen := len } = false := by
    rw [ssidMismatch_eq_false_iff h, anyMismatch_eq_false_iff h']
    exact ⟨fun hs => hs.resolve_right hses, Or.inl⟩
  cases hs : cfg.ssidMismatch b <;>
    cases ha : cfg.anyMismatch { b with ssid := name, ssidLen := len } <;> simp_all

namespace BssTable

def appendAll (out : BssTable) (l : List BssEntry) : BssTable := l.foldl append out

theorem appendAll_spec (out : BssTable) (l : List BssEntry) :
    (out.appendAll l).entries = out.entries ++ l ∧ (out.appendAll l).bssNr = out.bssNr + l.length ∧
      (out.appendAll l).heap = out.heap ∧
      ∀ k, out.bssNr + l.length ≤ k → (out.appendAll l).bssEntry k = out.bssEntry k := by
  induction l generalizing out with
  | nil =>
    refine ⟨?_, rfl, rfl, fun _ _ => rfl⟩
    rw [List.append_nil]
    rfl
  | cons b l ih =>
    obtain ⟨hentries, hnr, hheap, hrest⟩ := ih (out.append b)
    have hone : (out.append b).entries = out.entries ++ [b] := by
      unfold entries append
      rw [List.range_succ, List.map_append, List.map_singleton]
      refine congr_arg₂ _ (List.map_congr_left fun k hk => Function.update_of_ne ?_ _ _)
        (congrArg (fun e => [e]) (Function.update_self _ _ _))
      exact (List.mem_range.1 hk).ne
    have hlen : (out.append b).bssNr = out.bssNr + 1 := rfl
    refine ⟨?_, ?_, hheap, fun k hk => ?_⟩
    · show ((out.append b).appendAll l).entries = _
      rw [hentries, hone, List.append_assoc]
      rfl
    · show ((out.append b).appendAll l).bssNr = _
      rw [hnr, hlen, List.length_cons]
      omega
    · rw [List.length_cons] at hk
      show ((out.append b).appendAll l).bssEntry k = _
      rw [hrest k (by omega)]
      exact Function.update_of_ne (by omega) _ _

theorem fill_eq (scan : BssTable) (n i : ℕ) (out : BssTable) (hn : i + n ≤ maxLenOfBssTable) (ho : out.bssNr ≤ i) :
    fill cfg ssid ssidLen scan n i out = out.appendAll
      (((List.range' i n).filter fun j => Taken cfg ssid ssidLen (scan.bssEntry j)).map scan.bssEntry) := by
  induction n generalizing i out with
  | zero => rfl
  | succ n ih =>
    have hadd := ih (i + 1) (out.append (scan.bssEntry i)) (by omega) (Nat.succ_le_succ ho)
    rw [List.range'_succ]
    unfold fill
    cases hturn : turn cfg ssid ssidLen (scan.bssEntry i) with
    | leave =>
      rw [List.filter_cons_of_neg (by simp [Taken, hturn])]
      exact ih (i + 1) out (by omega) (by omega)
    | copy =>
      rw [List.filter_cons_of_pos (by simp [Taken, hturn])]
      exact hadd
    | copyTest =>
      rw [List.filter_cons_of_pos (by simp [Taken, hturn])]
      by_cases hfull : out.bssNr + 1 ≥ maxLenOfBssTable
      · have hlast : n = 0 := by omega
        subst hlast
        exact if_pos hfull
      · exact (if_neg hfull).trans hadd
    | test =>
      rw [List.filter_cons_of_neg (by simp [Taken, hturn])]
      exact (if_neg (by omega)).trans (ih (i + 1) out (by omega) (by omega))

/-- One turn of the loop of `BssTableInit`. -/
def initSlot (t : BssTable) (k : ℕ) : BssTable := (t.clearVie k).place k { BssEntry.zero with rssi := 0x81#8 }

theorem initSlot_spec (t : BssTable) (k : ℕ) :
    (t.initSlot k).bssNr = t.bssNr ∧ (∀ i, (t.initSlot k).ptr i = t.ptr i) ∧
      ∀ a, (t.initSlot k).heap a = if t.ptr k = some a then zeroVie (t.heap a) else t.heap a := by
  unfold initSlot ptr
  cases hk : (t.bssEntry k).pVarIeFromProbRsp with
  | none =>
    simp only [clearVie, place, hk]
    refine ⟨trivial, fun i => ?_, fun a => (if_neg (by simp)).symm⟩
    by_cases hik : i = k
    · rw [hik, Function.update_self, hk]
      rfl
    · rw [Function.update_of_ne hik]
  | some b =>
    simp only [clearVie, place, hk]
    refine ⟨trivial, fun i => ?_, fun a => ?_⟩
    · by_cases hik : i = k
      · rw [hik, Function.update_self, hk]
      · rw [Function.update_of_ne hik]
    · by_cases hab : a = b
      · rw [hab, Function.update_self, if_pos rfl]
      · rw [Function.update_of_ne hab, if_neg (fun h => hab (by simpa using h.symm))]

theorem zeroVie_zeroVie (m : ℕ → Byte) : zeroVie (zeroVie m) = zeroVie m := by
  funext i
  unfold zeroVie
  split_ifs <;> rfl

/-- **What `BssTableInit` leaves**: no entry, every buffer with its slot, and the buffers blank. -/
theorem bssTableInit_spec (t : BssTable) :
    t.bssTableInit.bssNr = 0 ∧ (∀ i, t.bssTableInit.ptr i = t.ptr i) ∧
      ∀ a, t.bssTableInit.heap a =
        if ∃ k < maxLenOfBssTable, t.ptr k = some a then zeroVie (t.heap a) else t.heap a := by
  have hfold : ∀ (l : List ℕ) (t : BssTable), (l.foldl initSlot t).bssNr = t.bssNr ∧
      (∀ i, (l.foldl initSlot t).ptr i = t.ptr i) ∧
      ∀ a, (l.foldl initSlot t).heap a = if ∃ k ∈ l, t.ptr k = some a then zeroVie (t.heap a) else t.heap a := by
    intro l
    induction l with
    | nil => exact fun t => ⟨rfl, fun _ => rfl, fun a => (if_neg (by simp)).symm⟩
    | cons k l ih =>
      intro t
      obtain ⟨hnr, hptr, hheap⟩ := ih (t.initSlot k)
      obtain ⟨hnr', hptr', hheap'⟩ := initSlot_spec t k
      refine ⟨hnr.trans hnr', fun i => (hptr i).trans (hptr' i), fun a => ?_⟩
      rw [List.foldl_cons, hheap a, hheap' a]
      simp only [hptr', List.exists_mem_cons_iff]
      by_cases h1 : t.ptr k = some a
      · rw [if_pos h1, zeroVie_zeroVie, if_pos (Or.inl h1), ite_self]
      · by_cases h2 : ∃ j ∈ l, t.ptr j = some a
        · rw [if_neg h1, if_pos h2, if_pos (Or.inr h2)]
        · rw [if_neg h1, if_neg h2, if_neg fun h => h.elim h1 h2]
  have heq : t.bssTableInit =
      (List.range maxLenOfBssTable).foldl initSlot { t with bssNr := 0, bssOverlapNr := 0 } := rfl
  obtain ⟨hnr, hptr, hheap⟩ := hfold (List.range maxLenOfBssTable) { t with bssNr := 0, bssOverlapNr := 0 }
  simp only [List.mem_range] at hheap
  rw [heq]
  exact ⟨hnr, hptr, hheap⟩

theorem bssTableInit_nr (t : BssTable) : t.bssTableInit.bssNr = 0 := t.bssTableInit_spec.1

def unsorted (cfg : StaConfig) (ssid : ℕ → Byte) (ssidLen : ℕ) (scan out : BssTable) : BssTable :=
  out.bssTableInit.appendAll ((chosen cfg ssid ssidLen scan).map scan.bssEntry)

theorem bssTableSsidSort_eq {scan : BssTable} (hscan : scan.bssNr ≤ maxLenOfBssTable) (tmp : Bool)
    (out : BssTable) : bssTableSsidSort cfg ssid ssidLen tmp scan out =
      bssTableSortByRssi tmp (unsorted cfg ssid ssidLen scan out) := by
  unfold bssTableSsidSort unsorted chosen
  split_ifs with hauto
  · have hnr := bssTableInit_nr out
    generalize out.bssTableInit = t at hnr ⊢
    show t = bssTableSortByRssi tmp t
    obtain ⟨nr, overlapNr, entry, heap⟩ := t
    subst hnr
    cases tmp <;> rfl
  · rw [fill_eq scan scan.bssNr 0 _ (by omega) (bssTableInit_nr out).le, ← List.range_eq_range']

theorem entries_unsorted (scan out : BssTable) :
    (unsorted cfg ssid ssidLen scan out).entries = (chosen cfg ssid ssidLen scan).map scan.bssEntry := by
  unfold unsorted
  rw [(appendAll_spec _ _).1]
  unfold entries
  rw [bssTableInit_nr]
  rfl

theorem entries_sort_perm (tmp : Bool) (t : BssTable) : (bssTableSortByRssi tmp t).entries.Perm t.entries := by
  unfold bssTableSortByRssi
  split_ifs
  · exact (ExchangeSort.rearranged_sort _ t.bssNr t.bssEntry).perm
  · exact List.Perm.refl _

/-- **`BssTableSsidSort` selects soundly and completely.** It copies each entry of the scan table at most
once; one whose suites are read alike is copied if and only if it meets what a candidate has to meet. The
entries lie in the order of their signal strengths, or of the scan table if there was no memory to exchange
them; and two BSSs that differ only in the SSID pass the same check of authentication and ciphers on both
paths, unless SecureEasySetup is in play. -/
theorem selects (cfg : StaConfig) (ssid : ℕ → Byte) (ssidLen : ℕ) (tmp : Bool) (scan out : BssTable)
    (hscan : scan.bssNr ≤ maxLenOfBssTable) :
    (∃ picked : List ℕ, picked.Sublist (List.range scan.bssNr) ∧
      (∀ i < scan.bssNr, Settled cfg ssid ssidLen (scan.bssEntry i) →
        (i ∈ picked ↔ Meets cfg ssid ssidLen (scan.bssEntry i))) ∧
      (bssTableSsidSort cfg ssid ssidLen tmp scan out).entries.Perm (picked.map scan.bssEntry) ∧
      (tmp = false → (bssTableSsidSort cfg ssid ssidLen tmp scan out).entries = picked.map scan.bssEntry)) ∧
    (tmp = true → (bssTableSsidSort cfg ssid ssidLen tmp scan out).entries.Pairwise
      fun a b => b.rssi.toInt ≤ a.rssi.toInt) ∧
    ∀ b b' : BssEntry, SameButSsid b b' → SsidSettled cfg b → AnySettled cfg b' → ¬ SesAdmits cfg b →
      cfg.ssidMismatch b = cfg.anyMismatch b' := by
  rw [bssTableSsidSort_eq hscan]
  refine ⟨⟨chosen cfg ssid ssidLen scan, ?_, fun i hi hset => ?_, ?_, ?_⟩, ?_,
    fun b b' hsame h h' hses => ssidMismatch_iff_anyMismatch hsame h h' hses⟩
  · unfold chosen
    split_ifs
    · exact List.nil_sublist _
    · exact List.filter_sublist
  · unfold chosen
    split_ifs with hauto
    · unfold Meets
      simp [hauto.1, hauto.2]
    · rw [List.mem_filter, List.mem_range, decide_eq_true_iff, taken_iff hauto hset]
      exact ⟨fun h => h.2, fun h => ⟨hi, h⟩⟩
  · rw [← entries_unsorted scan out]
    exact entries_sort_perm tmp _
  · rintro rfl
    exact entries_unsorted scan out
  · rintro rfl
    exact ExchangeSort.sorted_sort _ _ _

def sampleConfig (wpaSupplicantUP : Byte) (authMode wepStatus : ℕ) : StaConfig where
  bIEEE80211H := 0
  phyMode := 0x0f
  auxChannel := 1
  channelList := []
  bssType := 1
  bAutoConnectIfNoSSID := true
  wpaSupplicantUP := wpaSupplicantUP
  ieee80211dClientMode := 0
  authMode := authMode
  wepStatus := wepStatus

def sampleBss (bSES : Bool) : BssEntry :=
  { BssEntry.zero with
    bssType := 1
    ssid := mem [0x61#8]
    ssidLen := 1
    cipher := ⟨bSES, noCipher, noCipher, 0, 0, 1⟩ }

def sampleScan (b : BssEntry) : BssTable := { fresh fun _ => none with bssNr := 1, bssEntry := fun _ => b }

theorem selects_sample : (bssTableSsidSort (sampleConfig 0 0 1) (mem [0x61#8]) 1 true
    (sampleScan (sampleBss false)) (fresh fun _ => none)).entries.Pairwise
      fun a b => b.rssi.toInt ≤ a.rssi.toInt :=
  (selects (sampleConfig 0 0 1) (mem [0x61#8]) 1 true (sampleScan (sampleBss false)) (fresh fun _ => none)
    (by decide)).2.1 rfl

/-- In WPS mode a station for WPA2-PSK selects an open BSS; and a station without security that asks for WEP
is offered one by SecureEasySetup under its SSID and not under another. -/
theorem not_selects :
    (∃ b ∈ (bssTableSsidSort (sampleConfig 0x80 authModeWpa2Psk 6) (mem [0x61#8]) 1 true
        (sampleScan (sampleBss false)) (fresh fun _ => none)).entries,
      authModeWpa2Psk ≠ b.cipher.authMode ∧ authModeWpa2Psk ≠ b.cipher.authModeAux) ∧
    SameButSsid (sampleBss true) { sampleBss true with ssid := mem [0x62#8], ssidLen := 1 } ∧
    (sampleConfig 0 0 0).ssidMismatch (sampleBss true) = false ∧
    (sampleConfig 0 0 0).anyMismatch { sampleBss true with ssid := mem [0x62#8], ssidLen := 1 } = true := by
  refine ⟨⟨sampleBss false, ?_, by decide, by decide⟩, ⟨_, _, rfl⟩, by decide, by decide⟩
  rw [bssTableSsidSort_eq (by decide), (entries_sort_perm _ _).mem_iff, entries_unsorted]
  exact List.mem_map.2 ⟨0, by decide, rfl⟩

end BssTable

end

end Mt7610u.Mlme
