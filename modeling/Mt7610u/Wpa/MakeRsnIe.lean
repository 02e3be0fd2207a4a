import Mt7610u.Wpa.Eapol

/-! # Making the RSN or WPA element (`RTMPMakeRSNIE` of `common/cmm_wpa.c`)

The three parts of the element are written to `RSN_IE` one behind the other; `rsn_len` is where the next one begins. -/

namespace Mt7610u.Wpa

open Lib

/-! ### The code -/

/-- `WpaIe`, `Wpa2Ie` -/
inductive ElementId
  | wpaIe | wpa2Ie
deriving DecidableEq, Repr

/-- `OUI_WPA`, `OUI_WPA2` -/
def ElementId.oui : ElementId → List Byte
  | wpaIe => [0x00#8, 0x50#8, 0xf2#8]
  | wpa2Ie => [0x00#8, 0x0f#8, 0xac#8]

/-- `OUI_WPA_WEP40` and so on: the suite of a number. -/
def ElementId.suite (e : ElementId) (n : Byte) : List Byte := e.oui ++ [n]

def suiteWep40 : Byte := 1#8
def suiteTkip : Byte := 2#8
def suiteCcmp : Byte := 4#8
def suiteWep104 : Byte := 5#8
def suite8021x : Byte := 1#8
def suitePsk : Byte := 2#8
def suiteNone : Byte := 0#8

def maxLenOfRsnIe : ℕ := 255

/-- A `USHORT` in memory. -/
def ushortOctets (n : ℕ) : List Byte := [BitVec.ofNat 8 n, BitVec.ofNat 8 (n / 256)]

def wpaTkipAesWpa2TkipAes : Byte := 0x0f#8

/-- `MIX_CIPHER_WPA_TKIP_ON`, `MIX_CIPHER_WPA2_TKIP_ON` -/
def mixCipherTkipOn (e : ElementId) (x : Byte) : Bool :=
  match e with
  | .wpaIe => x &&& 0x08#8 != 0#8
  | .wpa2Ie => x &&& 0x02#8 != 0#8

/-- `MIX_CIPHER_WPA_AES_ON`, `MIX_CIPHER_WPA2_AES_ON` -/
def mixCipherAesOn (e : ElementId) (x : Byte) : Bool :=
  match e with
  | .wpaIe => x &&& 0x04#8 != 0#8
  | .wpa2Ie => x &&& 0x01#8 != 0#8

/-- Where `version` lies: an `RSNIE` has `oui` before it, an `RSNIE2` begins with it. -/
def versionAt : ElementId → ℕ
  | .wpaIe => 4
  | .wpa2Ie => 0

/-- `mcast`, `ucount` and `ucast[0]` follow `version`; `sizeof (RSNIE)` and `sizeof (RSNIE2)`. -/
def mcastAt (e : ElementId) : ℕ := versionAt e + 2
def ucountAt (e : ElementId) : ℕ := versionAt e + 6
def ucastAt (e : ElementId) : ℕ := versionAt e + 8
def sizeofRsnIe (e : ElementId) : ℕ := versionAt e + 12

/-- `OUI_WPA_VERSION` for a WPA element, and version 1. -/
def writeVersion (e : ElementId) (m : ℕ → Byte) : ℕ → Byte :=
  match e with
  | .wpaIe => copy (copy m 0 (ElementId.wpaIe.suite 1#8)) (versionAt .wpaIe) (ushortOctets 1)
  | .wpa2Ie => copy m (versionAt .wpa2Ie) (ushortOctets 1)

def writeSuites (e : ElementId) (m : ℕ → Byte) (mcast : Byte) (ucount : ℕ) (ucast : Byte) : ℕ → Byte :=
  copy (copy (copy m (mcastAt e) (e.suite mcast)) (ucountAt e) (ushortOctets ucount)) (ucastAt e) (e.suite ucast)

/-- The suites by `WepStatus`: the octets, and `*rsn_len`. -/
def writeCiphers (e : ElementId) (wepStatus : WepStatus) (bMixCipher : Bool) (flexibleCipher : Byte) (m : ℕ → Byte) :
    (ℕ → Byte) × ℕ :=
  match wepStatus with
  | .encryption2Enabled => (writeSuites e m suiteTkip 1 suiteTkip, sizeofRsnIe e)
  | .encryption3Enabled =>
    (writeSuites e m (if bMixCipher then suiteTkip else suiteCcmp) 1 suiteCcmp, sizeofRsnIe e)
  | .encryption4Enabled =>
    if mixCipherTkipOn e flexibleCipher then
      if mixCipherAesOn e flexibleCipher then
        (copy (writeSuites e m suiteTkip 2 suiteTkip) (sizeofRsnIe e) (e.suite suiteCcmp), sizeofRsnIe e + 4)
      else (writeSuites e m suiteTkip 1 suiteTkip, sizeofRsnIe e)
    else (writeSuites e m suiteTkip 1 suiteCcmp, sizeofRsnIe e)
  | _ => (m, 0)

def writeGroup (e : ElementId) (groupCipher : WepStatus) (m : ℕ → Byte) : ℕ → Byte :=
  match groupCipher with
  | .groupWep40Enabled => copy m (mcastAt e) (e.suite suiteWep40)
  | .groupWep104Enabled => copy m (mcastAt e) (e.suite suiteWep104)
  | _ => m

def rtmpMakeRsnIeCipher (e : ElementId) (wepStatus groupCipher : WepStatus) (bMixCipher : Bool) (flexibleCipher : Byte)
    (m : ℕ → Byte) : (ℕ → Byte) × ℕ :=
  let r := writeCiphers e wepStatus bMixCipher flexibleCipher (writeVersion e m)
  (writeGroup e groupCipher r.1, r.2)

/-- The suite that `RTMPMakeRsnIeAKM` writes; `AkmCnt` is 0 if there is none. -/
def akmSuite : ElementId → AuthMode → Option Byte
  | .wpa2Ie, .wpa2 | .wpa2Ie, .wpa1Wpa2 => some suite8021x
  | .wpa2Ie, .wpa2Psk | .wpa2Ie, .wpa1PskWpa2Psk => some suitePsk
  | .wpaIe, .wpa | .wpaIe, .wpa1Wpa2 => some suite8021x
  | .wpaIe, .wpaPsk | .wpaIe, .wpa1PskWpa2Psk => some suitePsk
  | .wpaIe, .wpaNone => some suiteNone
  | _, _ => none

/-- `RTMPMakeRsnIeAKM`. An `RSNIE_AUTH` is the count and one suite. -/
def rtmpMakeRsnIeAkm (e : ElementId) (authMode : AuthMode) (r : (ℕ → Byte) × ℕ) : (ℕ → Byte) × ℕ :=
  match akmSuite e authMode with
  | some n => (copy (copy r.1 (r.2 + 2) (e.suite n)) r.2 (ushortOctets 1), r.2 + 6)
  | none => (copy r.1 r.2 (ushortOctets 0), r.2 + 2)

/-- `RTMPMakeRsnIeCap`. The capabilities stay what they are. -/
def rtmpMakeRsnIeCap (e : ElementId) (r : (ℕ → Byte) × ℕ) : (ℕ → Byte) × ℕ :=
  match e with
  | .wpaIe => r
  | .wpa2Ie => (r.1, r.2 + 2)

/-- `RSN_IE` and `RSNIE_Len` -/
structure RsnIe where
  rsnIe : ℕ → Byte
  rsnIeLen : Byte

/-- What `RTMPMakeRSNIE` reads of `StaCfg` besides its arguments. -/
structure RsnCfg where
  wpaSupplicantUP : Byte
  groupCipher : WepStatus
  bMixCipher : Bool

def makesNoRsnIe (wpaSupplicantUP : Byte) (authMode : AuthMode) : Bool :=
  if wpaSupplicantUP ≠ 0#8 then authMode.belowWpa
  else decide (authMode ≠ .wpaPsk ∧ authMode ≠ .wpa2Psk ∧ authMode ≠ .wpaNone)

def primaryRsnIe : AuthMode → ElementId
  | .wpa | .wpaPsk | .wpaNone | .wpa1Wpa2 | .wpa1PskWpa2Psk => .wpaIe
  | _ => .wpa2Ie

/-- `RTMPMakeRSNIE` for a station. -/
def rtmpMakeRsnIe (cfg : RsnCfg) (authMode : AuthMode) (wepStatus : WepStatus) (old : RsnIe) : RsnIe :=
  if makesNoRsnIe cfg.wpaSupplicantUP authMode then old
  else
    let e := primaryRsnIe authMode
    let m := copy old.rsnIe 0 (List.replicate maxLenOfRsnIe 0#8)
    let r := rtmpMakeRsnIeCipher e wepStatus cfg.groupCipher cfg.bMixCipher wpaTkipAesWpa2TkipAes m
    let r := rtmpMakeRsnIeCap e (rtmpMakeRsnIeAkm e authMode r)
    ⟨r.1, BitVec.ofNat 8 r.2⟩

/-! ### Its length -/

theorem rtmpMakeRsnIe_eq_self {cfg : RsnCfg} {authMode : AuthMode}
    (h : makesNoRsnIe cfg.wpaSupplicantUP authMode = true) (wepStatus : WepStatus) (old : RsnIe) :
    rtmpMakeRsnIe cfg authMode wepStatus old = old := if_pos h

theorem writeCiphers_le (e : ElementId) (wepStatus : WepStatus) (bMixCipher : Bool) (flexibleCipher : Byte)
    (m : ℕ → Byte) : (writeCiphers e wepStatus bMixCipher flexibleCipher m).2 ≤ sizeofRsnIe e + 4 := by
  cases wepStatus with
  | encryption2Enabled | encryption3Enabled => exact Nat.le_add_right _ 4
  | encryption4Enabled =>
    unfold writeCiphers
    dsimp only
    split_ifs
    · exact le_rfl
    · exact Nat.le_add_right _ 4
    · exact Nat.le_add_right _ 4
  | _ => exact Nat.zero_le _

theorem rtmpMakeRsnIeAkm_le (e : ElementId) (authMode : AuthMode) (r : (ℕ → Byte) × ℕ) :
    (rtmpMakeRsnIeAkm e authMode r).2 ≤ r.2 + 6 := by
  unfold rtmpMakeRsnIeAkm
  split
  · exact le_rfl
  · exact Nat.add_le_add_left (by decide) _

theorem rsnIeLen_rtmpMakeRsnIe_le {cfg : RsnCfg} {authMode : AuthMode}
    (h : makesNoRsnIe cfg.wpaSupplicantUP authMode = false) (wepStatus : WepStatus) (old : RsnIe) :
    (rtmpMakeRsnIe cfg authMode wepStatus old).rsnIeLen.toNat ≤ 26 := by
  unfold rtmpMakeRsnIe
  rw [if_neg (by simp [h])]
  refine (BitVec.toNat_ofNat _ _).trans_le ((Nat.mod_le _ _).trans ?_)
  have hcipher := writeCiphers_le (primaryRsnIe authMode) wepStatus cfg.bMixCipher wpaTkipAesWpa2TkipAes
    (writeVersion (primaryRsnIe authMode) (copy old.rsnIe 0 (List.replicate maxLenOfRsnIe 0#8)))
  have hakm := rtmpMakeRsnIeAkm_le (primaryRsnIe authMode) authMode
    (rtmpMakeRsnIeCipher (primaryRsnIe authMode) wepStatus cfg.groupCipher cfg.bMixCipher wpaTkipAesWpa2TkipAes
      (copy old.rsnIe 0 (List.replicate maxLenOfRsnIe 0#8)))
  cases he : primaryRsnIe authMode with
  | wpaIe =>
    rw [he] at hcipher hakm
    exact hakm.trans (Nat.add_le_add_right hcipher 6)
  | wpa2Ie =>
    rw [he] at hcipher hakm
    exact (Nat.add_le_add_right (hakm.trans (Nat.add_le_add_right hcipher 6)) 2).trans (by decide)

end Mt7610u.Wpa
