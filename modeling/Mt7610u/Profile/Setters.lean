import Mt7610u.Wpa.KeyDerivation
import Mathlib.Data.List.GetD

/-! # Keys and addresses from text (`common/cmm_cfg.c`, `AtoH` of `common/rtmp_init.c`)

A string is the list of its characters without the final zero. -/

namespace Mt7610u.Profile.Setters

open Lib Wpa Crypto

/-! ### The code -/

def isxdigit (c : Byte) : Bool := (48 ≤ c && c ≤ 57) || (65 ≤ c && c ≤ 70) || (97 ≤ c && c ≤ 102)

def btoH (ch : Byte) : Byte :=
  if 48 ≤ ch ∧ ch ≤ 57 then ch - 48
  else if 65 ≤ ch ∧ ch ≤ 70 then ch - 65 + 0xa
  else if 97 ≤ ch ∧ ch ≤ 102 then ch - 97 + 0xa
  else 255

/-- `AtoH`: the `destlen` bytes that go to `dest`. -/
def atoH : List Byte → ℕ → List Byte
  | _, 0 => []
  | src, destlen + 1 => ((btoH (src.getD 0 0) <<< 4) + btoH (src.getD 1 0)) :: atoH (src.drop 2) destlen

/-- `RT_CfgSetWepKey`: what it returns, and the key entry, which it clears first. -/
def rtCfgSetWepKey (keyString : List Byte) : Bool × CipherKey :=
  let pSharedKey := CipherKey.zero
  let keyLen := keyString.length
  let cipherAlg := if keyLen % 5 ≠ 0 then CipherAlg.wep128 else CipherAlg.wep64
  if keyLen = 5 ∨ keyLen = 13 then
    (true, { pSharedKey with keyLen := keyLen, key := fun i => keyString.getD i 0, cipherAlg := cipherAlg })
  else if keyLen = 10 ∨ keyLen = 26 then
    if keyString.all isxdigit = false then (false, pSharedKey)
    else (true, { pSharedKey with
      keyLen := keyLen / 2
      key := fun i => (atoH keyString (keyLen / 2)).getD i 0
      cipherAlg := cipherAlg })
  else (false, pSharedKey)

/-- `RT_CfgSetWPAPSKKey` with `keyStringLen = strlen(keyString)`: what it returns, and the 32 bytes at `pPMKBuf`.
`keyMaterial` and `digest` are what the stack holds. -/
def rtCfgSetWPAPSKKey (keyMaterial digest : ℕ → Byte) (keyString : Piece) (hashStr pmkBuf : List Byte) :
    Option (Bool × List Byte) :=
  let keyStringLen := keyString.1.length
  if keyStringLen < 8 ∨ 64 < keyStringLen then some (false, pmkBuf)
  else if keyStringLen = 64 then some (true, atoH keyString.1 32)
  else (Keys.rtmpPasswordHash digest keyString hashStr keyMaterial).map fun out => (true, Lib.read out.2 32)

/-- `"00:00:00:00:00:00"` -/
def zeroText : List Byte := [48, 48, 58, 48, 48, 58, 48, 48, 58, 48, 48, 58, 48, 48, 58, 48, 48]

/-- `RT_CfgSetMacAddress`: what it returns, `CurrentAddress` and `bLocalAdminMAC`. -/
def rtCfgSetMacAddress (arg : List Byte) (currentAddress : Bytes 6) (bLocalAdminMAC : Bool) :
    Bool × Bytes 6 × Bool :=
  if arg.length ≠ 17 then (false, currentAddress, bLocalAdminMAC)
  else if arg = zeroText then (false, currentAddress, bLocalAdminMAC)
  else (true, fun i => (atoH (arg.drop (3 * i)) 1).getD 0 0, true)

/-! ### What the strings denote -/

def upperDigits : List Byte := [48, 49, 50, 51, 52, 53, 54, 55, 56, 57, 65, 66, 67, 68, 69, 70]

def lowerDigits : List Byte := [48, 49, 50, 51, 52, 53, 54, 55, 56, 57, 97, 98, 99, 100, 101, 102]

def HexDigit (c : Byte) : Prop := c ∈ upperDigits ∨ c ∈ lowerDigits

instance : DecidablePred HexDigit := fun _ => inferInstanceAs (Decidable (_ ∨ _))

def digitValue (c : Byte) : ℕ := min (upperDigits.idxOf c) (lowerDigits.idxOf c)

def hexByte (a b : Byte) : Byte := BitVec.ofNat 8 (16 * digitValue a + digitValue b)

def hexBytes : List Byte → List Byte
  | a :: b :: s => hexByte a b :: hexBytes s
  | _ => []

def WepForm (s : List Byte) : Prop :=
  s.length = 5 ∨ s.length = 13 ∨ (s.length = 10 ∨ s.length = 26) ∧ ∀ c ∈ s, HexDigit c

def wepBytes (s : List Byte) : List Byte := if s.length = 5 ∨ s.length = 13 then s else hexBytes s

def wepEntry (s : List Byte) : CipherKey :=
  { CipherKey.zero with
    key := fun i => (wepBytes s).getD i 0
    keyLen := (wepBytes s).length
    cipherAlg := if (wepBytes s).length = 5 then .wep64 else .wep128 }

def PassphraseForm (s ssid : List Byte) : Prop := 8 ≤ s.length ∧ s.length ≤ 63 ∧ ssid.length ≤ 32

def PmkForm (s : List Byte) : Prop := s.length = 64 ∧ ∀ c ∈ s, HexDigit c

/-- Six groups of two digits with `':'` between them. -/
def MacForm (s : List Byte) : Prop :=
  s.length = 17 ∧ ∀ i < 17, if i % 3 = 2 then s.getD i 0 = 58 else HexDigit (s.getD i 0)

def macBytes (s : List Byte) : Bytes 6 := fun i => hexByte (s.getD (3 * i) 0) (s.getD (3 * i + 1) 0)

/-! ### What the setters should do -/

/-- `RT_CfgSetWepKey` on an entry with the content `old`. -/
structure WepSound (s : List Byte) (old : CipherKey) : Prop where
  accepts : (rtCfgSetWepKey s).1 = true ↔ WepForm s
  stores : WepForm s → (rtCfgSetWepKey s).2 = wepEntry s
  keeps : (rtCfgSetWepKey s).1 = false → (rtCfgSetWepKey s).2 = old

/-- `RT_CfgSetWPAPSKKey` on a buffer with the content `old`, whatever the stack holds. -/
def PskSound (s : Piece) (ssid old : List Byte) : Prop :=
  ∀ keyMaterial digest, ∃ ret out, rtCfgSetWPAPSKKey keyMaterial digest s ssid old = some (ret, out) ∧
    (ret = true ↔ PassphraseForm s.1 ssid ∨ PmkForm s.1) ∧
    (PassphraseForm s.1 ssid → out = Keys.Standard.pbkdf2Sha1 s.1 ssid 4096 32) ∧
    (PmkForm s.1 → out = hexBytes s.1) ∧ (ret = false → out = old)

/-- `RT_CfgSetMacAddress` on the address `old`. -/
structure MacSound (s : List Byte) (old : Bytes 6) (localAdmin : Bool) : Prop where
  accepts : (rtCfgSetMacAddress s old localAdmin).1 = true ↔ MacForm s ∧ macBytes s ≠ zeros 6
  stores : MacForm s → macBytes s ≠ zeros 6 → (rtCfgSetMacAddress s old localAdmin).2.1 = macBytes s
  keeps : (rtCfgSetMacAddress s old localAdmin).1 = false → (rtCfgSetMacAddress s old localAdmin).2.1 = old

/-! ### Digits -/

theorem isxdigit_eq : ∀ c : Byte, isxdigit c = decide (HexDigit c) := by decide

theorem btoH_eq : ∀ c : Byte, HexDigit c → digitValue c < 16 ∧ btoH c = BitVec.ofNat 8 (digitValue c) := by
  decide

theorem digitValue_eq_zero : ∀ c : Byte, HexDigit c → digitValue c = 0 → c = 48 := by decide

theorem hexByte_eq {a b : Byte} (ha : HexDigit a) (hb : HexDigit b) : (btoH a <<< 4) + btoH b = hexByte a b := by
  obtain ⟨ha16, hav⟩ := btoH_eq a ha
  obtain ⟨hb16, hbv⟩ := btoH_eq b hb
  refine BitVec.eq_of_toNat_eq ?_
  rw [hav, hbv, hexByte]
  simp only [BitVec.toNat_add, BitVec.toNat_shiftLeft, BitVec.toNat_ofNat, Nat.shiftLeft_eq]
  omega

theorem atoH_eq (n : ℕ) {s : List Byte} (hlen : s.length = 2 * n) (hs : ∀ c ∈ s, HexDigit c) :
    atoH s n = hexBytes s := by
  induction n generalizing s with
  | zero => rw [List.eq_nil_of_length_eq_zero hlen]; rfl
  | succ n ih =>
    match s, hlen, hs with
    | a :: b :: s, hlen, hs =>
      have hrest : atoH s n = hexBytes s :=
        ih (by simp only [List.length_cons] at hlen; omega) fun c hc => hs c (by simp [hc])
      rw [hexBytes, ← hexByte_eq (hs a (by simp)) (hs b (by simp)), ← hrest]
      rfl
    | [_], hlen, _ => exact absurd hlen (by simp only [List.length_singleton]; omega)
    | [], hlen, _ => exact absurd hlen (by simp only [List.length_nil]; omega)

theorem length_hexBytes : ∀ s : List Byte, (hexBytes s).length = s.length / 2
  | [] => rfl
  | [_] => by simp [hexBytes]
  | _ :: _ :: s => by
    rw [hexBytes, List.length_cons, length_hexBytes s]
    simp only [List.length_cons]
    omega

theorem all_isxdigit {s : List Byte} : s.all isxdigit = false ↔ ¬∀ c ∈ s, HexDigit c := by
  simp only [← Bool.not_eq_true, List.all_eq_true, isxdigit_eq, decide_eq_true_eq]

/-! ### The setters -/

theorem rtCfgSetWepKey_of_form {s : List Byte} (h : WepForm s) : rtCfgSetWepKey s = (true, wepEntry s) := by
  unfold rtCfgSetWepKey wepEntry wepBytes
  by_cases hchars : s.length = 5 ∨ s.length = 13
  · simp only [if_pos hchars]
    rcases hchars with h5 | h13
    · simp [h5]
    · simp [h13]
  · have hdigits : (s.length = 10 ∨ s.length = 26) ∧ ∀ c ∈ s, HexDigit c := by
      rcases h with h5 | h13 | h
      · exact absurd (Or.inl h5) hchars
      · exact absurd (Or.inr h13) hchars
      · exact h
    have hall : ¬s.all isxdigit = false := fun hf => all_isxdigit.1 hf hdigits.2
    have hbytes : atoH s (s.length / 2) = hexBytes s := atoH_eq _ (by omega) hdigits.2
    simp only [if_neg hchars, if_pos hdigits.1, if_neg hall, hbytes, length_hexBytes]
    rcases hdigits.1 with h10 | h26
    · simp [h10]
    · simp [h26]

theorem rtCfgSetWepKey_of_not_form {s : List Byte} (h : ¬WepForm s) :
    rtCfgSetWepKey s = (false, CipherKey.zero) := by
  unfold WepForm at h
  unfold rtCfgSetWepKey
  have hchars : ¬(s.length = 5 ∨ s.length = 13) := by tauto
  simp only [if_neg hchars]
  by_cases hlen : s.length = 10 ∨ s.length = 26
  · have hall : s.all isxdigit = false := all_isxdigit.2 (by tauto)
    rw [if_pos hlen, if_pos hall]
  · rw [if_neg hlen]

/-- A refused key has cleared the entry. -/
theorem wepSound_iff (s : List Byte) (old : CipherKey) : WepSound s old ↔ WepForm s ∨ old = CipherKey.zero := by
  by_cases hf : WepForm s
  · have heq := rtCfgSetWepKey_of_form hf
    refine ⟨fun _ => Or.inl hf, fun _ => ⟨?_, ?_, ?_⟩⟩
    · simp [heq, hf]
    · exact fun _ => by rw [heq]
    · exact fun h => absurd h (by simp [heq])
  · have heq := rtCfgSetWepKey_of_not_form hf
    refine ⟨fun h => Or.inr ?_, fun h => ⟨?_, fun h' => absurd h' hf, fun _ => ?_⟩⟩
    · have := h.keeps (by rw [heq])
      rw [← this, heq]
    · simp [heq, hf]
    · rw [heq, h.resolve_left hf]

/-- A string of 64 characters is not looked at, and what the hash function returns neither. -/
theorem pskSound_iff (s : Piece) (ssid old : List Byte) :
    PskSound s ssid old ↔
      (s.1.length = 64 → ∀ c ∈ s.1, HexDigit c) ∧ (8 ≤ s.1.length → s.1.length ≤ 63 → ssid.length ≤ 32) := by
  unfold PskSound PassphraseForm PmkForm rtCfgSetWPAPSKKey
  by_cases hlen : s.1.length < 8 ∨ 64 < s.1.length
  · simp only [if_pos hlen]
    refine ⟨fun _ => ⟨by omega, by omega⟩, fun _ _ _ => ⟨false, old, rfl, ?_, ?_, ?_, fun _ => rfl⟩⟩
    · simp only [Bool.false_eq_true, false_iff]
      omega
    · omega
    · omega
  simp only [if_neg hlen]
  by_cases h64 : s.1.length = 64
  · simp only [if_pos h64]
    constructor
    · intro h
      obtain ⟨ret, out, heq, hacc, -⟩ := h (fun _ => 0) fun _ => 0
      have hret : ret = true := by cases heq; rfl
      exact ⟨fun _ => ((hacc.1 hret).resolve_left (by omega)).2, by omega⟩
    · rintro ⟨hdigits, -⟩ _ _
      refine ⟨true, _, rfl, ?_, ?_, fun _ => atoH_eq 32 h64 (hdigits h64), fun h => by cases h⟩
      · exact ⟨fun _ => Or.inr ⟨h64, hdigits h64⟩, fun _ => rfl⟩
      · omega
  simp only [if_neg h64]
  by_cases hssid : ssid.length ≤ 32
  · refine ⟨fun _ => ⟨fun h => absurd h h64, fun _ _ => hssid⟩, fun _ keyMaterial digest => ?_⟩
    obtain ⟨out, hout, hread⟩ := Keys.rtmpPasswordHash_eq digest keyMaterial (by omega : s.1.length ≤ 63) hssid
    rw [hout]
    refine ⟨true, _, rfl, ?_, fun _ => hread, fun h => absurd h.1 h64, fun h => by cases h⟩
    exact ⟨fun _ => Or.inl ⟨by omega, by omega, hssid⟩, fun _ => rfl⟩
  · refine ⟨fun h => ?_, fun h => absurd (h.2 (by omega) (by omega)) hssid⟩
    obtain ⟨ret, out, heq, hacc, -⟩ := h (fun _ => 0) fun _ => 0
    rw [Keys.rtmpPasswordHash_eq_zero _ _ (Or.inr (by omega))] at heq
    have hret : ret = true := by cases heq; rfl
    rcases hacc.1 hret with hform | hform
    · exact absurd hform.2.2 hssid
    · exact absurd hform.1 h64

theorem macBytes_eq {s : List Byte} (h : MacForm s) (i : Fin 6) :
    (atoH (s.drop (3 * i)) 1).getD 0 0 = macBytes s i := by
  have hi := i.isLt
  have ha := h.2 (3 * i) (by omega)
  have hb := h.2 (3 * i + 1) (by omega)
  rw [if_neg (by omega)] at ha hb
  rw [macBytes, ← hexByte_eq ha hb]
  simp [atoH, List.getD_eq_getElem?_getD]

/-- The one text of the address of zeros. -/
theorem macBytes_eq_zero {s : List Byte} (h : MacForm s) : macBytes s = zeros 6 ↔ s = zeroText := by
  constructor
  · intro hz
    refine List.ext_getElem (h.1.trans rfl) fun i h1 h2 => ?_
    rw [← List.getD_eq_getElem s 0 h1, ← List.getD_eq_getElem zeroText 0 h2]
    have hi : i < 17 := h2
    have hzero : ∀ i < 17, zeroText.getD i 0 = if i % 3 = 2 then 58 else 48 := by decide
    have hc := h.2 i hi
    rw [hzero i hi]
    split
    · next hsep => rwa [if_pos hsep] at hc
    · next hsep =>
      rw [if_neg hsep] at hc
      have hpair := congrFun hz ⟨i / 3, by omega⟩
      have ha := h.2 (3 * (i / 3)) (by omega)
      have hb := h.2 (3 * (i / 3) + 1) (by omega)
      rw [if_neg (by omega)] at ha hb
      have hval := congrArg BitVec.toNat hpair
      simp only [macBytes, hexByte, zeros, BitVec.toNat_ofNat] at hval
      have := (btoH_eq _ ha).1
      have := (btoH_eq _ hb).1
      refine digitValue_eq_zero _ hc ?_
      rcases (by omega : i = 3 * (i / 3) ∨ i = 3 * (i / 3) + 1) with he | he
      · rw [he]
        omega
      · rw [he]
        omega
  · rintro rfl
    decide

/-- Only the length is looked at. -/
theorem macSound_iff (s : List Byte) (old : Bytes 6) (localAdmin : Bool) :
    MacSound s old localAdmin ↔ s.length ≠ 17 ∨ s = zeroText ∨ MacForm s := by
  by_cases hlen : s.length = 17
  swap
  · have heq : rtCfgSetMacAddress s old localAdmin = (false, old, localAdmin) := if_pos hlen
    refine ⟨fun _ => Or.inl hlen, fun _ => ⟨?_, fun h => absurd h.1 hlen, fun _ => by rw [heq]⟩⟩
    simp only [heq, Bool.false_eq_true, false_iff]
    exact fun h => hlen h.1.1
  by_cases hz : s = zeroText
  · have heq : rtCfgSetMacAddress s old localAdmin = (false, old, localAdmin) := by
      rw [rtCfgSetMacAddress, if_neg (by simp [hlen]), if_pos hz]
    have hzero : ∀ h : MacForm s, macBytes s = zeros 6 := fun h => (macBytes_eq_zero h).2 hz
    refine ⟨fun _ => Or.inr (Or.inl hz), fun _ => ⟨?_, fun h hne => absurd (hzero h) hne, fun _ => by rw [heq]⟩⟩
    simp only [heq, Bool.false_eq_true, false_iff]
    exact fun h => h.2 (hzero h.1)
  have heq : rtCfgSetMacAddress s old localAdmin =
      (true, fun i : Fin 6 => (atoH (s.drop (3 * i)) 1).getD 0 0, true) := by
    rw [rtCfgSetMacAddress, if_neg (by simp [hlen]), if_neg hz]
  constructor
  · intro h
    exact Or.inr (Or.inr (h.accepts.1 (by rw [heq])).1)
  · intro h
    have hf : MacForm s := (h.resolve_left (by simp [hlen])).resolve_left hz
    have hne : macBytes s ≠ zeros 6 := fun h0 => hz ((macBytes_eq_zero hf).1 h0)
    refine ⟨?_, fun _ _ => ?_, fun h0 => absurd h0 (by rw [heq]; simp)⟩
    · simp [heq, hf, hne]
    · rw [heq]
      exact funext (macBytes_eq hf)

/-- **When the setters accept exactly their format and leave everything else alone.** -/
theorem setters_iff (s : List Byte) (p : Piece) (oldKey : CipherKey) (ssid oldPmk : List Byte) (oldMac : Bytes 6)
    (localAdmin : Bool) : (WepSound s oldKey ↔ WepForm s ∨ oldKey = CipherKey.zero) ∧
    (PskSound p ssid oldPmk ↔
      (p.1.length = 64 → ∀ c ∈ p.1, HexDigit c) ∧ (8 ≤ p.1.length → p.1.length ≤ 63 → ssid.length ≤ 32)) ∧
    (MacSound s oldMac localAdmin ↔ s.length ≠ 17 ∨ s = zeroText ∨ MacForm s) :=
  ⟨wepSound_iff s oldKey, pskSound_iff p ssid oldPmk, macSound_iff s oldMac localAdmin⟩

/-- The text `zzzz...` of 10, 64 and 17 characters: a key that is erased, and a PMK and an address that are taken. -/
theorem not_sound :
    (¬WepSound (List.replicate 10 122) { CipherKey.zero with keyLen := 5, cipherAlg := .wep64 }) ∧
      (¬PskSound ⟨List.replicate 64 122, by decide⟩ [] (List.replicate 32 0)) ∧
      ¬MacSound (List.replicate 17 122) (zeros 6) false := by
  refine ⟨fun h => ?_, fun h => ?_, fun h => ?_⟩
  · exact absurd ((wepSound_iff _ _).1 h) (by unfold WepForm; decide)
  · exact absurd (((pskSound_iff _ _ _).1 h).1 (by decide) 122 (by decide)) (by decide)
  · exact absurd ((macSound_iff _ _ _).1 h) (by unfold MacForm; decide)

end Mt7610u.Profile.Setters
