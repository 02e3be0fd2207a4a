import Mt7610u.Mgmt.BeaconElements

/-! # The cipher and key-management suites of a scan entry

`BssCipherParse` reads the WPA and RSN elements that were kept from a beacon. -/

namespace Mt7610u.Mlme.Cipher

open Mt7610u.Lib Mt7610u.Mgmt.Beacon

/-! ### What is stored -/

/-- `NDIS_802_11_ENCRYPTION_STATUS`, the values that are stored here. -/
inductive EncryptionStatus
  | encryption1Enabled | wepDisabled | encryption2Enabled | encryption3Enabled
  | groupWep40Enabled | groupWep104Enabled
deriving DecidableEq

def EncryptionStatus.value : EncryptionStatus → ℕ
  | .encryption1Enabled => 0
  | .wepDisabled => 1
  | .encryption2Enabled => 4
  | .encryption3Enabled => 6
  | .groupWep40Enabled => 10
  | .groupWep104Enabled => 11

/-- `NDIS_802_11_AUTHENTICATION_MODE`, the values that are stored here. -/
inductive AuthMode
  | modeOpen | modeWpa | modeWpaPsk | modeWpaNone | modeWpa2 | modeWpa2Psk | modeMax
deriving DecidableEq

structure CipherSuite where
  pairCipher : EncryptionStatus
  pairCipherAux : EncryptionStatus
  groupCipher : EncryptionStatus
  rsnCapability : BitVec 16
  bMixMode : Bool
deriving DecidableEq

/-- The fields of `BSS_ENTRY` that are read. -/
structure Bss where
  bssType : Byte
  privacy : Bool
  bSES : Bool
  varIELen : ℕ
  varIEs : ℕ → Byte

/-- The fields of `BSS_ENTRY` that are written. -/
structure State where
  bSES : Bool
  wepStatus : EncryptionStatus
  authMode : AuthMode
  authModeAux : AuthMode
  wpa : CipherSuite
  wpa2 : CipherSuite
deriving DecidableEq

def CipherSuite.init : CipherSuite := ⟨.wepDisabled, .wepDisabled, .wepDisabled, 0, false⟩

def Bss.start (b : Bss) : State where
  bSES := b.bSES
  wepStatus := if b.privacy then .encryption1Enabled else .wepDisabled
  authMode := .modeOpen
  authModeAux := .modeOpen
  wpa := .init
  wpa2 := .init

def sesOui : List Byte := [0x00, 0x90, 0x4c]

/-! ### The listed suites -/

def groupCipher (type : Byte) (old : EncryptionStatus) : EncryptionStatus :=
  if type = 1 then .groupWep40Enabled else if type = 5 then .groupWep104Enabled
  else if type = 2 then .encryption2Enabled else if type = 4 then .encryption3Enabled else old

def tmpCipher (type : Byte) : EncryptionStatus :=
  if type = 1 ∨ type = 5 then .encryption1Enabled else if type = 2 then .encryption2Enabled
  else if type = 4 then .encryption3Enabled else .wepDisabled

def CipherSuite.list (c : CipherSuite) (tmp : EncryptionStatus) : CipherSuite :=
  if c.pairCipher.value < tmp.value then { c with pairCipherAux := c.pairCipher, pairCipher := tmp }
  else { c with pairCipherAux := tmp }

/-- The loop over the pairwise suites, from `pTmp` on. -/
def pairwise (m : ℕ → Byte) : ℕ → ℕ → CipherSuite → CipherSuite
  | 0, _, c => c
  | count + 1, pTmp, c => pairwise m count (pTmp + 4) (c.list (tmpCipher (m (pTmp + 3))))

/-- The first mode that is found is `AuthMode`, any other `AuthModeAux`. -/
def State.addMode (s : State) (mode : AuthMode) : State :=
  if s.authMode = .modeOpen then { s with authMode := mode } else { s with authModeAux := mode }

def wpaMode (type : Byte) : Option AuthMode :=
  if type = 1 then some .modeWpa else if type = 2 then some .modeWpaPsk else none

def rsnMode (type : Byte) : AuthMode :=
  if type = 0 then .modeWpaNone else if type = 1 then .modeWpa2 else if type = 2 then .modeWpa2Psk else .modeMax

def akms (m : ℕ → Byte) : ℕ → ℕ → State → State × ℕ
  | 0, pTmp, s => (s, pTmp)
  | count + 1, pTmp, s =>
    if equalMemory (fun i => m (pTmp + i)) (mem rsnOui) 3 then
      akms m count (pTmp + 4) (s.addMode (rsnMode (m (pTmp + 3))))
    else (s, pTmp)

/-! ### The two arms -/

section

variable (b : Bss) (p : ℕ)

/-- The length octet of the element at `p`. -/
def Bss.len : ℕ := (b.varIEs (p + 1)).toNat

def Bss.count : ℕ := (ushortAt fun i => b.varIEs (p + i)).toNat

/-- The element at `p` is a SES element. -/
def isSes : Bool := equalMemory (fun i => b.varIEs (p + 2 + i)) (mem sesOui) 3 ∧ b.len p = 7

/-- The element at `p` begins with the OUI of WPA. -/
def isWpa : Bool := equalMemory (fun i => b.varIEs (p + 2 + i)) (mem wpaOui) 4

/-- Where the AKM suites of the WPA element at `p` are counted. -/
def wpaAkm : ℕ := p + 14 + 4 * b.count (p + 12)

/-- The arm for `IE_WPA`. -/
def wpaArm (s : State) : State :=
  if isSes b p then { s with bSES := true }
  else if !isWpa b p then s
  else
    let wpa := { s.wpa with groupCipher := groupCipher (b.varIEs (p + 11)) s.wpa.groupCipher }
    let wpa := pairwise b.varIEs (b.count (p + 12)) (p + 14) wpa
    let s := match wpaMode (b.varIEs (wpaAkm b p + 5)) with
      | some mode => s.addMode mode
      | none => s
    let s :=
      if b.bssType = 0 then
        { s with
          authMode := .modeWpaNone
          authModeAux := .modeWpaNone
          wepStatus := wpa.groupCipher
          wpa := if wpa.pairCipherAux = .wepDisabled then { wpa with pairCipherAux := wpa.groupCipher } else wpa }
      else { s with wepStatus := wpa.pairCipher, wpa := wpa }
    if s.wpa.groupCipher ≠ s.wpa.pairCipher then { s with wpa := { s.wpa with bMixMode := true } } else s

/-- The RSN element at `p` has the version that is parsed. -/
def isVersion1 : Bool := b.count (p + 2) = 1

/-- The group suite of the RSN element at `p` has the OUI of RSN. -/
def isRsn : Bool := equalMemory (fun i => b.varIEs (p + 4 + i)) (mem rsnOui) 3

/-- Where the AKM suites of the RSN element at `p` are counted. -/
def rsnAkm : ℕ := p + 10 + 4 * b.count (p + 8)

/-- The arm for `IE_RSN`. -/
def rsnArm (s : State) : State :=
  if !isVersion1 b p then s
  else if !isRsn b p then s
  else
    let wpa2 := { s.wpa2 with groupCipher := groupCipher (b.varIEs (p + 7)) s.wpa2.groupCipher }
    let wpa2 := pairwise b.varIEs (b.count (p + 8)) (p + 10) wpa2
    let (s, pTmp) := akms b.varIEs (b.count (rsnAkm b p)) (rsnAkm b p + 2) s
    let s :=
      if b.bssType = 0 then
        let wpa := { s.wpa with pairCipherAux := wpa2.pairCipherAux, groupCipher := wpa2.groupCipher }
        { s with
          wpa := if wpa.pairCipherAux = .wepDisabled then { wpa with pairCipherAux := wpa.groupCipher } else wpa }
      else s
    let wpa2 := { wpa2 with rsnCapability := ushortAt fun i => b.varIEs (pTmp + i) }
    { s with
      wepStatus := wpa2.pairCipher
      wpa2 := if wpa2.groupCipher ≠ wpa2.pairCipher then { wpa2 with bMixMode := true } else wpa2 }

def arm (s : State) : State :=
  if b.varIEs p = 221 then wpaArm b p s else if b.varIEs p = 48 then rsnArm b p s else s

end

/-- The loop, for `turns` turns at most; `p` is `VarIELen - Length`. -/
def loop (b : Bss) : ℕ → ℕ → State → State
  | 0, _, s => s
  | turns + 1, p, s => if p < b.varIELen then loop b turns (p + (b.len p + 2)) (arm b p s) else s

def bssCipherParse (b : Bss) : State := loop b b.varIELen 0 b.start

/-! ### What is read -/

/-- Offsets from `p` on. -/
def span (p n : ℕ) : List ℕ := (List.range n).map (p + ·)

def akmReads (m : ℕ → Byte) : ℕ → ℕ → List ℕ
  | 0, _ => []
  | count + 1, pTmp =>
    span pTmp 3 ++
      if equalMemory (fun i => m (pTmp + i)) (mem rsnOui) 3 then (pTmp + 3) :: akmReads m count (pTmp + 4) else []

section

variable (b : Bss) (p : ℕ)

/-- The types of `count` suites from `pTmp` on. -/
def typeReads (count pTmp : ℕ) : List ℕ := (List.range count).map fun i => pTmp + 4 * i + 3

/-- The octets that the arm for `IE_WPA` reads. -/
def wpaReads : List ℕ :=
  span (p + 2) 3 ++
    if isSes b p then []
    else
      span (p + 2) 4 ++
        if !isWpa b p then []
        else
          (p + 11) :: span (p + 12) 2 ++ typeReads (b.count (p + 12)) (p + 14) ++ span (wpaAkm b p) 2 ++
            [wpaAkm b p + 5]

/-- The octets that the arm for `IE_RSN` reads. -/
def rsnReads : List ℕ :=
  span (p + 2) 2 ++
    if !isVersion1 b p then []
    else
      span (p + 4) 3 ++
        if !isRsn b p then []
        else
          (p + 7) :: span (p + 8) 2 ++ typeReads (b.count (p + 8)) (p + 10) ++ span (rsnAkm b p) 2 ++
            akmReads b.varIEs (b.count (rsnAkm b p)) (rsnAkm b p + 2) ++
              span (akms b.varIEs (b.count (rsnAkm b p)) (rsnAkm b p + 2) b.start).2 2

def turnReads : List ℕ :=
  p :: (if b.varIEs p = 221 then wpaReads b p else if b.varIEs p = 48 then rsnReads b p else []) ++ [p + 1]

end

/-- The elements that the loop comes to, each with the state before it. -/
def visits (b : Bss) : ℕ → ℕ → State → List (ℕ × State)
  | 0, _, _ => []
  | turns + 1, p, s =>
    if p < b.varIELen then (p, s) :: visits b turns (p + (b.len p + 2)) (arm b p s) else []

/-- All of `BssCipherParse`. -/
def parseVisits (b : Bss) : List (ℕ × State) := visits b b.varIELen 0 b.start

def reads (b : Bss) : List ℕ := (parseVisits b).flatMap fun v => turnReads b v.1

end Mt7610u.Mlme.Cipher
