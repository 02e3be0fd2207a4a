import Mathlib.Data.Nat.Digits.Defs
import Mt7610u.Lib.Noted

/-! # Received spectrum-management frames

`common/spectrum.c`, from `PeerSpectrumAction` down to the five sanity functions, on a little-endian host. -/

namespace Mt7610u.Spectrum

open Mt7610u.Lib Mt7610u.Lib.Noted

/-- A frame that was received: `Elem->Msg` and `Elem->MsgLen`. -/
structure Frame where
  msg : ℕ → Byte
  msgLen : ℕ

/-- `sizeof(HEADER_802_11)`. -/
def LENGTH_802_11 : ℕ := 24

def IE_TPC_REQUEST : Byte := 34
def IE_TPC_REPORT : Byte := 35
def IE_CHANNEL_SWITCH_ANNOUNCEMENT : Byte := 37
def IE_MEASUREMENT_REQUEST : Byte := 38
def IE_MEASUREMENT_REPORT : Byte := 39

def RM_BASIC : Byte := 0
def RM_CCA : Byte := 1
def RM_RPI_HISTOGRAM : Byte := 2

def SPEC_MRQ : Byte := 0
def SPEC_MRP : Byte := 1
def SPEC_TPCRQ : Byte := 2
def SPEC_TPCRP : Byte := 3
def SPEC_CHANNEL_SWITCH : Byte := 4

structure ChSwAnnInfo where
  chSwMode : Byte
  channel : Byte
  chSwCnt : Byte
deriving DecidableEq

structure MeasureReqInfo where
  token : Byte
  reqMode : Byte
  reqType : Byte
deriving DecidableEq

structure MeasureReq where
  chNum : Byte
  measureStartTime : BitVec 64
  measureDuration : BitVec 16
deriving DecidableEq

structure MeasureReportInfo where
  token : Byte
  reportMode : Byte
  reportType : Byte
deriving DecidableEq

/-- The buffer for the report, as `MEASURE_RPI_REPORT` lays it out. The map of a basic report and the busy fraction of
a CCA report lie over the first density. -/
structure MeasureReport where
  chNum : Byte
  measureStartTime : List Byte
  measureDuration : List Byte
  rpiDensity : List Byte
deriving DecidableEq

/-- The buffer after `NdisZeroMemory`. -/
def MeasureReport.zero : MeasureReport := ⟨0, List.replicate 8 0, List.replicate 2 0, List.replicate 8 0⟩

structure TpcReportInfo where
  txPwr : Byte
  linkMargin : Byte
deriving DecidableEq

def load (w : ℕ) (bs : List Byte) : BitVec w := BitVec.ofNat w (Nat.ofDigits 256 (bs.map BitVec.toNat))

def SWAP16 (x : BitVec 16) : BitVec 16 := (x &&& 0x00ff) <<< 8 ||| (x &&& 0xff00) >>> 8

def SWAP64 (x : BitVec 64) : BitVec 64 :=
  (x &&& 0x00000000000000ff) <<< 56 ||| (x &&& 0x000000000000ff00) <<< 40 |||
    (x &&& 0x0000000000ff0000) <<< 24 ||| (x &&& 0x00000000ff000000) <<< 8 |||
    (x &&& 0x000000ff00000000) >>> 8 ||| (x &&& 0x0000ff0000000000) >>> 24 |||
    (x &&& 0x00ff000000000000) >>> 40 ||| (x &&& 0xff00000000000000) >>> 56

/-! ### The sanity functions -/

/-- The `switch` over the number of the element at `p`. -/
def eidSwitch {α : Type} (f : Frame) (eid : Byte) (take : ℕ → α → Noted α) (p : ℕ) (s : Bool × α) :
    Noted (Bool × α) := do
  let e ← fetch f.msg p
  if e = eid then do
    let out ← take p s.2
    pure (true, out)
  else pure s

/-- The loop over the elements from `start` on. The pointer to the end is the end of the frame however short the frame
is: what `MsgLen` loses by wrapping around is added to the pointer again. -/
def eidLoop {α : Type} (f : Frame) (eid : Byte) (take : ℕ → α → Noted α) (start : ℕ) (out : α) : Noted (Bool × α) :=
  walk f.msg f.msgLen (eidSwitch f eid take) start (false, out)

def tokenLoop {α : Type} (f : Frame) (eid : Byte) (take : ℕ → α → Noted α) (out : α) : Noted (Bool × Byte × α) := do
  let dialogToken ← fetch f.msg (LENGTH_802_11 + 2)
  let r ← eidLoop f eid take (LENGTH_802_11 + 3) out
  pure (r.1, dialogToken, r.2)

def takeChSwAnn (f : Frame) (p : ℕ) (_ : ChSwAnnInfo) : Noted ChSwAnnInfo := do
  let chSwMode ← fetch f.msg (p + 2)
  let channel ← fetch f.msg (p + 3)
  let chSwCnt ← fetch f.msg (p + 4)
  pure ⟨chSwMode, channel, chSwCnt⟩

def peerChSwAnnSanity (f : Frame) (out : ChSwAnnInfo) : Noted (Bool × ChSwAnnInfo) :=
  eidLoop f IE_CHANNEL_SWITCH_ANNOUNCEMENT (takeChSwAnn f) (LENGTH_802_11 + 2) out

def takeMeasureReq (f : Frame) (p : ℕ) (_ : MeasureReqInfo × MeasureReq) : Noted (MeasureReqInfo × MeasureReq) := do
  let token ← fetch f.msg (p + 2)
  let reqMode ← fetch f.msg (p + 3)
  let reqType ← fetch f.msg (p + 4)
  let chNum ← fetch f.msg (p + 5)
  let measureStartTime ← fetchMany f.msg (p + 6) 8
  let measureDuration ← fetchMany f.msg (p + 14) 2
  pure (⟨token, reqMode, reqType⟩, ⟨chNum, SWAP64 (load 64 measureStartTime), SWAP16 (load 16 measureDuration)⟩)

def peerMeasureReqSanity (f : Frame) (out : MeasureReqInfo × MeasureReq) :
    Noted (Bool × Byte × MeasureReqInfo × MeasureReq) :=
  tokenLoop f IE_MEASUREMENT_REQUEST (takeMeasureReq f) out

/-- A report with `k` octets behind the duration. -/
def takeReport (f : Frame) (p k : ℕ) (report : MeasureReport) : Noted MeasureReport := do
  let chNum ← fetch f.msg (p + 5)
  let measureStartTime ← fetchMany f.msg (p + 6) 8
  let measureDuration ← fetchMany f.msg (p + 14) 2
  let octets ← fetchMany f.msg (p + 16) k
  pure ⟨chNum, measureStartTime, measureDuration, octets ++ report.rpiDensity.drop k⟩

def takeReportOf (f : Frame) (p : ℕ) (reportType : Byte) (report : MeasureReport) : Noted MeasureReport :=
  if reportType = RM_BASIC then takeReport f p 1 report
  else if reportType = RM_CCA then takeReport f p 1 report
  else if reportType = RM_RPI_HISTOGRAM then takeReport f p 8 report
  else pure report

def takeMeasureReport (f : Frame) (p : ℕ) (out : MeasureReportInfo × MeasureReport) :
    Noted (MeasureReportInfo × MeasureReport) := do
  let token ← fetch f.msg (p + 2)
  let reportMode ← fetch f.msg (p + 3)
  let reportType ← fetch f.msg (p + 4)
  let report ← takeReportOf f p reportType out.2
  pure (⟨token, reportMode, reportType⟩, report)

def peerMeasureReportSanity (f : Frame) (out : MeasureReportInfo × MeasureReport) :
    Noted (Bool × Byte × MeasureReportInfo × MeasureReport) :=
  tokenLoop f IE_MEASUREMENT_REPORT (takeMeasureReport f) out

def peerTpcReqSanity (f : Frame) : Noted (Bool × Byte × Unit) := tokenLoop f IE_TPC_REQUEST (fun _ => pure) ()

def takeTpcRep (f : Frame) (p : ℕ) (_ : TpcReportInfo) : Noted TpcReportInfo := do
  let txPwr ← fetch f.msg (p + 2)
  let linkMargin ← fetch f.msg (p + 3)
  pure ⟨txPwr, linkMargin⟩

def peerTpcRepSanity (f : Frame) (out : TpcReportInfo) : Noted (Bool × Byte × TpcReportInfo) :=
  tokenLoop f IE_TPC_REPORT (takeTpcRep f) out

/-! ### The handlers -/

/-- What the handler is left with of a frame it accepts. -/
inductive Accepted
  | channelSwitch (newChannel secondary : Byte)
  | chSwAnn (addr3 : List Byte) (info : ChSwAnnInfo)
  | measureReq (addr2 : List Byte) (dialogToken : Byte) (info : MeasureReqInfo) (req : MeasureReq)
  | measureReport (addr1 addr2 : List Byte) (dialogToken : Byte) (info : MeasureReportInfo) (report : MeasureReport)
  | tpcReq (addr2 : List Byte) (dialogToken : Byte)
  | tpcRep (dialogToken : Byte) (info : TpcReportInfo)
deriving DecidableEq

/-- What the handlers find: whether 802.11h is on, whether the device is a station, whether the buffer for a report can
be allocated, and what the stack holds where `PeerMeasureReqAction` has its variables. -/
structure Config where
  bIEEE80211H : Bool
  opModeSta : Bool
  canAlloc : Bool
  stack : MeasureReqInfo × MeasureReq

def addr1 (f : Frame) : Noted (List Byte) := fetchMany f.msg 4 6
def addr2 (f : Frame) : Noted (List Byte) := fetchMany f.msg 10 6
def addr3 (f : Frame) : Noted (List Byte) := fetchMany f.msg 16 6

def peerChSwAnnAction (cfg : Config) (f : Frame) : Noted (List Accepted) := do
  let r ← peerChSwAnnSanity f ⟨0, 0, 0⟩
  if r.1 ∧ cfg.opModeSta then do
    let a ← addr3 f
    pure [.chSwAnn a r.2]
  else pure []

def peerMeasureReqAction (cfg : Config) (f : Frame) : Noted (List Accepted) := do
  let r ← peerMeasureReqSanity f cfg.stack
  if r.1 then do
    let a ← addr2 f
    pure [.measureReq a r.2.1 r.2.2.1 r.2.2.2]
  else pure []

def peerMeasureReportAction (cfg : Config) (f : Frame) : Noted (List Accepted) :=
  if cfg.canAlloc then do
    let r ← peerMeasureReportSanity f (⟨0, 0, 0⟩, .zero)
    if r.1 then do
      let a ← addr1 f
      let b ← addr2 f
      pure [.measureReport a b r.2.1 r.2.2.1 r.2.2.2]
    else pure []
  else pure []

def peerTpcReqAction (f : Frame) : Noted (List Accepted) := do
  let _ ← fetch f.msg (LENGTH_802_11 + 2)
  let r ← peerTpcReqSanity f
  if r.1 then do
    let a ← addr2 f
    pure [.tpcReq a r.2.1]
  else pure []

def peerTpcRepAction (f : Frame) : Noted (List Accepted) := do
  let r ← peerTpcRepSanity f ⟨0, 0⟩
  if r.1 then pure [.tpcRep r.2.1 r.2.2] else pure []

def secondaryOffset (f : Frame) : Noted Byte :=
  if f.msgLen = LENGTH_802_11 + 2 + 3 + 1 then fetch f.msg (LENGTH_802_11 + 9) else pure 0

def channelSwitchIe (f : Frame) : Noted (List Accepted) := do
  let _ ← fetch f.msg (LENGTH_802_11 + 4)
  let newChannel ← fetch f.msg (LENGTH_802_11 + 5)
  let _ ← fetch f.msg (LENGTH_802_11 + 6)
  let secondary ← secondaryOffset f
  let eid ← fetch f.msg (LENGTH_802_11 + 2)
  if eid = IE_CHANNEL_SWITCH_ANNOUNCEMENT then do
    let len ← fetch f.msg (LENGTH_802_11 + 3)
    pure (if len = 3 then [.channelSwitch newChannel secondary] else [])
  else pure []

/-- The `switch` over the action. -/
def actionSwitch (cfg : Config) (f : Frame) (action : Byte) : Noted (List Accepted) :=
  if cfg.bIEEE80211H = false then pure []
  else if action = SPEC_MRQ then peerMeasureReqAction cfg f
  else if action = SPEC_MRP then peerMeasureReportAction cfg f
  else if action = SPEC_TPCRQ then peerTpcReqAction f
  else if action = SPEC_TPCRP then peerTpcRepAction f
  else if action = SPEC_CHANNEL_SWITCH then do
    let a ← channelSwitchIe f
    let b ← peerChSwAnnAction cfg f
    pure (a ++ b)
  else pure []

def peerSpectrumAction (cfg : Config) (f : Frame) : Noted (List Accepted) := do
  let action ← fetch f.msg (LENGTH_802_11 + 1)
  actionSwitch cfg f action

end Mt7610u.Spectrum
