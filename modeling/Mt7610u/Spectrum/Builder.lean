import Mt7610u.Spectrum.Parser

/-! # Spectrum-management frames that are sent

`common/spectrum.c`, the frames that are put together piece by piece, on a little-endian host. -/

namespace Mt7610u.Spectrum

open Mt7610u.Lib

/-- `pOutBuffer` and `FrameLen`. -/
structure Out where
  buf : ℕ → Byte
  frameLen : ℕ

/-- `MakeOutgoingFrame`: the pieces one behind the other, and their length. -/
def makeOutgoingFrame (buffer : ℕ → Byte) (off : ℕ) (args : List (List Byte)) : (ℕ → Byte) × ℕ :=
  (copy buffer off args.flatten, args.flatten.length)

def Out.append (o : Out) (args : List (List Byte)) : Out :=
  let (buf, tempLen) := makeOutgoingFrame o.buf o.frameLen args
  ⟨buf, o.frameLen + tempLen⟩

/-- `MgtMacHeaderInit` for an action frame of a station, whose own address stands for the BSSID too. -/
def mgtMacHeaderInit (da currentAddress : Bytes 6) : List Byte :=
  [0xd0, 0, 0, 0] ++ List.ofFn da ++ List.ofFn currentAddress ++ List.ofFn currentAddress ++ [0, 0]

def Out.start (scratch : ℕ → Byte) (da currentAddress : Bytes 6) : Out :=
  ⟨copy scratch 0 (mgtMacHeaderInit da currentAddress), LENGTH_802_11⟩

def CATEGORY_SPECTRUM : Byte := 0
def CATEGORY_RM : Byte := 5

def insertActField (o : Out) (category actCode : Byte) : Out := o.append [[category], [actCode]]

def insertDialogToken (o : Out) (dialogToken : Byte) : Out := o.append [[dialogToken]]

def insertTpcReportIE (o : Out) (txPwr linkMargin : Byte) : Out :=
  o.append [[IE_TPC_REPORT], [2], [txPwr, linkMargin]]

def insertMeasureReqIE (o : Out) (len : Byte) (info : MeasureReqInfo) : Out :=
  o.append [[IE_MEASUREMENT_REQUEST], [len], [info.token, info.reqMode, info.reqType]]

def insertMeasureReportIE (o : Out) (stack : ℕ → Byte) (info : MeasureReportInfo) (reportInfoLen : Byte)
    (pReportInfo : Option (ℕ → Byte)) : Out :=
  let len : Byte := 3 + reportInfoLen
  let pMeasureReportIE := copy stack 0 [info.token, info.reportMode, info.reportType]
  let o' := o.append [[IE_MEASUREMENT_REPORT], [len], read pMeasureReportIE len.toNat]
  match pReportInfo with
  | none => o'
  | some report =>
    if 0 < reportInfoLen then
      let (buf, tempLen) := makeOutgoingFrame o'.buf (o.frameLen + o'.frameLen) [read report reportInfoLen.toNat]
      ⟨buf, o'.frameLen + tempLen⟩
    else o'

/-- `MakeMeasurementReqFrame`. A radio measurement request has a number of repetitions. -/
def makeMeasurementReqFrame (o : Out) (totalLen category action measureToken measureReqMode measureReqType : Byte)
    (numOfRepetitions : BitVec 16) : Out :=
  let o := insertActField o category action
  let o := insertDialogToken o measureToken
  let o :=
    if category = CATEGORY_RM then
      o.append [[numOfRepetitions.extractLsb' 0 8, numOfRepetitions.extractLsb' 8 8]]
    else o
  insertMeasureReqIE o totalLen ⟨measureToken, measureReqMode, measureReqType⟩

def enqueueMeasurementRep (scratch stack : ℕ → Byte) (da currentAddress : Bytes 6)
    (dialogToken measureToken measureReqMode measureReqType reportInfoLen : Byte)
    (pReportInfo : Option (ℕ → Byte)) : Out :=
  let o := Out.start scratch da currentAddress
  let o := insertActField o CATEGORY_SPECTRUM SPEC_MRP
  let o := insertDialogToken o dialogToken
  insertMeasureReportIE o stack ⟨measureToken, measureReqMode, measureReqType⟩ reportInfoLen pReportInfo

def enqueueTPCRep (scratch : ℕ → Byte) (da currentAddress : Bytes 6) (dialogToken txPwr linkMargin : Byte) : Out :=
  let o := Out.start scratch da currentAddress
  let o := insertActField o CATEGORY_SPECTRUM SPEC_TPCRP
  let o := insertDialogToken o dialogToken
  insertTpcReportIE o txPwr linkMargin

def store64 (x : BitVec 64) : List Byte := (List.range 8).map fun i => x.extractLsb' (8 * i) 8

def store16 (x : BitVec 16) : List Byte := (List.range 2).map fun i => x.extractLsb' (8 * i) 8

/-- `MeasureReqMode.field.Enable`. -/
def MEASURE_REQ_ENABLE : Byte := 2

/-- `Set_MeasureReq_Proc`, for arguments that name a known station. The duration is `cpu2le16(2000)` and the start time
`cpu2le64`, which change nothing on this host. -/
def setMeasureReqProc (scratch : ℕ → Byte) (da currentAddress : Bytes 6) (measureReqToken measureReqType measureCh : Byte)
    (measureStartTime : BitVec 64) : Option Out :=
  if 3 < measureReqType then none
  else
    let o := Out.start scratch da currentAddress
    let o := makeMeasurementReqFrame o 3 CATEGORY_RM RM_BASIC measureReqToken MEASURE_REQ_ENABLE measureReqType 1
    some (o.append [[measureCh] ++ store64 measureStartTime ++ store16 2000])

def Out.received (o : Out) (behind : ℕ → Byte) : Frame :=
  ⟨fun i => if i < o.frameLen then o.buf i else behind i, o.frameLen⟩

/-! ### What a frame holds -/

section

variable {o : Out} {bs : List Byte}

/-- The frame is the header and `bs`. -/
structure Out.Built (o : Out) (bs : List Byte) : Prop where
  len : o.frameLen = LENGTH_802_11 + bs.length
  body : HoldsAt o.buf LENGTH_802_11 bs

theorem Out.built_start (scratch : ℕ → Byte) (da currentAddress : Bytes 6) :
    (Out.start scratch da currentAddress).Built [] :=
  ⟨rfl, holdsAt_nil _ _⟩

theorem Out.Built.append (h : o.Built bs) (args : List (List Byte)) : (o.append args).Built (bs ++ args.flatten) := by
  constructor
  · show o.frameLen + args.flatten.length = _
    rw [h.len, List.length_append, Nat.add_assoc]
  · exact h.body.append_copy _ h.len

theorem Out.Built.msg (h : o.Built bs) (behind : ℕ → Byte) {i : ℕ} (hi : i < bs.length) :
    (o.received behind).msg (24 + i) = mem bs i := by
  have hlt : 24 + i < o.frameLen := by
    rw [h.len]
    exact Nat.add_lt_add_left hi 24
  show (if 24 + i < o.frameLen then o.buf (24 + i) else behind (24 + i)) = _
  rw [if_pos hlt]
  exact holdsAt_iff.1 h.body i hi

end

end Mt7610u.Spectrum
