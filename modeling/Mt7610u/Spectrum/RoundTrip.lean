import Mt7610u.Spectrum.Bounds
import Mt7610u.Spectrum.Builder

/-! # What is sent and what is received -/

namespace Mt7610u.Spectrum

open Mt7610u.Lib Mt7610u.Lib.Noted Mt7610u.Lib.Elements

/-! ### What is asked -/

def reportOctets (reportType : Byte) (report : MeasureReport) : List Byte :=
  if reportType = RM_BASIC ∨ reportType = RM_CCA then
    report.chNum :: report.measureStartTime ++ report.measureDuration ++ report.rpiDensity.take 1
  else if reportType = RM_RPI_HISTOGRAM then
    report.chNum :: report.measureStartTime ++ report.measureDuration ++ report.rpiDensity.take 8
  else []

section

variable (da currentAddress : Bytes 6)

/-- A measurement report comes back: accepted, with its tokens, mode and type, no report octet that is not of the
payload, and an element that ends where the frame does. -/
def ReportRoundTrips (dialogToken measureToken mode type reportInfoLen : Byte) (report : ℕ → Byte) : Prop :=
  ∀ scratch stack behind : ℕ → Byte,
    let o := enqueueMeasurementRep scratch stack da currentAddress dialogToken measureToken mode type reportInfoLen
      (some report)
    let f := o.received behind
    let r := (peerMeasureReportSanity f (⟨0, 0, 0⟩, .zero)).val
    r.1 = true ∧ r.2.1 = dialogToken ∧ r.2.2.1 = ⟨measureToken, mode, type⟩ ∧
      reportOctets type r.2.2.2 <+: read report reportInfoLen.toNat ∧ next f.msg 27 = f.msgLen

/-- A measurement request comes back, if one is sent: accepted, with its token, type, channel, start time and duration,
and an element that ends where the frame does. -/
def RequestRoundTrips (measureReqToken measureReqType measureCh : Byte) (measureStartTime : BitVec 64) : Prop :=
  ∀ (scratch behind : ℕ → Byte) (stack : MeasureReqInfo × MeasureReq) (o : Out),
    setMeasureReqProc scratch da currentAddress measureReqToken measureReqType measureCh measureStartTime = some o →
    let f := o.received behind
    let r := (peerMeasureReqSanity f stack).val
    r.1 = true ∧ r.2.1 = measureReqToken ∧ r.2.2.1.token = measureReqToken ∧ r.2.2.1.reqType = measureReqType ∧
      r.2.2.2 = ⟨measureCh, measureStartTime, 2000⟩ ∧ next f.msg 29 = f.msgLen

def TpcRoundTrips (dialogToken txPwr linkMargin : Byte) : Prop :=
  ∀ scratch behind : ℕ → Byte,
    let o := enqueueTPCRep scratch da currentAddress dialogToken txPwr linkMargin
    let f := o.received behind
    let r := (peerTpcRepSanity f ⟨0, 0⟩).val
    r.1 = true ∧ r.2.1 = dialogToken ∧ r.2.2 = ⟨txPwr, linkMargin⟩ ∧ next f.msg 27 = f.msgLen

end

/-! ### A frame with one element -/

theorem val_eidLoop_single {α : Type} {f : Frame} {eid : Byte} {take : ℕ → α → Noted α} {p : ℕ} {out : α}
    (he : f.msg p = eid) (hn : next f.msg p = f.msgLen) :
    (eidLoop f eid take p out).val = (true, (take p out).val) := by
  have hlast : f.msgLen < next f.msg (next f.msg p) := by
    have := lt_next f.msg (next f.msg p)
    omega
  unfold eidLoop
  rw [val_walk, complete_of_le hn.le, complete_of_lt hlast, List.foldl_cons, List.foldl_nil, val_eidSwitch, if_pos he]

theorem val_tokenLoop {α : Type} {f : Frame} {eid : Byte} {take : ℕ → α → Noted α} {out : α} :
    (tokenLoop f eid take out).val =
      ((eidLoop f eid take 27 out).val.1, f.msg 26, (eidLoop f eid take 27 out).val.2) := rfl

section

variable {da currentAddress : Bytes 6}

theorem tpcRoundTrips (dialogToken txPwr linkMargin : Byte) :
    TpcRoundTrips da currentAddress dialogToken txPwr linkMargin := by
  intro scratch behind o f r
  have hb : o.Built [CATEGORY_SPECTRUM, SPEC_TPCRP, dialogToken, IE_TPC_REPORT, 2, txPwr, linkMargin] :=
    (((Out.built_start scratch da currentAddress).append [[CATEGORY_SPECTRUM], [SPEC_TPCRP]]).append
      [[dialogToken]]).append [[IE_TPC_REPORT], [2], [txPwr, linkMargin]]
  have hm {i : ℕ} (hi : i < 7) : f.msg (24 + i) = _ := hb.msg behind hi
  have hnext : next f.msg 27 = f.msgLen := by
    show 27 + 2 + (f.msg (24 + 4)).toNat = o.frameLen
    rw [hm (by decide), hb.len]
    rfl
  have hloop : (eidLoop f IE_TPC_REPORT (takeTpcRep f) 27 ⟨0, 0⟩).val =
      (true, ⟨f.msg (24 + 5), f.msg (24 + 6)⟩) :=
    val_eidLoop_single (hm (i := 3) (by decide)) hnext
  rw [hm (by decide), hm (by decide)] at hloop
  have htoken : r.2.1 = dialogToken := hm (i := 2) (by decide)
  exact ⟨congrArg Prod.fst hloop, htoken, congrArg Prod.snd hloop, hnext⟩

/-! ### Reports -/

def reportElement (scratch stack : ℕ → Byte) (da currentAddress : Bytes 6)
    (dialogToken measureToken mode type reportInfoLen : Byte) : Out :=
  enqueueMeasurementRep scratch stack da currentAddress dialogToken measureToken mode type reportInfoLen none

theorem built_reportElement (scratch stack : ℕ → Byte) (dialogToken measureToken mode type reportInfoLen : Byte) :
    (reportElement scratch stack da currentAddress dialogToken measureToken mode type reportInfoLen).Built
      ([CATEGORY_SPECTRUM, SPEC_MRP, dialogToken, IE_MEASUREMENT_REPORT, 3 + reportInfoLen] ++
        read (copy stack 0 [measureToken, mode, type]) (3 + reportInfoLen).toNat) := by
  rw [← List.append_nil (read (copy stack 0 _) _)]
  exact (((Out.built_start scratch da currentAddress).append [[CATEGORY_SPECTRUM], [SPEC_MRP]]).append
    [[dialogToken]]).append
    [[IE_MEASUREMENT_REPORT], [3 + reportInfoLen], read (copy stack 0 [measureToken, mode, type]) (3 + reportInfoLen).toNat]

theorem enqueueMeasurementRep_some (scratch stack : ℕ → Byte)
    (dialogToken measureToken mode type reportInfoLen : Byte) (report : ℕ → Byte) :
    let o := reportElement scratch stack da currentAddress dialogToken measureToken mode type reportInfoLen
    enqueueMeasurementRep scratch stack da currentAddress dialogToken measureToken mode type reportInfoLen
        (some report) =
      if 0 < reportInfoLen then
        ⟨copy o.buf (27 + o.frameLen) ([read report reportInfoLen.toNat].flatten),
          o.frameLen + [read report reportInfoLen.toNat].flatten.length⟩
      else o := rfl

theorem next_report (scratch stack behind : ℕ → Byte) (dialogToken measureToken mode type reportInfoLen : Byte)
    (report : ℕ → Byte) :
    let f := (enqueueMeasurementRep scratch stack da currentAddress dialogToken measureToken mode type reportInfoLen
      (some report)).received behind
    f.msgLen = next f.msg 27 + reportInfoLen.toNat := by
  have hbuilt := @built_reportElement da currentAddress scratch stack dialogToken measureToken mode type reportInfoLen
  have hlen := hbuilt.len
  have hmsg : (Out.received _ behind).msg 28 = 3 + reportInfoLen := hbuilt.msg behind (i := 4) (by simp)
  rw [List.length_append, length_read] at hlen
  intro f
  have hf : f = (enqueueMeasurementRep scratch stack da currentAddress dialogToken measureToken mode type reportInfoLen
    (some report)).received behind := rfl
  rw [enqueueMeasurementRep_some] at hf
  generalize reportElement scratch stack da currentAddress dialogToken measureToken mode type reportInfoLen = o at *
  have hnext {g : Frame} (h : g.msg 28 = 3 + reportInfoLen) : next g.msg 27 = o.frameLen := by
    unfold next len
    rw [h, hlen]
    show 27 + 2 + (3 + reportInfoLen).toNat = 24 + (5 + (3 + reportInfoLen).toNat)
    omega
  have h28 : 28 < o.frameLen := by
    rw [hlen]
    show 28 < 24 + (5 + _)
    omega
  by_cases hpos : 0 < reportInfoLen
  · rw [if_pos hpos] at hf
    rw [hnext, hf]
    · show o.frameLen + (read report reportInfoLen.toNat ++ []).length = _
      rw [List.append_nil, length_read]
    · rw [← hmsg, hf]
      show (if 28 < o.frameLen + _ then copy o.buf _ _ 28 else _) = if 28 < o.frameLen then o.buf 28 else _
      rw [if_pos (by omega), if_pos h28, copy_of_lt (by omega)]
  · rw [if_neg hpos] at hf
    have hzero : reportInfoLen.toNat = 0 := by
      have := (BitVec.lt_def (x := 0) (y := reportInfoLen)).not.1 hpos
      simpa using this
    rw [hnext, hf, hzero]
    · rfl
    · rw [← hmsg, hf]

theorem val_report_empty (scratch stack behind : ℕ → Byte) (dialogToken measureToken mode type : Byte)
    (report : ℕ → Byte) :
    let f := (enqueueMeasurementRep scratch stack da currentAddress dialogToken measureToken mode type 0
      (some report)).received behind
    (peerMeasureReportSanity f (⟨0, 0, 0⟩, .zero)).val =
      (true, dialogToken, ⟨measureToken, mode, type⟩, (takeReportOf f 27 type .zero).val) := by
  intro f
  have hbuilt := @built_reportElement da currentAddress scratch stack dialogToken measureToken mode type 0
  have hm {i : ℕ} (hi : i < 8) : f.msg (24 + i) = _ := hbuilt.msg behind hi
  have hnext : next f.msg 27 = f.msgLen := (next_report scratch stack behind _ _ _ _ 0 report).symm
  have hloop : (eidLoop f IE_MEASUREMENT_REPORT (takeMeasureReport f) 27 (⟨0, 0, 0⟩, .zero)).val =
      (true, ⟨f.msg (24 + 5), f.msg (24 + 6), f.msg (24 + 7)⟩, (takeReportOf f 27 (f.msg (24 + 7)) .zero).val) :=
    val_eidLoop_single (hm (i := 3) (by decide)) hnext
  rw [hm (by decide), hm (by decide), hm (by decide)] at hloop
  have htoken : f.msg (24 + 2) = dialogToken := hm (by decide)
  have hval : (peerMeasureReportSanity f (⟨0, 0, 0⟩, .zero)).val = _ := val_tokenLoop
  rw [hval, hloop]
  exact congrArg (fun t => (true, t, _)) htoken

theorem reportOctets_ne_nil {type : Byte} (h : type < 3) (report : MeasureReport) : reportOctets type report ≠ [] := by
  unfold reportOctets
  split_ifs with h1 h2
  · exact List.cons_ne_nil _ _
  · exact List.cons_ne_nil _ _
  · simp only [RM_BASIC, RM_CCA, RM_RPI_HISTOGRAM] at h1 h2
    bv_omega

theorem reportOctets_of_le {type : Byte} (h : 3 ≤ type) (report : MeasureReport) : reportOctets type report = [] := by
  unfold reportOctets
  rw [if_neg, if_neg]
  · rintro rfl
    exact absurd h (by decide)
  · rintro (rfl | rfl)
    · exact absurd h (by decide)
    · exact absurd h (by decide)

theorem reportRoundTrips_iff (dialogToken measureToken mode type reportInfoLen : Byte) (report : ℕ → Byte) :
    ReportRoundTrips da currentAddress dialogToken measureToken mode type reportInfoLen report ↔
      reportInfoLen = 0 ∧ 3 ≤ type := by
  constructor
  · intro h
    obtain ⟨-, -, -, hprefix, hnext⟩ := h (mem []) (mem []) (mem [])
    have hlen := @next_report da currentAddress (mem []) (mem []) (mem []) dialogToken measureToken mode type
      reportInfoLen report
    have hzero : reportInfoLen.toNat = 0 := by
      dsimp only at hlen
      omega
    refine ⟨BitVec.eq_of_toNat_eq hzero, ?_⟩
    rw [hzero] at hprefix
    by_contra hlt
    exact reportOctets_ne_nil (BitVec.not_le.1 hlt) _ (List.prefix_nil.1 hprefix)
  · rintro ⟨rfl, htype⟩ scratch stack behind o f r
    have hval : r = _ := val_report_empty scratch stack behind dialogToken measureToken mode type report
    rw [hval, reportOctets_of_le htype]
    exact ⟨rfl, rfl, rfl, List.nil_prefix, (next_report scratch stack behind _ _ _ _ 0 report).symm⟩

/-! ### Requests -/

theorem toNat_load_pair (a b : Byte) : (load 16 [a, b]).toNat = a.toNat + 256 * b.toNat := by
  have ha := a.isLt
  have hb := b.isLt
  unfold load
  rw [BitVec.toNat_ofNat]
  show (a.toNat + 256 * (b.toNat + 256 * 0)) % 2 ^ 16 = _
  omega

theorem setWidth_swap16 (x : BitVec 16) : (SWAP16 x).setWidth 8 = x.extractLsb' 8 8 := by
  refine BitVec.eq_of_getLsbD_eq fun i hi => ?_
  unfold SWAP16
  have hcases : i = 0 ∨ i = 1 ∨ i = 2 ∨ i = 3 ∨ i = 4 ∨ i = 5 ∨ i = 6 ∨ i = 7 := by omega
  rcases hcases with rfl | rfl | rfl | rfl | rfl | rfl | rfl | rfl <;> simp

theorem snd_of_swap16 {a b : Byte} (h : SWAP16 (load 16 [a, b]) = 2000) : b = 0xd0 := by
  have hlow := setWidth_swap16 (load 16 [a, b])
  rw [h] at hlow
  have hnat := congrArg BitVec.toNat hlow
  rw [BitVec.extractLsb'_toNat, toNat_load_pair, Nat.shiftRight_eq_div_pow] at hnat
  have ha := a.isLt
  have hb := b.isLt
  have h208 : 208 = (a.toNat + 256 * b.toNat) / 2 ^ 8 % 2 ^ 8 := hnat
  refine BitVec.eq_of_toNat_eq ?_
  show b.toNat = 208
  omega

def requestBody (measureReqToken measureReqType measureCh : Byte) (measureStartTime : BitVec 64) : List Byte :=
  [CATEGORY_RM, RM_BASIC, measureReqToken, 1, 0, IE_MEASUREMENT_REQUEST, 3, measureReqToken, MEASURE_REQ_ENABLE,
    measureReqType, measureCh] ++ store64 measureStartTime ++ [0xd0, 0x07]

theorem built_request {scratch : ℕ → Byte} {measureReqToken measureReqType measureCh : Byte}
    {measureStartTime : BitVec 64} {o : Out}
    (h : setMeasureReqProc scratch da currentAddress measureReqToken measureReqType measureCh measureStartTime =
      some o) : o.Built (requestBody measureReqToken measureReqType measureCh measureStartTime) := by
  unfold setMeasureReqProc at h
  split at h
  · exact absurd h nofun
  · cases h
    exact (((((Out.built_start scratch da currentAddress).append [[CATEGORY_RM], [RM_BASIC]]).append
      [[measureReqToken]]).append [[1, 0]]).append
      [[IE_MEASUREMENT_REQUEST], [3], [measureReqToken, MEASURE_REQ_ENABLE, measureReqType]]).append
      [[measureCh] ++ store64 measureStartTime ++ store16 2000]

/-- **A request that is sent never comes back**: the duration is read from octets that are taken the wrong way round,
or that are not in the frame. -/
theorem requestRoundTrips_iff (measureReqToken measureReqType measureCh : Byte) (measureStartTime : BitVec 64) :
    RequestRoundTrips da currentAddress measureReqToken measureReqType measureCh measureStartTime ↔
      3 < measureReqType := by
  constructor
  · intro h
    by_contra htype
    obtain ⟨o, ho⟩ : ∃ o, setMeasureReqProc (mem []) da currentAddress measureReqToken measureReqType measureCh
        measureStartTime = some o := ⟨_, if_neg htype⟩
    obtain ⟨hacc, -, -, -, hreq, -⟩ := h (mem []) (mem []) (⟨0, 0, 0⟩, ⟨0, 0, 0⟩) o ho
    have hbuilt := built_request ho
    have hlen : o.frameLen = 45 := hbuilt.len
    have hm {i : ℕ} (hi : i < 21) : (o.received (mem [])).msg (24 + i) = _ := hbuilt.msg (mem []) hi
    have hbehind {i : ℕ} (hi : 45 ≤ i) : (o.received (mem [])).msg i = 0 := by
      show (if i < o.frameLen then o.buf i else mem [] i) = 0
      rw [if_neg (by omega)]
      rfl
    have hn : (o.received (mem [])).msgLen = 45 := hlen
    generalize o.received (mem []) = f at *
    obtain ⟨q, hq, he, s, hs⟩ := @val_eidLoop _ f _ (takeMeasureReq f) 27 (⟨0, 0, 0⟩, ⟨0, 0, 0⟩) hacc
    have hduration : SWAP16 (load 16 [f.msg (q + 14), f.msg (q + 15)]) = 2000 := by
      have hval : (peerMeasureReqSanity f (⟨0, 0, 0⟩, ⟨0, 0, 0⟩)).val.2.2 = (takeMeasureReq f q s).val := hs
      rw [hval] at hreq
      exact congrArg MeasureReq.measureDuration hreq
    have hlast := snd_of_swap16 hduration
    -- the number of repetitions reads as an empty element, the request as one of three octets
    have h27 : next f.msg 27 = 29 := by
      show 27 + 2 + (f.msg (24 + 4)).toNat = 29
      rw [hm (by decide)]
      rfl
    have h29 : next f.msg 29 = 34 := by
      show 29 + 2 + (f.msg (24 + 6)).toNat = 34
      rw [hm (by decide)]
      rfl
    rw [hn, complete_of_le (by omega), h27, complete_of_le (by omega), h29] at hq
    rcases List.mem_cons.1 hq with rfl | hq
    · have hone : f.msg (24 + 3) = 1 := hm (by decide)
      exact absurd (hone.symm.trans he) (by decide)
    rcases List.mem_cons.1 hq with rfl | hq
    · have hseven : f.msg (24 + 20) = 0x07 := hm (by decide)
      exact absurd (hseven.symm.trans hlast) (by decide)
    · have hge := (le_of_mem hq).1
      rw [hbehind (by omega)] at hlast
      exact absurd hlast (by decide)
  · intro htype scratch behind stack o ho
    unfold setMeasureReqProc at ho
    rw [if_pos htype] at ho
    exact absurd ho nofun

end

/-- **What comes back.** A report comes back exactly if it has no payload and a type the parser takes no octets for; a
request never does, unless its type is refused and none is sent; a TPC report always does. -/
theorem roundTrips_iff (da currentAddress : Bytes 6)
    (dialogToken measureToken mode type reportInfoLen : Byte) (report : ℕ → Byte)
    (measureReqToken measureReqType measureCh : Byte) (measureStartTime : BitVec 64) (txPwr linkMargin : Byte) :
    (ReportRoundTrips da currentAddress dialogToken measureToken mode type reportInfoLen report ↔
      reportInfoLen = 0 ∧ 3 ≤ type) ∧
    (RequestRoundTrips da currentAddress measureReqToken measureReqType measureCh measureStartTime ↔
      3 < measureReqType) ∧ TpcRoundTrips da currentAddress dialogToken txPwr linkMargin :=
  ⟨reportRoundTrips_iff _ _ _ _ _ _, requestRoundTrips_iff _ _ _ _, tpcRoundTrips _ _ _⟩

/-- A basic report of one octet, and the request for a basic report on channel 36. -/
theorem not_roundTrips_basic :
    ¬ ReportRoundTrips (fun _ => 0) (fun _ => 0) 1 2 0 RM_BASIC 1 (mem [36]) ∧
      ¬ RequestRoundTrips (fun _ => 0) (fun _ => 0) 1 RM_BASIC 36 0 := by
  constructor
  · intro h
    exact absurd ((reportRoundTrips_iff _ _ _ _ _ _).1 h).1 (by decide)
  · intro h
    exact absurd ((requestRoundTrips_iff _ _ _ _).1 h) (by decide)

end Mt7610u.Spectrum
