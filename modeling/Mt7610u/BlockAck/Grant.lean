import Mt7610u.BlockAck.Conservation

/-! # The windows that the two ends agree on

`PeerAddBAReqAction` answers a request with a window that it computes beside the one that `BARecSessionAdd`
stores; `BAOriSessionAdd` takes the window that the peer grants. -/

namespace Mt7610u.BlockAck.Grant

open Reorder SessionSpec Tables Consistency Steps Conservation Lib.Runs

/-! ### The answer to a request -/

/-- The status code that `PeerAddBAReqAction` answers with. -/
def peerAddBAReqStatus (pAd : RtmpAdapter) (wcid : Fin 32) (msgLen : ℕ) (frame : FrameAddbaReq) : ℕ :=
  if peerAddBAReqActionSanity msgLen frame then
    if ¬ pAd.cfg.bBADecline ∧ 2 ≤ (pAd.content wcid).maxHtPhyMode then
      if (baRecSessionAdd pAd wcid frame).1 then 0 else 38
    else 37
  else 1

/-- `BufSize` of the response: the smaller of the two, in octets, and 64 for none. -/
def responseBufSize (cfg : Config) (frame : FrameAddbaReq) : Fin 256 :=
  let bufSize := min (Fin.ofNat 256 frame.bufSize) cfg.rxBAWinLimit
  if bufSize = 0 then 64 else bufSize

/-- The response frame of `PeerAddBAReqAction`; `alloc` says whether there is memory for it. -/
def peerAddBAReqResponse (pAd : RtmpAdapter) (wcid : ℕ) (msgLen : ℕ) (frame : FrameAddbaReq) (alloc : Bool) :
    Option FrameAddbaRsp :=
  if h : wcid < 32 then
    if alloc then
      some
        { statusCode := peerAddBAReqStatus pAd ⟨wcid, h⟩ msgLen frame
          baPolicy := 1
          tid := frame.tid
          bufSize := responseBufSize pAd.cfg frame
          timeOutValue := 0 }
    else none
  else none

/-- What is asked of the window in a response `rsp` to `frame`: it is the one that is stored for the station in
`pAd`, between 1 and 64, and neither end's limit is exceeded. -/
structure WindowAgrees (pAd : RtmpAdapter) (wcid : Fin 32) (frame : FrameAddbaReq) (rsp : FrameAddbaRsp) : Prop where
  opened : recSlot pAd (wcid, frame.tid) ≠ 0
  stored : rsp.bufSize = (pAd.baRecEntry (recSlot pAd (wcid, frame.tid))).baWinSize
  pos : 1 ≤ rsp.bufSize
  le_max : rsp.bufSize ≤ 64
  le_limit : rsp.bufSize ≤ pAd.cfg.rxBAWinLimit
  le_asked : frame.bufSize ≠ 0 → rsp.bufSize ≤ frame.bufSize

/-- When the window of a response is right: there is a local limit; the octet of `BufSize` is not 0 unless the
limit is 64 or more; and one of the two is at most 64. -/
def GrantFits (cfg : Config) (frame : FrameAddbaReq) : Prop :=
  (cfg.rxBAWinLimit : ℕ) ≠ 0 ∧ (frame.bufSize % 256 = 0 → 64 ≤ (cfg.rxBAWinLimit : ℕ)) ∧
    (frame.bufSize % 256 ≤ 64 ∨ (cfg.rxBAWinLimit : ℕ) ≤ 64)

theorem responseBufSize_eq (cfg : Config) (frame : FrameAddbaReq) :
    responseBufSize cfg frame = recWinSize cfg frame := rfl

theorem val_responseBufSize (cfg : Config) (frame : FrameAddbaReq) :
    (responseBufSize cfg frame : ℕ) =
      if min (frame.bufSize % 256) (cfg.rxBAWinLimit : ℕ) = 0 then 64
      else min (frame.bufSize % 256) (cfg.rxBAWinLimit : ℕ) := by
  have hmin : ((min (Fin.ofNat 256 frame.bufSize) cfg.rxBAWinLimit : Fin 256) : ℕ) =
      min (frame.bufSize % 256) (cfg.rxBAWinLimit : ℕ) := by
    rw [Fin.coe_min]
    rfl
  unfold responseBufSize
  dsimp only
  rw [← hmin]
  by_cases h0 : min (Fin.ofNat 256 frame.bufSize) cfg.rxBAWinLimit = 0
  · rw [if_pos h0, if_pos (by rw [h0]; rfl)]
    rfl
  · have hv : ¬ ((min (Fin.ofNat 256 frame.bufSize) cfg.rxBAWinLimit : Fin 256) : ℕ) = 0 :=
      fun hc => h0 (Fin.ext hc)
    rw [if_neg h0, if_neg hv]

theorem grantFits_iff (cfg : Config) (frame : FrameAddbaReq) :
    ((responseBufSize cfg frame : ℕ) ≤ 64 ∧ (responseBufSize cfg frame : ℕ) ≤ cfg.rxBAWinLimit ∧
      (frame.bufSize ≠ 0 → (responseBufSize cfg frame : ℕ) ≤ frame.bufSize)) ↔ GrantFits cfg frame := by
  rw [val_responseBufSize]
  unfold GrantFits
  split_ifs with h0 <;> omega

theorem recSlot_baRecSessionAdd {pAd : RtmpAdapter} (h : TableInv pAd) (wcid : Fin 32) (frame : FrameAddbaReq)
    (hok : (baRecSessionAdd pAd wcid frame).1 = true) : let pAd' := (baRecSessionAdd pAd wcid frame).2
    recSlot pAd' (wcid, frame.tid) ≠ 0 ∧
      (pAd'.baRecEntry (recSlot pAd' (wcid, frame.tid))).baWinSize = recWinSize pAd.cfg frame := by
  intro pAd'
  by_cases hs : (pAd.content wcid).baRecWcidArray frame.tid = 0
  · by_cases hn : 127 ≤ pAd.numAsRecipient
    · simp [baRecSessionAdd, baTableAllocRecEntry, hs, hn] at hok
    · obtain ⟨i, hf, hi, -⟩ := h.recp.find_free hn
      have hcode : pAd' = fillRecEntry
          { pAd.setRecStatus i .used with numAsRecipient := pAd.numAsRecipient + 1 } wcid frame i i := by
        simp only [pAd', baRecSessionAdd, baTableAllocRecEntry, hs, if_pos, if_neg hn, hf]
      rw [hcode]
      simp [fillRecEntry, recSlot, RtmpAdapter.setStation, RtmpAdapter.onRecEntry, MacTableEntry.openRec,
        MacTableEntry.setRecIdx, openSession, RtmpAdapter.setRecStatus, hi]
  · have hcode : pAd' = fillRecEntry (pAd.onRecEntry ((pAd.content wcid).baRecWcidArray frame.tid)
        Session.baRefreshReorderingMpdus) wcid frame ((pAd.content wcid).baRecWcidArray frame.tid)
        ((pAd.content wcid).baRecWcidArray frame.tid) := by
      simp only [pAd', baRecSessionAdd, if_neg hs]
    rw [hcode]
    simp [fillRecEntry, recSlot, RtmpAdapter.setStation, RtmpAdapter.onRecEntry, MacTableEntry.openRec,
      MacTableEntry.setRecIdx, openSession, hs]

theorem cfg_peerAddBAReqAction (pAd : RtmpAdapter) (wcid msgLen : ℕ) (frame : FrameAddbaReq) :
    (peerAddBAReqAction pAd wcid msgLen frame).cfg = pAd.cfg := by
  have hadd (w : Fin 32) : (baRecSessionAdd pAd w frame).2.cfg = pAd.cfg := by
    unfold baRecSessionAdd
    dsimp only
    by_cases hs : (pAd.content w).baRecWcidArray frame.tid = 0
    · rw [if_pos hs]
      unfold baTableAllocRecEntry
      by_cases hn : 127 ≤ pAd.numAsRecipient
      · rw [if_pos hn]
      · rw [if_neg hn]
        cases (List.finRange 128).find? fun i => i ≠ 0 ∧ (pAd.baRecEntry i).recBaStatus = .none <;> rfl
    · rw [if_neg hs]
      rfl
  unfold peerAddBAReqAction
  split_ifs
  · exact hadd _
  · rfl
  · rfl

structure Granted (pAd : RtmpAdapter) (wcid : Fin 32) (msgLen : ℕ) (frame : FrameAddbaReq) (alloc : Bool) : Prop where
  sound : peerAddBAReqActionSanity msgLen frame = true
  allowed : ¬ pAd.cfg.bBADecline ∧ 2 ≤ (pAd.content wcid).maxHtPhyMode
  room : recSlot pAd (wcid, frame.tid) ≠ 0 ∨ pAd.numAsRecipient < 127
  memory : alloc = true

theorem baRecSessionAdd_ok_iff {pAd : RtmpAdapter} (h : TableInv pAd) (wcid : Fin 32) (frame : FrameAddbaReq) :
    (baRecSessionAdd pAd wcid frame).1 = true ↔
      recSlot pAd (wcid, frame.tid) ≠ 0 ∨ pAd.numAsRecipient < 127 := by
  unfold recSlot baRecSessionAdd baTableAllocRecEntry
  dsimp only
  by_cases hs : (pAd.content wcid).baRecWcidArray frame.tid = 0
  · by_cases hn : 127 ≤ pAd.numAsRecipient
    · simp only [hs, if_pos, if_pos hn, ne_eq, not_true, false_or]
      constructor
      · intro hc
        cases hc
      · intro hlt
        omega
    · obtain ⟨i, hf, -, -⟩ := h.recp.find_free hn
      simp only [hs, if_pos, if_neg hn, hf, ne_eq, not_true, false_or, true_iff]
      omega
  · simp only [hs, if_false, ne_eq, not_false_iff, true_or]

theorem status_eq_zero_iff {pAd : RtmpAdapter} (h : TableInv pAd) (wcid : Fin 32) (msgLen : ℕ)
    (frame : FrameAddbaReq) :
    peerAddBAReqStatus pAd wcid msgLen frame = 0 ↔ peerAddBAReqActionSanity msgLen frame = true ∧
      (¬ pAd.cfg.bBADecline ∧ 2 ≤ (pAd.content wcid).maxHtPhyMode) ∧
      (recSlot pAd (wcid, frame.tid) ≠ 0 ∨ pAd.numAsRecipient < 127) := by
  rw [← baRecSessionAdd_ok_iff h]
  unfold peerAddBAReqStatus
  split_ifs with hsanity hht hadd
  · exact ⟨fun _ => ⟨hsanity, hht, hadd⟩, fun _ => rfl⟩
  · exact ⟨nofun, fun hc => absurd hc.2.2 hadd⟩
  · exact ⟨nofun, fun hc => absurd hc.2.1 hht⟩
  · exact ⟨nofun, fun hc => absurd hc.1 hsanity⟩

/-- What is asked of the answer to a request: a window that is granted is right. -/
def AnswerAgrees (pAd : RtmpAdapter) (wcid : Fin 32) (msgLen : ℕ) (frame : FrameAddbaReq) (alloc : Bool) : Prop :=
  ∀ rsp, peerAddBAReqResponse pAd wcid msgLen frame alloc = some rsp → rsp.statusCode = 0 →
    WindowAgrees (peerAddBAReqAction pAd wcid msgLen frame) wcid frame rsp

theorem answerAgrees_iff {pAd : RtmpAdapter} (h : TableInv pAd) (wcid : Fin 32) (msgLen : ℕ)
    (frame : FrameAddbaReq) (alloc : Bool) :
    AnswerAgrees pAd wcid msgLen frame alloc ↔
      (Granted pAd wcid msgLen frame alloc → GrantFits pAd.cfg frame) := by
  unfold AnswerAgrees peerAddBAReqResponse
  rw [dif_pos wcid.isLt]
  have hcfg := cfg_peerAddBAReqAction pAd wcid msgLen frame
  constructor
  · intro hall hgranted
    rw [if_pos hgranted.memory] at hall
    have hstatus := (status_eq_zero_iff h wcid msgLen frame).2 ⟨hgranted.sound, hgranted.allowed, hgranted.room⟩
    obtain ⟨-, -, -, hmax, hlimit, hasked⟩ := hall _ rfl hstatus
    rw [hcfg] at hlimit
    exact (grantFits_iff pAd.cfg frame).1 ⟨hmax, hlimit, hasked⟩
  · intro hfits rsp hrsp hstatus
    split_ifs at hrsp with halloc
    obtain rfl := Option.some.inj hrsp
    obtain ⟨hsound, hallowed, hroom⟩ := (status_eq_zero_iff h wcid msgLen frame).1 hstatus
    have hcode : peerAddBAReqAction pAd wcid msgLen frame = (baRecSessionAdd pAd wcid frame).2 := by
      unfold peerAddBAReqAction
      rw [dif_pos wcid.isLt, if_pos ⟨hsound, hallowed⟩]
    obtain ⟨hopened, hwin⟩ := recSlot_baRecSessionAdd h wcid frame ((baRecSessionAdd_ok_iff h wcid frame).2 hroom)
    rw [← hcode] at hopened hwin
    obtain ⟨hmax, hlimit, hasked⟩ := (grantFits_iff pAd.cfg frame).2 (hfits ⟨hsound, hallowed, hroom, halloc⟩)
    refine ⟨hopened, ?_, ?_, hmax, ?_, hasked⟩
    · rw [hwin]
      rfl
    · have hne := recWinSize_ne_zero pAd.cfg frame
      rw [← responseBufSize_eq] at hne
      exact Nat.one_le_iff_ne_zero.2 fun hc => hne (Fin.ext hc)
    · rw [hcfg]
      exact hlimit

/-! ### The originator -/

/-- The response is one that `BAOriSessionAdd` takes: the station waits for it. -/
def Accepts (pAd : RtmpAdapter) (wcid : Fin 32) (rsp : FrameAddbaRsp) : Prop :=
  oriSlot pAd (wcid, rsp.tid) ≠ 0 ∧ (pAd.baOriEntry (oriSlot pAd (wcid, rsp.tid))).tid = rsp.tid ∧
    (pAd.baOriEntry (oriSlot pAd (wcid, rsp.tid))).oriBaStatus = .waitRes

def ampduLimit (sta : MacTableEntry) : ℕ :=
  if sta.ralinkChipset then 2 ^ (sta.maxRAmpduFactor + 3) else 2 ^ (sta.maxRAmpduFactor + 3) * 10 / 16 - 1

/-- What is asked of the originator's window, which is kept as the window minus one: it exceeds neither the
grant, nor the window `setUp` that `BAOriSessionSetUp` set, nor what the peer can take. -/
structure OriWindowFits (pAd : RtmpAdapter) (wcid : Fin 32) (rsp : FrameAddbaRsp) (setUp : Fin 256) : Prop where
  le_grant : (((baOriSessionAdd pAd wcid rsp).baOriEntry (oriSlot pAd (wcid, rsp.tid))).baWinSize : ℕ) ≤
    rsp.bufSize - 1
  le_setUp : ((baOriSessionAdd pAd wcid rsp).baOriEntry (oriSlot pAd (wcid, rsp.tid))).baWinSize ≤ setUp
  le_ampdu : (((baOriSessionAdd pAd wcid rsp).baOriEntry (oriSlot pAd (wcid, rsp.tid))).baWinSize : ℕ) ≤
    ampduLimit (pAd.content wcid)

theorem capped_le (peer chip winSize : Fin 256) :
    (if min peer chip < winSize then min peer chip else winSize) ≤ winSize ∧
      (if min peer chip < winSize then min peer chip else winSize) ≤ peer := by
  split_ifs with hlt
  · exact ⟨hlt.le, min_le_left _ _⟩
  · exact ⟨le_rfl, (not_lt.1 hlt).trans (min_le_left _ _)⟩

theorem baMaxWinSizeReasign_le (cfg : Config) (sta : MacTableEntry) (winSize : Fin 256) :
    baMaxWinSizeReasign cfg sta winSize ≤ winSize ∧
      ((baMaxWinSizeReasign cfg sta winSize : Fin 256) : ℕ) ≤ ampduLimit sta := by
  have hlimit : ((if sta.ralinkChipset then Fin.ofNat 256 (1 <<< (sta.maxRAmpduFactor + 3))
      else Fin.ofNat 256 ((((1 <<< (sta.maxRAmpduFactor + 3)) * 10) / 16) + 255) : Fin 256) : ℕ) ≤
        ampduLimit sta := by
    have h8 : 8 ≤ 2 ^ (sta.maxRAmpduFactor + 3) := by
      have := Nat.pow_le_pow_right (n := 2) (by omega) (Nat.le_add_left 3 sta.maxRAmpduFactor)
      omega
    unfold ampduLimit
    rw [Nat.one_shiftLeft]
    split_ifs
    · exact Nat.mod_le _ _
    · show (_ + 255) % 256 ≤ _
      omega
  obtain ⟨hle, hpeer⟩ := capped_le _ _ winSize
  exact ⟨hle, (Fin.le_def.1 hpeer).trans hlimit⟩

theorem oriWindowFits {pAd : RtmpAdapter} {wcid : Fin 32} {rsp : FrameAddbaRsp} (h : Accepts pAd wcid rsp) :
    OriWindowFits pAd wcid rsp (pAd.baOriEntry (oriSlot pAd (wcid, rsp.tid))).baWinSize := by
  have hwin : ((baOriSessionAdd pAd wcid rsp).baOriEntry (oriSlot pAd (wcid, rsp.tid))).baWinSize =
      baMaxWinSizeReasign pAd.cfg (pAd.content wcid)
        (min (pAd.baOriEntry (oriSlot pAd (wcid, rsp.tid))).baWinSize (Fin.ofNat 256 (rsp.bufSize % 256 - 1))) := by
    obtain ⟨hidx, htid, hwait⟩ := h
    unfold oriSlot at hidx htid hwait
    dsimp only at hidx htid hwait
    simp [baOriSessionAdd, hidx, htid, hwait, oriSlot, RtmpAdapter.setStation, RtmpAdapter.setOriEntry]
  obtain ⟨hle, hampdu⟩ := baMaxWinSizeReasign_le pAd.cfg (pAd.content wcid)
    (min (pAd.baOriEntry (oriSlot pAd (wcid, rsp.tid))).baWinSize (Fin.ofNat 256 (rsp.bufSize % 256 - 1)))
  rw [← hwin] at hle hampdu
  refine ⟨?_, hle.trans (min_le_left _ _), hampdu⟩
  have hgrant : (((baOriSessionAdd pAd wcid rsp).baOriEntry (oriSlot pAd (wcid, rsp.tid))).baWinSize : ℕ) ≤
      (rsp.bufSize % 256 - 1) % 256 := hle.trans (min_le_right _ _)
  omega

def WaitsFrom (pAd pAd' : RtmpAdapter) : Prop :=
  ∀ i, (pAd'.baOriEntry i).oriBaStatus = .waitRes →
    (pAd.baOriEntry i).oriBaStatus = .waitRes ∧ (pAd'.baOriEntry i).baWinSize = (pAd.baOriEntry i).baWinSize

theorem WaitsFrom.of_eq {pAd pAd' : RtmpAdapter} (h : pAd'.baOriEntry = pAd.baOriEntry) : WaitsFrom pAd pAd' := by
  intro i hw
  rw [h] at hw ⊢
  exact ⟨hw, rfl⟩

theorem WaitsFrom.trans {pAd pAd' pAd'' : RtmpAdapter} (h : WaitsFrom pAd pAd') (h' : WaitsFrom pAd' pAd'') :
    WaitsFrom pAd pAd'' := by
  intro i hw
  obtain ⟨hw', heq'⟩ := h' i hw
  obtain ⟨hw, heq⟩ := h i hw'
  exact ⟨hw, heq'.trans heq⟩

theorem WaitsFrom.of_update {pAd pAd' : RtmpAdapter} (i : Fin 128) (ent : BaOriEntry)
    (h : pAd'.baOriEntry = Function.update pAd.baOriEntry i ent)
    (hent : ent.oriBaStatus = .waitRes → (pAd.baOriEntry i).oriBaStatus = .waitRes ∧
      ent.baWinSize = (pAd.baOriEntry i).baWinSize) : WaitsFrom pAd pAd' := by
  intro j hw
  rw [h] at hw ⊢
  by_cases hj : j = i
  · subst hj
    rw [Function.update_self] at hw ⊢
    exact hent hw
  · rw [Function.update_of_ne hj] at hw ⊢
    exact ⟨hw, rfl⟩

theorem waitsFrom_freeOri (pAd : RtmpAdapter) (idx : Fin 128) : WaitsFrom pAd (baTableFreeOriEntry pAd idx) := by
  unfold baTableFreeOriEntry
  dsimp only
  split_ifs
  · exact .of_eq rfl
  · exact .of_update idx { pAd.baOriEntry idx with oriBaStatus := .none, token := 0 } rfl nofun
  · exact .of_update idx { pAd.baOriEntry idx with oriBaStatus := .none, token := 0 } rfl nofun
  · exact .of_eq rfl

theorem waitsFrom_oriTearDown (pAd : RtmpAdapter) (wcid : Fin 32) (tid : Fin 8) (bPassive elemAlloc : Bool) :
    WaitsFrom pAd (baOriSessionTearDown pAd wcid tid bPassive elemAlloc) := by
  unfold baOriSessionTearDown
  dsimp only
  split_ifs
  · exact .of_eq rfl
  · exact .of_eq rfl
  · exact waitsFrom_freeOri _ _

theorem waitsFrom_oriAdd (pAd : RtmpAdapter) (wcid : Fin 32) (frame : FrameAddbaRsp) :
    WaitsFrom pAd (baOriSessionAdd pAd wcid frame) := by
  unfold baOriSessionAdd
  dsimp only
  split_ifs
  · exact .of_update _ _ rfl nofun
  · exact .of_eq rfl

theorem waitsFrom_oriTimeout (pAd : RtmpAdapter) (i : Fin 128) :
    WaitsFrom pAd (baOriSessionSetupTimeout pAd i) := by
  unfold baOriSessionSetupTimeout
  dsimp only
  split_ifs
  · exact .of_eq rfl
  · exact .of_eq rfl
  · exact .of_update i { pAd.baOriEntry i with token := (pAd.baOriEntry i).token + 1 } rfl fun hw => ⟨hw, rfl⟩
  · exact waitsFrom_freeOri _ _

/-! The recipient's side leaves the originator table alone. -/

theorem oriEntry_freeRec (pAd : RtmpAdapter) (idx : Fin 128) :
    (baTableFreeRecEntry pAd idx).baOriEntry = pAd.baOriEntry := by
  unfold baTableFreeRecEntry
  dsimp only
  split_ifs <;> rfl

theorem oriEntry_recTearDown (pAd : RtmpAdapter) (wcid : Fin 32) (tid : Fin 8) (bPassive elemAlloc : Bool) :
    (baRecSessionTearDown pAd wcid tid bPassive elemAlloc).baOriEntry = pAd.baOriEntry := by
  unfold baRecSessionTearDown
  dsimp only
  split_ifs
  · rfl
  · rfl
  · exact oriEntry_freeRec _ _
  · exact oriEntry_freeRec _ _

theorem oriEntry_recAdd (pAd : RtmpAdapter) (wcid : Fin 32) (frame : FrameAddbaReq) :
    (baRecSessionAdd pAd wcid frame).2.baOriEntry = pAd.baOriEntry := by
  unfold baRecSessionAdd
  dsimp only
  by_cases hs : (pAd.content wcid).baRecWcidArray frame.tid = 0
  · rw [if_pos hs]
    unfold baTableAllocRecEntry
    by_cases hn : 127 ≤ pAd.numAsRecipient
    · rw [if_pos hn]
    · rw [if_neg hn]
      cases (List.finRange 128).find? fun i => i ≠ 0 ∧ (pAd.baRecEntry i).recBaStatus = .none <;> rfl
  · rw [if_neg hs]
    rfl

theorem oriEntry_addBAReq (pAd : RtmpAdapter) (wcid msgLen : ℕ) (frame : FrameAddbaReq) :
    (peerAddBAReqAction pAd wcid msgLen frame).baOriEntry = pAd.baOriEntry := by
  unfold peerAddBAReqAction
  split_ifs
  · exact oriEntry_recAdd _ _ _
  · rfl
  · rfl

theorem WaitsFrom.foldl {α : Type*} {f : RtmpAdapter → α → RtmpAdapter} (hf : ∀ a x, WaitsFrom a (f a x))
    (l : List α) (a : RtmpAdapter) : WaitsFrom a (l.foldl f a) :=
  run_invariant_all (I := fun b => WaitsFrom a b) (fun b x h => h.trans (hf b x)) l a (.of_eq rfl)

def IsSetUp : Op → Prop
  | .baOriSessionSetUp .. => True
  | _ => False

/-- **Only a set-up** makes an entry wait or gives the waiting one its window. -/
theorem step_waitsFrom (pAd : RtmpAdapter) (op : Op) (hop : ¬ IsSetUp op) : WaitsFrom pAd (step pAd op) := by
  cases op with
  | configure cfg => exact .of_eq rfl
  | baOriSessionSetUp wcid tid timeOut isForced => exact absurd trivial hop
  | baOriSessionAdd wcid frame => exact waitsFrom_oriAdd _ _ _
  | baOriSessionTearDown wcid tid bPassive elemAlloc => exact waitsFrom_oriTearDown _ _ _ _ _
  | baOriSessionSetupTimeout i => exact waitsFrom_oriTimeout _ _
  | baRecSessionAdd wcid frame => exact .of_eq (oriEntry_recAdd _ _ _)
  | baRecSessionTearDown wcid tid bPassive elemAlloc => exact .of_eq (oriEntry_recTearDown _ _ _ _ _)
  | baSessionTearDownALL wcid elemAlloc =>
    refine WaitsFrom.foldl (fun a tid => ?_) _ pAd
    exact (waitsFrom_oriTearDown _ _ _ _ _).trans (.of_eq (oriEntry_recTearDown _ _ _ _ _))
  | baRecSessionIdleTimeout i now32 =>
    simp only [Tables.step, Tables.baRecSessionIdleTimeout]
    split_ifs <;> exact .of_eq rfl
  | peerAddBAReqAction wcid msgLen frame => exact .of_eq (oriEntry_addBAReq _ _ _ _)
  | peerAddBARspAction wcid msgLen frame =>
    simp only [Tables.step, Tables.peerAddBARspAction]
    split_ifs
    all_goals first
      | exact .of_eq rfl
      | exact waitsFrom_oriAdd _ _ _
      | exact waitsFrom_oriTearDown _ _ _ _ _
  | peerDelBAAction wcid msgLen tid initiator =>
    simp only [Tables.step, Tables.peerDelBAAction]
    split_ifs
    · exact .of_eq (oriEntry_recTearDown _ _ _ _ _)
    · exact waitsFrom_oriTearDown _ _ _ _ _
    · exact .of_eq rfl
  | indicateAmpduPacket rx now32 legacyNow32 =>
    simp only [Tables.step, Tables.indicateAmpduPacket]
    split_ifs <;> exact .of_eq rfl
  | cntlEnqueueForRecv wcid msgLen tid q =>
    simp only [Tables.step, Tables.cntlEnqueueForRecv]
    split_ifs <;> exact .of_eq rfl
  | flushRecEntry i now32 => exact .of_eq rfl
  | baReOrderingBufferMaintain now32 =>
    refine WaitsFrom.foldl (fun a wcid => ?_) _ pAd
    split_ifs
    · exact .of_eq rfl
    · exact WaitsFrom.foldl (f := fun a tid => flushRecEntry now32 a ((a.content wcid).baRecWcidArray tid))
        (fun a tid => .of_eq rfl) _ a

structure SameWaits (pAd pAd' : RtmpAdapter) : Prop where
  cfg : pAd'.cfg = pAd.cfg
  status (i : Fin 128) : (pAd'.baOriEntry i).oriBaStatus = .waitRes ↔ (pAd.baOriEntry i).oriBaStatus = .waitRes
  window (i : Fin 128) : (pAd'.baOriEntry i).baWinSize = (pAd.baOriEntry i).baWinSize

theorem SameWaits.refl (pAd : RtmpAdapter) : SameWaits pAd pAd := ⟨rfl, fun _ => Iff.rfl, fun _ => rfl⟩

theorem sameWaits_allocOri (pAd : RtmpAdapter) (idx : Fin 128) :
    SameWaits pAd (baTableAllocOriEntry pAd idx).2.2 := by
  unfold baTableAllocOriEntry
  split_ifs with hn
  · exact .refl pAd
  · cases hf : (List.finRange 128).find? fun i => i ≠ 0 ∧ (pAd.baOriEntry i).oriBaStatus = .none with
    | none => exact .refl pAd
    | some i =>
      have hfree := List.find?_some hf
      simp only [decide_eq_true_eq] at hfree
      refine ⟨rfl, fun j => ?_, fun j => ?_⟩
      all_goals
        dsimp only [RtmpAdapter.setOriEntry]
        by_cases hj : j = i
        · subst hj
          simp [hfree.2]
        · rw [Function.update_of_ne hj]

theorem initOri_window {pAd a : RtmpAdapter} (h : SameWaits pAd a) (wcid : Fin 32) (tid : Fin 8) (timeOut : ℕ)
    {k : Fin 128} (idx : Fin 128) (hk : (a.baOriEntry k).oriBaStatus ≠ .waitRes) (i : Fin 128)
    (hw : ((initOriEntry a wcid tid timeOut k idx).baOriEntry i).oriBaStatus = .waitRes) :
    ((pAd.baOriEntry i).oriBaStatus = .waitRes ∧
        ((initOriEntry a wcid tid timeOut k idx).baOriEntry i).baWinSize = (pAd.baOriEntry i).baWinSize) ∨
      ((pAd.baOriEntry i).oriBaStatus ≠ .waitRes ∧
        ((initOriEntry a wcid tid timeOut k idx).baOriEntry i).baWinSize = pAd.cfg.rxBAWinLimit) := by
  unfold initOriEntry RtmpAdapter.setOriEntry RtmpAdapter.setStation at hw ⊢
  dsimp only at hw ⊢
  by_cases hi : i = k
  · subst hi
    rw [Function.update_self]
    exact Or.inr ⟨fun hc => hk ((h.status i).2 hc), by rw [h.cfg]⟩
  · rw [Function.update_of_ne hi] at hw ⊢
    exact Or.inl ⟨(h.status i).1 hw, h.window i⟩

theorem setUp_window (pAd : RtmpAdapter) (wcid : Fin 32) (tid : Fin 8) (timeOut : ℕ) (isForced : Bool)
    (i : Fin 128) (hw : ((baOriSessionSetUp pAd wcid tid timeOut isForced).baOriEntry i).oriBaStatus = .waitRes) :
    ((pAd.baOriEntry i).oriBaStatus = .waitRes ∧
        ((baOriSessionSetUp pAd wcid tid timeOut isForced).baOriEntry i).baWinSize = (pAd.baOriEntry i).baWinSize) ∨
      ((pAd.baOriEntry i).oriBaStatus ≠ .waitRes ∧
        ((baOriSessionSetUp pAd wcid tid timeOut isForced).baOriEntry i).baWinSize = pAd.cfg.rxBAWinLimit) := by
  have hentry : SameWaits pAd (if (pAd.content wcid).baOriWcidArray tid = 0 then
      baTableAllocOriEntry pAd ((pAd.content wcid).baOriWcidArray tid)
      else (some ((pAd.content wcid).baOriWcidArray tid), (pAd.content wcid).baOriWcidArray tid, pAd)).2.2 := by
    split_ifs
    · exact sameWaits_allocOri _ _
    · exact .refl pAd
  unfold baOriSessionSetUp at hw ⊢
  dsimp only at hw ⊢
  by_cases hauto : ¬ pAd.cfg.autoBA ∧ ¬ isForced
  · rw [if_pos hauto] at hw ⊢
    exact Or.inl ⟨hw, rfl⟩
  by_cases hfixed : pAd.cfg.fixedTxMode ≠ 0
  · rw [if_neg hauto, if_pos hfixed] at hw ⊢
    exact Or.inl ⟨hw, rfl⟩
  rw [if_neg hauto, if_neg hfixed] at hw ⊢
  generalize (if (pAd.content wcid).baOriWcidArray tid = 0 then
      baTableAllocOriEntry pAd ((pAd.content wcid).baOriWcidArray tid)
      else (some ((pAd.content wcid).baOriWcidArray tid), (pAd.content wcid).baOriWcidArray tid, pAd)) = r
      at hentry hw ⊢
  obtain ⟨_ | k, idx, a⟩ := r
  · exact Or.inl ⟨(hentry.status i).1 hw, hentry.window i⟩
  · dsimp only at hw hentry ⊢
    by_cases hlive : OriBlockackStatus.waitRes.toNat ≤ (a.baOriEntry k).oriBaStatus.toNat
    · rw [if_pos hlive] at hw ⊢
      exact Or.inl ⟨(hentry.status i).1 hw, hentry.window i⟩
    · rw [if_neg hlive] at hw ⊢
      exact initOri_window hentry wcid tid timeOut idx (fun hc => hlive (by rw [hc])) i hw

/-- The windows that `BAOriSessionSetUp` has set, beside the adapter: each when its entry begins to wait. -/
def noteSetUp (s : RtmpAdapter × (Fin 128 → Fin 256)) (op : Op) : RtmpAdapter × (Fin 128 → Fin 256) :=
  (step s.1 op, fun i =>
    if (s.1.baOriEntry i).oriBaStatus ≠ .waitRes ∧ ((step s.1 op).baOriEntry i).oriBaStatus = .waitRes then
      s.1.cfg.rxBAWinLimit
    else s.2 i)

/-- The window that the last set-up of the entry `i` has set. -/
def setUpWindow (pAd : RtmpAdapter) (ops : List Op) (i : Fin 128) : Fin 256 :=
  (run noteSetUp (pAd, fun _ => 0) ops).2 i

def WaitsWith (s : RtmpAdapter × (Fin 128 → Fin 256)) : Prop :=
  ∀ i, (s.1.baOriEntry i).oriBaStatus = .waitRes → (s.1.baOriEntry i).baWinSize = s.2 i

theorem noteSetUp_waitsWith (s : RtmpAdapter × (Fin 128 → Fin 256)) (op : Op) (h : WaitsWith s) :
    WaitsWith (noteSetUp s op) := by
  intro i hw
  have hcases : ((s.1.baOriEntry i).oriBaStatus = .waitRes ∧
        ((step s.1 op).baOriEntry i).baWinSize = (s.1.baOriEntry i).baWinSize) ∨
      ((s.1.baOriEntry i).oriBaStatus ≠ .waitRes ∧
        ((step s.1 op).baOriEntry i).baWinSize = s.1.cfg.rxBAWinLimit) := by
    by_cases hop : IsSetUp op
    · cases op <;> first | exact absurd hop (fun hc => hc) | exact setUp_window s.1 _ _ _ _ i hw
    · exact Or.inl (step_waitsFrom s.1 op hop i hw)
  unfold noteSetUp
  dsimp only
  obtain ⟨hbefore, heq⟩ | ⟨hbefore, heq⟩ := hcases
  · rw [if_neg fun hc => hc.1 hbefore, heq]
    exact h i hbefore
  · rw [if_pos ⟨hbefore, hw⟩, heq]

theorem run_noteSetUp_fst (ops : List Op) (s : RtmpAdapter × (Fin 128 → Fin 256)) :
    (run noteSetUp s ops).1 = run step s.1 ops := by
  induction ops generalizing s with
  | nil => rfl
  | cons op ops ih => exact ih (noteSetUp s op)

theorem setUpWindow_eq (cfg : Config) (num : ℕ) (attrs : Fin 32 → MacTableEntry) (ops : List Op) (i : Fin 128)
    (hw : ((run step (initAdapter cfg num attrs) ops).baOriEntry i).oriBaStatus = .waitRes) :
    ((run step (initAdapter cfg num attrs) ops).baOriEntry i).baWinSize =
      setUpWindow (initAdapter cfg num attrs) ops i := by
  have h := run_invariant_all noteSetUp_waitsWith ops (initAdapter cfg num attrs, fun _ => 0) (fun i hw => nomatch hw)
  have hi := h i
  rw [run_noteSetUp_fst] at hi
  exact hi hw

/-! ### Both ends -/

/-- **Block-ack window agreement** in every state that a run reaches: what is answered to a granted request is
right exactly if its window fits; what is taken from an accepted response always is. -/
theorem windowAgrees_iff (cfg : Config) (num : ℕ) (attrs : Fin 32 → MacTableEntry) (ops : List Op) (wcid : Fin 32) :
    let pAd := run step (initAdapter cfg num attrs) ops
    (∀ msgLen frame alloc, AnswerAgrees pAd wcid msgLen frame alloc ↔
        (Granted pAd wcid msgLen frame alloc → GrantFits pAd.cfg frame)) ∧
      ∀ rsp, Accepts pAd wcid rsp →
        OriWindowFits pAd wcid rsp (setUpWindow (initAdapter cfg num attrs) ops (oriSlot pAd (wcid, rsp.tid))) := by
  intro pAd
  have h : BaseInv pAd := run_invariant_all (I := BaseInv) (fun s op hs => (step_conserved hs op).1) ops _
    (initAdapter_baseInv cfg num attrs)
  refine ⟨answerAgrees_iff h.tables wcid, fun rsp haccepts => ?_⟩
  rw [← setUpWindow_eq cfg num attrs ops _ haccepts.2.2]
  exact oriWindowFits haccepts

def smallConfig : Config := { sampleConfig with rxBAWinLimit := 16 }

/-- A request without a limit is granted 64 frames where the settings allow 16. -/
theorem not_answerAgrees :
    ¬ AnswerAgrees (run step (initAdapter smallConfig 512 fun _ => sampleStation) []) 1 33 ⟨1, 0, 0, 0⟩ true := by
  intro h
  have hrsp := h ⟨0, 1, 0, 64, 0⟩ (by decide) rfl
  exact absurd hrsp.le_limit (by decide)

end Mt7610u.BlockAck.Grant
