import Mt7610u.BlockAck.TearDown

/-! # The range of the TID

The block-ack frames and the receive descriptor carry a TID of four bits; a station has arrays for eight. What
follows traces every place where a received frame's TID indexes an array or a bitmap. Sessions of different TIDs
do not meet: the trace has no other TID than the frame's. -/

namespace Mt7610u.BlockAck.Tid

open Reorder Tables Consistency Steps Lib.Runs

/-! ### The frames -/

/-- The fields of `BA_PARM`. -/
def baParmPolicy (w : BitVec 16) : ℕ := (w.extractLsb' 1 1).toNat

def baParmTid (w : BitVec 16) : ℕ := (w.extractLsb' 2 4).toNat

def baParmBufSize (w : BitVec 16) : ℕ := (w.extractLsb' 6 10).toNat

/-- The fields of `DELBA_PARM`. -/
def delbaInitiator (w : BitVec 16) : Bool := w.getLsbD 11

def delbaTid (w : BitVec 16) : ℕ := (w.extractLsb' 12 4).toNat

/-- What is received: `FRAME_ADDBA_REQ`, `FRAME_ADDBA_RSP` and `FRAME_DELBA_REQ` with the length of the message,
and a data frame in `Indicate_Legacy_Packet`, with what is left of it when LLC is removed. -/
inductive RxFrame
  | addBAReq (msgLen : ℕ) (baParm timeOutValue : BitVec 16)
  | addBARsp (msgLen : ℕ) (statusCode baParm timeOutValue : BitVec 16)
  | delBA (msgLen : ℕ) (delbaParm : BitVec 16)
  | legacy (dataSize : ℕ) (rxWITid : BitVec 4)
deriving DecidableEq, Repr

def RxFrame.tid : RxFrame → ℕ
  | .addBAReq _ baParm _ => baParmTid baParm
  | .addBARsp _ _ baParm _ => baParmTid baParm
  | .delBA _ delbaParm => delbaTid delbaParm
  | .legacy _ rxWITid => rxWITid.toNat

/-- A request as `PeerAddBAReqAction` of the tables takes it. -/
def toReq (baParm timeOutValue : BitVec 16) (tid : Fin 8) : FrameAddbaReq :=
  ⟨baParmPolicy baParm, tid, baParmBufSize baParm, timeOutValue.toNat⟩

/-- A response as `PeerAddBARspAction` of the tables takes it. -/
def toRsp (statusCode baParm timeOutValue : BitVec 16) (tid : Fin 8) : FrameAddbaRsp :=
  ⟨statusCode.toNat, baParmPolicy baParm, tid, baParmBufSize baParm, timeOutValue.toNat⟩

def RxFrame.sane (wcid : ℕ) : RxFrame → Bool
  | .addBAReq msgLen baParm _ => 33 ≤ msgLen ∧ baParmPolicy baParm = 1
  | .addBARsp msgLen _ baParm _ => 33 ≤ msgLen ∧ baParmPolicy baParm = 1
  | .delBA msgLen _ => msgLen = 30 ∧ wcid < 32
  | .legacy .. => true

/-! ### The trace -/

/-- What is indexed by a TID: the arrays of a station, and bit masks (`1 << TID`). -/
inductive Use
  | recWcidArray (tid : ℕ)
  | oriWcidArray (tid : ℕ)
  | txSeq (tid : ℕ)
  | bitmap (tid : ℕ)
deriving DecidableEq, Repr

def Use.tid : Use → ℕ
  | .recWcidArray tid => tid
  | .oriWcidArray tid => tid
  | .txSeq tid => tid
  | .bitmap tid => tid

def useThen (u : Use) (rest : Fin 8 → List Use) : List Use := u :: if h : u.tid < 8 then rest ⟨u.tid, h⟩ else []

def baRecSessionAddUses (pAd : RtmpAdapter) (wcid : Fin 32) (frame : Fin 8 → FrameAddbaReq) (tid : ℕ) : List Use :=
  useThen (.recWcidArray tid) fun tid =>
    if (baRecSessionAdd pAd wcid (frame tid)).1 then
      [.bitmap tid, .bitmap tid, .recWcidArray tid, .bitmap tid, .bitmap tid]
    else []

def baTableFreeRecEntryUses (pAd : RtmpAdapter) (idx : Fin 128) : List Use :=
  let ent := pAd.baRecEntry idx
  if idx = 0 then []
  else if ent.recBaStatus ≠ .none then [.recWcidArray ent.tid]
  else []

/-- `BARecSessionTearDown` with `bPassive`. -/
def baRecSessionTearDownUses (pAd : RtmpAdapter) (wcid : Fin 32) (tid : ℕ) : List Use :=
  useThen (.recWcidArray tid) fun tid =>
    let idx := (pAd.content wcid).baRecWcidArray tid
    let ent := pAd.baRecEntry idx
    if idx = 0 then []
    else
      (if tid = ent.tid ∧ ent.recBaStatus = .accept then [.bitmap ent.tid, .recWcidArray tid, .bitmap tid]
        else []) ++ baTableFreeRecEntryUses pAd idx

def baTableFreeOriEntryUses (pAd : RtmpAdapter) (idx : Fin 128) : List Use :=
  let ent := pAd.baOriEntry idx
  if idx = 0 then []
  else if ent.oriBaStatus ≠ .none then
    .oriWcidArray ent.tid :: if ent.oriBaStatus = .done then [.bitmap ent.tid] else []
  else []

/-- `BAOriSessionTearDown` with `bPassive`. -/
def baOriSessionTearDownUses (pAd : RtmpAdapter) (wcid : Fin 32) (tid : ℕ) : List Use :=
  useThen (.oriWcidArray tid) fun tid =>
    let idx := (pAd.content wcid).baOriWcidArray tid
    if idx = 0 then [] else baTableFreeOriEntryUses pAd idx

def baOriSessionAddUses (pAd : RtmpAdapter) (wcid : Fin 32) (tid : ℕ) : List Use :=
  useThen (.oriWcidArray tid) fun tid =>
    let idx := (pAd.content wcid).baOriWcidArray tid
    let ent := pAd.baOriEntry idx
    if idx ≠ 0 ∧ ent.tid = tid ∧ ent.oriBaStatus = .waitRes then [.txSeq tid, .bitmap tid] else []

def peerAddBAReqActionUses (pAd : RtmpAdapter) (wcid msgLen : ℕ) (baParm timeOutValue : BitVec 16) : List Use :=
  if h : wcid < 32 then
    if 33 ≤ msgLen ∧ baParmPolicy baParm = 1 then
      if ¬ pAd.cfg.bBADecline ∧ 2 ≤ (pAd.content ⟨wcid, h⟩).maxHtPhyMode then
        baRecSessionAddUses pAd ⟨wcid, h⟩ (toReq baParm timeOutValue) (baParmTid baParm)
      else []
    else []
  else []

/-- `PeerAddBARspAction`: a decline is noted in a bitmap behind the tear-down. -/
def peerAddBARspActionUses (pAd : RtmpAdapter) (wcid msgLen : ℕ) (statusCode baParm : BitVec 16) : List Use :=
  if h : wcid < 32 then
    if 33 ≤ msgLen ∧ baParmPolicy baParm = 1 then
      (if statusCode.toNat = 0 then baOriSessionAddUses pAd ⟨wcid, h⟩ (baParmTid baParm)
        else baOriSessionTearDownUses pAd ⟨wcid, h⟩ (baParmTid baParm)) ++
      if baParmTid baParm < 8 ∧
          (statusCode.toNat = 37 ∨ pAd.cfg.bTGnWifiTest ∧ statusCode.toNat ≠ 0) then
        [.bitmap (baParmTid baParm)]
      else []
    else []
  else []

theorem delBA_wcid_lt {wcid msgLen : ℕ} (h : msgLen = 30 ∧ wcid < 32) : wcid < 32 := h.2

def peerDelBAActionUses (pAd : RtmpAdapter) (wcid msgLen : ℕ) (delbaParm : BitVec 16) : List Use :=
  if h : msgLen = 30 ∧ wcid < 32 then
    if delbaInitiator delbaParm then baRecSessionTearDownUses pAd ⟨wcid, delBA_wcid_lt h⟩ (delbaTid delbaParm)
    else baOriSessionTearDownUses pAd ⟨wcid, delBA_wcid_lt h⟩ (delbaTid delbaParm)
  else []

def indicateLegacyPacketUses (bDisableReordering : Bool) (wcid dataSize : ℕ) (rxWITid : BitVec 4) : List Use :=
  if 1520 < dataSize then []
  else if bDisableReordering then []
  else if wcid < 32 then [.recWcidArray rxWITid.toNat]
  else []

/-- All uses of a received frame's TID; `wcid` is the station index that comes with it. -/
def uses (pAd : RtmpAdapter) (bDisableReordering : Bool) (wcid : ℕ) : RxFrame → List Use
  | .addBAReq msgLen baParm timeOutValue => peerAddBAReqActionUses pAd wcid msgLen baParm timeOutValue
  | .addBARsp msgLen statusCode baParm _ => peerAddBARspActionUses pAd wcid msgLen statusCode baParm
  | .delBA msgLen delbaParm => peerDelBAActionUses pAd wcid msgLen delbaParm
  | .legacy dataSize rxWITid => indicateLegacyPacketUses bDisableReordering wcid dataSize rxWITid

def Reaches (pAd : RtmpAdapter) (bDisableReordering : Bool) (wcid : ℕ) : RxFrame → Prop
  | .addBAReq msgLen baParm _ => ∃ h : wcid < 32, (33 ≤ msgLen ∧ baParmPolicy baParm = 1) ∧
      ¬ pAd.cfg.bBADecline ∧ 2 ≤ (pAd.content ⟨wcid, h⟩).maxHtPhyMode
  | .addBARsp msgLen _ baParm _ => wcid < 32 ∧ 33 ≤ msgLen ∧ baParmPolicy baParm = 1
  | .delBA msgLen _ => msgLen = 30 ∧ wcid < 32
  | .legacy dataSize _ => dataSize ≤ 1520 ∧ bDisableReordering = false ∧ wcid < 32

/-! ### The range -/

def InRange (us : List Use) : Prop := ∀ u ∈ us, u.tid < 8

instance (us : List Use) : Decidable (InRange us) := inferInstanceAs (Decidable (∀ u ∈ us, u.tid < 8))

@[simp] theorem inRange_nil : InRange [] := nofun

@[simp] theorem inRange_cons (u : Use) (us : List Use) : InRange (u :: us) ↔ u.tid < 8 ∧ InRange us :=
  List.forall_mem_cons

@[simp] theorem inRange_append (us vs : List Use) : InRange (us ++ vs) ↔ InRange us ∧ InRange vs :=
  List.forall_mem_append

theorem inRange_useThen {u : Use} {rest : Fin 8 → List Use} (hrest : ∀ tid, InRange (rest tid)) :
    InRange (useThen u rest) ↔ u.tid < 8 := by
  unfold useThen
  rw [inRange_cons]
  by_cases h : u.tid < 8
  · rw [dif_pos h]
    exact and_iff_left (hrest _)
  · rw [dif_neg h]
    exact and_iff_left inRange_nil

theorem inRange_freeRec (pAd : RtmpAdapter) (idx : Fin 128) : InRange (baTableFreeRecEntryUses pAd idx) := by
  unfold baTableFreeRecEntryUses
  dsimp only
  split_ifs <;> simp [Use.tid]

theorem inRange_freeOri (pAd : RtmpAdapter) (idx : Fin 128) : InRange (baTableFreeOriEntryUses pAd idx) := by
  unfold baTableFreeOriEntryUses
  dsimp only
  split_ifs <;> simp [Use.tid]

theorem inRange_recAdd (pAd : RtmpAdapter) (wcid : Fin 32) (frame : Fin 8 → FrameAddbaReq) (tid : ℕ) :
    InRange (baRecSessionAddUses pAd wcid frame tid) ↔ tid < 8 := by
  refine inRange_useThen fun t => ?_
  split_ifs <;> simp [Use.tid]

theorem inRange_recTearDown (pAd : RtmpAdapter) (wcid : Fin 32) (tid : ℕ) :
    InRange (baRecSessionTearDownUses pAd wcid tid) ↔ tid < 8 := by
  refine inRange_useThen fun t => ?_
  dsimp only
  by_cases hs : (pAd.content wcid).baRecWcidArray t = 0
  · rw [if_pos hs]
    exact inRange_nil
  · rw [if_neg hs, inRange_append]
    refine ⟨?_, inRange_freeRec _ _⟩
    split_ifs <;> simp [Use.tid]

theorem inRange_oriTearDown (pAd : RtmpAdapter) (wcid : Fin 32) (tid : ℕ) :
    InRange (baOriSessionTearDownUses pAd wcid tid) ↔ tid < 8 := by
  refine inRange_useThen fun t => ?_
  dsimp only
  split_ifs
  · exact inRange_nil
  · exact inRange_freeOri _ _

theorem inRange_oriAdd (pAd : RtmpAdapter) (wcid : Fin 32) (tid : ℕ) :
    InRange (baOriSessionAddUses pAd wcid tid) ↔ tid < 8 := by
  refine inRange_useThen fun t => ?_
  dsimp only
  split_ifs <;> simp [Use.tid]

theorem inRange_addBAReq (pAd : RtmpAdapter) (bDisableReordering : Bool) (wcid msgLen : ℕ)
    (baParm timeOutValue : BitVec 16) :
    InRange (peerAddBAReqActionUses pAd wcid msgLen baParm timeOutValue) ↔
      (Reaches pAd bDisableReordering wcid (.addBAReq msgLen baParm timeOutValue) → baParmTid baParm < 8) := by
  unfold peerAddBAReqActionUses
  by_cases h : wcid < 32
  · rw [dif_pos h]
    by_cases hsane : 33 ≤ msgLen ∧ baParmPolicy baParm = 1
    · rw [if_pos hsane]
      by_cases hht : ¬ pAd.cfg.bBADecline ∧ 2 ≤ (pAd.content ⟨wcid, h⟩).maxHtPhyMode
      · rw [if_pos hht, inRange_recAdd]
        exact ⟨fun htid _ => htid, fun hreach => hreach ⟨h, hsane, hht⟩⟩
      · rw [if_neg hht]
        exact ⟨fun _ ⟨_, _, hc⟩ => absurd hc hht, fun _ => inRange_nil⟩
    · rw [if_neg hsane]
      exact ⟨fun _ ⟨_, hc, _⟩ => absurd hc hsane, fun _ => inRange_nil⟩
  · rw [dif_neg h]
    exact ⟨fun _ ⟨hc, _⟩ => absurd hc h, fun _ => inRange_nil⟩

theorem inRange_addBARsp (pAd : RtmpAdapter) (bDisableReordering : Bool) (wcid msgLen : ℕ)
    (statusCode baParm timeOutValue : BitVec 16) :
    InRange (peerAddBARspActionUses pAd wcid msgLen statusCode baParm) ↔
      (Reaches pAd bDisableReordering wcid (.addBARsp msgLen statusCode baParm timeOutValue) →
        baParmTid baParm < 8) := by
  unfold peerAddBARspActionUses
  by_cases h : wcid < 32
  · rw [dif_pos h]
    by_cases hsane : 33 ≤ msgLen ∧ baParmPolicy baParm = 1
    · rw [if_pos hsane, inRange_append]
      have hfirst : InRange (if statusCode.toNat = 0 then baOriSessionAddUses pAd ⟨wcid, h⟩ (baParmTid baParm)
          else baOriSessionTearDownUses pAd ⟨wcid, h⟩ (baParmTid baParm)) ↔ baParmTid baParm < 8 := by
        split_ifs
        · exact inRange_oriAdd _ _ _
        · exact inRange_oriTearDown _ _ _
      rw [hfirst]
      constructor
      · exact fun hr _ => hr.1
      · intro hreach
        have htid := hreach ⟨h, hsane⟩
        refine ⟨htid, ?_⟩
        split_ifs
        · exact (inRange_cons _ _).2 ⟨htid, inRange_nil⟩
        · exact inRange_nil
    · rw [if_neg hsane]
      exact ⟨fun _ ⟨_, hc⟩ => absurd hc hsane, fun _ => inRange_nil⟩
  · rw [dif_neg h]
    exact ⟨fun _ ⟨hc, _⟩ => absurd hc h, fun _ => inRange_nil⟩

theorem inRange_delBA (pAd : RtmpAdapter) (bDisableReordering : Bool) (wcid msgLen : ℕ) (delbaParm : BitVec 16) :
    InRange (peerDelBAActionUses pAd wcid msgLen delbaParm) ↔
      (Reaches pAd bDisableReordering wcid (.delBA msgLen delbaParm) → delbaTid delbaParm < 8) := by
  unfold peerDelBAActionUses
  by_cases h : msgLen = 30 ∧ wcid < 32
  · rw [dif_pos h]
    have huses : InRange (if delbaInitiator delbaParm then
        baRecSessionTearDownUses pAd ⟨wcid, h.2⟩ (delbaTid delbaParm)
        else baOriSessionTearDownUses pAd ⟨wcid, h.2⟩ (delbaTid delbaParm)) ↔ delbaTid delbaParm < 8 := by
      split_ifs
      · exact inRange_recTearDown _ _ _
      · exact inRange_oriTearDown _ _ _
    rw [huses]
    exact ⟨fun htid _ => htid, fun hreach => hreach h⟩
  · rw [dif_neg h]
    exact ⟨fun _ hc => absurd hc h, fun _ => inRange_nil⟩

theorem inRange_legacy (pAd : RtmpAdapter) (bDisableReordering : Bool) (wcid dataSize : ℕ) (rxWITid : BitVec 4) :
    InRange (indicateLegacyPacketUses bDisableReordering wcid dataSize rxWITid) ↔
      (Reaches pAd bDisableReordering wcid (.legacy dataSize rxWITid) → rxWITid.toNat < 8) := by
  unfold indicateLegacyPacketUses
  split_ifs with hsize hoff h
  · exact ⟨fun _ hc => absurd hc.1 (by omega), fun _ => inRange_nil⟩
  · exact ⟨fun _ hc => absurd (hoff.symm.trans hc.2.1) nofun, fun _ => inRange_nil⟩
  · rw [inRange_cons]
    exact ⟨fun hr _ => hr.1, fun hreach => ⟨hreach ⟨by omega, by simpa using hoff, h⟩, inRange_nil⟩⟩
  · exact ⟨fun _ hc => absurd hc.2.2 h, fun _ => inRange_nil⟩

theorem Reaches.sane {pAd : RtmpAdapter} {bDisableReordering : Bool} {wcid : ℕ} {frame : RxFrame}
    (h : Reaches pAd bDisableReordering wcid frame) : frame.sane wcid = true := by
  cases frame with
  | addBAReq msgLen baParm timeOutValue =>
    obtain ⟨-, hsane, -⟩ := h
    exact decide_eq_true hsane
  | addBARsp msgLen statusCode baParm timeOutValue => exact decide_eq_true h.2
  | delBA msgLen delbaParm => exact decide_eq_true h
  | legacy dataSize rxWITid => rfl

/-- **The range of the TID** in every state: a received frame indexes within the arrays exactly if it is stopped
before the first use, or the TID that it carries is below 8. -/
theorem uses_lt_iff (pAd : RtmpAdapter) (bDisableReordering : Bool) (wcid : ℕ) (frame : RxFrame) :
    (frame.sane wcid = true → InRange (uses pAd bDisableReordering wcid frame)) ↔
      (Reaches pAd bDisableReordering wcid frame → frame.tid < 8) := by
  have huses : InRange (uses pAd bDisableReordering wcid frame) ↔
      (Reaches pAd bDisableReordering wcid frame → frame.tid < 8) := by
    cases frame with
    | addBAReq msgLen baParm timeOutValue => exact inRange_addBAReq pAd _ _ _ _ _
    | addBARsp msgLen statusCode baParm timeOutValue => exact inRange_addBARsp pAd _ _ _ _ _ _
    | delBA msgLen delbaParm => exact inRange_delBA pAd _ _ _ _
    | legacy dataSize rxWITid => exact inRange_legacy pAd _ _ _ _
  rw [huses]
  exact ⟨fun h hreach => h hreach.sane hreach, fun h _ => h⟩

/-- Nothing looks at the TID: with TID 8 each of the four frames indexes behind an array. -/
theorem not_uses_lt :
    ((RxFrame.addBAReq 33 0x1022 0).sane 1 = true ∧
      ¬ InRange (uses sampleAdapter false 1 (.addBAReq 33 0x1022 0))) ∧
    ((RxFrame.addBARsp 33 0 0x1022 0).sane 1 = true ∧
      ¬ InRange (uses sampleAdapter false 1 (.addBARsp 33 0 0x1022 0))) ∧
    ((RxFrame.delBA 30 0x8800).sane 1 = true ∧ ¬ InRange (uses sampleAdapter false 1 (.delBA 30 0x8800))) ∧
    ((RxFrame.legacy 100 8).sane 1 = true ∧
      ¬ InRange (uses sampleAdapter false 1 (.legacy 100 8))) := by
  decide

/-! ### The trace is complete -/

/-- What differs between the stations `e` and `e'` is at a place in `us`. -/
structure StaTouches (us : List Use) (e e' : MacTableEntry) : Prop where
  recWcidArray : ∀ t, e'.baRecWcidArray t ≠ e.baRecWcidArray t → .recWcidArray t ∈ us
  oriWcidArray : ∀ t, e'.baOriWcidArray t ≠ e.baOriWcidArray t → .oriWcidArray t ∈ us
  rxBAbitmap : ∀ i, e'.rxBAbitmap.getLsbD i ≠ e.rxBAbitmap.getLsbD i → .bitmap i ∈ us
  txBAbitmap : ∀ i, e'.txBAbitmap.getLsbD i ≠ e.txBAbitmap.getLsbD i → .bitmap i ∈ us
  baDeclineBitmap : ∀ i, e'.baDeclineBitmap.getLsbD i ≠ e.baDeclineBitmap.getLsbD i → .bitmap i ∈ us

def Touches (us : List Use) (pAd pAd' : RtmpAdapter) : Prop := ∀ w, StaTouches us (pAd.content w) (pAd'.content w)

theorem StaTouches.refl (us : List Use) (e : MacTableEntry) : StaTouches us e e :=
  ⟨fun _ h => absurd rfl h, fun _ h => absurd rfl h, fun _ h => absurd rfl h, fun _ h => absurd rfl h,
    fun _ h => absurd rfl h⟩

theorem Touches.of_eq {us : List Use} {pAd pAd' : RtmpAdapter} (h : pAd'.content = pAd.content) :
    Touches us pAd pAd' := by
  intro w
  rw [h]
  exact .refl us _

theorem Touches.of_update {us : List Use} {pAd pAd' : RtmpAdapter} (wcid : Fin 32) (e : MacTableEntry)
    (h : pAd'.content = Function.update pAd.content wcid e) (he : StaTouches us (pAd.content wcid) e) :
    Touches us pAd pAd' := by
  intro w
  rw [h]
  by_cases hw : w = wcid
  · subst hw
    rw [Function.update_self]
    exact he
  · rw [Function.update_of_ne hw]
    exact .refl us _

theorem Touches.trans {us vs : List Use} {a b c : RtmpAdapter} (h : Touches us a b) (h' : Touches vs b c)
    (hsub : vs ⊆ us) : Touches us a c := by
  intro w
  obtain ⟨hr, ho, hrx, htx, hd⟩ := h w
  obtain ⟨hr', ho', hrx', htx', hd'⟩ := h' w
  constructor
  · intro t hne
    by_cases hm : (b.content w).baRecWcidArray t = (a.content w).baRecWcidArray t
    · exact hsub (hr' t (by rwa [hm]))
    · exact hr t hm
  · intro t hne
    by_cases hm : (b.content w).baOriWcidArray t = (a.content w).baOriWcidArray t
    · exact hsub (ho' t (by rwa [hm]))
    · exact ho t hm
  · intro i hne
    by_cases hm : (b.content w).rxBAbitmap.getLsbD i = (a.content w).rxBAbitmap.getLsbD i
    · exact hsub (hrx' i (by rwa [hm]))
    · exact hrx i hm
  · intro i hne
    by_cases hm : (b.content w).txBAbitmap.getLsbD i = (a.content w).txBAbitmap.getLsbD i
    · exact hsub (htx' i (by rwa [hm]))
    · exact htx i hm
  · intro i hne
    by_cases hm : (b.content w).baDeclineBitmap.getLsbD i = (a.content w).baDeclineBitmap.getLsbD i
    · exact hsub (hd' i (by rwa [hm]))
    · exact hd i hm

theorem update_ne {α : Type*} {f : Fin 8 → α} {t u : Fin 8} {v : α} (h : Function.update f t v u ≠ f u) :
    u = t := by
  by_contra hc
  exact h (Function.update_of_ne hc v f)

theorem setBit_ne {bm : BitVec 16} {t : Fin 8} {i : ℕ} (h : (setBit bm t).getLsbD i ≠ bm.getLsbD i) : i = t := by
  by_contra hc
  have hne : ¬ (t : ℕ) = i := fun he => hc he.symm
  apply h
  simp [setBit, BitVec.getLsbD_twoPow, hne]

theorem clearBit_ne {bm : BitVec 16} {t : Fin 8} {i : ℕ} (h : (clearBit bm t).getLsbD i ≠ bm.getLsbD i) :
    i = t := by
  by_contra hc
  have hne : ¬ (t : ℕ) = i := fun he => hc he.symm
  apply h
  by_cases hi : i < 16
  · simp [clearBit, hi, hc]
  · simp [clearBit, BitVec.getLsbD_of_ge bm i (by omega)]

theorem touches_freeRec (pAd : RtmpAdapter) (idx : Fin 128) :
    Touches (baTableFreeRecEntryUses pAd idx) pAd (baTableFreeRecEntry pAd idx) := by
  unfold baTableFreeRecEntryUses baTableFreeRecEntry
  dsimp only
  split_ifs with h0 hlive
  · exact .of_eq rfl
  · refine .of_update _ _ rfl { StaTouches.refl _ _ with recWcidArray := fun t ht => ?_ }
    rw [update_ne ht]
    exact List.mem_cons_self
  · exact .of_eq rfl

theorem touches_freeOri (pAd : RtmpAdapter) (idx : Fin 128) :
    Touches (baTableFreeOriEntryUses pAd idx) pAd (baTableFreeOriEntry pAd idx) := by
  unfold baTableFreeOriEntryUses baTableFreeOriEntry
  dsimp only
  by_cases h0 : idx = 0
  · rw [if_pos h0, if_pos h0]
    exact .of_eq rfl
  rw [if_neg h0, if_neg h0]
  by_cases hlive : (pAd.baOriEntry idx).oriBaStatus ≠ .none
  · rw [if_pos hlive, if_pos hlive]
    refine .of_update (pAd.baOriEntry idx).wcid ((pAd.content (pAd.baOriEntry idx).wcid).closeOri
      (pAd.baOriEntry idx).tid ((pAd.baOriEntry idx).oriBaStatus = .done)) rfl
      { StaTouches.refl _ _ with oriWcidArray := fun t ht => ?_, txBAbitmap := fun i hi => ?_ }
    · rw [update_ne ht]
      exact List.mem_cons_self
    · by_cases hdone : (pAd.baOriEntry idx).oriBaStatus = .done
      · rw [if_pos hdone]
        simp only [MacTableEntry.closeOri, hdone, decide_true, if_true] at hi
        rw [clearBit_ne hi]
        simp
      · simp only [MacTableEntry.closeOri, hdone, decide_false] at hi
        exact absurd rfl hi
  · rw [if_neg hlive, if_neg hlive]
    exact .of_eq rfl

theorem useThen_of_eq {u : Use} {tid : Fin 8} (h : u.tid = tid) (rest : Fin 8 → List Use) :
    useThen u rest = u :: rest tid := by
  unfold useThen
  have hlt : u.tid < 8 := h ▸ tid.isLt
  rw [dif_pos hlt]
  congr 2
  exact Fin.ext h

theorem touches_oriTearDown (pAd : RtmpAdapter) (wcid : Fin 32) (tid : Fin 8) :
    Touches (baOriSessionTearDownUses pAd wcid tid) pAd (baOriSessionTearDown pAd wcid tid true true) := by
  unfold baOriSessionTearDownUses baOriSessionTearDown
  rw [@useThen_of_eq _ tid rfl]
  dsimp only
  by_cases h0 : (pAd.content wcid).baOriWcidArray tid = 0
  · rw [if_pos h0, if_pos h0]
    exact .of_eq rfl
  · rw [if_neg h0, if_neg h0, if_neg (by simp)]
    exact Touches.trans (b := pAd) (.of_eq rfl) (touches_freeOri pAd _) (List.subset_cons_self _ _)

theorem touches_oriAdd (pAd : RtmpAdapter) (wcid : Fin 32) (frame : FrameAddbaRsp) :
    Touches (baOriSessionAddUses pAd wcid frame.tid) pAd (baOriSessionAdd pAd wcid frame) := by
  unfold baOriSessionAddUses baOriSessionAdd
  rw [@useThen_of_eq _ frame.tid rfl]
  dsimp only
  split_ifs with hacc
  · refine .of_update wcid _ rfl { StaTouches.refl _ _ with txBAbitmap := fun i hi => ?_ }
    rw [setBit_ne hi]
    simp
  · exact .of_eq rfl

theorem cfg_oriAdd (pAd : RtmpAdapter) (wcid : Fin 32) (frame : FrameAddbaRsp) :
    (baOriSessionAdd pAd wcid frame).cfg = pAd.cfg := by
  unfold baOriSessionAdd
  dsimp only
  split_ifs <;> rfl

theorem cfg_oriTearDown (pAd : RtmpAdapter) (wcid : Fin 32) (tid : Fin 8) (bPassive elemAlloc : Bool) :
    (baOriSessionTearDown pAd wcid tid bPassive elemAlloc).cfg = pAd.cfg := by
  unfold baOriSessionTearDown baTableFreeOriEntry
  dsimp only
  split_ifs <;> rfl

theorem touches_recTearDown (pAd : RtmpAdapter) (wcid : Fin 32) (tid : Fin 8) :
    Touches (baRecSessionTearDownUses pAd wcid tid) pAd (baRecSessionTearDown pAd wcid tid true true) := by
  unfold baRecSessionTearDownUses baRecSessionTearDown
  rw [@useThen_of_eq _ tid rfl]
  dsimp only
  by_cases h0 : (pAd.content wcid).baRecWcidArray tid = 0
  · rw [if_pos h0, if_pos h0]
    exact .of_eq rfl
  rw [if_neg h0, if_neg h0]
  by_cases hacc : tid = (pAd.baRecEntry ((pAd.content wcid).baRecWcidArray tid)).tid ∧
      (pAd.baRecEntry ((pAd.content wcid).baRecWcidArray tid)).recBaStatus = .accept
  · rw [if_pos hacc, if_pos hacc, if_neg (by simp)]
    generalize hidx : (pAd.content wcid).baRecWcidArray tid = idx at *
    have hfree : baTableFreeRecEntryUses ((pAd.onRecEntry idx closeSession).setStation wcid
        ((pAd.content wcid).closeRec tid (pAd.baRecEntry idx).tid)) idx = baTableFreeRecEntryUses pAd idx := by
      obtain ⟨hstatus, -, htid⟩ := closeSession_owner ⟨pAd.freelist, pAd.baRecEntry idx, []⟩
      simp only [baTableFreeRecEntryUses, RtmpAdapter.setStation, RtmpAdapter.onRecEntry, Function.update_self,
        hstatus, htid]
    refine Touches.trans (b := (pAd.onRecEntry idx closeSession).setStation wcid
        ((pAd.content wcid).closeRec tid (pAd.baRecEntry idx).tid)) ?_ (touches_freeRec _ idx) ?_
    · refine .of_update wcid _ rfl
        { StaTouches.refl _ _ with recWcidArray := fun t ht => ?_, rxBAbitmap := fun i hi => ?_ }
      · rw [update_ne ht]
        simp
      · rw [clearBit_ne hi]
        simp
    · rw [hfree]
      exact fun u hu => List.mem_cons_of_mem _ (List.mem_append_right _ hu)
  · rw [if_neg hacc, if_neg hacc]
    exact Touches.trans (b := pAd) (.of_eq rfl) (touches_freeRec pAd _) (List.subset_cons_self _ _)

theorem content_recAdd (pAd : RtmpAdapter) (wcid : Fin 32) (frame : FrameAddbaReq) :
    ((baRecSessionAdd pAd wcid frame).1 = false ∧
        (baRecSessionAdd pAd wcid frame).2.content = pAd.content) ∨
      (baRecSessionAdd pAd wcid frame).1 = true ∧ ∃ idx, (baRecSessionAdd pAd wcid frame).2.content =
        Function.update pAd.content wcid ((pAd.content wcid).openRec frame.tid idx) := by
  unfold baRecSessionAdd
  dsimp only
  by_cases hs : (pAd.content wcid).baRecWcidArray frame.tid = 0
  · rw [if_pos hs]
    unfold baTableAllocRecEntry
    by_cases hn : 127 ≤ pAd.numAsRecipient
    · rw [if_pos hn]
      exact Or.inl ⟨rfl, rfl⟩
    · rw [if_neg hn]
      cases (List.finRange 128).find? fun i => i ≠ 0 ∧ (pAd.baRecEntry i).recBaStatus = .none <;>
        exact Or.inr ⟨rfl, _, rfl⟩
  · rw [if_neg hs]
    exact Or.inr ⟨rfl, _, rfl⟩

theorem touches_recAdd (pAd : RtmpAdapter) (wcid : Fin 32) (frame : Fin 8 → FrameAddbaReq) (tid : Fin 8)
    (htid : (frame tid).tid = tid) :
    Touches (baRecSessionAddUses pAd wcid frame tid) pAd (baRecSessionAdd pAd wcid (frame tid)).2 := by
  unfold baRecSessionAddUses
  rw [@useThen_of_eq _ tid rfl]
  obtain ⟨hok, hcontent⟩ | ⟨hok, idx, hcontent⟩ := content_recAdd pAd wcid (frame tid)
  · exact .of_eq hcontent
  · rw [if_pos hok]
    rw [htid] at hcontent
    refine .of_update wcid _ hcontent { StaTouches.refl _ _ with
      recWcidArray := fun t ht => ?_, rxBAbitmap := fun i hi => ?_, baDeclineBitmap := fun i hi => ?_ }
    · rw [update_ne ht]
      simp
    · rw [setBit_ne hi]
      simp
    · rw [clearBit_ne hi]
      simp

/-- `Indicate_Legacy_Packet`, what it does to the tables: it flushes a reordering list that has waited. -/
def indicateLegacyPacket (pAd : RtmpAdapter) (bDisableReordering : Bool) (wcid dataSize : ℕ) (tid : Fin 8)
    (now32 : Tick) : RtmpAdapter :=
  if 1520 < dataSize then pAd
  else if bDisableReordering then pAd
  else if h : wcid < 32 then
    let idx := (pAd.content ⟨wcid, h⟩).baRecWcidArray tid
    let ent := pAd.baRecEntry idx
    if idx ≠ 0 ∧ 0 < ent.list.qlen ∧
        rtmpTimeAfter now32 (ent.lastIndSeqAtTimer + reorderingPacketTimeout pAd.cfg.osHz) then
      flushRecEntry now32 pAd idx
    else pAd
  else pAd

def rxStep (pAd : RtmpAdapter) (bDisableReordering : Bool) (wcid : ℕ) (frame : RxFrame) (tid : Fin 8)
    (now32 : Tick) : RtmpAdapter :=
  match frame with
  | .addBAReq msgLen baParm timeOutValue =>
    step pAd (.peerAddBAReqAction wcid msgLen (toReq baParm timeOutValue tid))
  | .addBARsp msgLen statusCode baParm timeOutValue =>
    step pAd (.peerAddBARspAction wcid msgLen (toRsp statusCode baParm timeOutValue tid))
  | .delBA msgLen delbaParm => step pAd (.peerDelBAAction wcid msgLen tid (delbaInitiator delbaParm))
  | .legacy dataSize _ => indicateLegacyPacket pAd bDisableReordering wcid dataSize tid now32

theorem touches_addBAReq (pAd : RtmpAdapter) (wcid msgLen : ℕ) (baParm timeOutValue : BitVec 16) (tid : Fin 8)
    (htid : baParmTid baParm = tid) :
    Touches (peerAddBAReqActionUses pAd wcid msgLen baParm timeOutValue) pAd
      (peerAddBAReqAction pAd wcid msgLen (toReq baParm timeOutValue tid)) := by
  have hsanity : peerAddBAReqActionSanity msgLen (toReq baParm timeOutValue tid) = true ↔
      33 ≤ msgLen ∧ baParmPolicy baParm = 1 := decide_eq_true_iff
  unfold peerAddBAReqActionUses peerAddBAReqAction
  by_cases h : wcid < 32
  · rw [dif_pos h, dif_pos h, htid]
    by_cases hsane : 33 ≤ msgLen ∧ baParmPolicy baParm = 1
    · rw [if_pos hsane]
      by_cases hht : ¬ pAd.cfg.bBADecline ∧ 2 ≤ (pAd.content ⟨wcid, h⟩).maxHtPhyMode
      · rw [if_pos hht, if_pos ⟨hsanity.2 hsane, hht⟩]
        exact touches_recAdd pAd ⟨wcid, h⟩ (toReq baParm timeOutValue) tid rfl
      · rw [if_neg hht, if_neg fun hc => hht hc.2]
        exact .of_eq rfl
    · rw [if_neg hsane, if_neg fun hc => hsane (hsanity.1 hc.1)]
      exact .of_eq rfl
  · rw [dif_neg h, dif_neg h]
    exact .of_eq rfl

theorem touches_addBARsp (pAd : RtmpAdapter) (wcid msgLen : ℕ) (statusCode baParm timeOutValue : BitVec 16)
    (tid : Fin 8) (htid : baParmTid baParm = tid) :
    Touches (peerAddBARspActionUses pAd wcid msgLen statusCode baParm) pAd
      (peerAddBARspAction pAd wcid msgLen (toRsp statusCode baParm timeOutValue tid)) := by
  have hsanity : peerAddBARspActionSanity msgLen (toRsp statusCode baParm timeOutValue tid) = true ↔
      33 ≤ msgLen ∧ baParmPolicy baParm = 1 := decide_eq_true_iff
  unfold peerAddBARspActionUses peerAddBARspAction
  by_cases h : wcid < 32
  swap
  · rw [dif_neg h, dif_neg h]
    exact .of_eq rfl
  rw [dif_pos h, dif_pos h, htid]
  by_cases hsane : 33 ≤ msgLen ∧ baParmPolicy baParm = 1
  swap
  · rw [if_neg hsane, if_neg (fun hc => hsane (hsanity.1 hc))]
    exact .of_eq rfl
  rw [if_pos hsane, if_pos (hsanity.2 hsane)]
  change Touches _ pAd
    (let pAd' := (if statusCode.toNat = 0 then
        baOriSessionAdd pAd ⟨wcid, h⟩ (toRsp statusCode baParm timeOutValue tid)
        else baOriSessionTearDown pAd ⟨wcid, h⟩ tid true true)
    if statusCode.toNat = 37 ∨ pAd'.cfg.bTGnWifiTest ∧ statusCode.toNat ≠ 0 then
      pAd'.setStation ⟨wcid, h⟩ { pAd'.content ⟨wcid, h⟩ with
        baDeclineBitmap := setBit (pAd'.content ⟨wcid, h⟩).baDeclineBitmap tid }
    else pAd')
  -- the session first, then the bitmap of those that declined
  obtain ⟨us, pAd', hus, hpAd', hsession, hcfg⟩ : ∃ us pAd', (if statusCode.toNat = 0 then
      baOriSessionAddUses pAd ⟨wcid, h⟩ tid else baOriSessionTearDownUses pAd ⟨wcid, h⟩ tid) = us ∧
      (if statusCode.toNat = 0 then
        baOriSessionAdd pAd ⟨wcid, h⟩ (toRsp statusCode baParm timeOutValue tid)
        else baOriSessionTearDown pAd ⟨wcid, h⟩ tid true true) = pAd' ∧
      Touches us pAd pAd' ∧ pAd'.cfg = pAd.cfg := by
    refine ⟨_, _, rfl, rfl, ?_⟩
    split_ifs
    · exact ⟨touches_oriAdd pAd _ (toRsp statusCode baParm timeOutValue tid), cfg_oriAdd _ _ _⟩
    · exact ⟨touches_oriTearDown pAd _ tid, cfg_oriTearDown _ _ _ _ _⟩
  rw [hus, hpAd']
  dsimp only
  rw [hcfg]
  by_cases hdecl : statusCode.toNat = 37 ∨ pAd.cfg.bTGnWifiTest ∧ statusCode.toNat ≠ 0
  · rw [if_pos hdecl, if_pos ⟨tid.isLt, hdecl⟩]
    refine @Touches.trans (us ++ [.bitmap tid]) [.bitmap tid] _ pAd' _ ?_ ?_ ?_
    · exact Touches.trans (b := pAd) (.of_eq rfl) hsession (List.subset_append_left _ _)
    · refine .of_update ⟨wcid, h⟩ _ rfl { StaTouches.refl _ _ with baDeclineBitmap := fun i hi => ?_ }
      rw [setBit_ne hi]
      exact List.mem_cons_self
    · exact List.subset_append_right _ _
  · rw [if_neg hdecl]
    exact Touches.trans (b := pAd) (.of_eq rfl) hsession (List.subset_append_left _ _)

theorem touches_delBA (pAd : RtmpAdapter) (wcid msgLen : ℕ) (delbaParm : BitVec 16) (tid : Fin 8)
    (htid : delbaTid delbaParm = tid) :
    Touches (peerDelBAActionUses pAd wcid msgLen delbaParm) pAd
      (peerDelBAAction pAd wcid msgLen tid (delbaInitiator delbaParm)) := by
  unfold peerDelBAActionUses peerDelBAAction
  by_cases h : msgLen = 30 ∧ wcid < 32
  · rw [dif_pos h, dif_pos h, htid]
    split_ifs
    · exact touches_recTearDown pAd _ tid
    · exact touches_oriTearDown pAd _ tid
  · rw [dif_neg h, dif_neg h]
    exact .of_eq rfl

theorem touches_legacy (us : List Use) (pAd : RtmpAdapter) (bDisableReordering : Bool) (wcid dataSize : ℕ)
    (tid : Fin 8) (now32 : Tick) :
    Touches us pAd (indicateLegacyPacket pAd bDisableReordering wcid dataSize tid now32) := by
  unfold indicateLegacyPacket
  dsimp only
  split_ifs <;> exact .of_eq rfl

/-- **The trace is complete.** What a frame whose TID is in range changes of the stations is at one of its uses. -/
theorem step_touches (pAd : RtmpAdapter) (bDisableReordering : Bool) (wcid : ℕ) (frame : RxFrame) (tid : Fin 8)
    (now32 : Tick) (htid : frame.tid = tid) :
    Touches (uses pAd bDisableReordering wcid frame) pAd
      (rxStep pAd bDisableReordering wcid frame tid now32) := by
  cases frame with
  | addBAReq msgLen baParm timeOutValue => exact touches_addBAReq pAd wcid msgLen baParm timeOutValue tid htid
  | addBARsp msgLen statusCode baParm timeOutValue =>
    exact touches_addBARsp pAd wcid msgLen statusCode baParm timeOutValue tid htid
  | delBA msgLen delbaParm => exact touches_delBA pAd wcid msgLen delbaParm tid htid
  | legacy dataSize rxWITid => exact touches_legacy _ pAd _ _ _ tid now32

/-! ### Sessions of different TIDs do not meet -/

theorem mem_useThen {u v : Use} {tid : Fin 8} (hu : u.tid = tid) {rest : Fin 8 → List Use}
    (hrest : ∀ w ∈ rest tid, w.tid = tid) (hv : v ∈ useThen u rest) : v.tid = tid := by
  rw [useThen_of_eq hu] at hv
  rcases List.mem_cons.1 hv with rfl | hv
  · exact hu
  · exact hrest v hv

theorem tid_of_mem_recTearDown {pAd : RtmpAdapter} (h : TableInv pAd) (wcid : Fin 32) (tid : Fin 8) :
    ∀ u ∈ baRecSessionTearDownUses pAd wcid tid, u.tid = tid := by
  refine fun u => mem_useThen rfl fun w hw => ?_
  by_cases hidx : (pAd.content wcid).baRecWcidArray tid = 0
  · simp [hidx] at hw
  · have htid := (h.consistent.recSlot wcid tid hidx).2.2
    simp only [if_neg hidx, baTableFreeRecEntryUses, List.mem_append] at hw
    rcases hw with hw | hw
    · split at hw
      · simp only [htid, List.mem_cons, List.not_mem_nil, or_false] at hw
        rcases hw with rfl | rfl | rfl <;> rfl
      · cases hw
    · split at hw
      · rw [List.mem_singleton.1 hw]
        exact congrArg Fin.val htid
      · cases hw

theorem tid_of_mem_oriTearDown {pAd : RtmpAdapter} (h : TableInv pAd) (wcid : Fin 32) (tid : Fin 8) :
    ∀ u ∈ baOriSessionTearDownUses pAd wcid tid, u.tid = tid := by
  refine fun u => mem_useThen rfl fun w hw => ?_
  by_cases hidx : (pAd.content wcid).baOriWcidArray tid = 0
  · simp [hidx] at hw
  · have htid := (h.consistent.oriSlot wcid tid hidx).2.2
    simp only [if_neg hidx, baTableFreeOriEntryUses] at hw
    split at hw
    · rcases List.mem_cons.1 hw with rfl | hw
      · exact congrArg Fin.val htid
      · split at hw
        · rw [List.mem_singleton.1 hw]
          exact congrArg Fin.val htid
        · cases hw
    · cases hw

theorem tid_of_mem_recAdd (pAd : RtmpAdapter) (wcid : Fin 32) (frame : Fin 8 → FrameAddbaReq) (tid : Fin 8) :
    ∀ u ∈ baRecSessionAddUses pAd wcid frame tid, u.tid = tid := by
  refine fun u => mem_useThen rfl fun w hw => ?_
  split at hw
  · simp only [List.mem_cons, List.not_mem_nil, or_false] at hw
    rcases hw with rfl | rfl | rfl | rfl | rfl <;> rfl
  · cases hw

theorem tid_of_mem_oriAdd (pAd : RtmpAdapter) (wcid : Fin 32) (tid : Fin 8) :
    ∀ u ∈ baOriSessionAddUses pAd wcid tid, u.tid = tid := by
  refine fun u => mem_useThen rfl fun w hw => ?_
  dsimp only at hw
  split at hw
  · simp only [List.mem_cons, List.not_mem_nil, or_false] at hw
    rcases hw with rfl | rfl <;> rfl
  · cases hw

/-- In a consistent table the entry behind a slot has the TID of the slot, so every use has the TID of the frame. -/
theorem tid_of_mem_uses {pAd : RtmpAdapter} (h : TableInv pAd) (bDisableReordering : Bool) (wcid : ℕ)
    (frame : RxFrame) (tid : Fin 8) (htid : frame.tid = tid) :
    ∀ u ∈ uses pAd bDisableReordering wcid frame, u.tid = tid := by
  intro u hu
  cases frame with
  | addBAReq msgLen baParm timeOutValue =>
    have htid : baParmTid baParm = tid := htid
    simp only [uses, peerAddBAReqActionUses, htid] at hu
    split_ifs at hu
    · exact tid_of_mem_recAdd pAd _ _ tid u hu
    all_goals cases hu
  | addBARsp msgLen statusCode baParm timeOutValue =>
    have htid : baParmTid baParm = tid := htid
    simp only [uses, peerAddBARspActionUses, htid] at hu
    split at hu
    · split at hu
      · rcases List.mem_append.1 hu with hu | hu
        · split at hu
          · exact tid_of_mem_oriAdd pAd _ tid u hu
          · exact tid_of_mem_oriTearDown h _ tid u hu
        · split at hu
          · rw [List.mem_singleton.1 hu]
            rfl
          · cases hu
      · cases hu
    · cases hu
  | delBA msgLen delbaParm =>
    have htid : delbaTid delbaParm = tid := htid
    simp only [uses, peerDelBAActionUses, htid] at hu
    split_ifs at hu
    · exact tid_of_mem_recTearDown h _ _ u hu
    · exact tid_of_mem_oriTearDown h _ _ u hu
    · cases hu
  | legacy dataSize rxWITid =>
    have htid : rxWITid.toNat = tid := htid
    simp only [uses, indicateLegacyPacketUses, htid] at hu
    split_ifs at hu
    · cases hu
    · cases hu
    · rw [List.mem_singleton.1 hu]
      rfl
    · cases hu

theorem tableInv_rxStep {pAd : RtmpAdapter} (h : TableInv pAd) (bDisableReordering : Bool) (wcid : ℕ)
    (frame : RxFrame) (tid : Fin 8) (now32 : Tick) : TableInv (rxStep pAd bDisableReordering wcid frame tid now32) := by
  cases frame with
  | addBAReq msgLen baParm timeOutValue =>
    exact step_tableInv pAd (.peerAddBAReqAction wcid msgLen (toReq baParm timeOutValue tid)) h
  | addBARsp msgLen statusCode baParm timeOutValue =>
    exact step_tableInv pAd (.peerAddBARspAction wcid msgLen (toRsp statusCode baParm timeOutValue tid)) h
  | delBA msgLen delbaParm =>
    exact step_tableInv pAd (.peerDelBAAction wcid msgLen tid (delbaInitiator delbaParm)) h
  | legacy dataSize rxWITid =>
    unfold rxStep indicateLegacyPacket
    dsimp only
    split_ifs
    · exact h
    · exact h
    · exact h.flushRecEntry _ _
    · exact h
    · exact h

/-- A frame received for the station `wcid`, whose TID is one of the eight. -/
structure Reception where
  wcid : ℕ
  frame : RxFrame
  tid : Fin 8
  now32 : Tick
  tid_eq : frame.tid = tid

def receive (bDisableReordering : Bool) (pAd : RtmpAdapter) (r : Reception) : RtmpAdapter :=
  rxStep pAd bDisableReordering r.wcid r.frame r.tid r.now32

def held (e : MacTableEntry) (t : Fin 8) : Fin 128 × Fin 128 × Bool × Bool × Bool :=
  (e.baRecWcidArray t, e.baOriWcidArray t, e.rxBAbitmap.getLsbD t, e.txBAbitmap.getLsbD t,
    e.baDeclineBitmap.getLsbD t)

theorem held_receive {pAd : RtmpAdapter} (h : TableInv pAd) (bDisableReordering : Bool) (r : Reception) {t : Fin 8}
    (ht : r.tid ≠ t) (w : Fin 32) :
    held ((receive bDisableReordering pAd r).content w) t = held (pAd.content w) t := by
  have hto : StaTouches (uses pAd bDisableReordering r.wcid r.frame) (pAd.content w)
      ((receive bDisableReordering pAd r).content w) :=
    step_touches pAd bDisableReordering r.wcid r.frame r.tid r.now32 r.tid_eq w
  have hne {u : Use} (hu : u.tid = t) : u ∉ uses pAd bDisableReordering r.wcid r.frame := fun hmem =>
    ht (Fin.ext ((tid_of_mem_uses h bDisableReordering r.wcid r.frame r.tid r.tid_eq u hmem).symm.trans hu))
  have hrec := mt (hto.recWcidArray t) (hne rfl)
  have hori := mt (hto.oriWcidArray t) (hne rfl)
  have hrx := mt (hto.rxBAbitmap t) (hne rfl)
  have htx := mt (hto.txBAbitmap t) (hne rfl)
  have hdecline := mt (hto.baDeclineBitmap t) (hne rfl)
  rw [not_not] at hrec hori hrx htx hdecline
  rw [held, hrec, hori, hrx, htx, hdecline, held]

end Mt7610u.BlockAck.Tid
