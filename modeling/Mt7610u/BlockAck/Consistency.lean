import Mt7610u.BlockAck.SessionSpec
import Mt7610u.BlockAck.Tables
import Mt7610u.Lib.Directory

/-! # Consistency of the block-ack tables

The recipient table and the originator table are directories in the sense of `Lib.Directory`: the
records are the entries of the table, the owners are the pairs of a station and a TID, the slots are
the cells of the stations' index arrays. -/

namespace Mt7610u.BlockAck.Consistency

open Reorder SessionSpec Tables Lib Lib.Runs

/-! ### The directories -/

/-- The recipient entry `i` is in use. -/
def RecLive (pAd : RtmpAdapter) (i : Fin 128) : Prop := (pAd.baRecEntry i).recBaStatus ≠ .none

/-- The station and the TID that the recipient entry `i` carries. -/
def recOwner (pAd : RtmpAdapter) (i : Fin 128) : Fin 32 × Fin 8 := ((pAd.baRecEntry i).wcid, (pAd.baRecEntry i).tid)

/-- `BARecWcidArray`. -/
def recSlot (pAd : RtmpAdapter) (p : Fin 32 × Fin 8) : Fin 128 := (pAd.content p.1).baRecWcidArray p.2

/-- The originator entry `i` is in use. -/
def OriLive (pAd : RtmpAdapter) (i : Fin 128) : Prop := (pAd.baOriEntry i).oriBaStatus ≠ .none

/-- The station and the TID that the originator entry `i` carries. -/
def oriOwner (pAd : RtmpAdapter) (i : Fin 128) : Fin 32 × Fin 8 := ((pAd.baOriEntry i).wcid, (pAd.baOriEntry i).tid)

/-- `BAOriWcidArray`. -/
def oriSlot (pAd : RtmpAdapter) (p : Fin 32 × Fin 8) : Fin 128 := (pAd.content p.1).baOriWcidArray p.2

instance (pAd : RtmpAdapter) : DecidablePred (RecLive pAd) :=
  fun i => inferInstanceAs (Decidable ((pAd.baRecEntry i).recBaStatus ≠ .none))

instance (pAd : RtmpAdapter) : DecidablePred (OriLive pAd) :=
  fun i => inferInstanceAs (Decidable ((pAd.baOriEntry i).oriBaStatus ≠ .none))

structure RecInv (pAd : RtmpAdapter) : Prop where
  dir : Directory.Consistent 0 (RecLive pAd) (recOwner pAd) (recSlot pAd)
  num : pAd.numAsRecipient = (Finset.univ.filter (RecLive pAd)).card
  accepted : ∀ i, RecLive pAd i → (pAd.baRecEntry i).recBaStatus = .accept
  bit : ∀ p : Fin 32 × Fin 8, (pAd.content p.1).rxBAbitmap.getLsbD p.2 = true ↔ recSlot pAd p ≠ 0

structure OriInv (pAd : RtmpAdapter) : Prop where
  dir : Directory.Consistent 0 (OriLive pAd) (oriOwner pAd) (oriSlot pAd)
  num : pAd.numAsOriginator = (Finset.univ.filter (OriLive pAd)).card
  numDone : pAd.numDoneOriginator = (Finset.univ.filter fun i => (pAd.baOriEntry i).oriBaStatus = .done).card
  started : ∀ i, OriLive pAd i → (pAd.baOriEntry i).oriBaStatus = .waitRes ∨ (pAd.baOriEntry i).oriBaStatus = .done
  bit : ∀ p : Fin 32 × Fin 8, (pAd.content p.1).txBAbitmap.getLsbD p.2 = true ↔
    oriSlot pAd p ≠ 0 ∧ (pAd.baOriEntry (oriSlot pAd p)).oriBaStatus = .done

structure TableInv (pAd : RtmpAdapter) : Prop where
  aid : ∀ wcid, (pAd.content wcid).aid = wcid
  recp : RecInv pAd
  ori : OriInv pAd

/-! ### What each side does not touch -/

theorem RecInv.frame {pAd pAd' : RtmpAdapter} (h : RecInv pAd)
    (he : ∀ i, (pAd'.baRecEntry i).recBaStatus = (pAd.baRecEntry i).recBaStatus ∧
      (pAd'.baRecEntry i).wcid = (pAd.baRecEntry i).wcid ∧
      (pAd'.baRecEntry i).tid = (pAd.baRecEntry i).tid) (hn : pAd'.numAsRecipient = pAd.numAsRecipient)
    (hc : ∀ p, recSlot pAd' p = recSlot pAd p)
    (hb : ∀ p : Fin 32 × Fin 8, (pAd'.content p.1).rxBAbitmap.getLsbD p.2 =
      (pAd.content p.1).rxBAbitmap.getLsbD p.2) : RecInv pAd' := by
  have hl : RecLive pAd' = RecLive pAd := funext fun i => by simp only [RecLive, (he i).1]
  have ho : recOwner pAd' = recOwner pAd := funext fun i => by simp only [recOwner, (he i).2.1, (he i).2.2]
  have hs : recSlot pAd' = recSlot pAd := funext hc
  refine ⟨?_, ?_, fun i hi => ?_, fun p => ?_⟩
  · rw [hl, ho, hs]
    exact h.dir
  · rw [hn, h.num]
    simp only [hl]
  · rw [(he i).1]
    exact h.accepted i (hl ▸ hi)
  · rw [hb p, hs]
    exact h.bit p

theorem OriInv.frame {pAd pAd' : RtmpAdapter} (h : OriInv pAd)
    (he : ∀ i, (pAd'.baOriEntry i).oriBaStatus = (pAd.baOriEntry i).oriBaStatus ∧
      (pAd'.baOriEntry i).wcid = (pAd.baOriEntry i).wcid ∧
      (pAd'.baOriEntry i).tid = (pAd.baOriEntry i).tid) (hn : pAd'.numAsOriginator = pAd.numAsOriginator)
    (hd : pAd'.numDoneOriginator = pAd.numDoneOriginator) (hc : ∀ p, oriSlot pAd' p = oriSlot pAd p)
    (hb : ∀ p : Fin 32 × Fin 8, (pAd'.content p.1).txBAbitmap.getLsbD p.2 =
      (pAd.content p.1).txBAbitmap.getLsbD p.2) : OriInv pAd' := by
  have hl : OriLive pAd' = OriLive pAd := funext fun i => by simp only [OriLive, (he i).1]
  have ho : oriOwner pAd' = oriOwner pAd := funext fun i => by simp only [oriOwner, (he i).2.1, (he i).2.2]
  have hs : oriSlot pAd' = oriSlot pAd := funext hc
  refine ⟨?_, ?_, ?_, fun i hi => ?_, fun p => ?_⟩
  · rw [hl, ho, hs]
    exact h.dir
  · rw [hn, h.num]
    simp only [hl]
  · rw [hd, h.numDone]
    simp only [(he _).1]
  · rw [(he i).1]
    exact h.started i (hl ▸ hi)
  · rw [hb p, hs, (he _).1]
    exact h.bit p

/-! ### Bitmaps and index arrays -/

theorem getLsbD_setBit (bm : BitVec 16) (t u : Fin 8) :
    (setBit bm t).getLsbD u = (bm.getLsbD u || decide (u = t)) := by
  have := u.isLt
  have := t.isLt
  simp only [setBit, BitVec.getLsbD_or, BitVec.getLsbD_twoPow]
  congr 1
  rw [Bool.eq_iff_iff]
  simp [Fin.ext_iff]
  omega

theorem getLsbD_clearBit (bm : BitVec 16) (t u : Fin 8) :
    (clearBit bm t).getLsbD u = (bm.getLsbD u && !decide (u = t)) := by
  have := u.isLt
  have := t.isLt
  simp only [clearBit, BitVec.getLsbD_and, BitVec.getLsbD_not, BitVec.getLsbD_twoPow]
  congr 1
  rw [Bool.eq_iff_iff]
  simp [Fin.ext_iff]
  omega

theorem slot_update {f : Fin 32 → MacTableEntry} {g : MacTableEntry → Fin 8 → Fin 128} {w : Fin 32}
    {t : Fin 8} {idx : Fin 128} {e : MacTableEntry} (he : g e = Function.update (g (f w)) t idx) :
    (fun p : Fin 32 × Fin 8 => g (Function.update f w e p.1) p.2) =
      Function.update (fun p => g (f p.1) p.2) (w, t) idx := by
  funext ⟨w', t'⟩
  by_cases hw : w' = w
  · subst hw
    by_cases ht : t' = t
    · subst ht
      simp [he]
    · simp [he, ht]
  · simp [hw]

/-! ### Reordering code -/

theorem identity_eq {e e' : BaRecEntry} (h : identity e' = identity e) :
    e'.recBaStatus = e.recBaStatus ∧ e'.wcid = e.wcid ∧ e'.tid = e.tid := by
  simp only [identity, Prod.mk.injEq] at h
  exact ⟨h.1, h.2.1, h.2.2.1⟩

theorem TableInv.onRecEntry {pAd : RtmpAdapter} (h : TableInv pAd) (i : Fin 128)
    {f : Session → Session} (hf : ∀ s, identity (f s).ent = identity s.ent) : TableInv (pAd.onRecEntry i f) := by
  refine ⟨h.aid, h.recp.frame (fun j => ?_) rfl (fun p => rfl) (fun p => rfl),
    h.ori.frame (fun j => ⟨rfl, rfl, rfl⟩) rfl rfl (fun p => rfl) (fun p => rfl)⟩
  simp only [RtmpAdapter.onRecEntry]
  by_cases hj : j = i
  · subst hj
    rw [Function.update_self]
    exact identity_eq (hf _)
  · rw [Function.update_of_ne hj]
    exact ⟨rfl, rfl, rfl⟩

/-! ### The recipient -/

theorem RecInv.find_free {pAd : RtmpAdapter} (h : RecInv pAd) (hn : ¬ 127 ≤ pAd.numAsRecipient) :
    ∃ i, ((List.finRange 128).find? fun i =>
      i ≠ 0 ∧ (pAd.baRecEntry i).recBaStatus = .none) = some i ∧ i ≠ 0 ∧ ¬ RecLive pAd i := by
  have hc : (Finset.univ.filter (RecLive pAd)).card + 1 < Fintype.card (Fin 128) := by
    rw [← h.num, Fintype.card_fin]
    omega
  exact Directory.find_free (fun i => by simp [RecLive]) hc List.mem_finRange

theorem RecInv.opened {pAd pAd' : RtmpAdapter} {wcid : Fin 32} {tid : Fin 8} {i : Fin 128}
    (h : RecInv pAd) (hi : i ≠ 0) (hd : ¬ RecLive pAd i) (hs : recSlot pAd (wcid, tid) = 0)
    (hn : pAd'.numAsRecipient = pAd.numAsRecipient + 1) (he : ∀ j ≠ i, pAd'.baRecEntry j = pAd.baRecEntry j)
    (hei : (pAd'.baRecEntry i).recBaStatus = .accept ∧ recOwner pAd' i = (wcid, tid))
    (hc : recSlot pAd' = Function.update (recSlot pAd) (wcid, tid) i)
    (hb : ∀ p : Fin 32 × Fin 8, (pAd'.content p.1).rxBAbitmap.getLsbD p.2 =
      ((pAd.content p.1).rxBAbitmap.getLsbD p.2 || decide (p = (wcid, tid)))) : RecInv pAd' := by
  have hl : ∀ j, RecLive pAd' j ↔ j = i ∨ RecLive pAd j :=
    Directory.taken_iff (fun j hj => by simp only [RecLive, he j hj]) (by simp [RecLive, hei.1])
  have ho : recOwner pAd' = Function.update (recOwner pAd) i (wcid, tid) :=
    Function.eq_update_iff.mpr ⟨hei.2, fun j hj => by simp only [recOwner, he j hj]⟩
  refine ⟨?_, ?_, fun j hj => ?_, fun p => ?_⟩
  · rw [hc]
    exact (h.dir.insert hi hd hs).congr hl fun j _ => congrFun ho j
  · rw [hn, h.num, Directory.card_taken hl hd]
  · by_cases hji : j = i
    · rw [hji, hei.1]
    · have hlj : RecLive pAd j := ((hl j).mp hj).resolve_left hji
      rw [he j hji]
      exact h.accepted j hlj
  · rw [hb p, hc, Bool.or_eq_true, h.bit p]
    by_cases hp : p = (wcid, tid)
    · simp [hp, hi]
    · simp [hp]

theorem RecInv.closed {pAd pAd' : RtmpAdapter} {wcid : Fin 32} {tid : Fin 8} {i : Fin 128}
    (h : RecInv pAd) (hi : RecLive pAd i) (ho : recOwner pAd i = (wcid, tid))
    (hn : pAd'.numAsRecipient = pAd.numAsRecipient - 1) (he : ∀ j ≠ i, pAd'.baRecEntry j = pAd.baRecEntry j)
    (hei : (pAd'.baRecEntry i).recBaStatus = .none ∧ recOwner pAd' i = recOwner pAd i)
    (hc : recSlot pAd' = Function.update (recSlot pAd) (wcid, tid) 0)
    (hb : ∀ p : Fin 32 × Fin 8, (pAd'.content p.1).rxBAbitmap.getLsbD p.2 =
      ((pAd.content p.1).rxBAbitmap.getLsbD p.2 && !decide (p = (wcid, tid)))) : RecInv pAd' := by
  have hl : ∀ j, RecLive pAd' j ↔ j ≠ i ∧ RecLive pAd j :=
    Directory.returned_iff (fun j hj => by simp only [RecLive, he j hj]) (by simp [RecLive, hei.1])
  have ho' : recOwner pAd' = recOwner pAd := by
    funext j
    by_cases hj : j = i
    · rw [hj, hei.2]
    · simp only [recOwner, he j hj]
  refine ⟨?_, ?_, fun j hj => ?_, fun p => ?_⟩
  · rw [hc, ← ho]
    exact (h.dir.remove hi).congr hl fun j _ => congrFun ho' j
  · rw [hn, h.num, Directory.card_returned hl hi]
  · obtain ⟨hji, hlj⟩ := (hl j).mp hj
    rw [he j hji]
    exact h.accepted j hlj
  · rw [hb p, hc, Bool.and_eq_true, h.bit p]
    by_cases hp : p = (wcid, tid)
    · simp [hp]
    · simp [hp]

theorem bit_update {f : Fin 32 → MacTableEntry} {g : MacTableEntry → BitVec 16} {wcid : Fin 32}
    {e : MacTableEntry} {o : Bool → Bool → Bool} (tid : Fin 8)
    (he : ∀ u : Fin 8, (g e).getLsbD u = o ((g (f wcid)).getLsbD u) (decide (u = tid)))
    (ho : ∀ b, o b false = b) (p : Fin 32 × Fin 8) :
    (g (Function.update f wcid e p.1)).getLsbD p.2 =
      o ((g (f p.1)).getLsbD p.2) (decide (p = (wcid, tid))) := by
  obtain ⟨w, u⟩ := p
  by_cases hw : w = wcid
  · subst hw
    simp [he]
  · simp [hw, ho]

theorem update_field {α : Type*} {f : Fin 32 → MacTableEntry} {g : MacTableEntry → α} {wcid : Fin 32}
    {e : MacTableEntry} (he : g e = g (f wcid)) (w : Fin 32) : g (Function.update f wcid e w) = g (f w) := by
  by_cases hw : w = wcid
  · subst hw
    rw [Function.update_self, he]
  · rw [Function.update_of_ne hw]

theorem aid_setStation {pAd : RtmpAdapter} {wcid : Fin 32} {e : MacTableEntry}
    (he : e.aid = (pAd.content wcid).aid) (h : ∀ w, (pAd.content w).aid = w) (w : Fin 32) :
    ((pAd.setStation wcid e).content w).aid = w :=
  (update_field (g := MacTableEntry.aid) he w).trans (h w)

theorem OriInv.setStation {pAd : RtmpAdapter} (h : OriInv pAd) {wcid : Fin 32} {e : MacTableEntry}
    (ha : e.baOriWcidArray = (pAd.content wcid).baOriWcidArray)
    (hb : e.txBAbitmap = (pAd.content wcid).txBAbitmap) : OriInv (pAd.setStation wcid e) :=
  h.frame (fun _ => ⟨rfl, rfl, rfl⟩) rfl rfl
    (fun p => congrFun (update_field (g := MacTableEntry.baOriWcidArray) ha p.1) p.2)
    (fun p => congrArg (BitVec.getLsbD · p.2) (update_field (g := MacTableEntry.txBAbitmap) hb p.1))

theorem RecInv.setStation {pAd : RtmpAdapter} (h : RecInv pAd) {wcid : Fin 32} {e : MacTableEntry}
    (ha : e.baRecWcidArray = (pAd.content wcid).baRecWcidArray)
    (hb : e.rxBAbitmap = (pAd.content wcid).rxBAbitmap) : RecInv (pAd.setStation wcid e) :=
  h.frame (fun _ => ⟨rfl, rfl, rfl⟩) rfl
    (fun p => congrFun (update_field (g := MacTableEntry.baRecWcidArray) ha p.1) p.2)
    (fun p => congrArg (BitVec.getLsbD · p.2) (update_field (g := MacTableEntry.rxBAbitmap) hb p.1))

theorem TableInv.add_new {pAd : RtmpAdapter} (h : TableInv pAd) {wcid : Fin 32}
    {frame : FrameAddbaReq} (hs : recSlot pAd (wcid, frame.tid) = 0) :
    TableInv (baRecSessionAdd pAd wcid frame).2 := by
  have hs' : (pAd.content wcid).baRecWcidArray frame.tid = 0 := hs
  by_cases hn : 127 ≤ pAd.numAsRecipient
  · have : (baRecSessionAdd pAd wcid frame).2 = pAd := by
      simp [baRecSessionAdd, baTableAllocRecEntry, hs', hn]
    rw [this]
    exact h
  · obtain ⟨i, hf, hi, hd⟩ := h.recp.find_free hn
    simp only [baRecSessionAdd, baTableAllocRecEntry, hs', if_pos, if_neg hn, hf]
    refine ⟨?_, h.recp.opened hi hd hs rfl (fun j hj => ?_) ⟨?_, ?_⟩ ?_ ?_, ?_⟩
    · exact aid_setStation rfl h.aid
    · simp [fillRecEntry, RtmpAdapter.setStation, RtmpAdapter.onRecEntry, RtmpAdapter.setRecStatus, hj]
    · simp [fillRecEntry, RtmpAdapter.setStation, RtmpAdapter.onRecEntry, openSession]
    · simp [fillRecEntry, recOwner, RtmpAdapter.setStation, RtmpAdapter.onRecEntry,
        RtmpAdapter.setRecStatus, openSession, h.aid]
    · exact slot_update (g := MacTableEntry.baRecWcidArray) rfl
    · exact bit_update (g := MacTableEntry.rxBAbitmap) (o := or) _ (getLsbD_setBit _ _) (by simp)
    · refine OriInv.setStation ?_ rfl rfl
      exact h.ori.frame (fun j => ⟨rfl, rfl, rfl⟩) rfl rfl (fun p => rfl) (fun p => rfl)

theorem TableInv.add_again {pAd : RtmpAdapter} (h : TableInv pAd) {wcid : Fin 32}
    {frame : FrameAddbaReq} (hs : recSlot pAd (wcid, frame.tid) ≠ 0) :
    TableInv (baRecSessionAdd pAd wcid frame).2 := by
  have hs' : (pAd.content wcid).baRecWcidArray frame.tid ≠ 0 := hs
  have h1 := h.onRecEntry ((pAd.content wcid).baRecWcidArray frame.tid) identity_refresh
  simp only [baRecSessionAdd, if_neg hs']
  generalize hpAd1 : pAd.onRecEntry ((pAd.content wcid).baRecWcidArray frame.tid)
    Session.baRefreshReorderingMpdus = pAd1 at h1 ⊢
  have hslot : recSlot pAd1 (wcid, frame.tid) = (pAd.content wcid).baRecWcidArray frame.tid := by
    rw [← hpAd1]
    rfl
  rw [← hslot] at hs' ⊢
  obtain ⟨hl, ho⟩ := h1.recp.dir.slot_live (wcid, frame.tid) hs'
  have hacc := h1.recp.accepted _ hl
  have hbit := (h1.recp.bit (wcid, frame.tid)).mpr hs'
  simp only [recOwner, Prod.mk.injEq] at ho
  refine ⟨?_, h1.recp.frame (fun j => ?_) rfl (fun p => ?_) (fun p => ?_), ?_⟩
  · exact aid_setStation rfl h1.aid
  · by_cases hj : j = recSlot pAd1 (wcid, frame.tid)
    · subst hj
      simp [fillRecEntry, RtmpAdapter.setStation, RtmpAdapter.onRecEntry, openSession, h1.aid, hacc, ho.1, ho.2]
    · simp [fillRecEntry, RtmpAdapter.setStation, RtmpAdapter.onRecEntry, hj]
  · have := congrFun (slot_update (f := pAd1.content) (g := MacTableEntry.baRecWcidArray) (w := wcid)
      (t := frame.tid) (e := (pAd1.content wcid).openRec frame.tid (recSlot pAd1 (wcid, frame.tid)))
      rfl) p
    refine Eq.trans this ?_
    rw [Function.update_apply]
    split_ifs with hp
    · rw [hp]
    · rfl
  · refine Eq.trans (bit_update (f := pAd1.content) (g := MacTableEntry.rxBAbitmap) (o := or) _
      (getLsbD_setBit _ _) (by simp) p) ?_
    by_cases hp : p = (wcid, frame.tid)
    · subst hp
      simp [hbit]
    · simp [hp]
  · refine OriInv.setStation ?_ rfl rfl
    exact h1.ori.frame (fun j => ⟨rfl, rfl, rfl⟩) rfl rfl (fun p => rfl) (fun p => rfl)

theorem TableInv.baRecSessionAdd {pAd : RtmpAdapter} (h : TableInv pAd) (wcid : Fin 32)
    (frame : FrameAddbaReq) : TableInv (baRecSessionAdd pAd wcid frame).2 := by
  by_cases hs : recSlot pAd (wcid, frame.tid) = 0
  · exact h.add_new hs
  · exact h.add_again hs

theorem RecInv.tearDown_guard {pAd : RtmpAdapter} (h : RecInv pAd) {wcid : Fin 32} {tid : Fin 8}
    (hs : recSlot pAd (wcid, tid) ≠ 0) :
    RecLive pAd (recSlot pAd (wcid, tid)) ∧ recOwner pAd (recSlot pAd (wcid, tid)) = (wcid, tid) ∧
      (pAd.baRecEntry (recSlot pAd (wcid, tid))).recBaStatus = .accept := by
  obtain ⟨hl, ho⟩ := h.dir.slot_live (wcid, tid) hs
  exact ⟨hl, ho, h.accepted _ hl⟩

/-- A session that `BARecSessionTearDown` has closed and given back. -/
def endSession (s : Session) : Session :=
  { closeSession s with ent := { (closeSession s).ent with recBaStatus := .none } }

theorem closeSession_owner (s : Session) : (closeSession s).ent.recBaStatus = s.ent.recBaStatus ∧
    (closeSession s).ent.wcid = s.ent.wcid ∧ (closeSession s).ent.tid = s.ent.tid := by
  have h := identity_eq (identity_refresh s)
  exact ⟨h.1, h.2.1, h.2.2⟩

/-- **What a tear-down does** when it goes through: the session ends and its station forgets it. -/
theorem TableInv.tearDown_eq {pAd : RtmpAdapter} (h : TableInv pAd) {wcid : Fin 32} {tid : Fin 8}
    {bPassive elemAlloc : Bool} (hs : recSlot pAd (wcid, tid) ≠ 0) (hp : ¬ (¬ bPassive ∧ ¬ elemAlloc)) :
    baRecSessionTearDown pAd wcid tid bPassive elemAlloc =
      { (pAd.onRecEntry (recSlot pAd (wcid, tid)) endSession).setStation wcid
          ((pAd.content wcid).closeRec tid tid) with
        numAsRecipient := pAd.numAsRecipient - 1 } := by
  obtain ⟨hl, ho, hacc⟩ := h.recp.tearDown_guard hs
  simp only [recOwner, Prod.mk.injEq] at ho
  obtain ⟨hst, hw, ht⟩ := closeSession_owner
    ⟨pAd.freelist, pAd.baRecEntry (recSlot pAd (wcid, tid)), []⟩
  simp only [recSlot] at *
  generalize hi : (pAd.content wcid).baRecWcidArray tid = i at *
  have hcl : (pAd.content wcid).closeRec tid tid =
      ((pAd.content wcid).closeRec tid tid).setRecIdx tid 0 := by
    simp [MacTableEntry.closeRec, MacTableEntry.setRecIdx]
  simp only [baRecSessionTearDown, hi, hs, ho, hacc, if_false, and_self, if_true, hp,
    baTableFreeRecEntry, RtmpAdapter.setStation, RtmpAdapter.onRecEntry, RtmpAdapter.setRecStatus,
    Function.update_self, Function.update_idem, hst, hw, ht, ne_eq, reduceCtorEq, not_false_eq_true,
    endSession, ← hcl]

theorem TableInv.tearDown_none {pAd : RtmpAdapter} (h : TableInv pAd) {wcid : Fin 32} {tid : Fin 8}
    {bPassive elemAlloc : Bool} (hs : recSlot pAd (wcid, tid) = 0 ∨ ¬ bPassive ∧ ¬ elemAlloc) :
    baRecSessionTearDown pAd wcid tid bPassive elemAlloc = pAd := by
  by_cases hs0 : recSlot pAd (wcid, tid) = 0
  · exact if_pos hs0
  · have hp := hs.resolve_left hs0
    obtain ⟨hl, ho, hacc⟩ := h.recp.tearDown_guard hs0
    simp only [recOwner, Prod.mk.injEq] at ho
    simp only [recSlot] at *
    simp only [baRecSessionTearDown, hs0, ho, hacc, if_false, and_self, if_true, if_pos hp]

theorem TableInv.baRecSessionTearDown {pAd : RtmpAdapter} (h : TableInv pAd) (wcid : Fin 32)
    (tid : Fin 8) (bPassive elemAlloc : Bool) :
    TableInv (baRecSessionTearDown pAd wcid tid bPassive elemAlloc) := by
  by_cases hs : recSlot pAd (wcid, tid) = 0 ∨ ¬ bPassive ∧ ¬ elemAlloc
  · rw [h.tearDown_none hs]
    exact h
  · push Not at hs
    rw [h.tearDown_eq hs.1 (by simpa using hs.2)]
    obtain ⟨hl, ho, -⟩ := h.recp.tearDown_guard hs.1
    refine ⟨?_, h.recp.closed hl ho rfl (fun j hj => ?_) ⟨?_, ?_⟩ ?_ ?_, ?_⟩
    · exact aid_setStation rfl h.aid
    · simp [RtmpAdapter.setStation, RtmpAdapter.onRecEntry, hj]
    · simp [RtmpAdapter.setStation, RtmpAdapter.onRecEntry, endSession]
    · have := closeSession_owner ⟨pAd.freelist, pAd.baRecEntry (recSlot pAd (wcid, tid)), []⟩
      simp [recOwner, RtmpAdapter.setStation, RtmpAdapter.onRecEntry, endSession, this]
    · exact slot_update (g := MacTableEntry.baRecWcidArray) rfl
    · exact bit_update (g := MacTableEntry.rxBAbitmap) (o := fun b c => b && !c) _
        (getLsbD_clearBit _ _) (by simp)
    · have hc : OriInv (pAd.setStation wcid ((pAd.content wcid).closeRec tid tid)) :=
        h.ori.setStation rfl rfl
      exact hc.frame (fun j => ⟨rfl, rfl, rfl⟩) rfl rfl (fun p => rfl) (fun p => rfl)

/-! ### The originator -/

theorem OriInv.find_free {pAd : RtmpAdapter} (h : OriInv pAd) (hn : ¬ 127 ≤ pAd.numAsOriginator) :
    ∃ i, ((List.finRange 128).find? fun i =>
      i ≠ 0 ∧ (pAd.baOriEntry i).oriBaStatus = .none) = some i ∧ i ≠ 0 ∧ ¬ OriLive pAd i := by
  have hc : (Finset.univ.filter (OriLive pAd)).card + 1 < Fintype.card (Fin 128) := by
    rw [← h.num, Fintype.card_fin]
    omega
  exact Directory.find_free (fun i => by simp [OriLive]) hc List.mem_finRange

theorem OriInv.opened {pAd pAd' : RtmpAdapter} {wcid : Fin 32} {tid : Fin 8} {i : Fin 128}
    (h : OriInv pAd) (hi : i ≠ 0) (hd : ¬ OriLive pAd i) (hs : oriSlot pAd (wcid, tid) = 0)
    (hn : pAd'.numAsOriginator = pAd.numAsOriginator + 1) (hnd : pAd'.numDoneOriginator = pAd.numDoneOriginator)
    (he : ∀ j ≠ i, pAd'.baOriEntry j = pAd.baOriEntry j)
    (hei : (pAd'.baOriEntry i).oriBaStatus = .waitRes ∧ oriOwner pAd' i = (wcid, tid))
    (hc : oriSlot pAd' = Function.update (oriSlot pAd) (wcid, tid) i)
    (hb : ∀ p : Fin 32 × Fin 8, (pAd'.content p.1).txBAbitmap.getLsbD p.2 =
      (pAd.content p.1).txBAbitmap.getLsbD p.2) : OriInv pAd' := by
  have hl : ∀ j, OriLive pAd' j ↔ j = i ∨ OriLive pAd j :=
    Directory.taken_iff (fun j hj => by simp only [OriLive, he j hj]) (by simp [OriLive, hei.1])
  have ho : oriOwner pAd' = Function.update (oriOwner pAd) i (wcid, tid) :=
    Function.eq_update_iff.mpr ⟨hei.2, fun j hj => by simp only [oriOwner, he j hj]⟩
  have hdone : ∀ j, (pAd'.baOriEntry j).oriBaStatus = .done ↔
      (pAd.baOriEntry j).oriBaStatus = .done := by
    intro j
    by_cases hj : j = i
    · subst hj
      simp only [OriLive, ne_eq, not_not] at hd
      simp [hei.1, hd]
    · rw [he j hj]
  refine ⟨?_, ?_, ?_, fun j hj => ?_, fun p => ?_⟩
  · rw [hc]
    exact (h.dir.insert hi hd hs).congr hl fun j _ => congrFun ho j
  · rw [hn, h.num, Directory.card_taken hl hd]
  · rw [hnd, h.numDone]
    simp only [hdone]
  · by_cases hji : j = i
    · rw [hji]
      exact Or.inl hei.1
    · have hlj : OriLive pAd j := ((hl j).mp hj).resolve_left hji
      rw [he j hji]
      exact h.started j hlj
  · rw [hb p, h.bit p, hdone, hc]
    by_cases hp : p = (wcid, tid)
    · have hni : (pAd.baOriEntry i).oriBaStatus = .none := by simpa [OriLive] using hd
      simp [hp, hs, hni]
    · simp [hp]

theorem OriInv.completed {pAd pAd' : RtmpAdapter} {wcid : Fin 32} {tid : Fin 8} {i : Fin 128}
    (h : OriInv pAd) (hs : oriSlot pAd (wcid, tid) = i) (hi : i ≠ 0)
    (hw : (pAd.baOriEntry i).oriBaStatus = .waitRes) (hn : pAd'.numAsOriginator = pAd.numAsOriginator)
    (hnd : pAd'.numDoneOriginator = pAd.numDoneOriginator + 1) (he : ∀ j ≠ i, pAd'.baOriEntry j = pAd.baOriEntry j)
    (hei : (pAd'.baOriEntry i).oriBaStatus = .done ∧ oriOwner pAd' i = oriOwner pAd i)
    (hc : oriSlot pAd' = oriSlot pAd)
    (hb : ∀ p : Fin 32 × Fin 8, (pAd'.content p.1).txBAbitmap.getLsbD p.2 =
      ((pAd.content p.1).txBAbitmap.getLsbD p.2 || decide (p = (wcid, tid)))) : OriInv pAd' := by
  have hl : ∀ j, OriLive pAd' j ↔ OriLive pAd j := by
    intro j
    by_cases hj : j = i
    · subst hj
      simp [OriLive, hei.1, hw]
    · simp [OriLive, he j hj]
  have ho : oriOwner pAd' = oriOwner pAd := by
    funext j
    by_cases hj : j = i
    · rw [hj, hei.2]
    · simp only [oriOwner, he j hj]
  have hdone : ∀ j, (pAd'.baOriEntry j).oriBaStatus = .done ↔
      j = i ∨ (pAd.baOriEntry j).oriBaStatus = .done :=
    Directory.taken_iff (fun j hj => by rw [he j hj]) hei.1
  refine ⟨?_, ?_, ?_, fun j hj => ?_, fun p => ?_⟩
  · rw [hc]
    exact h.dir.congr hl fun j _ => congrFun ho j
  · rw [hn, h.num]
    simp only [hl]
  · rw [hnd, h.numDone, Directory.card_taken hdone (by simp [hw])]
  · by_cases hji : j = i
    · rw [hji]
      exact Or.inr hei.1
    · rw [he j hji]
      exact h.started j ((hl j).mp hj)
  · rw [hb p, Bool.or_eq_true, h.bit p, hdone, hc, decide_eq_true_eq]
    have hinj : oriSlot pAd p = i → p = (wcid, tid) := by
      intro hp
      have h1 := (h.dir.slot_live p (by rw [hp]; exact hi)).2
      have h2 := (h.dir.slot_live (wcid, tid) (by rw [hs]; exact hi)).2
      rw [← h1, hp, ← hs, h2]
    by_cases hp : p = (wcid, tid)
    · simp [hp, hs, hi]
    · have : oriSlot pAd p ≠ i := fun hc => hp (hinj hc)
      simp [hp, this]

theorem OriInv.closed {pAd pAd' : RtmpAdapter} {wcid : Fin 32} {tid : Fin 8} {i : Fin 128}
    (h : OriInv pAd) (hi : OriLive pAd i) (ho : oriOwner pAd i = (wcid, tid))
    (hn : pAd'.numAsOriginator = pAd.numAsOriginator - 1)
    (hnd : pAd'.numDoneOriginator = if (pAd.baOriEntry i).oriBaStatus = .done then
      pAd.numDoneOriginator - 1 else pAd.numDoneOriginator) (he : ∀ j ≠ i, pAd'.baOriEntry j = pAd.baOriEntry j)
    (hei : (pAd'.baOriEntry i).oriBaStatus = .none ∧ oriOwner pAd' i = oriOwner pAd i)
    (hc : oriSlot pAd' = Function.update (oriSlot pAd) (wcid, tid) 0)
    (hb : ∀ p : Fin 32 × Fin 8, (pAd'.content p.1).txBAbitmap.getLsbD p.2 =
      ((pAd.content p.1).txBAbitmap.getLsbD p.2 && !decide (p = (wcid, tid) ∧
        (pAd.baOriEntry i).oriBaStatus = .done))) : OriInv pAd' := by
  have hl : ∀ j, OriLive pAd' j ↔ j ≠ i ∧ OriLive pAd j :=
    Directory.returned_iff (fun j hj => by simp only [OriLive, he j hj]) (by simp [OriLive, hei.1])
  have ho' : oriOwner pAd' = oriOwner pAd := by
    funext j
    by_cases hj : j = i
    · rw [hj, hei.2]
    · simp only [oriOwner, he j hj]
  have hdone : ∀ j, (pAd'.baOriEntry j).oriBaStatus = .done ↔
      j ≠ i ∧ (pAd.baOriEntry j).oriBaStatus = .done :=
    Directory.returned_iff (fun j hj => by rw [he j hj]) (by simp [hei.1])
  refine ⟨?_, ?_, ?_, fun j hj => ?_, fun p => ?_⟩
  · rw [hc, ← ho]
    exact (h.dir.remove hi).congr hl fun j _ => congrFun ho' j
  · rw [hn, h.num, Directory.card_returned hl hi]
  · rw [hnd, h.numDone]
    split_ifs with hd
    · rw [Directory.card_returned hdone hd]
    · have hsame : ∀ j, (pAd'.baOriEntry j).oriBaStatus = .done ↔
          (pAd.baOriEntry j).oriBaStatus = .done := by
        intro j
        rw [hdone, and_iff_right_iff_imp]
        rintro hj rfl
        exact hd hj
      simp only [hsame]
  · obtain ⟨hji, hlj⟩ := (hl j).mp hj
    rw [he j hji]
    exact h.started j hlj
  · have hsi : oriSlot pAd (wcid, tid) = i := by rw [← ho]; exact (h.dir.live_slot i hi).2
    rw [hb p, Bool.and_eq_true, h.bit p, hc]
    by_cases hp : p = (wcid, tid)
    · subst hp
      simp [hsi]
    · have hne : oriSlot pAd p ≠ 0 → oriSlot pAd p ≠ i := by
        intro hz hc
        have h1 := (h.dir.slot_live p hz).2
        rw [hc, ho] at h1
        exact hp h1.symm
      simp only [hp, false_and, decide_false, Bool.not_false, and_true, Function.update_of_ne hp, ne_eq, hdone]
      constructor
      · rintro ⟨h1, h2⟩
        exact ⟨h1, hne h1, h2⟩
      · rintro ⟨h1, -, h2⟩
        exact ⟨h1, h2⟩

/-- **Freeing an originator entry keeps the tables consistent**, whichever entry it is. -/
theorem TableInv.baTableFreeOriEntry {pAd : RtmpAdapter} (h : TableInv pAd) (i : Fin 128) :
    TableInv (baTableFreeOriEntry pAd i) := by
  simp only [Tables.baTableFreeOriEntry]
  by_cases hi : i = 0
  · rw [if_pos hi]
    exact h
  by_cases hl : (pAd.baOriEntry i).oriBaStatus ≠ .none
  · rw [if_neg hi, if_pos hl]
    refine ⟨?_, ?_, h.ori.closed hl rfl rfl rfl (fun j hj => ?_) ⟨?_, ?_⟩ ?_ ?_⟩
    · exact aid_setStation rfl h.aid
    · have hc : RecInv (pAd.setStation (pAd.baOriEntry i).wcid
          ((pAd.content (pAd.baOriEntry i).wcid).closeOri (pAd.baOriEntry i).tid
            ((pAd.baOriEntry i).oriBaStatus = .done))) := h.recp.setStation rfl rfl
      exact hc.frame (fun j => ⟨rfl, rfl, rfl⟩) rfl (fun p => rfl) (fun p => rfl)
    · simp [RtmpAdapter.setOriEntry, RtmpAdapter.setStation, hj]
    · simp [RtmpAdapter.setOriEntry]
    · simp [oriOwner, RtmpAdapter.setOriEntry]
    · exact slot_update (g := MacTableEntry.baOriWcidArray) rfl
    · intro p
      refine (bit_update (g := MacTableEntry.txBAbitmap)
        (o := fun b c => b && !(c && decide ((pAd.baOriEntry i).oriBaStatus = .done)))
        (pAd.baOriEntry i).tid (fun u => ?_) (by simp) p).trans ?_
      · simp only [MacTableEntry.closeOri]
        by_cases hd : (pAd.baOriEntry i).oriBaStatus = .done
        · simp [hd, getLsbD_clearBit]
        · simp [hd]
      · simp
  · rw [if_neg hi, if_neg hl]
    exact h

theorem TableInv.baOriSessionSetUp {pAd : RtmpAdapter} (h : TableInv pAd) (wcid : Fin 32)
    (tid : Fin 8) (timeOut : ℕ) (isForced : Bool) : TableInv (baOriSessionSetUp pAd wcid tid timeOut isForced) := by
  simp only [Tables.baOriSessionSetUp]
  by_cases h1 : ¬ pAd.cfg.autoBA ∧ ¬ isForced
  · rw [if_pos h1]
    exact h
  by_cases h2 : pAd.cfg.fixedTxMode ≠ 0
  · rw [if_neg h1, if_pos h2]
    exact h
  rw [if_neg h1, if_neg h2]
  by_cases hs : oriSlot pAd (wcid, tid) = 0
  · have hs' : (pAd.content wcid).baOriWcidArray tid = 0 := hs
    by_cases hn : 127 ≤ pAd.numAsOriginator
    · simp only [baTableAllocOriEntry, hs', if_pos, if_pos hn]
      exact h
    · obtain ⟨i, hf, hi, hd⟩ := h.ori.find_free hn
      have hst : ¬ OriBlockackStatus.waitRes.toNat ≤ ((pAd.setOriEntry i
          { pAd.baOriEntry i with oriBaStatus := .used }).baOriEntry i).oriBaStatus.toNat := by
        simp [RtmpAdapter.setOriEntry, OriBlockackStatus.toNat]
      simp only [baTableAllocOriEntry, hs', if_pos, if_neg hn, hf, if_neg hst]
      refine ⟨?_, ?_, h.ori.opened hi hd hs rfl rfl (fun j hj => ?_) ⟨?_, ?_⟩ ?_ ?_⟩
      · exact aid_setStation rfl h.aid
      · have hc : RecInv (pAd.setStation wcid ((pAd.content wcid).setOriIdx tid i)) :=
          h.recp.setStation rfl rfl
        exact hc.frame (fun j => ⟨rfl, rfl, rfl⟩) rfl (fun p => rfl) (fun p => rfl)
      · simp [initOriEntry, RtmpAdapter.setOriEntry, RtmpAdapter.setStation, hj]
      · simp [initOriEntry, RtmpAdapter.setOriEntry]
      · simp [initOriEntry, oriOwner, RtmpAdapter.setOriEntry, h.aid]
      · exact slot_update (g := MacTableEntry.baOriWcidArray) rfl
      · intro p
        exact congrArg (BitVec.getLsbD · p.2)
          (update_field (g := MacTableEntry.txBAbitmap) (f := pAd.content)
            (e := (pAd.content wcid).setOriIdx tid i) rfl p.1)
  · have hs' : (pAd.content wcid).baOriWcidArray tid ≠ 0 := hs
    have hst : OriBlockackStatus.waitRes.toNat ≤
        (pAd.baOriEntry ((pAd.content wcid).baOriWcidArray tid)).oriBaStatus.toNat := by
      rcases h.ori.started _ (h.ori.dir.slot_live _ hs).1 with hw | hd
      · exact (congrArg OriBlockackStatus.toNat hw).ge
      · have hd' : (pAd.baOriEntry ((pAd.content wcid).baOriWcidArray tid)).oriBaStatus = .done := hd
        rw [hd']
        decide
    simp only [if_neg hs', if_pos hst]
    exact h

theorem TableInv.baOriSessionAdd {pAd : RtmpAdapter} (h : TableInv pAd) (wcid : Fin 32)
    (frame : FrameAddbaRsp) : TableInv (baOriSessionAdd pAd wcid frame) := by
  simp only [Tables.baOriSessionAdd]
  split_ifs with hc
  · obtain ⟨hi, ht, hw⟩ := hc
    refine ⟨?_, ?_, h.ori.completed (show oriSlot pAd (wcid, frame.tid) = _ from rfl) hi hw rfl rfl
      (fun j hj => ?_) ⟨?_, ?_⟩ ?_ ?_⟩
    · exact aid_setStation rfl h.aid
    · have hc : RecInv (pAd.setStation wcid { pAd.content wcid with
          txBAbitmap := setBit (pAd.content wcid).txBAbitmap frame.tid }) :=
        h.recp.setStation rfl rfl
      exact hc.frame (fun j => ⟨rfl, rfl, rfl⟩) rfl (fun p => rfl) (fun p => rfl)
    · simp only [RtmpAdapter.setOriEntry, RtmpAdapter.setStation]
      exact Function.update_of_ne hj _ _
    · simp [RtmpAdapter.setOriEntry, RtmpAdapter.setStation, oriSlot]
    · simp [oriOwner, RtmpAdapter.setOriEntry, RtmpAdapter.setStation, oriSlot]
    · funext p
      exact congrFun (update_field (g := MacTableEntry.baOriWcidArray) (f := pAd.content)
        (e := { pAd.content wcid with
          txBAbitmap := setBit (pAd.content wcid).txBAbitmap frame.tid }) rfl p.1) p.2
    · exact bit_update (g := MacTableEntry.txBAbitmap) (o := or) _ (getLsbD_setBit _ _) (by simp)
  · exact h

theorem TableInv.baOriSessionTearDown {pAd : RtmpAdapter} (h : TableInv pAd) (wcid : Fin 32)
    (tid : Fin 8) (bPassive elemAlloc : Bool) :
    TableInv (baOriSessionTearDown pAd wcid tid bPassive elemAlloc) := by
  simp only [Tables.baOriSessionTearDown]
  split_ifs
  · exact h
  · exact h
  · exact h.baTableFreeOriEntry _

/-- **The originator's timer keeps the tables consistent**, on whatever entry it fires. -/
theorem TableInv.baOriSessionSetupTimeout {pAd : RtmpAdapter} (h : TableInv pAd) (i : Fin 128) :
    TableInv (baOriSessionSetupTimeout pAd i) := by
  simp only [Tables.baOriSessionSetupTimeout]
  split_ifs
  · exact h
  · exact h
  · refine ⟨h.aid, h.recp.frame (fun j => ⟨rfl, rfl, rfl⟩) rfl (fun p => rfl) (fun p => rfl),
      h.ori.frame (fun j => ?_) rfl rfl (fun p => rfl) (fun p => rfl)⟩
    by_cases hj : j = i
    · subst hj
      simp [RtmpAdapter.setOriEntry]
    · simp [RtmpAdapter.setOriEntry, hj]
  · exact h.baTableFreeOriEntry _

/-! ### Every operation and every run -/

theorem TableInv.flushRecEntry {pAd : RtmpAdapter} (h : TableInv pAd) (now32 : Tick)
    (i : Fin 128) : TableInv (flushRecEntry now32 pAd i) :=
  h.onRecEntry i fun s => identity_flush _ s _

theorem TableInv.log_irrel {pAd : RtmpAdapter} (h : TableInv pAd)
    (log : List (Option (Fin 128) × Event)) : TableInv { pAd with log := log } :=
  ⟨h.aid, h.recp.frame (fun _ => ⟨rfl, rfl, rfl⟩) rfl (fun _ => rfl) (fun _ => rfl),
    h.ori.frame (fun _ => ⟨rfl, rfl, rfl⟩) rfl rfl (fun _ => rfl) (fun _ => rfl)⟩

theorem step_tableInv (pAd : RtmpAdapter) (op : Op) (h : TableInv pAd) : TableInv (step pAd op) := by
  cases op with
  | configure cfg =>
    exact ⟨h.aid, h.recp.frame (fun _ => ⟨rfl, rfl, rfl⟩) rfl (fun _ => rfl) (fun _ => rfl),
      h.ori.frame (fun _ => ⟨rfl, rfl, rfl⟩) rfl rfl (fun _ => rfl) (fun _ => rfl)⟩
  | baOriSessionSetUp wcid tid timeOut isForced =>
    exact h.baOriSessionSetUp wcid tid timeOut isForced
  | baOriSessionAdd wcid frame => exact h.baOriSessionAdd wcid frame
  | baOriSessionTearDown wcid tid bPassive elemAlloc =>
    exact h.baOriSessionTearDown wcid tid bPassive elemAlloc
  | baOriSessionSetupTimeout i => exact h.baOriSessionSetupTimeout i
  | baRecSessionAdd wcid frame => exact h.baRecSessionAdd wcid frame
  | baRecSessionTearDown wcid tid bPassive elemAlloc =>
    exact h.baRecSessionTearDown wcid tid bPassive elemAlloc
  | baSessionTearDownALL wcid elemAlloc =>
    exact run_invariant_all (fun pAd tid h =>
      (h.baOriSessionTearDown wcid tid false _).baRecSessionTearDown wcid tid false _) _ pAd h
  | baRecSessionIdleTimeout i now32 =>
    simp only [step, Tables.baRecSessionIdleTimeout]
    split_ifs
    · exact h.onRecEntry i identity_refresh
    · exact h
  | peerAddBAReqAction wcid msgLen frame =>
    simp only [step, Tables.peerAddBAReqAction]
    split_ifs
    · exact h.baRecSessionAdd _ frame
    · exact h
    · exact h
  | peerAddBARspAction wcid msgLen frame =>
    have h' : ∀ w, TableInv (if frame.statusCode = 0 then Tables.baOriSessionAdd pAd w frame
        else Tables.baOriSessionTearDown pAd w frame.tid true true) := by
      intro w
      split_ifs
      · exact h.baOriSessionAdd w frame
      · exact h.baOriSessionTearDown w frame.tid true true
    simp only [step, Tables.peerAddBARspAction]
    by_cases hw : wcid < 32
    · rw [dif_pos hw]
      by_cases hs : peerAddBARspActionSanity msgLen frame = true
      · rw [if_pos hs]
        specialize h' ⟨wcid, hw⟩
        generalize (if frame.statusCode = 0 then Tables.baOriSessionAdd pAd ⟨wcid, hw⟩ frame
          else Tables.baOriSessionTearDown pAd ⟨wcid, hw⟩ frame.tid true true) = pAd' at h' ⊢
        split_ifs
        · exact ⟨aid_setStation rfl h'.aid, h'.recp.setStation rfl rfl, h'.ori.setStation rfl rfl⟩
        · exact h'
      · rw [if_neg hs]
        exact h
    · rw [dif_neg hw]
      exact h
  | peerDelBAAction wcid msgLen tid initiator =>
    simp only [step, Tables.peerDelBAAction]
    split_ifs
    · exact h.baRecSessionTearDown _ tid true true
    · exact h.baOriSessionTearDown _ tid true true
    · exact h
  | indicateAmpduPacket rx now32 legacyNow32 =>
    simp only [step, Tables.indicateAmpduPacket]
    split_ifs
    · exact h.log_irrel _
    · exact h.log_irrel _
    · exact h.onRecEntry _ fun s => identity_indicateAmpduSession _ s rx
    · exact h.log_irrel _
  | cntlEnqueueForRecv wcid msgLen tid startSeq =>
    simp only [step, Tables.cntlEnqueueForRecv]
    split_ifs
    · exact h
    · exact h
    · exact h.onRecEntry _ fun s => identity_cntlBar s startSeq
    · exact h
  | flushRecEntry i now32 => exact h.flushRecEntry now32 i
  | baReOrderingBufferMaintain now32 =>
    -- The two loops are runs, over the stations and over the TIDs.
    refine run_invariant_all (fun pAd wcid h => ?_) _ pAd h
    split_ifs
    · exact h
    · exact run_invariant_all (fun pAd tid h => h.flushRecEntry now32 _) _ pAd h

theorem initAdapter_tableInv (cfg : Config) (num : ℕ) (attrs : Fin 32 → MacTableEntry) :
    TableInv (initAdapter cfg num attrs) := by
  have hr : ∀ i, ¬ RecLive (initAdapter cfg num attrs) i := by simp [RecLive, initAdapter, zeroRecEntry]
  have ho : ∀ i, ¬ OriLive (initAdapter cfg num attrs) i := by simp [OriLive, initAdapter, zeroOriEntry]
  refine ⟨fun w => rfl, ⟨⟨fun p hp => absurd rfl hp, fun i hi => absurd hi (hr i)⟩, ?_,
    fun i hi => absurd hi (hr i), ?_⟩, ⟨⟨fun p hp => absurd rfl hp, fun i hi => absurd hi (ho i)⟩, ?_,
    ?_, fun i hi => absurd hi (ho i), ?_⟩⟩
  · rw [Finset.filter_false_of_mem fun i _ => hr i]
    rfl
  · simp [recSlot, initAdapter, freshStation]
  · rw [Finset.filter_false_of_mem fun i _ => ho i]
    rfl
  · simp [initAdapter, zeroOriEntry]
  · simp [oriSlot, initAdapter, freshStation]

/-- The two tables, their counters, the index arrays and the bitmaps agree. -/
structure BaTableConsistent (pAd : RtmpAdapter) : Prop where
  numAsOriginator : pAd.numAsOriginator = (Finset.univ.filter fun i => (pAd.baOriEntry i).oriBaStatus ≠ .none).card
  numAsRecipient : pAd.numAsRecipient = (Finset.univ.filter fun i => (pAd.baRecEntry i).recBaStatus ≠ .none).card
  numDoneOriginator : pAd.numDoneOriginator =
    (Finset.univ.filter fun i => (pAd.baOriEntry i).oriBaStatus = .done).card
  oriSlot : ∀ wcid tid, (pAd.content wcid).baOriWcidArray tid ≠ 0 →
    let ent := pAd.baOriEntry ((pAd.content wcid).baOriWcidArray tid)
    ent.oriBaStatus ≠ .none ∧ ent.wcid = wcid ∧ ent.tid = tid
  recSlot : ∀ wcid tid, (pAd.content wcid).baRecWcidArray tid ≠ 0 →
    let ent := pAd.baRecEntry ((pAd.content wcid).baRecWcidArray tid)
    ent.recBaStatus ≠ .none ∧ ent.wcid = wcid ∧ ent.tid = tid
  oriOnce : ∀ i, (pAd.baOriEntry i).oriBaStatus ≠ .none →
    ∃! p : Fin 32 × Fin 8, (pAd.content p.1).baOriWcidArray p.2 = i
  recOnce : ∀ i, (pAd.baRecEntry i).recBaStatus ≠ .none →
    ∃! p : Fin 32 × Fin 8, (pAd.content p.1).baRecWcidArray p.2 = i
  txBAbitmap : ∀ (wcid : Fin 32) (tid : Fin 8), (pAd.content wcid).txBAbitmap.getLsbD tid = true ↔
    (pAd.content wcid).baOriWcidArray tid ≠ 0 ∧
      (pAd.baOriEntry ((pAd.content wcid).baOriWcidArray tid)).oriBaStatus = .done
  rxBAbitmap : ∀ (wcid : Fin 32) (tid : Fin 8), (pAd.content wcid).rxBAbitmap.getLsbD tid = true ↔
    (pAd.content wcid).baRecWcidArray tid ≠ 0 ∧
      (pAd.baRecEntry ((pAd.content wcid).baRecWcidArray tid)).recBaStatus = .accept

theorem TableInv.consistent {pAd : RtmpAdapter} (h : TableInv pAd) : BaTableConsistent pAd where
  numAsOriginator := h.ori.num
  numAsRecipient := h.recp.num
  numDoneOriginator := h.ori.numDone
  oriSlot wcid tid hs := by
    obtain ⟨hl, ho⟩ := h.ori.dir.slot_live (wcid, tid) hs
    exact ⟨hl, congrArg Prod.fst ho, congrArg Prod.snd ho⟩
  recSlot wcid tid hs := by
    obtain ⟨hl, ho⟩ := h.recp.dir.slot_live (wcid, tid) hs
    exact ⟨hl, congrArg Prod.fst ho, congrArg Prod.snd ho⟩
  oriOnce i hi := h.ori.dir.existsUnique_slot hi
  recOnce i hi := h.recp.dir.existsUnique_slot hi
  txBAbitmap wcid tid := h.ori.bit (wcid, tid)
  rxBAbitmap wcid tid := by
    refine (h.recp.bit (wcid, tid)).trans ⟨fun hs => ⟨hs, ?_⟩, fun hs => hs.1⟩
    exact h.recp.accepted _ (h.recp.dir.slot_live (wcid, tid) hs).1

theorem run_tableInv (cfg : Config) (num : ℕ) (attrs : Fin 32 → MacTableEntry) (ops : List Op) :
    TableInv (Runs.run step (initAdapter cfg num attrs) ops) :=
  Runs.run_invariant_all step_tableInv ops _ (initAdapter_tableInv cfg num attrs)

/-- **The block-ack tables are consistent in every reachable state**, whatever operations ran. -/
theorem baTableConsistent_run (cfg : Config) (num : ℕ) (attrs : Fin 32 → MacTableEntry)
    (ops : List Op) : BaTableConsistent (Runs.run step (initAdapter cfg num attrs) ops) :=
  (run_tableInv cfg num attrs ops).consistent

end Mt7610u.BlockAck.Consistency
