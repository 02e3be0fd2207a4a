import Mt7610u.BlockAck.Conservation

/-! # Tearing sessions down

What is left of a session after `BAOriSessionTearDown` and `BARecSessionTearDown`, in any state that a run
reaches and for any outcome of the allocation of the DELBA request. -/

namespace Mt7610u.BlockAck.TearDown

open Reorder Session SessionSpec Tables Consistency Steps ReorderInv Conservation Lib Lib.Runs

variable {pAd pAd' : RtmpAdapter} {wcid : Fin 32} {tid : Fin 8}

/-- Nothing is left in `pAd'` of the originator's session that `pAd` has. -/
structure OriTornDown (pAd pAd' : RtmpAdapter) (wcid : Fin 32) (tid : Fin 8) : Prop where
  status : (pAd'.baOriEntry (oriSlot pAd (wcid, tid))).oriBaStatus = .none
  slot : oriSlot pAd' (wcid, tid) = 0
  bit : (pAd'.content wcid).txBAbitmap.getLsbD tid = false
  num : pAd'.numAsOriginator + 1 = pAd.numAsOriginator
  numDone : pAd'.numDoneOriginator +
    (if (pAd.baOriEntry (oriSlot pAd (wcid, tid))).oriBaStatus = .done then 1 else 0) = pAd.numDoneOriginator

/-- Nothing is left in `pAd'` of the recipient's session that `pAd` has: what was in its list is passed up or
released, each packet once, and its blocks are in the free list. -/
structure RecTornDown (pAd pAd' : RtmpAdapter) (wcid : Fin 32) (tid : Fin 8) : Prop where
  status : (pAd'.baRecEntry (recSlot pAd (wcid, tid))).recBaStatus = .none
  slot : recSlot pAd' (wcid, tid) = 0
  bit : (pAd'.content wcid).rxBAbitmap.getLsbD tid = false
  num : pAd'.numAsRecipient + 1 = pAd.numAsRecipient
  list : (pAd'.baRecEntry (recSlot pAd (wcid, tid))).list = ⟨[], 0⟩
  packets : ∃ events, pAd'.log = pAd.log ++ events ∧
    (events.filterMap fun e => eventPacket e.2 : Multiset ℕ) =
      ((pAd.baRecEntry (recSlot pAd (wcid, tid))).list.next.map ReorderingMpdu.pPacket : Multiset ℕ)
  blocks : (pAd'.freelist.next.map ReorderingMpdu.addr : Multiset ℕ) =
    (pAd.freelist.next.map ReorderingMpdu.addr : Multiset ℕ) +
      ((pAd.baRecEntry (recSlot pAd (wcid, tid))).list.next.map ReorderingMpdu.addr : Multiset ℕ)

/-! ### The originator -/

def OriStops (pAd : RtmpAdapter) (wcid : Fin 32) (tid : Fin 8) (bPassive elemAlloc : Bool) : Prop :=
  bPassive = false ∧ elemAlloc = false ∧ (pAd.baOriEntry (oriSlot pAd (wcid, tid))).oriBaStatus = .done

theorem oriTearDown_of_stops {bPassive elemAlloc : Bool} (h : TableInv pAd)
    (hstops : OriStops pAd wcid tid bPassive elemAlloc) :
    baOriSessionTearDown pAd wcid tid bPassive elemAlloc = pAd := by
  obtain ⟨hp, he, hd⟩ := hstops
  by_cases hs : oriSlot pAd (wcid, tid) = 0
  · exact if_pos hs
  · obtain ⟨-, ho⟩ := h.ori.dir.slot_live (wcid, tid) hs
    simp only [oriOwner, Prod.mk.injEq] at ho
    simp only [oriSlot] at hs hd ho
    simp only [baOriSessionTearDown, if_neg hs, ho.2, hd, hp, he]
    simp

theorem freeOri_eq {i : Fin 128} (hi : i ≠ 0) (hl : OriLive pAd i) :
    baTableFreeOriEntry pAd i =
      { (pAd.setStation (pAd.baOriEntry i).wcid ((pAd.content (pAd.baOriEntry i).wcid).closeOri
            (pAd.baOriEntry i).tid ((pAd.baOriEntry i).oriBaStatus = .done))).setOriEntry i
          { pAd.baOriEntry i with oriBaStatus := .none, token := 0 } with
        numDoneOriginator :=
          if (pAd.baOriEntry i).oriBaStatus = .done then pAd.numDoneOriginator - 1 else pAd.numDoneOriginator
        numAsOriginator := pAd.numAsOriginator - 1 } := by
  simp only [baTableFreeOriEntry]
  rw [if_neg hi]
  exact if_pos hl

theorem oriTearDown_of_not_stops {bPassive elemAlloc : Bool} (h : TableInv pAd)
    (hs : oriSlot pAd (wcid, tid) ≠ 0) (hgoes : ¬ OriStops pAd wcid tid bPassive elemAlloc) :
    OriTornDown pAd (baOriSessionTearDown pAd wcid tid bPassive elemAlloc) wcid tid := by
  obtain ⟨hl, ho⟩ := h.ori.dir.slot_live (wcid, tid) hs
  have hinv := (h.baTableFreeOriEntry (oriSlot pAd (wcid, tid))).ori
  have hcode : baOriSessionTearDown pAd wcid tid bPassive elemAlloc =
      baTableFreeOriEntry pAd (oriSlot pAd (wcid, tid)) := by
    change (if oriSlot pAd (wcid, tid) = 0 then _ else if _ then _ else _) = _
    rw [if_neg hs, if_neg]
    · rfl
    · rintro ⟨hp, -, hd, he⟩
      exact hgoes ⟨by simpa using hp, by simpa using he, hd⟩
  have hnum := h.ori.num
  have hnumDone := h.ori.numDone
  have hpos : 0 < (Finset.univ.filter (OriLive pAd)).card :=
    Finset.card_pos.2 ⟨_, Finset.mem_filter.2 ⟨Finset.mem_univ _, hl⟩⟩
  simp only [oriOwner, Prod.mk.injEq] at ho
  have hslot : oriSlot (baTableFreeOriEntry pAd (oriSlot pAd (wcid, tid))) (wcid, tid) = 0 := by
    rw [freeOri_eq hs hl]
    simp [oriSlot, RtmpAdapter.setOriEntry, RtmpAdapter.setStation, MacTableEntry.closeOri,
      MacTableEntry.setOriIdx] at ho ⊢
    simp [ho]
  have hbit : ((baTableFreeOriEntry pAd (oriSlot pAd (wcid, tid))).content wcid).txBAbitmap.getLsbD tid =
      false := by
    by_contra hbit
    rw [Bool.not_eq_false] at hbit
    exact ((hinv.bit (wcid, tid)).1 hbit).1 hslot
  rw [hcode]
  rw [freeOri_eq hs hl] at hslot hbit ⊢
  refine ⟨?_, hslot, hbit, ?_, ?_⟩
  · simp [RtmpAdapter.setOriEntry]
  · dsimp only
    omega
  · dsimp only
    split_ifs with hd
    · have hposDone : 0 < (Finset.univ.filter fun i => (pAd.baOriEntry i).oriBaStatus = .done).card :=
        Finset.card_pos.2 ⟨_, Finset.mem_filter.2 ⟨Finset.mem_univ _, hd⟩⟩
      omega
    · omega

theorem oriTornDown_iff (h : TableInv pAd) (bPassive elemAlloc : Bool) (hs : oriSlot pAd (wcid, tid) ≠ 0) :
    OriTornDown pAd (baOriSessionTearDown pAd wcid tid bPassive elemAlloc) wcid tid ↔
      ¬ OriStops pAd wcid tid bPassive elemAlloc := by
  constructor
  · intro htorn hstops
    have hslot := htorn.slot
    rw [oriTearDown_of_stops h hstops] at hslot
    exact hs hslot
  · exact oriTearDown_of_not_stops h hs

/-! ### The recipient -/

theorem recTearDown_of_goes {bPassive elemAlloc : Bool} (h : BaseInv pAd) (hs : recSlot pAd (wcid, tid) ≠ 0)
    (hgoes : bPassive = true ∨ elemAlloc = true) :
    RecTornDown pAd (baRecSessionTearDown pAd wcid tid bPassive elemAlloc) wcid tid := by
  have hguard : ¬ (¬ bPassive ∧ ¬ elemAlloc) := by
    rcases hgoes with hp | he
    · simp [hp]
    · simp [he]
  obtain ⟨hl, ho, -⟩ := h.tables.recp.tearDown_guard hs
  have hinv := (h.tables.baRecSessionTearDown wcid tid bPassive elemAlloc).recp
  have hkeeps : Keeps (session pAd (recSlot pAd (wcid, tid)))
      (endSession (session pAd (recSlot pAd (wcid, tid)))) 0 0 := Keeps.endSession (h.list _)
  have hlist : (endSession (session pAd (recSlot pAd (wcid, tid)))).ent.list = ⟨[], 0⟩ := refresh_list (h.list _)
  have hnum := h.tables.recp.num
  have hpos : 0 < (Finset.univ.filter (RecLive pAd)).card :=
    Finset.card_pos.2 ⟨_, Finset.mem_filter.2 ⟨Finset.mem_univ _, hl⟩⟩
  have hcode := h.tables.tearDown_eq hs hguard
  have hslot : recSlot (baRecSessionTearDown pAd wcid tid bPassive elemAlloc) (wcid, tid) = 0 := by
    rw [hcode]
    simp [recSlot, RtmpAdapter.setStation, MacTableEntry.closeRec, MacTableEntry.setRecIdx]
  have hbit : ((baRecSessionTearDown pAd wcid tid bPassive elemAlloc).content wcid).rxBAbitmap.getLsbD tid =
      false := by
    by_contra hbit
    rw [Bool.not_eq_false] at hbit
    exact (hinv.bit (wcid, tid)).1 hbit hslot
  rw [hcode] at hslot hbit ⊢
  refine ⟨?_, hslot, hbit, ?_, ?_, ?_, ?_⟩
  · change ((pAd.onRecEntry _ endSession).baRecEntry _).recBaStatus = _
    rw [onRecEntry_self]
    rfl
  · dsimp only
    omega
  · change ((pAd.onRecEntry _ endSession).baRecEntry _).list = _
    rw [onRecEntry_self, hlist]
  · refine ⟨_, rfl, ?_⟩
    have hpackets := hkeeps.packets
    rw [sessionPackets, sessionPackets, hlist] at hpackets
    simp only [List.map_nil, session, List.filterMap_nil, Multiset.coe_nil, add_zero, zero_add] at hpackets
    rw [← hpackets, List.filterMap_map]
    rfl
  · have hblocks := hkeeps.blocks
    rw [sessionBlocks, sessionBlocks, hlist] at hblocks
    simp only [List.map_nil, Multiset.coe_nil, add_zero] at hblocks
    exact hblocks

theorem recTornDown_iff (h : BaseInv pAd) (bPassive elemAlloc : Bool) (hs : recSlot pAd (wcid, tid) ≠ 0) :
    RecTornDown pAd (baRecSessionTearDown pAd wcid tid bPassive elemAlloc) wcid tid ↔
      bPassive = true ∨ elemAlloc = true := by
  constructor
  · intro htorn
    by_contra hstops
    have hslot := htorn.slot
    rw [h.tables.tearDown_none (Or.inr (by simpa using hstops))] at hslot
    exact hs hslot
  · exact recTearDown_of_goes h hs

/-- **Tear-down completes** in every state that a run reaches, exactly if it need not send a DELBA request or
there is memory for it. -/
theorem tornDown_iff (cfg : Config) (num : ℕ) (attrs : Fin 32 → MacTableEntry) (ops : List Op) (wcid : Fin 32)
    (tid : Fin 8) (bPassive elemAlloc : Bool) : let pAd := run step (initAdapter cfg num attrs) ops
    (oriSlot pAd (wcid, tid) ≠ 0 →
      (OriTornDown pAd (baOriSessionTearDown pAd wcid tid bPassive elemAlloc) wcid tid ↔
        bPassive = true ∨ elemAlloc = true ∨ (pAd.baOriEntry (oriSlot pAd (wcid, tid))).oriBaStatus ≠ .done)) ∧
    (recSlot pAd (wcid, tid) ≠ 0 →
      (RecTornDown pAd (baRecSessionTearDown pAd wcid tid bPassive elemAlloc) wcid tid ↔
        bPassive = true ∨ elemAlloc = true)) := by
  intro pAd
  have h : BaseInv pAd := run_invariant_all (I := BaseInv) (fun s op hs => (step_conserved hs op).1) ops _
    (initAdapter_baseInv cfg num attrs)
  refine ⟨fun hs => ?_, fun hs => recTornDown_iff h bPassive elemAlloc hs⟩
  rw [oriTornDown_iff h.tables bPassive elemAlloc hs]
  unfold OriStops
  cases bPassive <;> cases elemAlloc <;> simp

def bothRun : List Op := [.baOriSessionSetUp 1 0 0 true, .baOriSessionAdd 1 ⟨0, 1, 0, 64, 0⟩, sampleOpen]

/-- Without memory for the requests both sessions stay. -/
theorem not_tornDown : let pAd := run step sampleAdapter bothRun
    (oriSlot pAd (1, 0) ≠ 0 ∧ ¬ OriTornDown pAd (baOriSessionTearDown pAd 1 0 false false) 1 0) ∧
      (recSlot pAd (1, 0) ≠ 0 ∧ ¬ RecTornDown pAd (baRecSessionTearDown pAd 1 0 false false) 1 0) :=
  ⟨⟨by decide, fun h => absurd h.status (by decide)⟩, ⟨by decide, fun h => absurd h.status (by decide)⟩⟩

end Mt7610u.BlockAck.TearDown
