import Mt7610u.Usb.RingInv

/-! # Bulk-out -/

namespace Mt7610u.Usb

open Lib

/-- What a URB carries: packets, each but the last with `next_vld` set, and four bytes of zeros. -/
def urbBytes (g : List Packet) : List Byte := chained false g ++ List.replicate 4 0#8

theorem length_urbBytes (g : List Packet) : (urbBytes g).length = size g + 4 := by
  unfold urbBytes
  rw [List.length_append, length_chained, List.length_replicate]

theorem copy_readAt (m : ℕ → Byte) (p : ℕ) (zs : List Byte) : copy (copy m p zs) p (readAt m p zs.length) = m := by
  funext i
  by_cases hi : p ≤ i ∧ i < p + zs.length
  · have hlt : i - p < zs.length := by omega
    have hread : mem (readAt m p zs.length) (i - p) = m (p + (i - p)) := mem_read hlt
    unfold copy
    rw [length_readAt, if_pos hi, hread, Nat.add_sub_cancel' hi.1]
  · unfold copy
    rw [length_readAt, if_neg hi, if_neg hi]

theorem holds_clearLast {m : ℕ → Byte} {start : ℕ} {n : Bool} {g : List Packet}
    (h : HoldsAt m start (chained n g)) :
    HoldsAt (clearLastVld m (lastInfo start g)) start (chained false g) ∧
      SameOutside start (start + size g) m (clearLastVld m (lastInfo start g)) := by
  rcases List.eq_nil_or_concat g with rfl | ⟨g', p, rfl⟩
  · rw [lastInfo_nil]
    exact ⟨holdsAt_nil _ _, SameOutside.refl _ _ _⟩
  · rw [List.concat_eq_append] at h ⊢
    rw [lastInfo_snoc]
    rw [chained_append n g' (by simp), chained_singleton, holdsAt_append, length_chained] at h
    rw [chained_append false g' (by simp), chained_singleton, holdsAt_append, length_chained]
    have hsize : 4 ≤ p.size := Nat.le_add_right _ _
    refine ⟨⟨?_, HoldsAt.setNextVld h.2 false⟩, ?_⟩
    · exact h.1.copy (Or.inl (by rw [length_chained]; omega))
    · refine sameOutside_setNextVld false (by omega) ?_
      rw [size_append, size_cons, size_nil]
      omega

theorem Progress.length_le {cw : ℕ} {w : Writer} {acc : List Byte} (h : Progress cw w acc) :
    acc.length ≤ w.blk.size := by
  unfold Progress at h
  cases hpc : w.pc with
  | payload f fs =>
    rw [hpc] at h
    obtain ⟨ds, ht, rfl, -⟩ := h
    have h1 := ht.size_le
    have h2 := dmaLen_eq f
    rw [List.length_append, length_waiting, length_fragHead]
    omega
  | clear f fs =>
    rw [hpc] at h
    obtain ⟨ds, ht, rfl, -⟩ := h
    have h1 := ht.size_le
    have h2 := dmaLen_eq f
    rw [List.length_append, List.length_append, length_waiting, length_fragHead]
    omega
  | header f fs =>
    rw [hpc] at h
    obtain ⟨ds, hp, -, rfl, -⟩ := h
    unfold TxBlk.size
    rw [hp, size_append, length_waiting]
    omega
  | finish =>
    rw [hpc] at h
    obtain ⟨rfl, -, -⟩ := h
    rw [length_waiting]
    exact le_rfl
  | frame src subs =>
    rw [hpc] at h
    obtain ⟨f, ss, n, pre, hblk, rfl, -, hraw, -, -⟩ := h
    have hlen := congrArg List.length hraw
    rw [List.length_append] at hlen
    rw [hblk, size_multi, List.length_append, length_rawInfo]
    omega
  | sub hdr src subs =>
    rw [hpc] at h
    obtain ⟨f, ss, n, pre, hblk, rfl, -, hraw, -⟩ := h
    have hlen := congrArg List.length hraw
    rw [List.length_append] at hlen
    rw [hblk, size_multi, List.length_append, length_rawInfo]
    omega
  | final =>
    rw [hpc] at h
    obtain ⟨f, ss, n, hblk, rfl, -⟩ := h
    rw [hblk, size_multi, List.length_append, length_rawInfo]
    omega

/-- The bulk-out routine took the packets `taken` and left `rest`. -/
structure Built (s s' : State) (pend taken rest : List Packet) : Prop where
  split : pend = taken ++ rest
  ne_nil : taken ≠ []
  core : Core s' rest
  urb : HoldsAt s'.wirelessPacket s'.nextBulkOut (urbBytes taken)
  bulkOutSize : s'.bulkOutSize = size taken + 4
  bulk : s'.bulk = .prepared
  apart : s'.curWrite < s'.nextBulkOut ∨
    s'.eNextBulkOut = s'.nextBulkOut + size taken ∧
      (s'.eNextBulkOut = s'.curWrite → s'.bCurWriting = true → s'.bCopySavePad = true)
  same : s'.written = s.written ∧ s'.submitted = s.submitted ∧ s'.resetHere = s.resetHere

section Building

variable {s : State} {pend : List Packet}

theorem Exit.ready {lastRnd : Bool} {g rest : List Packet} {r : BulkExit}
    (h : Exit s.eNextBulkOut lastRnd s.restored g rest r)
    (hreal : s.curWrite < s.curWriteReal ↔ s.bCurWriting = true) {last : Bool}
    (hlast : last = (lastRnd && rest.isEmpty)) :
    (bulkReady s r).eNextBulkOut = bulkEnd s.eNextBulkOut last g ∧
      (bulkReady s r).bCopySavePad = bulkKeep s.eNextBulkOut s.curWrite s.bCurWriting last g ∧
      (bulkReady s r).bulkOutSize = size g + 4 ∧
      HoldsAt (bulkReady s r).wirelessPacket s.eNextBulkOut (urbBytes g) ∧
      SameOutside s.eNextBulkOut (bulkReach s.eNextBulkOut s.curWrite s.bCurWriting last g) s.restored
        (bulkReady s r).restored := by
  obtain ⟨n, hn⟩ := h.holds
  obtain ⟨hm, hout⟩ := holds_clearLast hn
  rw [← h.last] at hm hout
  obtain ⟨m, hmeq⟩ : ∃ m, m = clearLastVld r.mem r.lastTxInfo := ⟨_, rfl⟩
  rw [← hmeq] at hm hout
  have hsame := h.outside.trans hout le_rfl le_rfl
  have hlr : r.lastRound = last := h.lastRound.trans hlast.symm
  have he : (if r.lastRound = true then 8 else r.tmpBulkEndPos) = bulkEnd s.eNextBulkOut last g := by
    rw [hlr, h.pos]
    rfl
  obtain ⟨e, heq⟩ : ∃ e, e = bulkEnd s.eNextBulkOut last g := ⟨_, rfl⟩
  have hkeep : (!r.lastRound && (decide (e = s.curWrite ∧ s.curWrite < s.curWriteReal) ||
      decide (e ≠ s.curWrite))) = bulkKeep s.eNextBulkOut s.curWrite s.bCurWriting last g := by
    unfold bulkKeep
    rw [hlr, ← heq]
    by_cases hecw : e = s.curWrite
    · cases hb : s.bCurWriting with
      | false =>
        have hnot : ¬(s.curWrite < s.curWriteReal) := by
          rw [hreal, hb]
          decide
        simp [hecw, hnot]
      | true => simp [hecw, hreal.2 hb]
    · simp [hecw]
  have hstate : bulkReady s r = { s with
      nextBulkOut := s.eNextBulkOut
      eNextBulkOut := e
      savedPad := if bulkKeep s.eNextBulkOut s.curWrite s.bCurWriting last g
        then copy s.savedPad 0 (readAt m e 8) else s.savedPad
      bCopySavePad := bulkKeep s.eNextBulkOut s.curWrite s.bCurWriting last g
      wirelessPacket := copy m (s.eNextBulkOut + size g) (List.replicate 8 0#8)
      bulkOutSize := size g + 4
      bulk := .prepared
      built := s.built ++ [(s.eNextBulkOut, size g + 4)] } := by
    unfold bulkReady
    simp only
    rw [he, ← heq, hkeep, h.bulk, h.pos, ← hmeq]
  rw [hstate]
  refine ⟨heq, rfl, rfl, ?_, ?_⟩
  · have happ := hm.append_copy (List.replicate 8 0#8)
      (show s.eNextBulkOut + size g = _ by rw [length_chained])
    have hsplit : chained false g ++ List.replicate 8 0#8 = urbBytes g ++ List.replicate 4 0#8 := by
      unfold urbBytes
      rw [List.append_assoc]
      rfl
    rw [hsplit, holdsAt_append] at happ
    exact happ.1
  · unfold bulkReach
    cases hk : bulkKeep s.eNextBulkOut s.curWrite s.bCurWriting last g with
    | false =>
      show SameOutside _ (s.eNextBulkOut + size g + 8) _ (copy m _ _)
      refine (hsame.mono le_rfl (by omega)).trans (sameOutside_copy (by omega) ?_) le_rfl le_rfl
      rw [List.length_replicate]
    | true =>
      -- what is kept aside are the bytes that were cleared
      have hl : last = false := by
        unfold bulkKeep at hk
        cases last with
        | false => rfl
        | true => exact absurd hk (by simp)
      have hback : copy (copy m (s.eNextBulkOut + size g) (List.replicate 8 0#8)) e
          (read (copy s.savedPad 0 (readAt m e 8)) 8) = m := by
        have hread : read (copy s.savedPad 0 (readAt m e 8)) 8 = readAt m e 8 := by
          have := holds_copy s.savedPad (readAt m e 8)
          unfold Holds at this
          rw [length_readAt] at this
          exact this
        rw [hread, heq, hl, bulkEnd_false]
        have hback := copy_readAt m (s.eNextBulkOut + size g) (List.replicate 8 0#8)
        rw [List.length_replicate] at hback
        exact hback
      show SameOutside _ (s.eNextBulkOut + size g + 0) _
        (copy (copy m (s.eNextBulkOut + size g) (List.replicate 8 0#8)) e
          (read (copy s.savedPad 0 (readAt m e 8)) 8))
      rw [hback]
      exact hsame

theorem Core.build (h : Core s pend) (hne : pend ≠ []) (maxPacketSize : ℕ) :
    ∃ taken rest, Built s (rtusbBulkOutDataPacket maxPacketSize s) pend taken rest := by
  have hring := h.ring
  obtain ⟨ps, tail, lastRnd, hpend, hps, hholds, hsize, hend, hbuild⟩ := hring.placed.build hring.fits hne
  have hfit : ∀ p ∈ ps, p.Fits := fun p hp => hring.fits p (by rw [hpend]; exact List.mem_append_left _ hp)
  have hlen := length_le_size hfit
  obtain ⟨taken, rest, hsplit, htaken, hexit⟩ :=
    bulkLoop_exit maxPacketSize ps [] 65536 s.eNextBulkOut s.restored
      (Nat.add_zero _).symm (holdsAt_nil _ _) hholds hfit (by omega) hend
  have htaken := htaken rfl hps
  rw [List.nil_append, lastInfo_nil, size_nil] at hexit
  obtain ⟨hbusy, hplaced⟩ := hbuild taken rest hsplit htaken
  obtain ⟨last, hlast⟩ : ∃ last, last = (lastRnd && rest.isEmpty) := ⟨_, rfl⟩
  rw [← hlast] at hbusy hplaced
  have hne' := hring.placed.ne_of_ne_nil hring.fits hne
  obtain ⟨r, hr⟩ : ∃ r, r = bulkLoop maxPacketSize s.curWrite 65536 s.restored s.eNextBulkOut 0 none := ⟨_, rfl⟩
  rw [← hr] at hexit
  obtain ⟨hen, hcopy, hbulk, hurb, hmem⟩ := hexit.ready hring.real hlast
  have hstate : rtusbBulkOutDataPacket maxPacketSize s = bulkReady s r := by
    unfold rtusbBulkOutDataPacket
    rw [if_neg (by omega)]
    simp only
    rw [← hr, if_neg (by rw [hexit.failed]; decide)]
  rw [hstate]
  have hpend' : pend = taken ++ (rest ++ tail) := by rw [hpend, hsplit, List.append_assoc]
  have hreach := hplaced _ hmem
  rw [← hen] at hreach
  refine ⟨taken, rest ++ tail, hpend', htaken, ⟨⟨?_, hreach, ?_, hring.real, hring.writing, hring.blk, ?_,
    hring.granted_idle, hring.stores⟩, ?_⟩, hurb, hbulk, rfl, ?_, rfl, rfl, rfl⟩
  · intro p hp
    refine hring.fits p ?_
    rw [hpend']
    exact List.mem_append_right _ hp
  · intro hc
    rw [hcopy] at hc
    rw [hen]
    unfold bulkKeep at hc
    rw [Bool.and_eq_true, Bool.or_eq_true, decide_eq_true_eq] at hc
    exact hc.2.symm
  · intro req hreq
    have hg := hring.granted req hreq
    exact hring.placed.granted hring.fits hne (by omega) hg.1 hg.2
  · intro w hw
    have hw : s.writer = some w := hw
    obtain ⟨acc, hacc, h24, hp⟩ := h.progress w hw
    refine ⟨acc, ?_, h24, hp⟩
    have hle := hp.length_le
    have hb := hbusy (h.busy hw)
    rw [Ring.todo_of_some hw] at hb
    show HoldsAt _ s.curWrite acc
    refine HoldsAt.sameOutside hacc hmem ?_
    rcases hb with hb | hb
    · exact Or.inl (by omega)
    · exact Or.inr hb
  · cases hl : last with
    | true =>
      rw [hl, eq_comm, Bool.and_eq_true] at hlast
      rcases hend with ⟨hr, -⟩ | ⟨-, hlt, -⟩
      · rw [hr] at hlast
        exact absurd hlast.1 (by decide)
      · exact Or.inl hlt
    | false =>
      rw [hl] at hen hcopy
      refine Or.inr ⟨hen, fun _ hb => ?_⟩
      have hb : s.bCurWriting = true := hb
      rw [hcopy, hb]
      rfl

end Building

/-! ### The URB under way -/

/-- What writers do is apart from the `n` bytes from `NextBulkOutPosition` on: the write position is in
front of them, or they end with the zeros behind the last packet that was taken. A writer that has its
first bytes there has them kept aside. -/
def Apart (s : State) (n : ℕ) : Prop :=
  s.curWrite < s.nextBulkOut ∨ s.nextBulkOut + n ≤ s.eNextBulkOut + 4 ∧
    (s.eNextBulkOut = s.curWrite → s.bCurWriting = true → s.bCopySavePad = false → s.nextBulkOut + n ≤ s.curWrite)

/-- A URB with the packets `g` is ready or under way. -/
structure Flight (s : State) (g : List Packet) : Prop where
  holds : HoldsAt s.wirelessPacket s.nextBulkOut (urbBytes g)
  bulkOutSize : s.bulkOutSize = size g + 4
  apart : Apart s (size g + 4)

section Flight

variable {s s' : State} {pend ext g : List Packet}

theorem Built.flight {taken rest : List Packet} (h : Built s s' pend taken rest) : Flight s' taken := by
  refine ⟨h.urb, h.bulkOutSize, ?_⟩
  rcases h.apart with hlt | ⟨hen, hpad⟩
  · exact Or.inl hlt
  · refine Or.inr ⟨by omega, fun heq hb hno => ?_⟩
    rw [hpad heq hb] at hno
    exact absurd hno (by decide)

theorem Flight.readAt (h : Flight s g) : readAt s.wirelessPacket s.nextBulkOut s.bulkOutSize = urbBytes g := by
  have hholds := h.holds
  unfold HoldsAt at hholds
  rw [length_urbBytes, ← h.bulkOutSize] at hholds
  exact hholds

theorem Flight.write (hf : Flight s g) (h : Core s pend) {w : Writer} (hw : s.writer = some w)
    (hwr : Wrote s s' pend ext) : Flight s' g := by
  obtain ⟨hnb, hsz, -, -, -⟩ := hwr.same
  have hplaced := h.ring.placed
  rw [h.busy hw] at hplaced
  have hpos := hplaced.behind_or_ahead h.ring.fits
  refine ⟨?_, by rw [hsz, hf.bulkOutSize], ?_⟩
  · rw [hnb]
    refine HoldsAt.sameOutside hf.holds hwr.memory ?_
    rw [length_urbBytes]
    rcases hf.apart with hlt | ⟨hle, hpad⟩
    · exact Or.inr (by omega)
    · rcases hpos with hpos | hpos
      · exact Or.inr (by omega)
      · refine Or.inl ?_
        split_ifs with hp
        · omega
        · by_cases heq : s.eNextBulkOut = s.curWrite
          · refine hpad heq (h.busy hw) ?_
            cases hc : s.bCopySavePad with
            | false => rfl
            | true => exact absurd ⟨Or.inl heq, hc⟩ hp
          · omega
  · unfold Apart
    rw [hnb, hwr.end_eq]
    rcases hwr.cursor with ⟨hcw, hcopy⟩ | ⟨hidle, hcw⟩
    · rw [hcw, hcopy]
      rcases hf.apart with hlt | ⟨hle, hpad⟩
      · exact Or.inl hlt
      · exact Or.inr ⟨hle, fun heq _ => hpad heq (h.busy hw)⟩
    · rcases hf.apart with hlt | ⟨hle, -⟩
      · exact Or.inl (by omega)
      · refine Or.inr ⟨hle, fun _ hb => ?_⟩
        rw [hidle] at hb
        exact absurd hb (by decide)

theorem Flight.start (hf : Flight s g) (h : Started s s' pend) : Flight s' g := by
  obtain ⟨hnb, hsz, -, -, -⟩ := h.same
  rcases h.how with rfl | hb
  · exact ⟨hf.holds, hf.bulkOutSize, hf.apart⟩
  have hplaced := h.core.ring.placed
  rw [hb.busy] at hplaced
  have hpos := hplaced.behind_or_ahead h.core.ring.fits
  have hcur := hb.cursors
  have hbehind := hb.behind
  have hapart := hf.apart
  unfold Apart at hapart
  rw [hnb] at hpos hbehind
  refine ⟨?_, by rw [hsz, hf.bulkOutSize], ?_⟩
  · rw [hnb]
    refine HoldsAt.sameOutside hf.holds hb.memory ?_
    rw [length_urbBytes]
    omega
  · unfold Apart
    rw [hnb]
    rcases hapart with hlt | ⟨hle, -⟩
    · exact Or.inl (hbehind hlt)
    · rcases hcur with ⟨hne, hen, hcw⟩ | ⟨heq, hen, hcw⟩
      · exact Or.inr ⟨by omega, fun heq' => absurd heq' (by omega)⟩
      · exact Or.inr ⟨by omega, fun _ _ _ => by omega⟩

end Flight

end Mt7610u.Usb
