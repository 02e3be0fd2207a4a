import Mt7610u.Usb.Placement

/-! # The invariant of the ring -/

namespace Mt7610u.Usb

open Lib

def TxBlk.size (blk : TxBlk) : ℕ := Usb.size blk.packets

def State.todo (s : State) : ℕ :=
  match s.writer with
  | none => 0
  | some w => w.blk.size

/-- The store is inside the buffer, and outside the part from `NextBulkOutPosition` up to the write
position. -/
def Store.Safe (e : Store) : Prop :=
  e.inRing = true ∧ e.curWrite ≤ e.pos ∧ e.pos + e.len ≤ maxTxbulkSize ∧
    (e.curWrite < e.nextBulkOut → e.pos + e.len ≤ e.nextBulkOut)

instance (e : Store) : Decidable e.Safe := inferInstanceAs (Decidable (_ ∧ _))

/-- The ring with the packets `pend` waiting in it. -/
structure Ring (s : State) (pend : List Packet) : Prop where
  fits : ∀ p ∈ pend, p.Fits
  placed : Placed s.restored s.nextBulkOut s.eNextBulkOut s.curWrite s.todo s.bCurWriting pend
  pad : s.bCopySavePad = true → s.eNextBulkOut ≠ s.curWrite ∨ s.bCurWriting = true
  real : s.curWrite < s.curWriteReal ↔ s.bCurWriting = true
  writing : s.bCurWriting = s.writer.isSome
  blk : ∀ w, s.writer = some w → (∀ p ∈ w.blk.packets, p.Fits) ∧ w.blk.size ≤ 4006
  granted : ∀ req, s.granted = some req →
    (s.curWrite < s.nextBulkOut → s.curWrite + (req + 2048) ≤ s.nextBulkOut) ∧
      (s.curWrite = 8 → req + 2048 ≤ s.nextBulkOut)
  granted_idle : s.granted.isSome → s.bCurWriting = false
  stores : ∀ e ∈ s.stores, e.Safe

namespace Ring

variable {s : State} {pend : List Packet}

theorem init : Ring State.init [] where
  fits := by simp
  placed := placed_init _
  pad := by decide
  real := by decide
  writing := rfl
  blk := by simp [State.init]
  granted := by simp [State.init]
  granted_idle := by simp [State.init]
  stores := by simp [State.init]

theorem todo_of_some {w : Writer} (hw : s.writer = some w) : s.todo = w.blk.size := by
  unfold State.todo
  rw [hw]

theorem todo_of_none (hw : s.writer = none) : s.todo = 0 := by
  unfold State.todo
  rw [hw]

/-! ### Stores -/

theorem restored_store {pos : ℕ} {bs : List Byte}
    (h : s.bCopySavePad = true → s.eNextBulkOut + 8 ≤ pos ∨ pos + bs.length ≤ s.eNextBulkOut) :
    (s.store pos bs).restored = copy s.restored pos bs := by
  show (if s.bCopySavePad then copy (copy s.wirelessPacket pos bs) s.eNextBulkOut (read s.savedPad 8)
    else copy s.wirelessPacket pos bs) = _
  unfold State.restored
  cases hpad : s.bCopySavePad with
  | false => rfl
  | true =>
    have hd := h hpad
    rw [if_pos rfl, if_pos rfl]
    refine copy_comm ?_
    rw [length_read]
    omega

/-- **A store of a writer.** It is behind the write position and no longer than what the writer needs. At
the write position itself nothing may be kept aside. -/
theorem store (h : Ring s pend) {w : Writer} (hw : s.writer = some w) {pos : ℕ} {bs : List Byte}
    (hpos : s.curWrite + 8 ≤ pos ∨ s.curWrite ≤ pos ∧ ¬PadHolds s)
    (hend : pos + bs.length ≤ s.curWrite + w.blk.size + 8) :
    Ring (s.store pos bs) pend ∧ (s.store pos bs).restored = copy s.restored pos bs := by
  have hbusy : s.bCurWriting = true := by rw [h.writing, hw]; rfl
  have hplaced := h.placed
  rw [hbusy, todo_of_some hw] at hplaced
  have hfree := hplaced.free (h.blk w hw).2
  have hle : s.curWrite ≤ pos := by omega
  have hrest : (s.store pos bs).restored = copy s.restored pos bs := by
    refine restored_store fun hpad => hplaced.apart h.fits ?_ hend
    rcases hpos with hpos | ⟨hpos, hno⟩
    · exact Or.inl hpos
    · refine Or.inr ⟨hpos, fun heq => hno ⟨Or.inl heq, hpad⟩⟩
  refine ⟨⟨h.fits, ?_, h.pad, h.real, h.writing, h.blk, h.granted, h.granted_idle, ?_⟩, hrest⟩
  · show Placed (s.store pos bs).restored s.nextBulkOut s.eNextBulkOut s.curWrite s.todo s.bCurWriting pend
    rw [hrest, hbusy, todo_of_some hw]
    exact hplaced.store hle hend
  · intro e he
    rcases List.mem_cons.1 he with rfl | he
    · refine ⟨rfl, hle, ?_, ?_⟩
      · show pos + bs.length ≤ 122880
        omega
      · intro hlt
        have := hfree.2 hlt
        show pos + bs.length ≤ s.nextBulkOut
        omega
    · exact h.stores e he

theorem setWriter (h : Ring s pend) {w w' : Writer} (hw : s.writer = some w) (hblk : w'.blk = w.blk)
    {r : ℕ} (hr : s.curWrite < r) : Ring { s with writer := some w', curWriteReal := r } pend := by
  have hbusy : s.bCurWriting = true := by rw [h.writing, hw]; rfl
  have htodo : ({ s with writer := some w', curWriteReal := r } : State).todo = s.todo := by
    rw [todo_of_some hw]
    show w'.blk.size = w.blk.size
    rw [hblk]
  refine ⟨h.fits, ?_, h.pad, ⟨fun _ => hbusy, fun _ => hr⟩, hbusy, ?_, h.granted, h.granted_idle, h.stores⟩
  · rw [htodo]
    exact h.placed
  · intro w'' hw''
    have hw'' : w' = w'' := Option.some.inj hw''
    rw [← hw'', hblk]
    exact h.blk w hw

/-- **The end of a writer.** The packets are in place, and the write position moves behind them. -/
theorem finish (h : Ring s pend) {w : Writer} (hw : s.writer = some w) (hne : w.blk.packets ≠ [])
    (hps : HoldsAt s.restored s.curWrite
      (waiting (decide (120832 < s.curWrite + w.blk.size + 3906)) w.blk.packets)) :
    Ring (s.finish w.blk (if 120832 < s.curWrite + w.blk.size + 3906 then 8
      else s.curWrite + w.blk.size)) (pend ++ w.blk.packets) := by
  have hbusy : s.bCurWriting = true := by rw [h.writing, hw]; rfl
  obtain ⟨hfit, hlen⟩ := h.blk w hw
  have hplaced := h.placed
  rw [hbusy, todo_of_some hw] at hplaced
  have hfin := hplaced.finish hne hfit hlen hps
  obtain ⟨cw, hcw⟩ : ∃ cw, cw = if 120832 < s.curWrite + w.blk.size + 3906 then 8
      else s.curWrite + w.blk.size := ⟨_, rfl⟩
  change Placed _ _ _ (if 120832 < s.curWrite + w.blk.size + 3906 then 8
      else s.curWrite + w.blk.size) _ _ _ at hfin
  rw [← hcw] at hfin ⊢
  have hfits : ∀ p ∈ pend ++ w.blk.packets, p.Fits := by
    intro p hp
    rcases List.mem_append.1 hp with hp | hp
    · exact h.fits p hp
    · exact hfit p hp
  have hgrant : s.granted = none := by
    cases hg : s.granted with
    | none => rfl
    | some req =>
      have := h.granted_idle (by rw [hg]; rfl)
      rw [hbusy] at this
      exact absurd this (by decide)
  refine ⟨hfits, hfin, fun _ => Or.inl ?_, ?_, rfl, ?_, ?_, fun _ => rfl, h.stores⟩
  · exact (hfin.ne_of_ne_nil hfits (by simp [hne])).1
  · exact ⟨fun hlt => absurd hlt (lt_irrefl _), fun hb => absurd hb Bool.false_ne_true⟩
  · intro w' hw'
    exact absurd hw' (by simp [State.finish])
  · intro req hreq
    have : s.granted = some req := hreq
    rw [hgrant] at this
    exact absurd this (by simp)

end Ring

/-! ### What a writer has in the ring -/

/-- Whether packets that are written at `cw` end the round. -/
def endsRound (cw : ℕ) (blk : TxBlk) : Bool := decide (120832 < cw + blk.size + 3906)

/-- A fragment as a packet; `fs` are the fragments behind it. -/
def fragPacket (f : Frame) (fs : List Frame) : Packet := ⟨!fs.isEmpty, padded (f.header ++ f.src)⟩

def fragHead (lastRnd : Bool) (f : Frame) (fs : List Frame) : List Byte :=
  txInfo f.dmaLen false (!fs.isEmpty) (fs.isEmpty && lastRnd) ++ f.header

/-- The TXINFO of an aggregate before `RtmpUSB_FinalWriteTxResource`. -/
def rawInfo (f : Frame) : List Byte := txInfo (4 + f.header.length) false false false

/-- A writer at fragment `f` behind the packets `ds`, and before `fs`. -/
structure Train (cw : ℕ) (w : Writer) (ds : List Packet) (f : Frame) (fs : List Frame) : Prop where
  packets : w.blk.packets = ds ++ trainPackets (f :: fs)
  priv : w.priv = size ds + 4 + f.dmaLen
  lastRound : w.lastRound = (fs.isEmpty && endsRound cw w.blk)

/-- The bytes `acc` that a writer has at the write position, by the section it is at. -/
def Progress (cw : ℕ) (w : Writer) (acc : List Byte) : Prop :=
  match w.pc with
  | .payload f fs => ∃ ds, Train cw w ds f fs ∧
      acc = waiting false ds ++ fragHead (endsRound cw w.blk) f fs ∧ w.pos = cw + acc.length
  | .clear f fs => ∃ ds, Train cw w ds f fs ∧
      acc = waiting false ds ++ (fragHead (endsRound cw w.blk) f fs ++ f.src) ∧ w.pos = cw + acc.length
  | .header f fs => ∃ ds, w.blk.packets = ds ++ trainPackets (f :: fs) ∧ ds ≠ [] ∧
      acc = waiting false ds ∧ w.priv = size ds
  | .finish => acc = waiting (endsRound cw w.blk) w.blk.packets ∧ w.priv = w.blk.size ∧
      w.lastRound = endsRound cw w.blk
  | .frame src subs => ∃ f ss n pre, w.blk = .multi f ss n ∧ acc = rawInfo f ++ pre ∧ 20 ≤ pre.length ∧
      pre ++ (src ++ subBytes subs) = multiBytes f ss ∧ w.pos = cw + acc.length ∧ w.priv = acc.length
  | .sub hdr src subs => ∃ f ss n pre, w.blk = .multi f ss n ∧ acc = rawInfo f ++ pre ∧ 20 ≤ pre.length ∧
      pre ++ (hdr ++ src ++ subBytes subs) = multiBytes f ss ∧ w.priv = acc.length
  | .final => ∃ f ss n, w.blk = .multi f ss n ∧ acc = rawInfo f ++ multiBytes f ss ∧ w.priv = acc.length

structure Core (s : State) (pend : List Packet) : Prop where
  ring : Ring s pend
  progress : ∀ w, s.writer = some w →
    ∃ acc, HoldsAt s.restored s.curWrite acc ∧ 24 ≤ acc.length ∧ Progress s.curWrite w acc

theorem Core.init : Core State.init [] := ⟨Ring.init, fun w hw => absurd hw (by simp [State.init])⟩

theorem replicate_pad (n : ℕ) : List.replicate (n + 8) 0#8 = List.replicate n 0#8 ++ List.replicate 8 0#8 :=
  List.replicate_add _ _ _

theorem length_fragHead (r : Bool) (f : Frame) (fs : List Frame) :
    (fragHead r f fs).length = 4 + f.header.length := by
  unfold fragHead txInfo
  rw [List.length_append]
  rfl

theorem length_rawInfo (f : Frame) : (rawInfo f).length = 4 := rfl

theorem fragPacket_bytes (r : Bool) (f : Frame) (fs : List Frame) :
    (fragPacket f fs).bytes false (fs.isEmpty && r) =
      fragHead r f fs ++ f.src ++ List.replicate (padding (f.header ++ f.src).length) 0#8 := by
  show txInfo f.dmaLen false (!fs.isEmpty) (fs.isEmpty && r) ++ padded (f.header ++ f.src) = _
  unfold fragHead padded
  simp only [List.append_assoc]

theorem size_fragPacket (f : Frame) (fs : List Frame) : (fragPacket f fs).size = 4 + f.dmaLen := rfl

theorem dmaLen_eq (f : Frame) : f.dmaLen = f.header.length + f.src.length + padding (f.header ++ f.src).length := by
  unfold Frame.dmaLen padded
  rw [List.length_append, List.length_append, List.length_replicate]

theorem trainPackets_cons (f : Frame) (fs : List Frame) :
    trainPackets (f :: fs) = fragPacket f fs :: trainPackets fs := rfl

theorem Train.size_le {cw : ℕ} {w : Writer} {ds : List Packet} {f : Frame} {fs : List Frame}
    (h : Train cw w ds f fs) : size ds + 4 + f.dmaLen ≤ w.blk.size := by
  unfold TxBlk.size
  rw [h.packets, size_append, trainPackets_cons, size_cons, size_fragPacket]
  omega

theorem progress_writeHeader (cw : ℕ) {blk : TxBlk} {ds : List Packet} {f : Frame} {fs : List Frame}
    (h : blk.packets = ds ++ trainPackets (f :: fs)) :
    let lastRound := fs.isEmpty && decide (maxTxbulkLimit < cw + (size ds + 4 + f.dmaLen) + 3906)
    lastRound = (fs.isEmpty && endsRound cw blk) ∧
      Progress cw ⟨blk, .payload f fs, size ds + 4 + f.dmaLen, cw + size ds + (4 + f.header.length),
        lastRound⟩ (waiting false ds ++ fragHead (endsRound cw blk) f fs) := by
  intro lastRound
  have hlast : lastRound = (fs.isEmpty && endsRound cw blk) := by
    cases fs with
    | cons g gs =>
      show (false && _) = (false && _)
      rw [Bool.false_and, Bool.false_and]
    | nil =>
      have hsize : blk.size = size ds + 4 + f.dmaLen := by
        unfold TxBlk.size
        rw [h, size_append, trainPackets_cons, size_cons, size_fragPacket]
        show size ds + (4 + f.dmaLen + 0) = _
        omega
      show (true && decide (120832 < cw + (size ds + 4 + f.dmaLen) + 3906)) = (true && endsRound cw blk)
      unfold endsRound
      rw [hsize]
  refine ⟨hlast, ds, ⟨h, rfl, hlast⟩, rfl, ?_⟩
  rw [List.length_append, length_waiting, length_fragHead]
  show cw + size ds + (4 + f.header.length) = _
  omega

/-! ### Sections of the writers -/

def SameBulk (s s' : State) : Prop :=
  s'.nextBulkOut = s.nextBulkOut ∧ s'.bulkOutSize = s.bulkOutSize ∧ s'.bulk = s.bulk ∧
    s'.submitted = s.submitted ∧ s'.resetHere = s.resetHere

/-- A section of a writer that adds the packets `ext` to those that wait. -/
structure Wrote (s s' : State) (pend ext : List Packet) : Prop where
  core : Core s' (pend ++ ext)
  written : s'.written = s.written ++ ext
  memory : SameOutside (if PadHolds s then s.curWrite + 8 else s.curWrite) (s.curWrite + s.todo + 8)
    s.wirelessPacket s'.wirelessPacket
  end_eq : s'.eNextBulkOut = s.eNextBulkOut
  cursor : s'.curWrite = s.curWrite ∧ s'.bCopySavePad = s.bCopySavePad ∨
    s'.bCurWriting = false ∧ (s'.curWrite = 8 ∨ s'.curWrite = s.curWrite + s.todo)
  same : SameBulk s s'

section Writing

variable {s : State} {pend : List Packet} {w : Writer}

/-- **A section that adds bytes** behind those that the writer has; `extra` lies beyond its packets. -/
theorem Core.append (h : Core s pend) (hw : s.writer = some w) {acc : List Byte}
    (hacc : HoldsAt s.restored s.curWrite acc) (h24 : 24 ≤ acc.length) (add extra : List Byte)
    (hend : acc.length + (add ++ extra).length ≤ w.blk.size + 8) (w' : Writer) (hblk : w'.blk = w.blk)
    (hp : Progress s.curWrite w' (acc ++ add)) {r : ℕ} (hr : s.curWrite < r) :
    Wrote s { s.store (s.curWrite + acc.length) (add ++ extra) with
      writer := some w', curWriteReal := r } pend [] := by
  have hend' : s.curWrite + acc.length + (add ++ extra).length ≤ s.curWrite + w.blk.size + 8 := by omega
  obtain ⟨hring, hrest⟩ := h.ring.store hw (Or.inl (by omega)) hend'
  have hset : Ring { s.store (s.curWrite + acc.length) (add ++ extra) with
      writer := some w', curWriteReal := r } pend := hring.setWriter hw hblk hr
  refine ⟨⟨?_, ?_⟩, (List.append_nil _).symm, ?_, rfl, Or.inl ⟨rfl, rfl⟩, rfl, rfl, rfl, rfl, rfl⟩
  · rw [List.append_nil]
    exact hset
  · intro w'' hw''
    have hw'' : w' = w'' := Option.some.inj hw''
    subst hw''
    have hnew : HoldsAt (copy s.restored (s.curWrite + acc.length) (add ++ extra)) s.curWrite
        (acc ++ add ++ extra) := by
      rw [List.append_assoc]
      exact hacc.append_copy _ rfl
    refine ⟨acc ++ add, ?_, by rw [List.length_append]; omega, hp⟩
    show HoldsAt (s.store (s.curWrite + acc.length) (add ++ extra)).restored s.curWrite (acc ++ add)
    rw [hrest]
    exact (holdsAt_append.1 hnew).1
  · rw [Ring.todo_of_some hw]
    refine sameOutside_copy ?_ (by omega)
    split_ifs
    · omega
    · omega

theorem Core.busy (h : Core s pend) (hw : s.writer = some w) : s.bCurWriting = true := by
  rw [h.ring.writing, hw]
  rfl

theorem Core.real_lt (h : Core s pend) (hw : s.writer = some w) : s.curWrite < s.curWriteReal :=
  h.ring.real.2 (h.busy hw)

theorem Core.write_payload (h : Core s pend) (hw : s.writer = some w) {f : Frame} {fs : List Frame}
    (hpc : w.pc = .payload f fs) : Wrote s (write s w) pend [] := by
  obtain ⟨acc, hacc, h24, hp⟩ := h.progress w hw
  unfold Progress at hp
  rw [hpc] at hp
  obtain ⟨ds, ht, heq, hpos⟩ := hp
  have hle := ht.size_le
  have hlen := congrArg List.length heq
  rw [List.length_append, length_waiting, length_fragHead] at hlen
  have hdma := dmaLen_eq f
  have hnew := h.append hw hacc h24 f.src [] (by rw [List.append_nil]; omega)
    { w with pc := .clear f fs, pos := w.pos + f.src.length } rfl
    ⟨ds, ⟨ht.packets, ht.priv, ht.lastRound⟩, by rw [heq, List.append_assoc], by
      rw [List.length_append, ← Nat.add_assoc, ← hpos]⟩ (h.real_lt hw)
  rw [List.append_nil, ← hpos] at hnew
  unfold write
  rw [hpc]
  exact hnew

theorem Core.write_clear (h : Core s pend) (hw : s.writer = some w) {f : Frame} {fs : List Frame}
    (hpc : w.pc = .clear f fs) : Wrote s (write s w) pend [] := by
  obtain ⟨acc, hacc, h24, hp⟩ := h.progress w hw
  unfold Progress at hp
  rw [hpc] at hp
  obtain ⟨ds, ht, heq, hpos⟩ := hp
  have hle := ht.size_le
  have hlen := congrArg List.length heq
  rw [List.length_append, List.length_append, length_waiting, length_fragHead] at hlen
  have hdma := dmaLen_eq f
  -- with the padding the packet is complete
  have hdone : acc ++ List.replicate (padding (f.header ++ f.src).length) 0#8 =
      waiting false ds ++ (fragPacket f fs).bytes false (fs.isEmpty && endsRound s.curWrite w.blk) := by
    rw [heq, fragPacket_bytes]
    simp only [List.append_assoc]
  have hnew := h.append hw hacc h24 (List.replicate (padding (f.header ++ f.src).length) 0#8)
    (List.replicate 8 0#8) (by rw [List.length_append, List.length_replicate, List.length_replicate]; omega)
    { w with pc := .afterFragment fs } rfl ?_ (h.real_lt hw)
  · rw [← replicate_pad, ← hpos] at hnew
    unfold write
    rw [hpc]
    exact hnew
  · rw [hdone]
    have hpackets := ht.packets
    rw [trainPackets_cons] at hpackets
    cases fs with
    | nil =>
      have hall : w.blk.packets = ds ++ [fragPacket f []] := hpackets
      have hsize : w.priv = w.blk.size := by
        unfold TxBlk.size
        rw [hall, size_append, size_cons, size_fragPacket, size_nil, ht.priv]
        omega
      have hlast := ht.lastRound
      rw [List.isEmpty_nil, Bool.true_and] at hlast
      refine ⟨?_, hsize, hlast⟩
      show _ = waiting (endsRound s.curWrite w.blk) w.blk.packets
      rw [hall, waiting_append _ ds (by simp), waiting_singleton, List.isEmpty_nil, Bool.true_and]
    | cons g gs =>
      refine ⟨ds ++ [fragPacket f (g :: gs)], ?_, by simp, ?_, ?_⟩
      · show w.blk.packets = _
        rw [hpackets, List.append_assoc]
        rfl
      · rw [waiting_append_false, waiting_singleton, List.isEmpty_cons, Bool.false_and]
      · show w.priv = _
        rw [ht.priv, size_append, size_cons, size_fragPacket, size_nil]
        omega

theorem Core.write_header (h : Core s pend) (hw : s.writer = some w) {f : Frame} {fs : List Frame}
    (hpc : w.pc = .header f fs) : Wrote s (write s w) pend [] := by
  obtain ⟨acc, hacc, h24, hp⟩ := h.progress w hw
  unfold Progress at hp
  rw [hpc] at hp
  obtain ⟨ds, hpackets, -, heq, hpriv⟩ := hp
  have hlen := congrArg List.length heq
  rw [length_waiting] at hlen
  have hsize : size ds + (4 + f.dmaLen) ≤ w.blk.size := by
    unfold TxBlk.size
    rw [hpackets, size_append, trainPackets_cons, size_cons, size_fragPacket]
    omega
  have hdma := dmaLen_eq f
  obtain ⟨hlast, hprog⟩ := progress_writeHeader s.curWrite hpackets
  have hreal := h.real_lt hw
  have hnew := h.append hw hacc h24 (fragHead (endsRound s.curWrite w.blk) f fs) []
    (by rw [List.append_nil, length_fragHead]; omega)
    ⟨w.blk, .payload f fs, size ds + 4 + f.dmaLen, s.curWrite + size ds + (4 + f.header.length),
      fs.isEmpty && decide (maxTxbulkLimit < s.curWrite + (size ds + 4 + f.dmaLen) + 3906)⟩
    rfl (by rw [heq]; exact hprog)
    (show s.curWrite < s.curWriteReal + (4 + f.header.length) by omega)
  rw [List.append_nil, hlen] at hnew
  unfold write
  rw [hpc]
  simp only
  rw [if_pos (h.busy hw)]
  unfold writeHeader
  simp only
  unfold fragHead at hnew
  rw [← hlast] at hnew
  rw [hpriv]
  exact hnew

theorem le_length_multiBytes (f : Frame) (subs : List (List Byte × List Byte)) :
    20 ≤ (multiBytes f subs).length := by
  have := f.le_header
  unfold multiBytes
  rw [List.length_append, List.length_append]
  omega

theorem length_withMpduByteCnt (n : ℕ) {bs : List Byte} (h : 8 ≤ bs.length) :
    (withMpduByteCnt n bs).length = bs.length := by
  unfold withMpduByteCnt mpduByteCnt
  rw [List.length_append, List.length_append, List.length_take, List.length_drop]
  simp only [List.length_cons, List.length_nil]
  omega

theorem length_padded_multi (f : Frame) (subs : List (List Byte × List Byte)) (n : ℕ) :
    (padded (withMpduByteCnt n (multiBytes f subs))).length =
      (multiBytes f subs).length + padding (multiBytes f subs).length := by
  have h20 := le_length_multiBytes f subs
  unfold padded
  rw [List.length_append, List.length_replicate, length_withMpduByteCnt n (by omega)]

theorem size_multi (f : Frame) (subs : List (List Byte × List Byte)) (n : ℕ) :
    (TxBlk.multi f subs n).size =
      4 + ((multiBytes f subs).length + padding (multiBytes f subs).length) := by
  show 4 + (padded (withMpduByteCnt n (multiBytes f subs))).length + 0 = _
  rw [length_padded_multi, Nat.add_zero]

theorem Core.write_frame (h : Core s pend) (hw : s.writer = some w) {src : List Byte}
    {subs : List (List Byte × List Byte)} (hpc : w.pc = .frame src subs) : Wrote s (write s w) pend [] := by
  obtain ⟨acc, hacc, h24, hp⟩ := h.progress w hw
  unfold Progress at hp
  rw [hpc] at hp
  obtain ⟨f, ss, n, pre, hblk, heq, h20, hraw, hpos, hpriv⟩ := hp
  have hlen := congrArg List.length heq
  have hrawlen := congrArg List.length hraw
  rw [List.length_append, length_rawInfo] at hlen
  rw [List.length_append, List.length_append] at hrawlen
  have hsize := size_multi f ss n
  rw [← hblk] at hsize
  have hnew := h.append hw hacc h24 src [] (by rw [List.append_nil]; omega)
    { w with priv := w.priv + src.length, pc := .afterFrame subs } rfl ?_ (h.real_lt hw)
  · rw [List.append_nil, ← hpos] at hnew
    unfold write
    rw [hpc]
    exact hnew
  · have hacc' : acc ++ src = rawInfo f ++ (pre ++ src) := by rw [heq, List.append_assoc]
    have hpriv' : w.priv + src.length = (acc ++ src).length := by rw [hpriv, List.length_append]
    rw [← List.append_assoc] at hraw
    cases subs with
    | nil =>
      refine ⟨f, ss, n, hblk, ?_, hpriv'⟩
      rw [hacc', ← hraw]
      show _ = rawInfo f ++ (pre ++ src ++ [])
      rw [List.append_nil]
    | cons sub subs =>
      exact ⟨f, ss, n, pre ++ src, hblk, hacc', by rw [List.length_append]; omega, hraw, hpriv'⟩

theorem Core.write_sub (h : Core s pend) (hw : s.writer = some w) {hdr src : List Byte}
    {subs : List (List Byte × List Byte)} (hpc : w.pc = .sub hdr src subs) : Wrote s (write s w) pend [] := by
  obtain ⟨acc, hacc, h24, hp⟩ := h.progress w hw
  unfold Progress at hp
  rw [hpc] at hp
  obtain ⟨f, ss, n, pre, hblk, heq, h20, hraw, hpriv⟩ := hp
  have hlen := congrArg List.length heq
  have hrawlen := congrArg List.length hraw
  rw [List.length_append, length_rawInfo] at hlen
  rw [List.length_append, List.length_append, List.length_append] at hrawlen
  have hsize := size_multi f ss n
  rw [← hblk] at hsize
  have hnew := h.append hw hacc h24 hdr [] (by rw [List.append_nil]; omega)
    { w with
      priv := w.priv + hdr.length
      pos := s.curWrite + w.priv + hdr.length
      pc := .frame src subs } rfl ?_ (h.real_lt hw)
  · rw [List.append_nil, ← hpriv] at hnew
    unfold write
    rw [hpc]
    simp only
    rw [if_pos (h.busy hw)]
    exact hnew
  · have hacc' : acc ++ hdr = rawInfo f ++ (pre ++ hdr) := by rw [heq, List.append_assoc]
    have hpriv' : w.priv + hdr.length = (acc ++ hdr).length := by rw [hpriv, List.length_append]
    refine ⟨f, ss, n, pre ++ hdr, hblk, hacc', by rw [List.length_append]; omega, ?_, ?_, hpriv'⟩
    · rw [← hraw]
      simp only [List.append_assoc]
    · show s.curWrite + w.priv + hdr.length = _
      rw [← hpriv', Nat.add_assoc]

theorem TxBlk.packets_ne_nil (blk : TxBlk) : blk.packets ≠ [] := by
  cases blk <;> simp [TxBlk.packets, trainPackets]

theorem ite_endsRound (cw : ℕ) (blk : TxBlk) (n : ℕ) :
    (if endsRound cw blk = true then 8 else n) = if 120832 < cw + blk.size + 3906 then 8 else n := by
  unfold endsRound
  by_cases h : 120832 < cw + blk.size + 3906
  · rw [decide_eq_true h, if_pos rfl, if_pos h]
  · rw [decide_eq_false h, if_neg Bool.false_ne_true, if_neg h]

theorem Ring.finish_core (h : Ring s pend) (hw : s.writer = some w)
    (hps : HoldsAt s.restored s.curWrite (waiting (endsRound s.curWrite w.blk) w.blk.packets)) :
    Core (s.finish w.blk (if endsRound s.curWrite w.blk = true then 8 else s.curWrite + w.blk.size))
      (pend ++ w.blk.packets) := by
  rw [ite_endsRound]
  exact ⟨h.finish hw w.blk.packets_ne_nil hps, fun w' hw' => absurd hw' (by simp [State.finish])⟩

theorem finish_cursor (hw : s.writer = some w) :
    (if endsRound s.curWrite w.blk = true then 8 else s.curWrite + w.blk.size) = 8 ∨
      (if endsRound s.curWrite w.blk = true then 8 else s.curWrite + w.blk.size) = s.curWrite + s.todo := by
  rw [Ring.todo_of_some hw]
  by_cases h : endsRound s.curWrite w.blk = true
  · rw [if_pos h]
    exact Or.inl rfl
  · rw [if_neg h]
    exact Or.inr rfl

theorem Core.write_finish (h : Core s pend) (hw : s.writer = some w) (hpc : w.pc = .finish) :
    Wrote s (write s w) pend w.blk.packets := by
  obtain ⟨acc, hacc, h24, hp⟩ := h.progress w hw
  unfold Progress at hp
  rw [hpc] at hp
  obtain ⟨heq, hpriv, hlast⟩ := hp
  rw [heq] at hacc
  have hfin := h.ring.finish_core hw hacc
  have hcur := finish_cursor hw
  rw [← hlast, ← hpriv] at hfin hcur
  unfold write
  rw [hpc]
  exact ⟨hfin, rfl, SameOutside.refl _ _ _, rfl, Or.inr ⟨rfl, hcur⟩, rfl, rfl, rfl, rfl, rfl⟩

theorem Core.restored_eq (h : Core s pend) (hw : s.writer = some w) (hpad : ¬PadHolds s) {i : ℕ}
    (h1 : s.curWrite ≤ i) (h2 : i < s.curWrite + 24) : s.wirelessPacket i = s.restored i := by
  unfold State.restored
  cases hcopy : s.bCopySavePad with
  | false => rfl
  | true =>
    have hplaced := h.ring.placed
    obtain ⟨hfit, -⟩ := h.ring.blk w hw
    have hsize : 24 ≤ w.blk.size := size_pos hfit w.blk.packets_ne_nil
    rw [h.busy hw, Ring.todo_of_some hw] at hplaced
    have hne : s.eNextBulkOut ≠ s.curWrite := fun heq => hpad ⟨Or.inl heq, hcopy⟩
    have hd := hplaced.apart h.ring.fits (Or.inr ⟨le_refl s.curWrite, hne⟩)
      (show s.curWrite + 24 ≤ s.curWrite + w.blk.size + 8 by omega)
    rw [if_pos rfl]
    rcases hd with hd | hd
    · exact (copy_of_ge (by rw [length_read]; omega)).symm
    · exact (copy_of_lt (by omega)).symm

theorem holds_final {m : ℕ → Byte} {cw len n : ℕ} {f : Frame} {subs : List (List Byte × List Byte)}
    {r : Bool} {old : Byte} (h : HoldsAt m cw (rawInfo f ++ multiBytes f subs))
    (hlen : len = (padded (withMpduByteCnt n (multiBytes f subs))).length)
    (hold : old = mem (multiBytes f subs) 7) :
    HoldsAt (copy (copy (copy m cw [BitVec.ofNat 8 len, BitVec.ofNat 8 (len / 256), infoFlags false false r])
      (cw + 10) (mpduByteCnt n old)) (cw + (4 + (multiBytes f subs).length))
      (List.replicate (padding (multiBytes f subs).length + 8) 0#8)) cw
      (waiting r (TxBlk.multi f subs n).packets) := by
  have h20 := le_length_multiBytes f subs
  obtain ⟨raw, hraw⟩ : ∃ raw, raw = multiBytes f subs := ⟨_, rfl⟩
  rw [← hraw] at h h20 hlen hold ⊢
  -- the TXINFO
  have hsplit : rawInfo f ++ raw = [] ++ ([BitVec.ofNat 8 (4 + f.header.length),
      BitVec.ofNat 8 ((4 + f.header.length) / 256), infoFlags false false false] ++
      ([0x04#8] ++ raw)) := rfl
  rw [hsplit] at h
  have h1 := h.patch [BitVec.ofNat 8 len, BitVec.ofNat 8 (len / 256), infoFlags false false r] rfl
    (show cw = cw + ([] : List Byte).length from rfl)
  have hinfo : [] ++ ([BitVec.ofNat 8 len, BitVec.ofNat 8 (len / 256), infoFlags false false r] ++
      ([0x04#8] ++ raw)) = (txInfo len false false r ++ raw.take 6) ++ ((raw.drop 6).take 2 ++ raw.drop 8) := by
    have hdrop : raw.drop 8 = (raw.drop 6).drop 2 := by rw [List.drop_drop]
    rw [hdrop, List.take_append_drop, List.append_assoc, List.take_append_drop]
    rfl
  rw [hinfo] at h1
  -- the byte count
  have h2 := h1.patch (mpduByteCnt n old) (by
    rw [List.length_take, List.length_drop]
    show 2 = _
    omega) (show cw + 10 = cw + (txInfo len false false r ++ raw.take 6).length by
      rw [List.length_append, List.length_take]
      show cw + 10 = cw + (4 + _)
      omega)
  have hcnt : (txInfo len false false r ++ raw.take 6) ++ (mpduByteCnt n old ++ raw.drop 8) =
      txInfo len false false r ++ withMpduByteCnt n raw := by
    unfold withMpduByteCnt
    rw [hold, List.append_assoc]
  rw [hcnt] at h2
  have hwith := length_withMpduByteCnt n (show 8 ≤ raw.length by omega)
  -- the padding
  have h3 := h2.append_copy (List.replicate (padding raw.length + 8) 0#8)
    (show cw + (4 + raw.length) = cw + (txInfo len false false r ++ withMpduByteCnt n raw).length by
      rw [List.length_append, hwith]
      rfl)
  rw [replicate_pad, ← List.append_assoc, holdsAt_append] at h3
  have hpacket : waiting r (TxBlk.multi f subs n).packets =
      txInfo len false false r ++ withMpduByteCnt n raw ++ List.replicate (padding raw.length) 0#8 := by
    show waiting r [⟨false, padded (withMpduByteCnt n (multiBytes f subs))⟩] = _
    rw [waiting_singleton, ← hraw]
    unfold Packet.bytes
    rw [← hlen]
    unfold padded
    rw [hwith, List.append_assoc]
  rw [hpacket, replicate_pad]
  exact h3.1

theorem Core.write_final (h : Core s pend) (hw : s.writer = some w) (hpc : w.pc = .final)
    (hpad : ¬PadHolds s) : Wrote s (write s w) pend w.blk.packets := by
  obtain ⟨acc, hacc, h24, hp⟩ := h.progress w hw
  unfold Progress at hp
  rw [hpc] at hp
  obtain ⟨f, ss, n, hblk, heq, hpriv⟩ := hp
  rw [heq] at hacc hpriv
  rw [List.length_append, length_rawInfo] at hpriv
  have h20 := le_length_multiBytes f ss
  have hsize := size_multi f ss n
  have hlen := length_padded_multi f ss n
  rw [← hblk] at hsize
  -- the flags and the byte count that are updated are those of the section before
  have hflags : s.wirelessPacket (s.curWrite + 2) = infoFlags false false false := by
    rw [h.restored_eq hw hpad (by omega) (by omega)]
    exact holdsAt_iff.1 hacc 2 (by rw [List.length_append, length_rawInfo]; omega)
  have hold : s.wirelessPacket (s.curWrite + 11) = mem (multiBytes f ss) 7 := by
    rw [h.restored_eq hw hpad (by omega) (by omega),
      holdsAt_iff.1 hacc 11 (by rw [List.length_append, length_rawInfo]; omega)]
    exact mem_append_right (rawInfo f) (multiBytes f ss) 7
  have hinfo : (if endsRound s.curWrite w.blk = true then s.wirelessPacket (s.curWrite + 2) ||| 0x04#8
      else s.wirelessPacket (s.curWrite + 2)) = infoFlags false false (endsRound s.curWrite w.blk) := by
    rw [hflags]
    cases endsRound s.curWrite w.blk <;> rfl
  have hholds := holds_final (r := endsRound s.curWrite w.blk) hacc hlen.symm hold
  obtain ⟨len, hlen'⟩ : ∃ len, len = (multiBytes f ss).length + padding (multiBytes f ss).length := ⟨_, rfl⟩
  rw [← hlen'] at hholds hsize
  obtain ⟨info, hinfo'⟩ : ∃ info, info = [BitVec.ofNat 8 len, BitVec.ofNat 8 (len / 256),
      infoFlags false false (endsRound s.curWrite w.blk)] := ⟨_, rfl⟩
  obtain ⟨cnt, hcnt⟩ : ∃ cnt, cnt = mpduByteCnt n (s.wirelessPacket (s.curWrite + 11)) := ⟨_, rfl⟩
  obtain ⟨zs, hzs⟩ : ∃ zs, zs = List.replicate (padding (multiBytes f ss).length + 8) 0#8 := ⟨_, rfl⟩
  have hi3 : info.length = 3 := by rw [hinfo']; rfl
  have hc2 : cnt.length = 2 := by rw [hcnt]; rfl
  have hz8 : zs.length = padding (multiBytes f ss).length + 8 := by rw [hzs, List.length_replicate]
  rw [← hinfo', ← hcnt, ← hzs, ← hpriv] at hholds
  -- the three stores
  obtain ⟨r1, e1⟩ := h.ring.store hw (Or.inr ⟨le_refl s.curWrite, hpad⟩)
    (show s.curWrite + info.length ≤ s.curWrite + w.blk.size + 8 by omega)
  obtain ⟨r2, e2⟩ := r1.store hw (Or.inl (show s.curWrite + 8 ≤ s.curWrite + 10 by omega))
    (show s.curWrite + 10 + cnt.length ≤ s.curWrite + w.blk.size + 8 by omega)
  obtain ⟨r3, e3⟩ := r2.store hw (Or.inl (show s.curWrite + 8 ≤ s.curWrite + w.priv by omega))
    (show s.curWrite + w.priv + zs.length ≤ s.curWrite + w.blk.size + 8 by omega)
  have hcore := r3.finish_core hw (by
    rw [e3, e2, e1]
    show HoldsAt _ s.curWrite (waiting (endsRound s.curWrite w.blk) w.blk.packets)
    rw [hblk] at hholds ⊢
    exact hholds)
  have hstate : write s w = (((s.store s.curWrite info).store (s.curWrite + 10) cnt).store
      (s.curWrite + w.priv) zs).finish w.blk
        (if endsRound s.curWrite w.blk = true then 8 else s.curWrite + w.blk.size) := by
    have hpriv4 : w.priv - 4 = (multiBytes f ss).length := by omega
    have hends : decide (maxTxbulkLimit < s.curWrite + (4 + len) + 3906) = endsRound s.curWrite w.blk := by
      unfold endsRound maxTxbulkLimit
      rw [hsize]
    have htotal : w.blk.totalMPDUSize = n := by rw [hblk]; rfl
    unfold write
    rw [hpc]
    simp only
    rw [if_pos (h.busy hw), htotal]
    unfold rtmpUSBFinalWriteTxResource
    simp only
    rw [hpriv4, ← hlen', if_neg hpad, hends, hinfo, ← hinfo', ← hcnt, ← hzs, hsize]
  have hcur := finish_cursor hw
  obtain ⟨cw, hcw⟩ : ∃ cw, cw = if endsRound s.curWrite w.blk = true then 8 else s.curWrite + w.blk.size := ⟨_, rfl⟩
  change Core (State.finish _ _ (if endsRound s.curWrite w.blk = true then 8 else s.curWrite + w.blk.size))
    _ at hcore
  rw [← hcw] at hcore hstate hcur
  rw [hstate]
  refine ⟨hcore, rfl, ?_, rfl, Or.inr ⟨rfl, hcur⟩, rfl, rfl, rfl, rfl, rfl⟩
  rw [if_neg hpad, Ring.todo_of_some hw]
  have m1 : SameOutside s.curWrite (s.curWrite + w.blk.size + 8) s.wirelessPacket
      (copy s.wirelessPacket s.curWrite info) := sameOutside_copy le_rfl (by omega)
  have m2 : SameOutside s.curWrite (s.curWrite + w.blk.size + 8) s.wirelessPacket
      (copy (copy s.wirelessPacket s.curWrite info) (s.curWrite + 10) cnt) :=
    m1.trans (sameOutside_copy (by omega) (by omega)) le_rfl le_rfl
  exact m2.trans (sameOutside_copy (by omega) (by omega)) le_rfl le_rfl

/-- **A section of a writer.** What a writer has finished waits behind the rest. -/
theorem Core.write (h : Core s pend) (hw : s.writer = some w) (hpad : w.pc = .final → ¬PadHolds s) :
    ∃ ext, Wrote s (Usb.write s w) pend ext := by
  cases hpc : w.pc with
  | payload f fs => exact ⟨_, h.write_payload hw hpc⟩
  | clear f fs => exact ⟨_, h.write_clear hw hpc⟩
  | header f fs => exact ⟨_, h.write_header hw hpc⟩
  | finish => exact ⟨_, h.write_finish hw hpc⟩
  | frame src subs => exact ⟨_, h.write_frame hw hpc⟩
  | sub hdr src subs => exact ⟨_, h.write_sub hw hpc⟩
  | final => exact ⟨_, h.write_final hw hpc (hpad hpc)⟩

end Writing

/-! ### The first section of a writer -/

/-- The lengths for which the checks of admission leave room: with the eight bytes that may be left free
in front and the eight that are cleared behind, the packets are in the room that `RTUSBFreeDescRequest`
asks for, and one aggregate's worth. -/
def TxBlk.Fits (blk : TxBlk) (req : ℕ) : Prop := blk.size + 16 ≤ req + localTxbufSize ∧ blk.size ≤ 4006

instance (blk : TxBlk) (req : ℕ) : Decidable (blk.Fits req) := inferInstanceAs (Decidable (_ ∧ _))

def OneRound (s : State) (blk : TxBlk) : Prop :=
  s.curWrite < s.nextBulkOut → s.reserve.curWrite + blk.size + 3906 ≤ maxTxbulkLimit

instance (s : State) (blk : TxBlk) : Decidable (OneRound s blk) := inferInstanceAs (Decidable (_ → _))

theorem size_le_of_mem {p : Packet} {ps : List Packet} (h : p ∈ ps) : p.size ≤ size ps := by
  induction ps with
  | nil => exact absurd h (by simp)
  | cons q ps ih =>
    rw [size_cons]
    rcases List.mem_cons.1 h with rfl | h
    · omega
    · have := ih h
      omega

theorem le_length_trainPackets {fs : List Frame} {p : Packet} (h : p ∈ trainPackets fs) : 20 ≤ p.body.length := by
  induction fs with
  | nil => exact absurd h (by simp [trainPackets])
  | cons f fs ih =>
    rw [trainPackets_cons] at h
    rcases List.mem_cons.1 h with rfl | h
    · have h1 := f.le_header
      have h2 := dmaLen_eq f
      show 20 ≤ f.dmaLen
      omega
    · exact ih h

theorem TxBlk.Fits.packets {blk : TxBlk} {req : ℕ} (h : blk.Fits req) : ∀ p ∈ blk.packets, p.Fits := by
  intro p hp
  have hle := (size_le_of_mem hp).trans h.2
  refine ⟨?_, by unfold Packet.size at hle; omega⟩
  cases blk with
  | single f => exact le_length_trainPackets hp
  | frag f fs => exact le_length_trainPackets hp
  | multi f subs n =>
    have hp' : p = ⟨false, padded (withMpduByteCnt n (multiBytes f subs))⟩ := List.mem_singleton.1 hp
    have h20 := le_length_multiBytes f subs
    rw [hp', length_padded_multi]
    omega

section Reserve

variable {s : State}

theorem reserve_curWrite :
    s.reserve.curWrite = if s.eNextBulkOut = s.curWrite then s.curWrite + 8 else s.curWrite := by
  unfold State.reserve
  split_ifs <;> rfl

theorem reserve_eNextBulkOut :
    s.reserve.eNextBulkOut =
      if s.eNextBulkOut = s.curWrite then s.eNextBulkOut + 8 else s.eNextBulkOut := by
  unfold State.reserve
  split_ifs <;> rfl

theorem reserve_curWriteReal : s.reserve.curWriteReal = s.reserve.curWrite := by
  unfold State.reserve
  split_ifs <;> rfl

theorem reserve_bCurWriting : s.reserve.bCurWriting = true := by
  unfold State.reserve
  split_ifs <;> rfl

theorem reserve_same : s.reserve.wirelessPacket = s.wirelessPacket ∧ s.reserve.savedPad = s.savedPad ∧
    s.reserve.bCopySavePad = s.bCopySavePad ∧ s.reserve.granted = s.granted ∧
    s.reserve.written = s.written ∧ s.reserve.stores = s.stores ∧ SameBulk s s.reserve := by
  unfold State.reserve
  split_ifs <;> exact ⟨rfl, rfl, rfl, rfl, rfl, rfl, rfl, rfl, rfl, rfl, rfl⟩

end Reserve

theorem of_rtmpUSBCanDoWrite {s : State} (h : rtmpUSBCanDoWrite s = true) :
    (s.curWrite = 8 → 2048 ≤ s.nextBulkOut) ∧ s.bCurWriting = false ∧
      (s.eNextBulkOut = 8 → s.curWrite + 7912 ≤ 120832) := by
  unfold rtmpUSBCanDoWrite localTxbufSize maxTxbulkLimit at h
  split_ifs at h with h1 h2 h3 h4
  refine ⟨by omega, ?_, by omega⟩
  cases hb : s.bCurWriting with
  | false => rfl
  | true => exact absurd hb h3

theorem Ring.begin {s : State} {pend : List Packet} (h : Ring s pend) (hw : s.writer = none)
    (hnone : s.granted = none) {req : ℕ}
    (hgrant : s.curWrite < s.nextBulkOut → s.curWrite + (req + 2048) ≤ s.nextBulkOut) {w : Writer}
    (hfit : w.blk.Fits req) (hround : OneRound s w.blk) (hcan : rtmpUSBCanDoWrite s = true) {r : ℕ}
    (hr : s.reserve.curWrite < r) :
    Ring { s.reserve with writer := some w, curWriteReal := r } pend ∧
      ({ s.reserve with writer := some w, curWriteReal := r } : State).restored = s.restored := by
  obtain ⟨hc2, hidle, hc4⟩ := of_rtmpUSBCanDoWrite hcan
  obtain ⟨hmem, hsaved, hcopy, hgr, hwr, hst, hnb, -⟩ := reserve_same (s := s)
  have hplaced := h.placed
  rw [hidle, Ring.todo_of_none hw] at hplaced
  -- an empty ring has nothing kept aside
  have hrest : ({ s.reserve with writer := some w, curWriteReal := r } : State).restored = s.restored := by
    show (if s.reserve.bCopySavePad then copy s.reserve.wirelessPacket s.reserve.eNextBulkOut
      (read s.reserve.savedPad 8) else s.reserve.wirelessPacket) = _
    unfold State.restored
    rw [hmem, hsaved, hcopy, reserve_eNextBulkOut]
    by_cases hpad : s.bCopySavePad = true
    · have hne : s.eNextBulkOut ≠ s.curWrite := by
        rcases h.pad hpad with hne | hb
        · exact hne
        · rw [hidle] at hb
          exact absurd hb (by decide)
      rw [if_neg hne]
    · rw [if_neg hpad, if_neg hpad]
  have hfit' := hfit
  unfold TxBlk.Fits localTxbufSize at hfit'
  unfold OneRound maxTxbulkLimit at hround
  rw [reserve_curWrite] at hround
  have hgrant' : s.curWrite < s.nextBulkOut → s.curWrite + req + 2048 ≤ s.nextBulkOut := by
    intro hlt
    rw [Nat.add_assoc]
    exact hgrant hlt
  have hround' : s.curWrite < s.nextBulkOut →
      (if s.eNextBulkOut = s.curWrite then s.curWrite + 8 else s.curWrite) + w.blk.size ≤ 116926 := by
    intro hlt
    have := hround hlt
    omega
  have hnew := hplaced.reserve h.fits hfit'.2 hfit'.1 hgrant' hc2 hc4 hround'
  rw [← reserve_curWrite, ← reserve_eNextBulkOut] at hnew
  refine ⟨⟨h.fits, ?_, fun _ => Or.inr reserve_bCurWriting, ⟨fun _ => reserve_bCurWriting, fun _ => hr⟩,
    reserve_bCurWriting, ?_, ?_, ?_, ?_⟩, hrest⟩
  · rw [hrest]
    show Placed _ s.reserve.nextBulkOut s.reserve.eNextBulkOut s.reserve.curWrite w.blk.size
      s.reserve.bCurWriting pend
    rw [hnb, reserve_bCurWriting]
    exact hnew
  · intro w' hw'
    have hw' : w = w' := Option.some.inj hw'
    rw [← hw']
    exact ⟨hfit.packets, hfit.2⟩
  · intro req' hreq'
    have hreq' : s.reserve.granted = some req' := hreq'
    rw [hgr, hnone] at hreq'
    exact absurd hreq' (by simp)
  · intro hsome
    have hsome : s.reserve.granted.isSome := hsome
    rw [hgr, hnone] at hsome
    exact absurd hsome (by simp)
  · show ∀ e ∈ s.reserve.stores, e.Safe
    rw [hst]
    exact h.stores

/-- A writer was let in: it has its header at the write position, which has moved by eight bytes together
with `ENextBulkOutPosition` if the ring was empty. -/
structure Begun (s s' : State) : Prop where
  cursors : s.eNextBulkOut ≠ s.curWrite ∧ s'.eNextBulkOut = s.eNextBulkOut ∧ s'.curWrite = s.curWrite ∨
    s.eNextBulkOut = s.curWrite ∧ s'.eNextBulkOut = s.eNextBulkOut + 8 ∧ s'.curWrite = s.curWrite + 8
  behind : s.curWrite < s.nextBulkOut → s'.curWrite < s'.nextBulkOut
  busy : s'.bCurWriting = true
  memory : SameOutside s'.curWrite (s'.curWrite + s'.todo + 8) s.wirelessPacket s'.wirelessPacket

structure Started (s s' : State) (pend : List Packet) : Prop where
  core : Core s' pend
  written : s'.written = s.written
  how : s' = { s with granted := none } ∨ Begun s s'
  same : SameBulk s s'

section Starting

variable {s : State} {pend : List Packet}

theorem Ring.begin_store (h : Ring s pend) (hw : s.writer = none) (hnone : s.granted = none) {req : ℕ}
    (hgrant : s.curWrite < s.nextBulkOut → s.curWrite + (req + 2048) ≤ s.nextBulkOut) {w : Writer}
    (hfit : w.blk.Fits req) (hround : OneRound s w.blk) (hcan : rtmpUSBCanDoWrite s = true)
    {hd : List Byte} (h24 : 24 ≤ hd.length) (hend : hd.length ≤ w.blk.size + 8)
    (hp : Progress s.reserve.curWrite w hd) {n : ℕ} (hn : 0 < n) :
    Started s { s.reserve.store s.reserve.curWrite hd with
      curWriteReal := s.reserve.curWriteReal + n, writer := some w } pend := by
  have hr : s.reserve.curWrite < s.reserve.curWriteReal + n := by
    rw [reserve_curWriteReal]
    omega
  obtain ⟨hring, hrest⟩ := h.begin hw hnone hgrant hfit hround hcan hr
  obtain ⟨hmem, -, hcopy, -, hwr, -, hsame⟩ := reserve_same (s := s)
  -- what is kept aside is not at the write position
  have hpad : ¬PadHolds { s.reserve with writer := some w, curWriteReal := s.reserve.curWriteReal + n } := by
    rintro ⟨heq, hc⟩
    have hc : s.reserve.bCopySavePad = true := hc
    rw [hcopy] at hc
    have hne : s.eNextBulkOut ≠ s.curWrite := by
      rcases h.pad hc with hne | hb
      · exact hne
      · rw [(of_rtmpUSBCanDoWrite hcan).2.1] at hb
        exact absurd hb (by decide)
    have hnil : pend ≠ [] := by
      rintro rfl
      exact hne h.placed.eq_of_nil
    have hne' := h.placed.ne_of_ne_nil h.fits hnil
    have heq : s.reserve.eNextBulkOut = s.reserve.curWrite ∨ s.reserve.eNextBulkOut = s.reserve.curWrite + 8 := heq
    rw [reserve_eNextBulkOut, reserve_curWrite, if_neg hne, if_neg hne] at heq
    omega
  obtain ⟨hring', hrest'⟩ := hring.store rfl (Or.inr ⟨le_refl s.reserve.curWrite, hpad⟩)
    (show s.reserve.curWrite + hd.length ≤ s.reserve.curWrite + w.blk.size + 8 by omega)
  refine ⟨⟨hring', ?_⟩, hwr, Or.inr ⟨?_, ?_, reserve_bCurWriting, ?_⟩, hsame⟩
  · intro w' hw'
    have hw' : w = w' := Option.some.inj hw'
    subst hw'
    exact ⟨hd, (congrArg (HoldsAt · s.reserve.curWrite hd) hrest').mpr (holdsAt_copy _ _ hd), h24, hp⟩
  · show _ ∧ s.reserve.eNextBulkOut = _ ∧ s.reserve.curWrite = _ ∨
      _ ∧ s.reserve.eNextBulkOut = _ ∧ s.reserve.curWrite = _
    rw [reserve_eNextBulkOut, reserve_curWrite]
    by_cases heq : s.eNextBulkOut = s.curWrite
    · rw [if_pos heq, if_pos heq]
      exact Or.inr ⟨heq, rfl, rfl⟩
    · rw [if_neg heq, if_neg heq]
      exact Or.inl ⟨heq, rfl, rfl⟩
  · intro hlt
    have hle := hgrant hlt
    show s.reserve.curWrite < s.reserve.nextBulkOut
    rw [hsame.1, reserve_curWrite]
    split_ifs
    · omega
    · exact hlt
  · show SameOutside s.reserve.curWrite (s.reserve.curWrite + w.blk.size + 8) s.wirelessPacket
      (copy s.reserve.wirelessPacket s.reserve.curWrite hd)
    rw [hmem]
    exact sameOutside_copy le_rfl (by omega)

theorem Ring.begin_train (h : Ring s pend) (hw : s.writer = none) (hnone : s.granted = none) {req : ℕ}
    (hgrant : s.curWrite < s.nextBulkOut → s.curWrite + (req + 2048) ≤ s.nextBulkOut) {blk : TxBlk}
    {f : Frame} {fs : List Frame} (hpackets : blk.packets = trainPackets (f :: fs))
    (hfit : blk.Fits req) (hround : OneRound s blk) (hcan : rtmpUSBCanDoWrite s = true) :
    Started s (writeHeader s.reserve blk 0 f fs) pend := by
  obtain ⟨hlast, hprog⟩ := progress_writeHeader s.reserve.curWrite (show blk.packets = [] ++ _ from hpackets)
  have hsize : 4 + f.dmaLen ≤ blk.size := by
    unfold TxBlk.size
    rw [hpackets, trainPackets_cons, size_cons, size_fragPacket]
    omega
  have hdma := dmaLen_eq f
  have h20 := f.le_header
  have hhd : (waiting false [] ++ fragHead (endsRound s.reserve.curWrite blk) f fs).length =
      4 + f.header.length := length_fragHead _ f fs
  have hst := h.begin_store hw hnone hgrant hfit hround hcan (by omega)
    (show _ ≤ blk.size + 8 by omega) hprog (show 0 < 4 + f.header.length by omega)
  unfold fragHead at hst
  rw [← hlast] at hst
  exact hst

theorem Core.dropGrant (h : Core s pend) : Core { s with granted := none } pend := by
  obtain ⟨h, hp⟩ := h
  exact ⟨⟨h.fits, h.placed, h.pad, h.real, h.writing, h.blk, fun _ hr => absurd hr (by simp),
    fun hr => absurd hr (by simp), h.stores⟩, hp⟩

theorem Core.start (h : Core s pend) (hw : s.writer = none) {req : ℕ} (hreq : s.granted = some req)
    {blk : TxBlk} (hfit : blk.Fits req) (hround : OneRound s blk) :
    Started s (Usb.start { s with granted := none } blk) pend := by
  have hgrant := (h.ring.granted req hreq).1
  have h0 := h.dropGrant.ring
  obtain ⟨s0, hs0⟩ : ∃ s0, s0 = ({ s with granted := none } : State) := ⟨_, rfl⟩
  have hround0 : OneRound s0 blk := by
    unfold OneRound at hround ⊢
    rw [reserve_curWrite] at hround ⊢
    rw [hs0]
    exact hround
  suffices hst : Started s0 (Usb.start s0 blk) pend by
    rw [hs0] at hst
    refine ⟨hst.core, hst.written, ?_, hst.same⟩
    rcases hst.how with how | how
    · exact Or.inl how
    · exact Or.inr ⟨how.cursors, how.behind, how.busy, how.memory⟩
  have hw0 : s0.writer = none := by rw [hs0]; exact hw
  have hnone : s0.granted = none := by rw [hs0]
  have hgrant0 : s0.curWrite < s0.nextBulkOut → s0.curWrite + (req + 2048) ≤ s0.nextBulkOut := by
    rw [hs0]
    exact hgrant
  have hcore0 : Core s0 pend := by rw [hs0]; exact h.dropGrant
  unfold Usb.start
  by_cases hcan : rtmpUSBCanDoWrite s0 = true
  · rw [if_pos hcan]
    cases blk with
    | single f => exact hcore0.ring.begin_train hw0 hnone hgrant0 rfl hfit hround0 hcan
    | frag f fs => exact hcore0.ring.begin_train hw0 hnone hgrant0 rfl hfit hround0 hcan
    | multi f subs n =>
      have hsize := size_multi f subs n
      have h20 := f.le_header
      have hlen : (multiBytes f subs).length = f.header.length + (f.src ++ subBytes subs).length := by
        unfold multiBytes
        rw [List.append_assoc, List.length_append]
      have hhd : (txInfo (4 + f.header.length) false false false ++ f.header).length =
          4 + f.header.length := by
        rw [List.length_append]
        rfl
      have hprog : Progress s0.reserve.curWrite ⟨.multi f subs n, .frame f.src subs, 4 + f.header.length,
          s0.reserve.curWrite + (4 + f.header.length), false⟩
          (txInfo (4 + f.header.length) false false false ++ f.header) := by
        refine ⟨f, subs, n, f.header, rfl, rfl, h20, ?_, ?_, hhd.symm⟩
        · unfold multiBytes
          rw [List.append_assoc]
        · rw [hhd]
      exact hcore0.ring.begin_store hw0 hnone hgrant0 hfit hround0 hcan (by omega)
        (show _ ≤ (TxBlk.multi f subs n).size + 8 by omega) hprog (by omega)
  · rw [if_neg hcan]
    refine ⟨hcore0, rfl, Or.inl ?_, rfl, rfl, rfl, rfl, rfl⟩
    rw [hs0]

end Starting

end Mt7610u.Usb
