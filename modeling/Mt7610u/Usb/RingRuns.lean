import Mt7610u.Usb.BulkOut

/-! # The bulk-out ring over whole runs -/

namespace Mt7610u.Usb

open Lib Lib.Runs

def Allowed (s : State) : Op → Prop
  | .start blk => match s.granted with
    | some req => blk.Fits req ∧ OneRound s blk
    | none => True
  | .write => s.atFinal = true → ¬PadHolds s
  | _ => True

instance Allowed.decidable (s : State) : ∀ op, Decidable (Allowed s op)
  | .start blk => by
    unfold Allowed
    exact match s.granted with
    | some req => inferInstanceAs (Decidable (blk.Fits req ∧ OneRound s blk))
    | none => inferInstanceAs (Decidable True)
  | .write => inferInstanceAs (Decidable (_ → _))
  | .freeDesc _ => inferInstanceAs (Decidable True)
  | .claim _ => inferInstanceAs (Decidable True)
  | .build => inferInstanceAs (Decidable True)
  | .submit _ => inferInstanceAs (Decidable True)
  | .complete _ => inferInstanceAs (Decidable True)
  | .reset => inferInstanceAs (Decidable True)
  | .otherReset => inferInstanceAs (Decidable True)
  | .otherDone => inferInstanceAs (Decidable True)
  | .adapter _ _ => inferInstanceAs (Decidable True)

section Steps

variable {s : State} {pend : List Packet}

theorem Core.other (h : Core s pend) (bulk : Bulk) (b1 b2 b3 b4 : Bool) (sub : List (List Byte))
    (trans : List ℕ) : Core { s with
      bulk := bulk, bulkoutReset := b1, resetHere := b2, halted := b3, radioOff := b4,
      submitted := sub, transferred := trans } pend :=
  ⟨⟨h.ring.fits, h.ring.placed, h.ring.pad, h.ring.real, h.ring.writing, h.ring.blk, h.ring.granted,
    h.ring.granted_idle, h.ring.stores⟩, h.progress⟩

theorem Core.freeDesc (h : Core s pend) {req : ℕ} (hok : rtusbFreeDescRequest s req = true) :
    Core { s with granted := some req } pend := by
  unfold rtusbFreeDescRequest localTxbufSize at hok
  split_ifs at hok with h1 h2
  refine ⟨⟨h.ring.fits, h.ring.placed, h.ring.pad, h.ring.real, h.ring.writing, h.ring.blk, ?_, ?_,
    h.ring.stores⟩, h.progress⟩
  · intro req' hreq'
    have hreq' : req = req' := Option.some.inj hreq'
    subst hreq'
    show (s.curWrite < s.nextBulkOut → s.curWrite + (req + 2048) ≤ s.nextBulkOut) ∧
      (s.curWrite = 8 → req + 2048 ≤ s.nextBulkOut)
    omega
  · intro _
    simpa using hok

theorem atFinal_of_pc {w : Writer} (hw : s.writer = some w) (hpc : w.pc = .final) : s.atFinal = true := by
  unfold State.atFinal
  rw [hw]
  cases w
  subst hpc
  rfl

theorem core_step {maxPacketSize : ℕ} {op : Op} (h : Core s pend) (hok : Allowed s op) :
    ∃ pend', Core (step maxPacketSize s op) pend' := by
  cases op with
  | freeDesc req =>
    simp only [step]
    by_cases hg : rtusbFreeDescRequest s req = true
    · rw [if_pos hg]
      exact ⟨pend, h.freeDesc hg⟩
    · rw [if_neg hg]
      exact ⟨pend, h⟩
  | start blk =>
    simp only [step]
    by_cases hs : s.writer.isNone ∧ s.granted.isSome
    · rw [if_pos hs]
      obtain ⟨req, hreq⟩ := Option.isSome_iff_exists.1 hs.2
      unfold Allowed at hok
      rw [hreq] at hok
      exact ⟨pend, (h.start (Option.isNone_iff_eq_none.1 hs.1) hreq hok.1 hok.2).core⟩
    · rw [if_neg hs]
      exact ⟨pend, h⟩
  | write =>
    simp only [step]
    cases hw : s.writer with
    | none => exact ⟨pend, h⟩
    | some w =>
      obtain ⟨ext, hext⟩ := h.write hw fun hpc => hok (atFinal_of_pc hw hpc)
      exact ⟨_, hext.core⟩
  | build =>
    simp only [step]
    by_cases hc : s.bulk = .claimed
    · rw [if_pos hc]
      by_cases hne : pend = []
      · subst hne
        have heq := h.ring.placed.eq_of_nil
        unfold rtusbBulkOutDataPacket
        rw [if_pos (Or.inl heq)]
        exact ⟨[], h.other _ _ _ _ _ _ _⟩
      · obtain ⟨taken, rest, hb⟩ := h.build hne maxPacketSize
        exact ⟨rest, hb.core⟩
    · rw [if_neg hc]
      exact ⟨pend, h⟩
  | claim connected =>
    refine ⟨pend, ?_⟩
    simp only [step]
    split_ifs
    · exact h.other _ _ _ _ _ _ _
    · exact h
  | submit ok =>
    refine ⟨pend, ?_⟩
    simp only [step]
    split_ifs
    · exact h.other _ _ _ _ _ _ _
    · exact h.other _ _ _ _ _ _ _
    · exact h
  | complete noError =>
    refine ⟨pend, ?_⟩
    simp only [step, rtusbDataoutComplete]
    split_ifs
    · exact h.other _ _ _ _ _ _ _
    · exact h.other _ _ _ _ _ _ _
    · exact h.other _ _ _ _ _ _ _
    · exact h
  | reset =>
    refine ⟨pend, ?_⟩
    simp only [step, resetBulkOutHdlr]
    split_ifs
    · exact h.other _ _ _ _ _ _ _
    · exact h.other _ _ _ _ _ _ _
    · exact h
  | otherReset =>
    refine ⟨pend, ?_⟩
    simp only [step]
    split_ifs
    · exact h
    · exact h.other _ _ _ _ _ _ _
  | otherDone =>
    refine ⟨pend, ?_⟩
    simp only [step]
    split_ifs
    · exact h.other _ _ _ _ _ _ _
    · exact h
  | adapter halted radioOff => exact ⟨pend, h.other _ _ _ _ _ _ _⟩

end Steps

/-- **Space safety.** -/
theorem stores_safe_of_allowed (maxPacketSize : ℕ) (ops : List Op)
    (hok : Along (step maxPacketSize) Allowed State.init ops) :
    ∀ e ∈ (run (step maxPacketSize) State.init ops).stores, e.Safe := by
  obtain ⟨pend, h⟩ : ∃ pend, Core (run (step maxPacketSize) State.init ops) pend :=
    run_invariant (I := fun s => ∃ pend, Core s pend) (fun s op ⟨_, h⟩ hop => core_step h hop) ops
      State.init ⟨[], Core.init⟩ hok
  exact h.ring.stores

/-! ### Runs -/

/-- A frame of `n` bytes with a TXWI for an HT rate and `hdr` bytes of headers behind it. -/
def sampleFrame (hdr n : ℕ) : Frame where
  header := [0x00#8, 0x00#8, 0x00#8, 0x40#8] ++ List.replicate (16 + hdr) 0x11#8
  src := List.replicate n 0x22#8
  le_header := by
    rw [List.length_append, List.length_replicate]
    show 20 ≤ 4 + (16 + hdr)
    omega

/-- One frame of `n` bytes is written from beginning to end. -/
def sendSingle (n : ℕ) : List Op :=
  [.freeDesc (n + 14), .start (.single (sampleFrame 36 n)), .write, .write, .write]

def bulkOut : List Op := [.claim true, .build, .submit true, .complete true]

def sampleAmsdu : TxBlk := .multi (sampleFrame 50 5) [(List.replicate 23 0x33#8, [0x44#8])] 77

/-- A packet is sent while two fragments are being written behind it; the bulk-out ends where they begin.
An aggregate follows. -/
def sampleRun : List Op :=
  sendSingle 5 ++ [.freeDesc 40, .start (.frag (sampleFrame 28 9) [sampleFrame 28 3])] ++ bulkOut ++
    List.replicate 6 .write ++ bulkOut ++ [.freeDesc 34, .start sampleAmsdu] ++ List.replicate 4 .write ++
    bulkOut

set_option maxRecDepth 32000 in
theorem stores_safe_sampleRun :
    Along (step 512) Allowed State.init sampleRun ∧
      ∀ e ∈ (run (step 512) State.init sampleRun).stores, e.Safe := by
  have hok : Along (step 512) Allowed State.init sampleRun := by decide
  exact ⟨hok, stores_safe_of_allowed 512 sampleRun hok⟩

def tinyAmsdu : TxBlk := .multi (sampleFrame 50 1) (List.replicate 248 (List.replicate 23 0x33#8, [0x44#8])) 6001

/-- The ring is filled up to where one more packet ends the round; then comes the A-MSDU of many small
frames. -/
def overflowRun : List Op :=
  sendSingle 1340 ++ bulkOut ++ (List.replicate 74 (sendSingle 1500)).flatten ++
    [.freeDesc 3735, .start tinyAmsdu] ++ List.replicate 498 .write

set_option maxRecDepth 32000 in
theorem not_safe_overflowRun : ¬∀ e ∈ (run (step 512) State.init overflowRun).stores, e.Safe := by
  decide

/-! ### First in, first out -/

def Succeeds : Op → Prop
  | .submit ok => ok = true
  | .complete noError => noError = true
  | _ => True

instance Succeeds.decidable : ∀ op, Decidable (Succeeds op)
  | .submit ok => inferInstanceAs (Decidable (ok = true))
  | .complete noError => inferInstanceAs (Decidable (noError = true))
  | .freeDesc _ => inferInstanceAs (Decidable True)
  | .start _ => inferInstanceAs (Decidable True)
  | .write => inferInstanceAs (Decidable True)
  | .claim _ => inferInstanceAs (Decidable True)
  | .build => inferInstanceAs (Decidable True)
  | .reset => inferInstanceAs (Decidable True)
  | .otherReset => inferInstanceAs (Decidable True)
  | .otherDone => inferInstanceAs (Decidable True)
  | .adapter _ _ => inferInstanceAs (Decidable True)

def AllowedSending (s : State) (op : Op) : Prop := Allowed s op ∧ Succeeds op

instance (s : State) (op : Op) : Decidable (AllowedSending s op) := inferInstanceAs (Decidable (_ ∧ _))

def State.urb (s : State) : List Byte := readAt s.wirelessPacket s.nextBulkOut s.bulkOutSize

structure FifoOf (s : State) (groups : List (List Packet)) (held pend : List Packet) : Prop where
  written : s.written = groups.flatten ++ held ++ pend
  submitted : s.submitted = groups.map urbBytes
  held : held ≠ [] → s.bulk = .prepared ∧ s.urb = urbBytes held
  inFlight : s.bulk = .inFlight → s.submitted.getLast? = some s.urb
  placed : Placed s.restored s.nextBulkOut s.eNextBulkOut s.curWrite s.todo s.bCurWriting pend
  not_empty : pend ≠ [] → s.eNextBulkOut ≠ s.curWrite ∧ s.eNextBulkOut ≠ s.curWrite + 8
  served : pend ≠ [] → ∀ maxPacketSize, (rtusbBulkOutDataPacket maxPacketSize s).bulk = .prepared

def Fifo (s : State) : Prop := ∃ groups held pend, FifoOf s groups held pend

def UrbOk (s : State) (groups : List (List Packet)) (held : List Packet) : Prop :=
  match s.bulk with
  | .idle => held = []
  | .claimed => held = []
  | .prepared => Flight s held
  | .inFlight => held = [] ∧ ∃ g, groups.getLast? = some g ∧ Flight s g

structure Sending (s : State) (groups : List (List Packet)) (held pend : List Packet) : Prop where
  core : Core s pend
  written : s.written = groups.flatten ++ held ++ pend
  submitted : s.submitted = groups.map urbBytes
  noReset : s.resetHere = false
  urb : UrbOk s groups held

section Sending

variable {s s' : State} {groups : List (List Packet)} {held pend : List Packet}

theorem Sending.init : Sending State.init [] [] [] := ⟨Core.init, rfl, rfl, rfl, rfl⟩

theorem Sending.fifo (h : Sending s groups held pend) : FifoOf s groups held pend := by
  have hurb := h.urb
  unfold UrbOk at hurb
  refine ⟨h.written, h.submitted, ?_, ?_, h.core.ring.placed, h.core.ring.placed.ne_of_ne_nil h.core.ring.fits, ?_⟩
  · intro hne
    cases hb : s.bulk with
    | idle =>
      rw [hb] at hurb
      exact absurd hurb hne
    | claimed =>
      rw [hb] at hurb
      exact absurd hurb hne
    | prepared =>
      rw [hb] at hurb
      exact ⟨rfl, hurb.readAt⟩
    | inFlight =>
      rw [hb] at hurb
      exact absurd hurb.1 hne
  · intro hb
    rw [hb] at hurb
    obtain ⟨-, g, hlast, hf⟩ := hurb
    rw [h.submitted, List.getLast?_map, hlast]
    exact congrArg some hf.readAt.symm
  · intro hne maxPacketSize
    obtain ⟨taken, rest, hb⟩ := h.core.build hne maxPacketSize
    exact hb.bulk

theorem UrbOk.same (h : UrbOk s groups held) (hbulk : s'.bulk = s.bulk)
    (hf : ∀ g, Flight s g → Flight s' g) : UrbOk s' groups held := by
  unfold UrbOk at h ⊢
  rw [hbulk]
  cases hb : s.bulk with
  | idle =>
    rw [hb] at h
    exact h
  | claimed =>
    rw [hb] at h
    exact h
  | prepared =>
    rw [hb] at h
    exact hf held h
  | inFlight =>
    rw [hb] at h
    obtain ⟨hnil, g, hlast, hg⟩ := h
    exact ⟨hnil, g, hlast, hf g hg⟩

theorem Sending.start (h : Sending s groups held pend) {blk : TxBlk} (hok : Allowed s (.start blk))
    (maxPacketSize : ℕ) : Sending (step maxPacketSize s (.start blk)) groups held pend := by
  simp only [step]
  by_cases hs : s.writer.isNone ∧ s.granted.isSome
  · rw [if_pos hs]
    obtain ⟨req, hreq⟩ := Option.isSome_iff_exists.1 hs.2
    unfold Allowed at hok
    rw [hreq] at hok
    have hst := h.core.start (Option.isNone_iff_eq_none.1 hs.1) hreq hok.1 hok.2
    obtain ⟨-, -, hbulk, hsub, hreset⟩ := hst.same
    exact ⟨hst.core, hst.written.trans h.written, hsub.trans h.submitted, hreset.trans h.noReset,
      h.urb.same hbulk fun g hg => hg.start hst⟩
  · rw [if_neg hs]
    exact h

theorem Sending.write (h : Sending s groups held pend) (hok : Allowed s .write) (maxPacketSize : ℕ) :
    ∃ pend', Sending (step maxPacketSize s .write) groups held pend' := by
  simp only [step]
  cases hw : s.writer with
  | none => exact ⟨pend, h⟩
  | some w =>
    obtain ⟨ext, hext⟩ := h.core.write hw fun hpc => hok (atFinal_of_pc hw hpc)
    obtain ⟨-, -, hbulk, hsub, hreset⟩ := hext.same
    refine ⟨pend ++ ext, hext.core, ?_, hsub.trans h.submitted, hreset.trans h.noReset,
      h.urb.same hbulk fun g hg => hg.write h.core hw hext⟩
    rw [hext.written, h.written, List.append_assoc _ pend ext]

theorem Sending.build (h : Sending s groups held pend) (maxPacketSize : ℕ) :
    ∃ held' pend', Sending (step maxPacketSize s .build) groups held' pend' := by
  simp only [step]
  by_cases hc : s.bulk = .claimed
  · rw [if_pos hc]
    have hurb := h.urb
    unfold UrbOk at hurb
    rw [hc] at hurb
    have hheld : held = [] := hurb
    subst hheld
    by_cases hne : pend = []
    · subst hne
      have heq := h.core.ring.placed.eq_of_nil
      unfold rtusbBulkOutDataPacket
      rw [if_pos (Or.inl heq)]
      exact ⟨[], [], h.core.other _ _ _ _ _ _ _, h.written, h.submitted, h.noReset, rfl⟩
    · obtain ⟨taken, rest, hb⟩ := h.core.build hne maxPacketSize
      obtain ⟨hwr, hsub, hreset⟩ := hb.same
      refine ⟨taken, rest, hb.core, ?_, hsub.trans h.submitted, hreset.trans h.noReset, ?_⟩
      · rw [hwr, h.written, hb.split, List.append_nil, List.append_assoc]
      · unfold UrbOk
        rw [hb.bulk]
        exact hb.flight
  · rw [if_neg hc]
    exact ⟨held, pend, h⟩

theorem Sending.submit (h : Sending s groups held pend) (maxPacketSize : ℕ) :
    ∃ groups' held', Sending (step maxPacketSize s (.submit true)) groups' held' pend := by
  simp only [step]
  by_cases hp : s.bulk = .prepared
  · rw [if_pos hp]
    have hurb := h.urb
    unfold UrbOk at hurb
    rw [hp] at hurb
    have hf : Flight s held := hurb
    refine ⟨groups ++ [held], [], h.core.other _ _ _ _ _ _ _, ?_, ?_, h.noReset, rfl, held, by simp, ?_⟩
    · show s.written = _
      rw [h.written, List.flatten_append]
      simp
    · show s.submitted ++ [readAt s.wirelessPacket s.nextBulkOut s.bulkOutSize] = _
      rw [h.submitted, hf.readAt, List.map_append]
      rfl
    · exact ⟨hf.holds, hf.bulkOutSize, hf.apart⟩
  · rw [if_neg hp]
    exact ⟨groups, held, h⟩

theorem Sending.complete (h : Sending s groups held pend) (maxPacketSize : ℕ) :
    Sending (step maxPacketSize s (.complete true)) groups held pend := by
  simp only [step]
  by_cases hp : s.bulk = .inFlight
  · rw [if_pos hp]
    have hurb := h.urb
    unfold UrbOk at hurb
    rw [hp] at hurb
    exact ⟨h.core.other _ _ _ _ _ _ _, h.written, h.submitted, h.noReset, hurb.1⟩
  · rw [if_neg hp]
    exact h

theorem sending_step {maxPacketSize : ℕ} {op : Op} (h : Sending s groups held pend) (hok : AllowedSending s op) :
    ∃ groups' held' pend', Sending (step maxPacketSize s op) groups' held' pend' := by
  have hsame : ∀ g, Flight s g → ∀ (b : Bulk) (b1 b2 b3 b4 : Bool), Flight { s with
      bulk := b, bulkoutReset := b1, resetHere := b2, halted := b3, radioOff := b4 } g :=
    fun g hg _ _ _ _ _ => ⟨hg.holds, hg.bulkOutSize, hg.apart⟩
  cases op with
  | freeDesc req =>
    refine ⟨groups, held, pend, ?_⟩
    simp only [step]
    by_cases hg : rtusbFreeDescRequest s req = true
    · rw [if_pos hg]
      exact ⟨h.core.freeDesc hg, h.written, h.submitted, h.noReset,
        h.urb.same rfl fun g hg => ⟨hg.holds, hg.bulkOutSize, hg.apart⟩⟩
    · rw [if_neg hg]
      exact h
  | start blk => exact ⟨groups, held, pend, h.start hok.1 maxPacketSize⟩
  | write => exact ⟨groups, held, h.write hok.1 maxPacketSize⟩
  | build => exact ⟨groups, h.build maxPacketSize⟩
  | submit ok =>
    have hok : ok = true := hok.2
    subst hok
    obtain ⟨groups', held', h'⟩ := h.submit maxPacketSize
    exact ⟨groups', held', pend, h'⟩
  | complete noError =>
    have hok : noError = true := hok.2
    subst hok
    exact ⟨groups, held, pend, h.complete maxPacketSize⟩
  | claim connected =>
    refine ⟨groups, held, pend, ?_⟩
    simp only [step]
    by_cases hc : s.bulk = .idle ∧ s.needStopTx = false ∧ connected = true
    · rw [if_pos hc]
      have hurb := h.urb
      unfold UrbOk at hurb
      rw [hc.1] at hurb
      exact ⟨h.core.other _ _ _ _ _ _ _, h.written, h.submitted, h.noReset, hurb⟩
    · rw [if_neg hc]
      exact h
  | reset =>
    refine ⟨groups, held, pend, ?_⟩
    simp only [step]
    rw [if_neg (by rw [h.noReset]; decide)]
    exact h
  | otherReset =>
    refine ⟨groups, held, pend, ?_⟩
    simp only [step]
    split_ifs
    · exact h
    · exact ⟨h.core.other _ _ _ _ _ _ _, h.written, h.submitted, rfl,
        h.urb.same rfl fun g hg => hsame g hg _ _ _ _ _⟩
  | otherDone =>
    refine ⟨groups, held, pend, ?_⟩
    simp only [step]
    split_ifs
    · exact ⟨h.core.other _ _ _ _ _ _ _, h.written, h.submitted, h.noReset,
        h.urb.same rfl fun g hg => hsame g hg _ _ _ _ _⟩
    · exact h
  | adapter halted radioOff =>
    exact ⟨groups, held, pend, h.core.other _ _ _ _ _ _ _, h.written, h.submitted, h.noReset,
      h.urb.same rfl fun g hg => hsame g hg _ _ _ _ _⟩

end Sending

/-- **First in, first out.** -/
theorem fifo_of_allowed (maxPacketSize : ℕ) (ops : List Op)
    (hok : Along (step maxPacketSize) AllowedSending State.init ops) :
    Fifo (run (step maxPacketSize) State.init ops) := by
  obtain ⟨groups, held, pend, h⟩ : ∃ groups held pend,
      Sending (run (step maxPacketSize) State.init ops) groups held pend :=
    run_invariant (I := fun s => ∃ groups held pend, Sending s groups held pend)
      (fun s op ⟨_, _, _, h⟩ hop => sending_step h hop) ops State.init ⟨[], [], [], Sending.init⟩ hok
  exact ⟨groups, held, pend, h.fifo⟩

set_option maxRecDepth 32000 in
theorem fifo_sampleRun :
    Along (step 512) AllowedSending State.init sampleRun ∧ Fifo (run (step 512) State.init sampleRun) := by
  have hok : Along (step 512) AllowedSending State.init sampleRun := by decide
  exact ⟨hok, fifo_of_allowed 512 sampleRun hok⟩

/-- A packet is sent while an aggregate is being written behind it; the bulk-out ends where the aggregate
begins, and its first eight bytes are kept aside when it is finished. -/
def caughtRun : List Op :=
  sendSingle 5 ++ [.freeDesc 34, .start sampleAmsdu] ++ bulkOut ++ List.replicate 4 .write ++
    [.claim true, .build, .submit true]

/-- The aggregate of `sampleAmsdu` from its TXWI on, with the byte count that its first section gave it. -/
def caughtBytes : List Byte := multiBytes (sampleFrame 50 5) [(List.replicate 23 0x33#8, [0x44#8])]

set_option maxRecDepth 32000 in
/-- The byte count of the aggregate is written behind `SavedPad`; the aggregate is sent with the count
that it had before. -/
theorem not_fifo_caughtRun : (∀ op ∈ caughtRun, Succeeds op) ∧ ¬Fifo (run (step 512) State.init caughtRun) := by
  refine ⟨by decide, ?_⟩
  rintro ⟨groups, held, pend, h⟩
  have hbulk : (run (step 512) State.init caughtRun).bulk = .inFlight := by decide
  have hwritten : (run (step 512) State.init caughtRun).written =
      [fragPacket (sampleFrame 36 5) [], ⟨false, padded (withMpduByteCnt 77 caughtBytes)⟩] := by
    decide
  have hsub : (run (step 512) State.init caughtRun).submitted =
      [urbBytes [fragPacket (sampleFrame 36 5) []], urbBytes [⟨false, padded caughtBytes⟩]] := by
    decide
  have hheld : held = [] := by
    by_contra hne
    have := (h.held hne).1
    rw [hbulk] at this
    exact absurd this (by decide)
  have hw := h.written
  have hs := h.submitted
  rw [hwritten, hheld] at hw
  rw [hsub, eq_comm, List.map_eq_cons_iff] at hs
  obtain ⟨g1, gs, rfl, h1, h2⟩ := hs
  rw [List.map_eq_cons_iff] at h2
  obtain ⟨g2, gs', rfl, h2, h3⟩ := h2
  rw [List.map_eq_nil_iff] at h3
  subst h3
  have hw : [fragPacket (sampleFrame 36 5) [], ⟨false, padded (withMpduByteCnt 77 caughtBytes)⟩] =
      g1 ++ (g2 ++ pend) := by
    rw [hw]
    simp only [List.flatten_cons, List.flatten_nil, List.append_nil, List.append_assoc]
  -- the groups can only be the two packets, one each
  rcases g1 with _ | ⟨a, _ | ⟨b, t⟩⟩
  · exact absurd h1 (by decide)
  · obtain ⟨-, hw1⟩ := List.cons.inj hw
    rcases g2 with _ | ⟨c, t⟩
    · exact absurd h2 (by decide)
    · obtain ⟨rfl, hw2⟩ := List.cons.inj hw1
      obtain ⟨rfl, -⟩ := List.append_eq_nil_iff.1 hw2.symm
      exact absurd h2 (by decide)
  · obtain ⟨rfl, hw1⟩ := List.cons.inj hw
    obtain ⟨rfl, hw2⟩ := List.cons.inj hw1
    obtain ⟨rfl, -⟩ := List.append_eq_nil_iff.1 hw2.symm
    exact absurd h1 (by decide)

end Mt7610u.Usb
