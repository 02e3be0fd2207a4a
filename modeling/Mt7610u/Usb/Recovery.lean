import Mt7610u.Usb.RingRuns

/-! # Recovery of a failed bulk-out

`RTUSBBulkOutDataPacket` moves `ENextBulkOutPosition` before it submits the URB. What is to be sent again
after an error is known from `NextBulkOutPosition` and `BulkOutSize` only, as long as
`fRTMP_ADAPTER_BULKOUT_RESET` stands for this queue. -/

namespace Mt7610u.Usb

open Lib Lib.Runs

def State.lastDone (s : State) : Prop := s.built.length - 1 ∈ s.transferred

instance (s : State) : Decidable s.lastDone := inferInstanceAs (Decidable (_ ∈ _))

/-- `ResetBulkOutHdlr` is going to send the range again. -/
def State.recorded (s : State) : Prop := s.bulk = .idle ∧ s.bulkoutReset = true ∧ s.resetHere = true

structure NoLoss (s : State) : Prop where
  /-- A range is made ready only when the one before was transferred. -/
  earlier : ∀ i, i + 1 < s.built.length → i ∈ s.transferred
  order : s.transferred.Pairwise (· ≤ ·)
  /-- The last one is done, under way or recorded. -/
  last : s.built = [] ∨ s.lastDone ∨ s.built.getLast? = some (s.nextBulkOut, s.bulkOutSize) ∧
    (s.bulk = .prepared ∨ s.bulk = .inFlight ∨ s.recorded)
  /-- A recorded range is sent again, and no other before it. -/
  retry : s.recorded → ∀ maxPacketSize, (∀ c, step maxPacketSize s (.claim c) = s) ∧
    (run (step maxPacketSize) s [.reset, .submit true]).submitted = s.submitted ++ [s.urb]

/-- USB takes the URB, and reports an error at a time when it can be recorded. What was transferred
already may fail; a reset can be carried out twice. -/
def Recoverable (s : State) : Op → Prop
  | .submit ok => s.bulk = .prepared → ok = true ∨ s.lastDone
  | .complete noError => s.bulk = .inFlight →
    noError = true ∨ s.halted = false ∧ s.bulkoutReset = false ∨ s.lastDone
  | _ => True

def State.settled (s : State) : Prop := s.built = [] ∨ s.lastDone

/-- The range that was made ready last can still be sent from `NextBulkOutPosition`. -/
def State.kept (s : State) : Prop :=
  s.built.getLast? = some (s.nextBulkOut, s.bulkOutSize) ∧ (s.bulk = .prepared ∨ s.bulk = .inFlight ∨ s.recorded)

/-- The invariant: what `NoLoss` says, and why the bulk-out routine does not go on before the range is
transferred. -/
structure Tracked (s : State) : Prop where
  earlier : ∀ i, i + 1 < s.built.length → i ∈ s.transferred
  order : s.transferred.Pairwise (· ≤ ·)
  lt_length : ∀ i ∈ s.transferred, i < s.built.length
  last : s.settled ∨ s.kept
  claimed : s.bulk = .claimed → s.settled
  nonempty : s.bulk = .prepared ∨ s.bulk = .inFlight ∨ s.resetHere = true → s.built ≠ []
  /-- While a reset of this queue is pending, no range is under way. -/
  pending : s.bulkoutReset = true → s.resetHere = true → s.bulk = .idle

structure SameUrb (s s' : State) : Prop where
  bulk : s'.bulk = s.bulk
  bulkoutReset : s'.bulkoutReset = s.bulkoutReset
  resetHere : s'.resetHere = s.resetHere
  nextBulkOut : s'.nextBulkOut = s.nextBulkOut
  bulkOutSize : s'.bulkOutSize = s.bulkOutSize
  built : s'.built = s.built
  transferred : s'.transferred = s.transferred

/-! ### Writers -/

section Writers

variable (s : State)

theorem SameUrb.refl : SameUrb s s := ⟨rfl, rfl, rfl, rfl, rfl, rfl, rfl⟩

theorem SameUrb.trans {s s' s'' : State} (h : SameUrb s s') (h' : SameUrb s' s'') : SameUrb s s'' :=
  ⟨h'.bulk.trans h.bulk, h'.bulkoutReset.trans h.bulkoutReset, h'.resetHere.trans h.resetHere,
    h'.nextBulkOut.trans h.nextBulkOut, h'.bulkOutSize.trans h.bulkOutSize, h'.built.trans h.built,
    h'.transferred.trans h.transferred⟩

theorem sameUrb_reserve : SameUrb s s.reserve := by
  unfold State.reserve
  split_ifs
  · exact ⟨rfl, rfl, rfl, rfl, rfl, rfl, rfl⟩
  · exact ⟨rfl, rfl, rfl, rfl, rfl, rfl, rfl⟩

theorem sameUrb_writeHeader (blk : TxBlk) (priv : ℕ) (f : Frame) (fs : List Frame) :
    SameUrb s (writeHeader s blk priv f fs) := ⟨rfl, rfl, rfl, rfl, rfl, rfl, rfl⟩

theorem sameUrb_start (blk : TxBlk) : SameUrb s (start s blk) := by
  unfold start
  split_ifs
  · cases blk with
    | single f => exact (sameUrb_reserve s).trans (sameUrb_writeHeader _ _ _ _ _)
    | frag f fs => exact (sameUrb_reserve s).trans (sameUrb_writeHeader _ _ _ _ _)
    | multi f subs n => exact (sameUrb_reserve s).trans ⟨rfl, rfl, rfl, rfl, rfl, rfl, rfl⟩
  · exact SameUrb.refl s

theorem sameUrb_final (w : Writer) (n : ℕ) : SameUrb s (rtmpUSBFinalWriteTxResource s w n) := by
  by_cases hp : PadHolds s
  · simp only [rtmpUSBFinalWriteTxResource, if_pos hp]
    exact ⟨rfl, rfl, rfl, rfl, rfl, rfl, rfl⟩
  · simp only [rtmpUSBFinalWriteTxResource, if_neg hp]
    exact ⟨rfl, rfl, rfl, rfl, rfl, rfl, rfl⟩

theorem sameUrb_write (w : Writer) : SameUrb s (write s w) := by
  unfold write
  cases w.pc with
  | payload f fs => exact ⟨rfl, rfl, rfl, rfl, rfl, rfl, rfl⟩
  | clear f fs => exact ⟨rfl, rfl, rfl, rfl, rfl, rfl, rfl⟩
  | header f fs =>
    show SameUrb s (if s.bCurWriting then _ else _)
    split_ifs
    · exact sameUrb_writeHeader s _ _ _ _
    · exact ⟨rfl, rfl, rfl, rfl, rfl, rfl, rfl⟩
  | finish => exact ⟨rfl, rfl, rfl, rfl, rfl, rfl, rfl⟩
  | frame src subs => exact ⟨rfl, rfl, rfl, rfl, rfl, rfl, rfl⟩
  | sub hdr src subs =>
    show SameUrb s (if s.bCurWriting then _ else _)
    split_ifs
    · exact ⟨rfl, rfl, rfl, rfl, rfl, rfl, rfl⟩
    · exact ⟨rfl, rfl, rfl, rfl, rfl, rfl, rfl⟩
  | final =>
    show SameUrb s (if s.bCurWriting then _ else _)
    split_ifs
    · exact sameUrb_final s w _
    · exact ⟨rfl, rfl, rfl, rfl, rfl, rfl, rfl⟩

end Writers

/-! ### Steps -/

section Steps

variable {s s' : State}

theorem Tracked.init : Tracked State.init := by
  refine ⟨?_, List.Pairwise.nil, ?_, Or.inl (Or.inl rfl), ?_, ?_, fun _ _ => rfl⟩
  · intro i hi
    exact absurd hi (Nat.not_lt_zero _)
  · intro i hi
    exact absurd hi List.not_mem_nil
  · intro _
    exact Or.inl rfl
  · rintro (h | h | h)
    · exact absurd h (by decide)
    · exact absurd h (by decide)
    · exact absurd h (by decide)

theorem Tracked.same (h : Tracked s) (hs : SameUrb s s') : Tracked s' := by
  obtain ⟨h1, h2, h3, h4, h5, h6, h7⟩ := hs
  obtain ⟨e1, e2, e3, e4, e5, e6, e7⟩ := h
  unfold State.settled State.kept State.recorded State.lastDone at *
  rw [← h6, ← h7] at e1
  rw [← h7] at e2
  rw [← h6, ← h7] at e3
  rw [← h1, ← h2, ← h3, ← h4, ← h5, ← h6, ← h7] at e4
  rw [← h1, ← h6, ← h7] at e5
  rw [← h1, ← h3, ← h6] at e6
  rw [← h1, ← h2, ← h3] at e7
  exact ⟨e1, e2, e3, e4, e5, e6, e7⟩

theorem Tracked.settled_of_idle (h : Tracked s) (hb : s.bulk = .idle) (hr : s.bulkoutReset = false) :
    s.settled := by
  rcases h.last with hs | ⟨-, hp | hf | hrec⟩
  · exact hs
  · rw [hb] at hp
    exact absurd hp (by decide)
  · rw [hb] at hf
    exact absurd hf (by decide)
  · have := hrec.2.1
    rw [hr] at this
    exact absurd this (by decide)

theorem Tracked.move (h : Tracked s) (hbuilt : s'.built = s.built) (htr : s'.transferred = s.transferred)
    (hlast : s.settled ∨ s'.kept) (hcl : s'.bulk = .claimed → s.settled)
    (hne : s'.bulk = .prepared ∨ s'.bulk = .inFlight ∨ s'.resetHere = true → s.built ≠ [])
    (hpend : s'.bulkoutReset = true → s'.resetHere = true → s'.bulk = .idle) : Tracked s' := by
  have hset : s.settled → s'.settled := by
    unfold State.settled State.lastDone
    rw [hbuilt, htr]
    exact id
  refine ⟨?_, ?_, ?_, hlast.imp_left hset, fun hc => hset (hcl hc), ?_, hpend⟩
  · rw [hbuilt, htr]
    exact h.earlier
  · rw [htr]
    exact h.order
  · rw [hbuilt, htr]
    exact h.lt_length
  · rw [hbuilt]
    exact hne

theorem Tracked.claim (h : Tracked s) (hb : s.bulk = .idle) (hs : s.needStopTx = false) :
    Tracked { s with bulk := .claimed } := by
  have hr : s.bulkoutReset = false := by
    unfold State.needStopTx at hs
    rw [Bool.or_eq_false_iff, Bool.or_eq_false_iff] at hs
    exact hs.1.1
  have hset := h.settled_of_idle hb hr
  refine h.move rfl rfl (Or.inl hset) (fun _ => hset) ?_ fun hr' => absurd (hr.symm.trans hr') (by decide)
  rintro (hp | hf | hr)
  · cases hp
  · cases hf
  · exact h.nonempty (Or.inr (Or.inr hr))

theorem Tracked.bulkReady (h : Tracked s) (hc : s.bulk = .claimed) (r : BulkExit) : Tracked (bulkReady s r) := by
  have hset := h.claimed hc
  have hlen : (s.built ++ [(s.eNextBulkOut, r.thisBulkSize + 4)]).length = s.built.length + 1 := List.length_append
  refine ⟨?_, h.order, ?_, Or.inr ⟨?_, Or.inl rfl⟩, ?_, ?_, ?_⟩
  · intro i hi
    have hi : i + 1 < s.built.length + 1 := hlen ▸ hi
    by_cases hlt : i + 1 < s.built.length
    · exact h.earlier i hlt
    · rcases hset with hnil | hdone
      · rw [hnil, List.length_nil] at hi
        omega
      · have hi : i = s.built.length - 1 := by omega
        rw [hi]
        exact hdone
  · intro i hi
    have hlt := h.lt_length i hi
    show i < (s.built ++ [(s.eNextBulkOut, r.thisBulkSize + 4)]).length
    omega
  · show (s.built ++ [(s.eNextBulkOut, r.thisBulkSize + 4)]).getLast? = _
    rw [List.getLast?_append, List.getLast?_singleton]
    rfl
  · intro hc
    cases hc
  · intro _ hnil
    have hnil : s.built ++ [(s.eNextBulkOut, r.thisBulkSize + 4)] = [] := hnil
    exact absurd hnil (by simp)
  · intro hflag hhere
    have hidle := h.pending hflag hhere
    rw [hc] at hidle
    cases hidle

theorem Tracked.build (h : Tracked s) (hc : s.bulk = .claimed) (maxPacketSize : ℕ) :
    Tracked (rtusbBulkOutDataPacket maxPacketSize s) := by
  have hset := h.claimed hc
  have hidle : ∀ s' : State, s'.bulk = .idle → s'.resetHere = s.resetHere → s'.built = s.built →
      s'.transferred = s.transferred → Tracked s' := by
    intro s' hb hr hbuilt htr
    refine h.move hbuilt htr (Or.inl hset) (fun _ => hset) ?_ fun _ _ => hb
    rintro (hp | hf | hr')
    · rw [hb] at hp
      cases hp
    · rw [hb] at hf
      cases hf
    · rw [hr] at hr'
      exact h.nonempty (Or.inr (Or.inr hr'))
  simp only [rtusbBulkOutDataPacket]
  split_ifs
  · exact hidle _ rfl rfl rfl rfl
  · exact hidle _ rfl rfl rfl rfl
  · exact h.bulkReady hc _

theorem Tracked.submit (h : Tracked s) {ok : Bool} (hp : s.bulk = .prepared) (hok : ok = true ∨ s.lastDone)
    (maxPacketSize : ℕ) : Tracked (step maxPacketSize s (.submit ok)) := by
  have hne := h.nonempty (Or.inl hp)
  simp only [step]
  rw [if_pos hp]
  by_cases hk : ok = true
  · rw [if_pos hk]
    refine h.move rfl rfl ?_ ?_ (fun _ => hne) ?_
    · rcases h.last with hs | hkept
      · exact Or.inl hs
      · exact Or.inr ⟨hkept.1, Or.inr (Or.inl rfl)⟩
    · intro hc
      cases hc
    · intro hflag hhere
      have hidle := h.pending hflag hhere
      rw [hp] at hidle
      cases hidle
  · rw [if_neg hk]
    have hset : s.settled := Or.inr (hok.resolve_left hk)
    exact h.move rfl rfl (Or.inl hset) (fun _ => hset) (fun _ => hne) fun _ _ => rfl

theorem Tracked.transferred (h : Tracked s) (hf : s.bulk = .inFlight) :
    Tracked { s with bulk := .idle, transferred := s.transferred ++ [s.built.length - 1] } := by
  have hne := h.nonempty (Or.inr (Or.inl hf))
  have hpos : 0 < s.built.length := List.length_pos_of_ne_nil hne
  refine ⟨?_, ?_, ?_, ?_, ?_, fun _ => hne, fun _ _ => rfl⟩
  · intro i hi
    exact List.mem_append_left _ (h.earlier i hi)
  · show (s.transferred ++ [s.built.length - 1]).Pairwise (· ≤ ·)
    rw [List.pairwise_append]
    refine ⟨h.order, List.pairwise_singleton _ _, ?_⟩
    intro i hi j hj
    have hj : j = s.built.length - 1 := List.mem_singleton.1 hj
    have hlt := h.lt_length i hi
    omega
  · intro i hi
    show i < s.built.length
    rcases List.mem_append.1 hi with hi | hi
    · exact h.lt_length i hi
    · have hi : i = s.built.length - 1 := List.mem_singleton.1 hi
      omega
  · exact Or.inl (Or.inr (List.mem_append_right _ (List.mem_singleton.2 rfl)))
  · intro hc
    cases hc

theorem Tracked.complete (h : Tracked s) {noError : Bool} (hf : s.bulk = .inFlight)
    (hok : Recoverable s (.complete noError)) : Tracked (rtusbDataoutComplete s noError) := by
  have hne := h.nonempty (Or.inr (Or.inl hf))
  unfold rtusbDataoutComplete
  split_ifs with hn hfl
  · exact h.transferred hf
  · -- an error that is not recorded: the range has been transferred before
    have hset : s.settled := by
      rcases hok hf with hok | ⟨h1, h2⟩ | hdone
      · exact absurd hok hn
      · rw [h1, h2] at hfl
        exact absurd hfl (by decide)
      · exact Or.inr hdone
    exact h.move rfl rfl (Or.inl hset) (fun _ => hset) (fun _ => hne) fun _ _ => rfl
  · refine h.move rfl rfl ?_ ?_ (fun _ => hne) fun _ _ => rfl
    · rcases h.last with hs | hkept
      · exact Or.inl hs
      · exact Or.inr ⟨hkept.1, Or.inr (Or.inr ⟨rfl, rfl, rfl⟩)⟩
    · intro hc
      cases hc

theorem Tracked.reset (h : Tracked s) (hr : s.resetHere = true) : Tracked (resetBulkOutHdlr s) := by
  have hne := h.nonempty (Or.inr (Or.inr hr))
  unfold resetBulkOutHdlr
  split_ifs with hb
  · refine h.move rfl rfl ?_ ?_ (fun _ => hne) fun hflag => nomatch hflag
    · rcases h.last with hs | hkept
      · exact Or.inl hs
      · exact Or.inr ⟨hkept.1, Or.inl rfl⟩
    · intro hc
      cases hc
  · refine h.move rfl rfl ?_ h.claimed (fun _ => hne) fun hflag => nomatch hflag
    rcases h.last with hs | ⟨hlast, hp | hf | hrec⟩
    · exact Or.inl hs
    · exact Or.inr ⟨hlast, Or.inl hp⟩
    · exact Or.inr ⟨hlast, Or.inr (Or.inl hf)⟩
    · exact absurd hrec.1 hb

theorem Tracked.flag (h : Tracked s) {b r : Bool} (hrec : ¬s.recorded)
    (hr : r = true → s.resetHere = true) (hbr : b = true → r = true → s.bulk = .idle) :
    Tracked { s with bulkoutReset := b, resetHere := r } := by
  refine h.move rfl rfl ?_ h.claimed ?_ hbr
  · rcases h.last with hs | ⟨hlast, hp | hf | hrec'⟩
    · exact Or.inl hs
    · exact Or.inr ⟨hlast, Or.inl hp⟩
    · exact Or.inr ⟨hlast, Or.inr (Or.inl hf)⟩
    · exact absurd hrec' hrec
  · rintro (hp | hf | hr')
    · exact h.nonempty (Or.inl hp)
    · exact h.nonempty (Or.inr (Or.inl hf))
    · exact h.nonempty (Or.inr (Or.inr (hr hr')))

theorem tracked_step {maxPacketSize : ℕ} {op : Op} (h : Tracked s) (hok : Recoverable s op) :
    Tracked (step maxPacketSize s op) := by
  cases op with
  | freeDesc req =>
    simp only [step]
    split_ifs
    · exact h.same ⟨rfl, rfl, rfl, rfl, rfl, rfl, rfl⟩
    · exact h
  | start blk =>
    simp only [step]
    split_ifs
    · have hg : SameUrb s { s with granted := none } := ⟨rfl, rfl, rfl, rfl, rfl, rfl, rfl⟩
      exact h.same (hg.trans (sameUrb_start _ blk))
    · exact h
  | write =>
    simp only [step]
    cases s.writer with
    | none => exact h
    | some w => exact h.same (sameUrb_write s w)
  | claim connected =>
    simp only [step]
    split_ifs with hc
    · exact h.claim hc.1 hc.2.1
    · exact h
  | build =>
    simp only [step]
    split_ifs with hc
    · exact h.build hc maxPacketSize
    · exact h
  | submit ok =>
    by_cases hp : s.bulk = .prepared
    · exact h.submit hp (hok hp) maxPacketSize
    · simp only [step]
      rw [if_neg hp]
      exact h
  | complete noError =>
    simp only [step]
    split_ifs with hf
    · exact h.complete hf hok
    · exact h
  | reset =>
    simp only [step]
    split_ifs with hr
    · exact h.reset hr
    · exact h
  | otherReset =>
    simp only [step]
    split_ifs with hfl
    · exact h
    · refine h.flag ?_ (fun hf => absurd hf (by decide)) fun _ hf => absurd hf (by decide)
      intro hrec
      rw [hrec.2.1, Bool.or_true] at hfl
      exact hfl rfl
  | otherDone =>
    simp only [step]
    split_ifs with hfl
    · exact h.flag (fun hrec => hfl.2 hrec.2.2) id fun hf => absurd hf (by decide)
    · exact h
  | adapter halted radioOff => exact h.same ⟨rfl, rfl, rfl, rfl, rfl, rfl, rfl⟩

theorem State.recorded.resubmitted (h : s.recorded) (maxPacketSize : ℕ) :
    (∀ c, step maxPacketSize s (.claim c) = s) ∧
      (run (step maxPacketSize) s [.reset, .submit true]).submitted = s.submitted ++ [s.urb] := by
  obtain ⟨hb, hflag, hhere⟩ := h
  constructor
  · intro c
    have hstop : s.needStopTx = true := by
      unfold State.needStopTx
      rw [hflag, Bool.true_or, Bool.true_or]
    simp only [step]
    rw [if_neg]
    rintro ⟨-, hs, -⟩
    rw [hstop] at hs
    exact absurd hs (by decide)
  · have hreset : step maxPacketSize s .reset = { s with bulkoutReset := false, bulk := .prepared } := by
      simp only [step, resetBulkOutHdlr]
      rw [if_pos hhere, if_pos hb]
    rw [run_cons, hreset]
    rfl

theorem Tracked.noLoss (h : Tracked s) : NoLoss s := by
  refine ⟨h.earlier, h.order, ?_, fun hrec maxPacketSize => hrec.resubmitted maxPacketSize⟩
  rcases h.last with (hnil | hdone) | hkept
  · exact Or.inl hnil
  · exact Or.inr (Or.inl hdone)
  · exact Or.inr (Or.inr hkept)

theorem not_noLoss_of_idle (hne : s.built ≠ []) (hdone : ¬s.lastDone) (hb : s.bulk = .idle)
    (hrec : ¬s.recorded) : ¬NoLoss s := by
  intro h
  rcases h.last with hnil | hd | ⟨-, hp | hf | hr⟩
  · exact hne hnil
  · exact hdone hd
  · rw [hb] at hp
    cases hp
  · rw [hb] at hf
    cases hf
  · exact hrec hr

theorem not_noLoss_step {maxPacketSize : ℕ} {op : Op} (h : Tracked s) (hok : ¬Recoverable s op) :
    ¬NoLoss (step maxPacketSize s op) := by
  -- no reset is pending for this queue while its URB is being sent
  have hnot : s.bulk ≠ .idle → ¬(s.bulkoutReset = true ∧ s.resetHere = true) :=
    fun hb hr => hb (h.pending hr.1 hr.2)
  cases op with
  | submit ok =>
    simp only [Recoverable, Classical.not_imp, not_or] at hok
    obtain ⟨hp, hfail, hdone⟩ := hok
    simp only [step]
    rw [if_pos hp, if_neg hfail]
    refine not_noLoss_of_idle (h.nonempty (Or.inl hp)) hdone rfl fun hrec => ?_
    exact hnot (by rw [hp]; decide) hrec.2
  | complete noError =>
    simp only [Recoverable, Classical.not_imp, not_or] at hok
    obtain ⟨hf, herr, hflags, hdone⟩ := hok
    have hfl : (s.halted || s.bulkoutReset) = true := by
      by_contra hn
      rw [Bool.not_eq_true, Bool.or_eq_false_iff] at hn
      exact hflags hn
    simp only [step, rtusbDataoutComplete]
    rw [if_pos hf, if_neg herr, if_pos hfl]
    refine not_noLoss_of_idle (h.nonempty (Or.inr (Or.inl hf))) hdone rfl fun hrec => ?_
    exact hnot (by rw [hf]; decide) hrec.2
  | freeDesc req => exact absurd trivial hok
  | start blk => exact absurd trivial hok
  | write => exact absurd trivial hok
  | claim connected => exact absurd trivial hok
  | build => exact absurd trivial hok
  | reset => exact absurd trivial hok
  | otherReset => exact absurd trivial hok
  | otherDone => exact absurd trivial hok
  | adapter halted radioOff => exact absurd trivial hok

end Steps

/-- **The runs that lose no range.** -/
theorem noLoss_iff_recoverable (maxPacketSize : ℕ) (ops : List Op) :
    (∀ pre, pre <+: ops → NoLoss (run (step maxPacketSize) State.init pre)) ↔
      Along (step maxPacketSize) Recoverable State.init ops :=
  forall_prefix_iff_along (I := Tracked) (fun _ h => h.noLoss) (fun _ _ h hop => tracked_step h hop)
    (fun _ _ h hop => not_noLoss_step h hop) ops State.init Tracked.init

/-- `RTUSB_SUBMIT_URB` fails: the packet is behind `ENextBulkOutPosition`, and nothing says that it is to
be sent again. -/
def refusedRun : List Op := sendSingle 5 ++ [.claim true, .build, .submit false]

set_option maxRecDepth 1000 in
theorem not_noLoss_refusedRun : ¬NoLoss (run (step 512) State.init refusedRun) := by
  refine not_noLoss_of_idle ?_ ?_ ?_ ?_
  · decide
  · decide
  · decide
  · exact fun hrec => absurd hrec.2.1 (by decide)

end Mt7610u.Usb
