import Mt7610u.Wpa.Effects

/-! # Replay protection

The replay counter of a station along whole runs of received frames. -/

namespace Mt7610u.Wpa

open Lib Lib.Runs

variable {suite : Suite} {s s' : Sta} {i : Input} {k : MsgType}

/-! ### The check of the counter -/

theorem rtmpCompareMemory_eq_one : ∀ {as bs : List Byte}, as.length = bs.length →
    (rtmpCompareMemory as bs = 1 ↔ bigEndian bs < bigEndian as)
  | [], [], _ => by simp [rtmpCompareMemory]
  | a :: as, b :: bs, h => by
    have hlen : as.length = bs.length := Nat.succ.inj h
    rw [bigEndian_lt_iff_cons hlen.symm, rtmpCompareMemory]
    split_ifs with hlt hgt
    · simp [hlt]
    · have hne : b ≠ a := by
        rintro rfl
        omega
      simp [hlt, hne]
    · have heq : b = a := BitVec.eq_of_toNat_eq (by omega)
      simp [heq, rtmpCompareMemory_eq_one hlen]

theorem rtmpCompareMemory_eq_zero : ∀ {as bs : List Byte}, as.length = bs.length →
    (rtmpCompareMemory as bs = 0 ↔ as = bs)
  | [], [], _ => by simp [rtmpCompareMemory]
  | a :: as, b :: bs, h => by
    rw [rtmpCompareMemory, List.cons.injEq]
    split_ifs with hlt hgt
    · have hne : a ≠ b := by
        rintro rfl
        omega
      simp [hne]
    · have hne : a ≠ b := by
        rintro rfl
        omega
      simp [hne]
    · have heq : a = b := BitVec.eq_of_toNat_eq (by omega)
      simp [heq, rtmpCompareMemory_eq_zero (Nat.succ.inj h)]

def counterValue (c : Bytes 8) : ℕ := bigEndian (List.ofFn c)

theorem counterValue_eq_zero {c : Bytes 8} : counterValue c = 0 ↔ List.ofFn c = List.replicate 8 0 := by
  rw [counterValue, bigEndian_eq_zero, List.eq_replicate_iff]
  simp

def MsgType.toSupplicant : MsgType → Bool
  | pairMsg1 | pairMsg3 | groupMsg1 => true
  | _ => false

theorem fresh_iff {e : MacTableEntry} {f : EapolPacket} (hk : k.toSupplicant = true) :
    replayDiff k e f = false ↔
      counterValue e.rCounter < counterValue f.replayCounter ∨ counterValue f.replayCounter = 0 := by
  have h1 : rtmpCompareMemory (List.ofFn f.replayCounter) (List.ofFn e.rCounter) = 1 ↔
      counterValue e.rCounter < counterValue f.replayCounter :=
    rtmpCompareMemory_eq_one (by simp)
  have h0 : rtmpCompareMemory (List.ofFn f.replayCounter) (List.replicate 8 0) = 0 ↔
      counterValue f.replayCounter = 0 := by
    rw [rtmpCompareMemory_eq_zero (by simp), counterValue_eq_zero]
  have hdiff : replayDiff k e f =
      (rtmpCompareMemory (List.ofFn f.replayCounter) (List.ofFn e.rCounter) != 1 &&
        rtmpCompareMemory (List.ofFn f.replayCounter) (List.replicate 8 0) != 0) := by
    cases k <;> first | rfl | exact absurd hk (by decide)
  rw [hdiff, ← h1, ← h0]
  simp only [Bool.and_eq_false_iff, bne_eq_false_iff_eq]

/-! ### One frame -/

def stored (s : Sta) : ℕ := counterValue s.entry.rCounter

def carried (i : Input) : ℕ := counterValue i.elem.packet.replayCounter

def AcceptsCounter (suite : Suite) (s : Sta) (i : Input) : Prop :=
  Accepts suite s i .pairMsg1 ∨ Accepts suite s i .pairMsg3 ∨ Accepts suite s i .groupMsg1

def AcceptsKey (suite : Suite) (s : Sta) (i : Input) : Prop :=
  Accepts suite s i .pairMsg3 ∨ Accepts suite s i .groupMsg1

instance : Decidable (AcceptsCounter suite s i) := inferInstanceAs (Decidable (_ ∨ _ ∨ _))

instance : Decidable (AcceptsKey suite s i) := inferInstanceAs (Decidable (_ ∨ _))

theorem AcceptsCounter.fresh (h : AcceptsCounter suite s i) : stored s < carried i ∨ carried i = 0 := by
  rcases h with h | h | h
  · exact (fresh_iff rfl).1 h.passed.fresh
  · exact (fresh_iff rfl).1 h.passed.fresh
  · exact (fresh_iff rfl).1 h.passed.fresh

theorem AcceptsKey.acceptsCounter (h : AcceptsKey suite s i) : AcceptsCounter suite s i := Or.inr h

theorem stored_effect (h : Effect suite s i s') :
    stored s' = stored s ∨ AcceptsCounter suite s i ∧ stored s' = carried i := by
  cases h with
  | idle => exact Or.inl rfl
  | msg1 h => exact Or.inr ⟨Or.inl h, rfl⟩
  | msg2 => exact Or.inl rfl
  | msg3Late h hlate => exact Or.inr ⟨Or.inr (Or.inl h), rfl⟩
  | msg3 h hnonce hpool =>
    refine Or.inr ⟨Or.inr (Or.inl h), ?_⟩
    rw [stored, acceptMsg3_entry]
    rfl
  | msg4 h => exact Or.inl rfl
  | group1Late h hpool => exact Or.inr ⟨Or.inr (Or.inr h), rfl⟩
  | group1 h hpool => exact Or.inr ⟨Or.inr (Or.inr h), rfl⟩

theorem stored_step (suite : Suite) (s : Sta) (i : Input) :
    stored (wpaEAPOLKeyAction suite s i) = stored s ∨
      AcceptsCounter suite s i ∧ stored (wpaEAPOLKeyAction suite s i) = carried i :=
  stored_effect (step_effect suite s i)

theorem stored_of_acceptsKey (h : AcceptsKey suite s i) : stored (wpaEAPOLKeyAction suite s i) = carried i := by
  rcases h with ⟨hh, hd, hg, hr⟩ | ⟨hh, hd, hg, hr⟩
  · have hguard : ¬ (s.entry.isPeer = false ∨ i.elem.msgLen < minMsgLen) := by
      simpa [ready, not_or] using hg
    simp only [wpaEAPOLKeyAction, hh, Bool.false_eq_true, if_false, hd, peerPairMsg3Action,
      if_neg hguard, hr, if_true]
    split_ifs
    · rfl
    · rw [stored, acceptMsg3_entry]
      rfl
  · have hguard : ¬ s.entry.isPeer = false := by simpa [ready] using hg
    simp only [wpaEAPOLKeyAction, hh, Bool.false_eq_true, if_false, hd, peerGroupMsg1Action,
      if_neg hguard, hr, if_true]
    split_ifs <;> rfl

/-! ### Runs -/

abbrev after (suite : Suite) (s : Sta) (ops : List Input) : Sta := run (wpaEAPOLKeyAction suite) s ops

def CounterGrows (suite : Suite) (s : Sta) (ops : List Input) : Prop :=
  ∀ xs ys zs, ops = xs ++ ys ++ zs → stored (after suite s xs) ≤ stored (after suite s (xs ++ ys))

/-- After an accepted message 3 or group message 1, none with a counter that is not larger is
accepted. -/
def NoReplay (suite : Suite) (s : Sta) (ops : List Input) : Prop :=
  ∀ xs i ys j zs, ops = xs ++ i :: (ys ++ j :: zs) → AcceptsKey suite (after suite s xs) i →
    AcceptsKey suite (after suite s (xs ++ i :: ys)) j → carried i < carried j

def NoReplayButZero (suite : Suite) (s : Sta) (ops : List Input) : Prop :=
  ∀ xs i ys j zs, ops = xs ++ i :: (ys ++ j :: zs) → AcceptsKey suite (after suite s xs) i →
    AcceptsKey suite (after suite s (xs ++ i :: ys)) j →
    carried i < carried j ∨ carried i = 0 ∧ carried j = 0

/-- An accepted all-zero counter finds the stored counter still zero. -/
def ZeroAtStart (suite : Suite) (s : Sta) (i : Input) : Prop :=
  AcceptsCounter suite s i → carried i = 0 → stored s = 0

instance : Decidable (ZeroAtStart suite s i) := inferInstanceAs (Decidable (_ → _ → _))

theorem stored_le_step (h : ZeroAtStart suite s i) : stored s ≤ stored (wpaEAPOLKeyAction suite s i) := by
  rcases stored_step suite s i with heq | ⟨hacc, heq⟩
  · exact le_of_eq heq.symm
  · rw [heq]
    rcases hacc.fresh with hlt | hzero
    · exact le_of_lt hlt
    · rw [h hacc hzero]
      exact Nat.zero_le _

theorem stored_le_run : ∀ (ops : List Input) (s : Sta),
    Along (wpaEAPOLKeyAction suite) (ZeroAtStart suite) s ops → stored s ≤ stored (after suite s ops)
  | [], _, _ => le_rfl
  | _ :: ops, _, ⟨h, hrest⟩ => le_trans (stored_le_step h) (stored_le_run ops _ hrest)

theorem counterGrows_run {ops : List Input}
    (h : Along (wpaEAPOLKeyAction suite) (ZeroAtStart suite) s ops) : CounterGrows suite s ops := by
  rintro xs ys zs rfl
  rw [List.append_assoc] at h
  obtain ⟨-, hrest⟩ := along_append.1 h
  rw [after, after, run_append]
  exact stored_le_run ys _ (along_append.1 hrest).1

theorem noReplayButZero_run {ops : List Input} (h : Along (wpaEAPOLKeyAction suite) (ZeroAtStart suite) s ops) :
    NoReplayButZero suite s ops := by
  rintro xs i ys j zs rfl hi hj
  -- the stored counter is the first frame's from its acceptance on, and has only grown since
  obtain ⟨-, -, hrest⟩ := along_append.1 h
  obtain ⟨hmid, hnext, -⟩ := along_append.1 hrest
  have hstate : after suite s (xs ++ i :: ys) =
      after suite (wpaEAPOLKeyAction suite (after suite s xs) i) ys := by
    rw [after, run_append, run_cons]
  have hle := stored_le_run ys _ hmid
  rw [stored_of_acceptsKey hi] at hle
  rw [hstate] at hj
  rcases hj.acceptsCounter.fresh with hlt | hzero
  · exact Or.inl (lt_of_le_of_lt hle hlt)
  · have h0 := hnext hj.acceptsCounter hzero
    exact Or.inr ⟨Nat.le_zero.1 (hle.trans_eq h0), hzero⟩

/-- A handshake, a group key and a handshake again, with an access point that counts from zero. -/
def countingRun : List Input :=
  [sampleInput .pairMsg1 0 7 5, sampleInput .pairMsg3 1 7 5, sampleInput .groupMsg1 2 0 0,
    sampleInput .pairMsg1 3 8 6, sampleInput .pairMsg3 4 8 6]

def zeroRun : List Input := [sampleInput .pairMsg1 5 7 5, sampleInput .pairMsg1 0 8 6]

end Mt7610u.Wpa
