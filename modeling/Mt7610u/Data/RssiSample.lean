import Mt7610u.Lib.BlendedMean
import Mt7610u.Lib.Bytes
import Mt7610u.Lib.Runs

/-! # Signal strengths

`Update_Rssi_Sample` folds the signal strengths and the signal-to-noise ratios of a frame into averages, which
are kept beside eight times their value. Whether it begins the averages or blends a sample in is decided once
for all five, by the fields of the first chain; and `LinkDown` sets only some of the fields. -/

namespace Mt7610u.Data.Rssi

open Lib Lib.Runs Lib.BlendedMean

/-! ### The code -/

inductive Quantity
  | rssi0 | rssi1 | rssi2 | snr0 | snr1
deriving DecidableEq

/-- A quantity in `RSSI_SAMPLE`: its last sample, the average, and eight times the average. -/
structure Average where
  last : BitVec 8
  avg : BitVec 8
  avgX8 : BitVec 16

abbrev RssiSample := Quantity → Average

/-- What the conversions read of the adapter: the channel, the gains and offsets of the EEPROM, the formula of
the chip, and whether it is one of the RT65xx. -/
structure Radio where
  channel : Byte
  bLnaGain : Byte
  aLnaGain0 : Byte
  aLnaGain1 : Byte
  aLnaGain2 : Byte
  aRssiOffset : ℕ → BitVec 8
  bgRssiOffset : ℕ → BitVec 8
  snrFormula : ℕ
  isRt65xx : Bool

/-- The `RXWI` of a frame, as the functions of the MAC layer read it. The one for this chip does not fill in
the three ratios it is asked for, so `snr` is what the stack holds. -/
structure Frame where
  phyMode : ℕ
  rssi : ℕ → BitVec 8
  snr : ℕ → Byte

def modeCck : ℕ := 0

/-- `SNR_FORMULA2` and `SNR_FORMULA3`. -/
def snrFormula2 : ℕ := 1
def snrFormula3 : ℕ := 2

def lnaGain (r : Radio) : Byte :=
  if r.channel ≤ 14 then r.bLnaGain
  else if r.channel ≤ 64 then r.aLnaGain0
  else if r.channel ≤ 128 then r.aLnaGain1
  else r.aLnaGain2

def convertToRssi (r : Radio) (rssi : BitVec 8) (rssiIdx : ℕ) : BitVec 8 :=
  if rssi = 0 ∨ rssiIdx ≥ 3 then -99
  else
    let rssiOffset := if r.channel > 14 then r.aRssiOffset rssiIdx else r.bgRssiOffset rssiIdx
    if r.isRt65xx then rssi + rssiOffset - lnaGain r
    else -12 - rssiOffset - lnaGain r - rssi

def convertToSnr (r : Radio) (snr : Byte) : BitVec 8 :=
  let snr : ℤ := snr.toNat
  if r.snrFormula = snrFormula2 then BitVec.ofInt 8 ((snr * 3 + 8) >>> (4 : ℕ))
  else if r.snrFormula = snrFormula3 then BitVec.ofInt 8 ((snr * 3).tdiv 16)
  else BitVec.ofInt 8 (((0xeb - snr) * 3).tdiv 16)

namespace Quantity

def received (f : Frame) : Quantity → Bool
  | rssi0 => f.rssi 0 != 0
  | rssi1 => f.rssi 1 != 0
  | rssi2 => f.rssi 2 != 0
  | snr0 => f.snr 0 != 0 && f.phyMode != modeCck
  | snr1 => f.snr 1 != 0 && f.phyMode != modeCck

def converted (r : Radio) (f : Frame) : Quantity → BitVec 8
  | rssi0 => convertToRssi r (f.rssi 0) 0
  | rssi1 => convertToRssi r (f.rssi 1) 1
  | rssi2 => convertToRssi r (f.rssi 2) 2
  | snr0 => convertToSnr r (f.snr 0)
  | snr1 => convertToSnr r (f.snr 1)

end Quantity

def Average.sample (a : Average) (bInitial : Bool) (last : BitVec 8) : Average :=
  let avgX8 : BitVec 16 :=
    if bInitial then BitVec.ofInt 16 (last.toInt <<< (3 : ℕ))
    else BitVec.ofInt 16 (a.avgX8.toInt - a.avg.toInt + last.toInt)
  { last := last, avg := BitVec.ofInt 8 (avgX8.toInt >>> (3 : ℕ)), avgX8 := avgX8 }

def bInitial (s : RssiSample) : Bool := (s .rssi0).avg == 0 && (s .rssi0).avgX8 == 0 && (s .rssi0).last == 0

def updateRssiSample (r : Radio) (f : Frame) (s : RssiSample) : RssiSample := fun q =>
  if q.received f then (s q).sample (bInitial s) (q.converted r f) else s q

def RssiSample.zero : RssiSample := fun _ => ⟨0, 0, 0⟩

/-- What `LinkDown` leaves: it clears the whole sample, and sets the average strengths to -127 at its end. -/
def linkDown : RssiSample
  | .rssi0 | .rssi1 | .rssi2 => ⟨0, -127, 0⟩
  | .snr0 | .snr1 => ⟨0, 0, 0⟩

/-! ### The samples since the last reset -/

structure Tracked where
  sample : RssiSample
  folded : Quantity → List ℤ

def Tracked.start : Tracked := ⟨.zero, fun _ => []⟩

inductive Event
  | frame (r : Radio) (f : Frame)
  | linkDown

def step (s : Tracked) : Event → Tracked
  | .frame r f =>
    { sample := updateRssiSample r f s.sample
      folded := fun q => if q.received f then s.folded q ++ [(q.converted r f).toInt] else s.folded q }
  | .linkDown => ⟨linkDown, fun _ => []⟩

structure Average.Of (a : Average) (xs : List ℤ) : Prop where
  between : Between xs a.avg.toInt
  coupled : a.avgX8.toInt >>> (3 : ℕ) = a.avg.toInt

/-- Each average that has got a sample since the last reset is one of those samples. -/
def Averages (s : Tracked) : Prop := ∀ q, s.folded q ≠ [] → (s.sample q).Of (s.folded q)

def First (s : RssiSample) (a : Average) (last : ℤ) : Prop :=
  bInitial s = true ∨ a.avg.toInt = 0 ∧ (last = 0 ∨ last = -1) ∨ a.avg.toInt = -127 ∧ last = 18

/-- The condition: no average gets its first sample while the first chain has one already, nor after
`LinkDown`. -/
def Begins (s : Tracked) : Event → Prop
  | .frame r f => ∀ q, q.received f = true → s.folded q = [] →
      First s.sample (s.sample q) (q.converted r f).toInt
  | .linkDown => True

/-! ### One sample -/

theorem eighth (x : ℤ) : x >>> (3 : ℕ) = x / 8 := Int.shiftRight_eq_div_pow x 3

theorem toInt_ofInt8 {x : ℤ} (h : -128 ≤ x) (h' : x ≤ 127) : (BitVec.ofInt 8 x).toInt = x := by
  rw [BitVec.toInt_ofInt]
  exact Int.bmod_eq_of_le (by omega) (by omega)

theorem toInt_ofInt16 {x : ℤ} (h : -32768 ≤ x) (h' : x ≤ 32767) : (BitVec.ofInt 16 x).toInt = x := by
  rw [BitVec.toInt_ofInt]
  exact Int.bmod_eq_of_le (by omega) (by omega)

theorem char_le (b : BitVec 8) : -128 ≤ b.toInt ∧ b.toInt ≤ 127 := by
  have h1 := b.le_toInt
  have h2 := b.toInt_lt
  omega

theorem sample_initial (a : Average) (last : BitVec 8) :
    (a.sample true last).avgX8.toInt = 8 * last.toInt ∧ (a.sample true last).avg.toInt = last.toInt := by
  obtain ⟨h1, h2⟩ := char_le last
  have hshift : last.toInt <<< (3 : ℕ) = 8 * last.toInt := by
    rw [Int.shiftLeft_eq]
    omega
  have hx8 : (a.sample true last).avgX8.toInt = 8 * last.toInt := by
    simp only [Average.sample, if_true, hshift]
    exact toInt_ofInt16 (by omega) (by omega)
  refine ⟨hx8, ?_⟩
  show (BitVec.ofInt 8 ((a.sample true last).avgX8.toInt >>> (3 : ℕ))).toInt = last.toInt
  rw [hx8, eighth, Int.mul_ediv_cancel_left _ (by decide)]
  exact toInt_ofInt8 h1 h2

theorem sample_blend (a : Average) (last : BitVec 8) {x : ℤ}
    (hx : blend 8 a.avgX8.toInt last.toInt = x) (havg : a.avgX8.toInt / 8 = a.avg.toInt)
    (hlo : -128 ≤ x / 8) (hhi : x / 8 ≤ 127) :
    (a.sample false last).avgX8.toInt = x ∧ (a.sample false last).avg.toInt = x / 8 := by
  have hx8 : (a.sample false last).avgX8.toInt = x := by
    simp only [Average.sample, Bool.false_eq_true, if_false]
    rw [blend, havg] at hx
    rw [hx]
    exact toInt_ofInt16 (by omega) (by omega)
  refine ⟨hx8, ?_⟩
  show (BitVec.ofInt 8 ((a.sample false last).avgX8.toInt >>> (3 : ℕ))).toInt = x / 8
  rw [hx8, eighth]
  exact toInt_ofInt8 hlo hhi

theorem sample_first (a : Average) (last : BitVec 8) (hx8 : a.avgX8.toInt = 0) (havg : -127 ≤ a.avg.toInt) :
    (a.sample false last).avgX8.toInt = last.toInt - a.avg.toInt ∧
      (a.sample false last).avg.toInt = (last.toInt - a.avg.toInt) / 8 := by
  obtain ⟨h1, h2⟩ := char_le last
  obtain ⟨h3, h4⟩ := char_le a.avg
  have hx : (a.sample false last).avgX8.toInt = last.toInt - a.avg.toInt := by
    have hsum : a.avgX8.toInt - a.avg.toInt + last.toInt = last.toInt - a.avg.toInt := by omega
    simp only [Average.sample, Bool.false_eq_true, if_false, hsum]
    exact toInt_ofInt16 (by omega) (by omega)
  refine ⟨hx, ?_⟩
  show (BitVec.ofInt 8 ((a.sample false last).avgX8.toInt >>> (3 : ℕ))).toInt = _
  rw [hx, eighth]
  exact toInt_ofInt8 (by omega) (by omega)

/-! ### The average of one quantity -/

theorem of_sample_initial (a : Average) (last : BitVec 8) (xs : List ℤ) :
    (a.sample true last).Of (xs ++ [last.toInt]) := by
  obtain ⟨hx8, havg⟩ := sample_initial a last
  have hmem : last.toInt ∈ xs ++ [last.toInt] := List.mem_append_right _ List.mem_cons_self
  refine ⟨⟨⟨_, hmem, havg.ge⟩, _, hmem, havg.le⟩, ?_⟩
  rw [hx8, havg, eighth, Int.mul_ediv_cancel_left _ (by decide)]

theorem of_sample_blend {a : Average} {xs : List ℤ} (h : a.Of xs) (last : BitVec 8) :
    (a.sample false last).Of (xs ++ [last.toInt]) := by
  have hcoupled : a.avgX8.toInt / 8 = a.avg.toInt := by rw [← eighth, h.coupled]
  have hbetween : Between xs (a.avgX8.toInt / 8) := hcoupled ▸ h.between
  obtain ⟨h1, h2⟩ := char_le last
  obtain ⟨h3, h4⟩ := char_le a.avg
  obtain ⟨hx8, havg⟩ := sample_blend a last rfl hcoupled
    (le_blend (by decide) (hcoupled ▸ h3) h1) (blend_le (by decide) (hcoupled ▸ h4) h2)
  constructor
  · rw [havg]
    exact between_blend (by decide) hbetween last.toInt
  · rw [hx8, havg, eighth]

/-- **Blending in a first sample** makes an average only of the few samples that are their own eighth. -/
theorem of_sample_first {a : Average} (hx8 : a.avgX8.toInt = 0) (havg : a.avg.toInt = 0 ∨ a.avg.toInt = -127)
    (last : BitVec 8) :
    (a.sample false last).Of [last.toInt] ↔
      a.avg.toInt = 0 ∧ (last.toInt = 0 ∨ last.toInt = -1) ∨ a.avg.toInt = -127 ∧ last.toInt = 18 := by
  obtain ⟨hnew8, hnew⟩ := sample_first a last hx8 (by omega)
  have hof : (a.sample false last).Of [last.toInt] ↔ (last.toInt - a.avg.toInt) / 8 = last.toInt := by
    constructor
    · intro h
      rw [← hnew]
      exact (between_singleton _).1 h.between
    · intro h
      exact ⟨(between_singleton _).2 (hnew.trans h), by rw [hnew8, hnew, eighth]⟩
  rw [hof]
  omega

/-! ### Runs -/

/-- What holds while every average was begun right: a quantity without a sample is as a reset left it. -/
structure Inv (s : Tracked) : Prop where
  blank : ∀ q, s.folded q = [] →
    (s.sample q).avgX8.toInt = 0 ∧ ((s.sample q).avg.toInt = 0 ∨ (s.sample q).avg.toInt = -127)
  averages : Averages s

theorem inv_start : Inv .start := ⟨fun _ _ => ⟨rfl, .inl rfl⟩, fun _ h => absurd rfl h⟩

theorem blank_linkDown (q : Quantity) :
    (linkDown q).avgX8.toInt = 0 ∧ ((linkDown q).avg.toInt = 0 ∨ (linkDown q).avg.toInt = -127) := by
  cases q <;> decide

theorem inv_linkDown (s : Tracked) : Inv (step s .linkDown) :=
  ⟨fun q _ => blank_linkDown q, fun _ h => absurd rfl h⟩

variable {s : Tracked} {r : Radio} {f : Frame} {q : Quantity}

theorem frame_received (h : q.received f = true) :
    (step s (.frame r f)).sample q = (s.sample q).sample (bInitial s.sample) (q.converted r f) ∧
      (step s (.frame r f)).folded q = s.folded q ++ [(q.converted r f).toInt] :=
  ⟨if_pos h, if_pos h⟩

theorem frame_other (h : ¬q.received f = true) :
    (step s (.frame r f)).sample q = s.sample q ∧ (step s (.frame r f)).folded q = s.folded q :=
  ⟨if_neg h, if_neg h⟩

theorem of_frame_iff (hinv : Inv s) (h : q.received f = true) :
    ((step s (.frame r f)).sample q).Of ((step s (.frame r f)).folded q) ↔
      (s.folded q = [] → First s.sample (s.sample q) (q.converted r f).toInt) := by
  rw [(frame_received h).1, (frame_received h).2]
  cases hinit : bInitial s.sample with
  | true => exact iff_of_true (of_sample_initial _ _ _) fun _ => .inl hinit
  | false =>
    by_cases hempty : s.folded q = []
    · obtain ⟨hx8, havg⟩ := hinv.blank q hempty
      rw [hempty, List.nil_append, of_sample_first hx8 havg]
      simp only [First, hinit, Bool.false_eq_true, false_or, forall_const]
    · exact iff_of_true (of_sample_blend (hinv.averages q hempty) _) fun hn => absurd hn hempty

theorem inv_step (s : Tracked) (e : Event) (hinv : Inv s) (hok : Begins s e) : Inv (step s e) := by
  cases e with
  | linkDown => exact inv_linkDown s
  | frame r f =>
    constructor
    · intro q hempty
      by_cases hrec : q.received f = true
      · rw [(frame_received hrec).2] at hempty
        exact absurd hempty (by simp)
      · rw [(frame_other hrec).2] at hempty
        rw [(frame_other hrec).1]
        exact hinv.blank q hempty
    · intro q hne
      by_cases hrec : q.received f = true
      · exact (of_frame_iff hinv hrec).2 (hok q hrec)
      · rw [(frame_other hrec).2] at hne
        rw [(frame_other hrec).1, (frame_other hrec).2]
        exact hinv.averages q hne

theorem not_averages_step (s : Tracked) (e : Event) (hinv : Inv s) (hok : ¬Begins s e) : ¬Averages (step s e) := by
  cases e with
  | linkDown => exact absurd trivial hok
  | frame r f =>
    intro havg
    refine hok fun q hrec => (of_frame_iff hinv hrec).1 (havg q ?_)
    rw [(frame_received hrec).2]
    simp

/-- **The averages are averages** of the samples since the last reset in every state of a run exactly if each
of them gets its first sample while all fields of the first chain are zero, or a first sample that the
arithmetic maps to itself. -/
theorem averages_iff (evs : List Event) :
    (∀ pre, pre <+: evs → Averages (run step .start pre)) ↔ Along step Begins .start evs :=
  forall_prefix_iff_along (fun _ h => h.averages) inv_step not_averages_step evs .start inv_start

/-- Two runs after which an average is none: the first frame after `LinkDown`, whose strength of -60 becomes an
average of 8, and a frame that the second chain hears with -60 as well, after one that only the first chain
heard; the average of the second chain is then -8. -/
theorem not_averages : let r : Radio := ⟨1, 0, 0, 0, 0, fun _ => 0, fun _ => 0, snrFormula3, true⟩
    let first : Frame := ⟨1, fun i => if i = 0 then -60 else 0, fun _ => 0⟩
    let both : Frame := ⟨1, fun i => if i ≤ 1 then -60 else 0, fun _ => 0⟩
    ¬Averages (run step .start [.linkDown, .frame r first]) ∧
      ¬Averages (run step .start [.frame r first, .frame r both]) := by
  intro r first both
  constructor
  · intro h
    have hof := h .rssi0 (by decide)
    exact absurd hof.between.2 (by decide)
  · intro h
    have hof := h .rssi1 (by decide)
    exact absurd hof.between.2 (by decide)

end Mt7610u.Data.Rssi
