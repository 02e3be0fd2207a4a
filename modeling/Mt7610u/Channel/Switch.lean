import Mt7610u.Channel.BuildList

/-! # Channel switch announcements

`ChannelSwitchSanityCheck` and `ChannelSwitchAction` of `common/action.c`, with the channel list of the builders. -/

namespace Mt7610u.Channel

abbrev EXTCHA_NONE : BitVec 8 := 0
abbrev EXTCHA_ABOVE : BitVec 8 := 1
abbrev EXTCHA_BELOW : BitVec 8 := 3

abbrev BW_20 : BitVec 2 := 0
abbrev BW_40 : BitVec 2 := 1

abbrev MAX_LEN_OF_MAC_TABLE : ℕ := 32

structure Radio where
  channels : Channels
  /-- `CommonCfg.Channel` -/
  channel : BitVec 8
  centralChannel : BitVec 8
  /-- `MacTab.Content[Wcid].HTPhyMode.field.BW` -/
  contentBW : ℕ → BitVec 2
  /-- `HtCapability.HtCapInfo.ChannelWidth` -/
  channelWidth : BitVec 1
  recomWidth : BitVec 1
  extChanOffset : BitVec 2
  bbpCurrentBW : BitVec 2
  /-- `fRTMP_ADAPTER_RADIO_OFF` -/
  radioOff : Bool
  /-- The channels that the chip was tuned to, the last one first. -/
  tuned : List (BitVec 8)

def ChannelSwitchSanityCheck (s : Radio) (wcid newChannel secondary : BitVec 8) : Bool :=
  if MAX_LEN_OF_MAC_TABLE ≤ wcid.toNat then false
  else if newChannel > 7 ∧ secondary = 1 then false
  else if newChannel < 5 ∧ secondary = 3 then false
  else IsValidChannel s.channels.channelList s.channels.channelListNum newChannel.toNat

/-- `AsicSwitchChannel`: nothing is tuned while the radio is off. -/
def AsicSwitchChannel (s : Radio) (channel : BitVec 8) : Radio :=
  if s.radioOff then s else { s with tuned := channel :: s.tuned }

def AsicSetChannel (s : Radio) (ch : BitVec 8) (bw : BitVec 2) : Radio :=
  AsicSwitchChannel { s with bbpCurrentBW := bw } ch

def ChannelSwitchAction (s : Radio) (wcid newChannel secondary : BitVec 8) : Radio :=
  if ChannelSwitchSanityCheck s wcid newChannel secondary = false then s
  else
    let s := { s with channel := newChannel }
    if secondary = EXTCHA_NONE then
      let s := { s with
        centralChannel := s.channel
        contentBW := Function.update s.contentBW wcid.toNat 0
        recomWidth := 0
        extChanOffset := 0 }
      if s.channel ≠ 0 then AsicSetChannel s s.channel BW_20 else s
    else if (secondary = EXTCHA_ABOVE ∨ secondary = EXTCHA_BELOW) ∧ s.channelWidth = 1 then
      let s := { s with
        centralChannel := if secondary = EXTCHA_ABOVE then s.channel + 2 else s.channel - 2
        contentBW := Function.update s.contentBW wcid.toNat 1 }
      if s.centralChannel ≠ 0 then AsicSetChannel s s.centralChannel BW_40 else s
    -- the channel is stored already, and nothing is tuned
    else s

/-! ### What is asked -/

def centralOf (newChannel secondary : BitVec 8) : BitVec 8 :=
  if secondary = EXTCHA_NONE then newChannel
  else if secondary = EXTCHA_ABOVE then newChannel + 2
  else newChannel - 2

def bandwidthOf (secondary : BitVec 8) : BitVec 2 := if secondary = EXTCHA_NONE then BW_20 else BW_40

structure Unchanged (s t : Radio) : Prop where
  channel : t.channel = s.channel
  centralChannel : t.centralChannel = s.centralChannel
  contentBW : t.contentBW = s.contentBW
  tuned : t.tuned = s.tuned

structure Switched (s t : Radio) (wcid newChannel secondary : BitVec 8) : Prop where
  channel : t.channel = newChannel
  announced : secondary = EXTCHA_NONE ∨ secondary = EXTCHA_ABOVE ∨ secondary = EXTCHA_BELOW
  centralChannel : t.centralChannel = centralOf newChannel secondary
  contentBW : t.contentBW wcid.toNat = bandwidthOf secondary
  bbpCurrentBW : t.bbpCurrentBW = bandwidthOf secondary
  tuned : t.tuned = t.centralChannel :: s.tuned

def Radio.Lists (s : Radio) (channel : ℕ) : Prop :=
  IsValidChannel s.channels.channelList s.channels.channelListNum channel = true

/-- The announcement names a channel that is listed, with a secondary channel that is. -/
def Names (s : Radio) (newChannel secondary : BitVec 8) : Prop :=
  s.Lists newChannel.toNat ∧
    (secondary = EXTCHA_ABOVE ∧ s.Lists (GetExtCh newChannel.toNat true) ∨
      secondary = EXTCHA_BELOW ∧ s.Lists (GetExtCh newChannel.toNat false))

/-- **What is asked of a switch.** -/
structure SwitchesWell (s : Radio) (wcid newChannel secondary : BitVec 8) : Prop where
  allOrNothing : Unchanged s (ChannelSwitchAction s wcid newChannel secondary) ∨
    Switched s (ChannelSwitchAction s wcid newChannel secondary) wcid newChannel secondary
  passes : Names s newChannel secondary → ChannelSwitchSanityCheck s wcid newChannel secondary = true

/-! ### When it is so -/

def Handled (s : Radio) (secondary : BitVec 8) : Prop :=
  secondary = EXTCHA_NONE ∨ (secondary = EXTCHA_ABOVE ∨ secondary = EXTCHA_BELOW) ∧ s.channelWidth = 1

/-- The station is on the announced channel already, as far as it would follow. -/
def Settled (s : Radio) (wcid newChannel secondary : BitVec 8) : Prop :=
  s.channel = newChannel ∧
    (Handled s secondary →
      s.centralChannel = centralOf newChannel secondary ∧ s.contentBW wcid.toNat = bandwidthOf secondary)

section

variable {s : Radio} {wcid newChannel secondary : BitVec 8}

theorem asicSetChannel_eq (s : Radio) (ch : BitVec 8) (bw : BitVec 2) :
    AsicSetChannel s ch bw =
      { s with bbpCurrentBW := bw, tuned := if s.radioOff = false then ch :: s.tuned else s.tuned } := by
  unfold AsicSetChannel AsicSwitchChannel
  cases s.radioOff <;> rfl

theorem action_of_handled (hsanity : ChannelSwitchSanityCheck s wcid newChannel secondary = true)
    (h : Handled s secondary) : let t := ChannelSwitchAction s wcid newChannel secondary
    t.channel = newChannel ∧ t.centralChannel = centralOf newChannel secondary ∧
      t.contentBW = Function.update s.contentBW wcid.toNat (bandwidthOf secondary) ∧
      if centralOf newChannel secondary ≠ 0 ∧ s.radioOff = false then
        t.bbpCurrentBW = bandwidthOf secondary ∧ t.tuned = centralOf newChannel secondary :: s.tuned
      else t.tuned = s.tuned := by
  unfold ChannelSwitchAction
  rw [if_neg (by simp [hsanity])]
  dsimp only
  by_cases hnone : secondary = EXTCHA_NONE
  · have hcentral : centralOf newChannel secondary = newChannel := if_pos hnone
    have hbw : bandwidthOf secondary = BW_20 := if_pos hnone
    rw [if_pos hnone, hcentral, hbw]
    by_cases hzero : newChannel = 0
    · rw [if_neg (not_not.2 hzero), if_neg fun hc => hc.1 hzero]
      exact ⟨rfl, rfl, rfl, rfl⟩
    · rw [if_pos hzero, asicSetChannel_eq]
      by_cases hoff : s.radioOff = false
      · have hon : newChannel ≠ 0 ∧ s.radioOff = false := ⟨hzero, hoff⟩
        rw [if_pos hon]
        exact ⟨rfl, rfl, rfl, rfl, if_pos hoff⟩
      · have hon : ¬ (newChannel ≠ 0 ∧ s.radioOff = false) := fun hc => hoff hc.2
        rw [if_neg hon]
        exact ⟨rfl, rfl, rfl, if_neg hoff⟩
  · obtain ⟨hside, hwidth⟩ := h.resolve_left hnone
    have hcentral : (if secondary = EXTCHA_ABOVE then newChannel + 2 else newChannel - 2) =
        centralOf newChannel secondary := (if_neg hnone).symm
    have hbw : bandwidthOf secondary = BW_40 := if_neg hnone
    rw [if_neg hnone, if_pos ⟨hside, hwidth⟩, hcentral, hbw]
    by_cases hzero : centralOf newChannel secondary = 0
    · rw [if_neg (not_not.2 hzero), if_neg fun hc => hc.1 hzero]
      exact ⟨rfl, rfl, rfl, rfl⟩
    · rw [if_pos hzero, asicSetChannel_eq]
      by_cases hoff : s.radioOff = false
      · have hon : centralOf newChannel secondary ≠ 0 ∧ s.radioOff = false := ⟨hzero, hoff⟩
        rw [if_pos hon]
        exact ⟨rfl, rfl, rfl, rfl, if_pos hoff⟩
      · have hon : ¬ (centralOf newChannel secondary ≠ 0 ∧ s.radioOff = false) := fun hc => hoff hc.2
        rw [if_neg hon]
        exact ⟨rfl, rfl, rfl, if_neg hoff⟩

theorem action_of_not_handled (hsanity : ChannelSwitchSanityCheck s wcid newChannel secondary = true)
    (h : ¬ Handled s secondary) :
    ChannelSwitchAction s wcid newChannel secondary = { s with channel := newChannel } := by
  obtain ⟨hnone, hside⟩ := not_or.1 h
  unfold ChannelSwitchAction
  rw [if_neg (by simp [hsanity])]
  dsimp only
  rw [if_neg hnone, if_neg hside]

theorem allOrNothing_iff :
    (Unchanged s (ChannelSwitchAction s wcid newChannel secondary) ∨
      Switched s (ChannelSwitchAction s wcid newChannel secondary) wcid newChannel secondary) ↔
    (ChannelSwitchSanityCheck s wcid newChannel secondary = true →
      Handled s secondary ∧ s.radioOff = false ∧ centralOf newChannel secondary ≠ 0 ∨
        Settled s wcid newChannel secondary) := by
  by_cases hsanity : ChannelSwitchSanityCheck s wcid newChannel secondary = true
  swap
  · have hrefused : ChannelSwitchAction s wcid newChannel secondary = s := if_pos (by simpa using hsanity)
    rw [hrefused]
    exact iff_of_true (Or.inl ⟨rfl, rfl, rfl, rfl⟩) fun h => absurd h hsanity
  rw [imp_iff_right hsanity]
  by_cases hhandled : Handled s secondary
  swap
  · rw [action_of_not_handled hsanity hhandled]
    constructor
    · rintro (h | h)
      · exact Or.inr ⟨h.channel.symm, fun hc => absurd hc hhandled⟩
      · exact absurd h.tuned (List.cons_ne_self _ _).symm
    · rintro (h | h)
      · exact absurd h.1 hhandled
      · exact Or.inl ⟨h.1.symm, rfl, rfl, rfl⟩
  obtain ⟨hchannel, hcentral, hcontent, htuned⟩ := @action_of_handled _ wcid _ _ hsanity hhandled
  by_cases hon : centralOf newChannel secondary ≠ 0 ∧ s.radioOff = false
  · rw [if_pos hon] at htuned
    have hannounced : secondary = EXTCHA_NONE ∨ secondary = EXTCHA_ABOVE ∨ secondary = EXTCHA_BELOW :=
      hhandled.imp id And.left
    refine iff_of_true (Or.inr ⟨hchannel, hannounced, hcentral, ?_, htuned.1, ?_⟩) (Or.inl ⟨hhandled, hon.2, hon.1⟩)
    · rw [hcontent, Function.update_self]
    · rw [htuned.2, hcentral]
  · rw [if_neg hon] at htuned
    constructor
    · rintro (h | h)
      · refine Or.inr ⟨h.channel.symm.trans hchannel, fun _ => ⟨h.centralChannel.symm.trans hcentral, ?_⟩⟩
        have hsame := h.contentBW
        rw [hcontent] at hsame
        rw [← congrFun hsame wcid.toNat, Function.update_self]
      · exact absurd (htuned.symm.trans h.tuned) (List.cons_ne_self _ _).symm
    · rintro (h | ⟨hset, hrest⟩)
      · exact absurd ⟨h.2.2, h.2.1⟩ hon
      · obtain ⟨hsetcentral, hsetbw⟩ := hrest hhandled
        refine Or.inl ⟨hchannel.trans hset.symm, hcentral.trans hsetcentral.symm, ?_, htuned⟩
        rw [hcontent, ← hsetbw, Function.update_eq_self]

/-- **When a switch between listed channels passes**: not with a secondary channel above a channel over 7. -/
theorem passes_iff : (Names s newChannel secondary → ChannelSwitchSanityCheck s wcid newChannel secondary = true) ↔
    (Names s newChannel secondary →
      wcid.toNat < MAX_LEN_OF_MAC_TABLE ∧ ¬ (newChannel > 7 ∧ secondary = EXTCHA_ABOVE) ∧
        ¬ (newChannel < 5 ∧ secondary = EXTCHA_BELOW)) := by
  refine imp_congr_right fun hnames => ?_
  unfold ChannelSwitchSanityCheck
  split_ifs with hwcid habove hbelow
  · exact iff_of_false id fun h => by omega
  · exact iff_of_false id fun h => h.2.1 habove
  · exact iff_of_false id fun h => h.2.2 hbelow
  · exact iff_of_true hnames.1 ⟨by omega, habove, hbelow⟩

end

/-- **When a switch is as it should be.** -/
theorem switchesWell_iff (s : Radio) (wcid newChannel secondary : BitVec 8) :
    SwitchesWell s wcid newChannel secondary ↔
      (ChannelSwitchSanityCheck s wcid newChannel secondary = true →
        Handled s secondary ∧ s.radioOff = false ∧ centralOf newChannel secondary ≠ 0 ∨
          Settled s wcid newChannel secondary) ∧
      (Names s newChannel secondary →
        wcid.toNat < MAX_LEN_OF_MAC_TABLE ∧ ¬ (newChannel > 7 ∧ secondary = EXTCHA_ABOVE) ∧
          ¬ (newChannel < 5 ∧ secondary = EXTCHA_BELOW)) := by
  rw [← allOrNothing_iff, ← passes_iff]
  exact ⟨fun h => ⟨h.allOrNothing, h.passes⟩, fun h => ⟨h.1, h.2⟩⟩

def onChannel1 : Radio :=
  { channels := ⟨[1, 6, 36, 40].map fun c => { ChannelTxPower.zero with channel := c }, 4, []⟩
    channel := 1, centralChannel := 1, contentBW := fun _ => 0, channelWidth := 0, recomWidth := 0
    extChanOffset := 0, bbpCurrentBW := 0, radioOff := false, tuned := [1] }

/-- It stores channel 6 with a secondary channel above without tuning to it, and refuses channel 36 with channel 40. -/
theorem not_switchesWell_onChannel1 :
    ¬ SwitchesWell onChannel1 1 6 EXTCHA_ABOVE ∧ ¬ SwitchesWell onChannel1 1 36 EXTCHA_ABOVE := by
  constructor
  · intro h
    rcases h.allOrNothing with h | h
    · exact absurd h.channel (by decide)
    · exact absurd h.tuned (by decide)
  · intro h
    exact absurd (h.passes ⟨rfl, Or.inl ⟨rfl, rfl⟩⟩) (by decide)

end Mt7610u.Channel
