import Mathlib.Data.List.Perm.Subperm
import Mt7610u.Channel.FromCountry

/-! # When the channel lists are a function of the configuration -/

namespace Mt7610u.Channel

variable {cfg : Config}

/-! ### Histories -/

structure Sound (s : Channels) : Prop where
  length : s.channelList.length = MAX_NUM_OF_CHANNELS
  kept : ∀ k, Kept (entryAt s.channelList k)
  table : CutTable chRegion s.chRegion

theorem sound_init : Sound .init where
  length := List.length_replicate
  kept k := by
    have hzero : entryAt Channels.init.channelList k = .zero := holds_replicate _ k
    rw [hzero]
    exact ⟨rfl, rfl, Or.inl rfl⟩
  table := cutTable_refl

theorem Sound.build {s : Channels} (h : Sound s) (cfg : Config) : Sound (BuildChannelListEx cfg s) where
  length := (keptBySlots_length _).build h.length
  kept := keptBySlots_kept.build h.kept
  table := h.table.build

theorem sound_afterBuilds (history : List Config) : Sound (afterBuilds BuildChannelListEx history) := by
  unfold afterBuilds
  induction history using List.reverseRecOn with
  | nil => exact sound_init
  | append_singleton history cfg ih =>
    rw [List.foldl_append]
    exact ih.build cfg

theorem Sound.build_eq {s : Channels} (h : Sound s) {k : ℕ} {r : ChRegion}
    (hk : GetChRegion chRegion cfg.countryCode = some k) (hr : chRegion[k]? = some r) :
    ∃ r', CutRegion r r' ∧
      (BuildChannelListEx cfg s).channelList =
        (createLoop cfg r.dfsType r'.pChDesp 0 s.channelList s.channelListNum).1 ∧
      (BuildChannelListEx cfg s).channelListNum =
        (createLoop cfg r.dfsType r'.pChDesp 0 s.channelList s.channelListNum).2.1 := by
  obtain ⟨r', hr', hcut⟩ := h.table.get hr
  refine ⟨r', hcut, ?_⟩
  unfold BuildChannelListEx
  rw [h.table.getChRegion, hk]
  dsimp only
  rw [hr']
  dsimp only
  rw [hcut.dfsType]
  exact ⟨rfl, rfl⟩

theorem slots_eq_nil {pChDesp : List ChDesp} (h : ¬∃ d ∈ pChDesp, usesDesp cfg d = true) : slots cfg pChDesp = [] := by
  unfold slots
  rw [List.filter_eq_nil_iff.2 fun d hd hu => h ⟨d, hd, hu⟩, List.flatMap_nil]

theorem Sound.channelListNum_of_not_uses {s : Channels} (h : Sound s) {k : ℕ} {r : ChRegion}
    (hk : GetChRegion chRegion cfg.countryCode = some k) (hr : chRegion[k]? = some r)
    (hno : ¬∃ d ∈ r.pChDesp, usesDesp cfg d = true) :
    (BuildChannelListEx cfg s).channelListNum = s.channelListNum := by
  obtain ⟨r', hcut, -, hnum⟩ := h.build_eq hk hr
  have hno' : ¬∃ d ∈ r'.pChDesp, usesDesp cfg d = true := fun hu => hno ((uses_of_cut hcut.pChDesp).1 hu)
  have hnil := slots_eq_nil hno'
  rw [hnum, (createLoop_plain r'.pChDesp (by rw [hnil]; exact Nat.zero_le _)
    fun x hx => absurd (hnil ▸ hx) List.not_mem_nil).2, if_neg hno']

def plainListEx (cfg : Config) (r : ChRegion) : List ChannelTxPower :=
  (slots cfg r.pChDesp).map fun x => x.filled (cfg.domain r.dfsType) .zero

theorem channel_filled (domain : ℕ) (x : Slot) (e : ChannelTxPower) : (x.filled domain e).channel = x.channel := by
  unfold Slot.filled
  split_ifs <;> rfl

theorem map_channel_plainListEx {r : ChRegion} (hr : Tidy r) :
    (plainListEx cfg r).map ChannelTxPower.channel = cfg.channels r.pChDesp := by
  unfold plainListEx
  rw [List.map_map, ← channel_slots hr.first]
  exact List.map_congr_left fun x _ => channel_filled _ x _

theorem listed_fresh {k : ℕ} {r : ChRegion} (hk : GetChRegion chRegion cfg.countryCode = some k)
    (hr : chRegion[k]? = some r) : (BuildChannelListEx cfg .init).listed = plainListEx cfg r := by
  have htidy := tidy_chRegion r (List.mem_of_getElem? hr)
  obtain ⟨d, ds, hds⟩ := List.exists_cons_of_ne_nil htidy.some
  have hlen : (slots cfg (d :: ds)).length ≤ Channels.init.channelList.length := by
    have := @length_slots_le cfg (d :: ds)
    have := htidy.total
    rw [hds] at this
    exact Nat.le_trans (by omega) (show 37 ≤ Channels.init.channelList.length by decide)
  obtain ⟨hlist, hnum⟩ := @createLoop_fresh cfg r.dfsType d ds _ hlen fun d' hd' =>
    htidy.rest d' (by rw [hds]; exact hd')
  have hbuild : (BuildChannelListEx cfg .init).channelList =
        fillPlain (cfg.domain r.dfsType) (slots cfg (d :: ds)) 0 Channels.init.channelList ∧
      (BuildChannelListEx cfg .init).channelListNum = (slots cfg (d :: ds)).length := by
    have hcountry : GetChRegion Channels.init.chRegion cfg.countryCode = some k := hk
    have hregion : Channels.init.chRegion[k]? = some r := hr
    unfold BuildChannelListEx
    rw [hcountry]
    dsimp only
    rw [hregion]
    dsimp only
    rw [hds]
    exact ⟨hlist, hnum⟩
  unfold Channels.listed plainListEx
  rw [hbuild.1, hbuild.2, hds]
  refine listed_fillPlain hlen fun x _ j => ?_
  rw [show entryAt Channels.init.channelList j = .zero from holds_replicate _ j]

/-! ### The result -/

/-- **When the list is what it should be**: some run of the country is used, its channels with a power are in the 5 GHz
band and each of them is half of a channel of 40 MHz, and none comes twice. -/
def Config.ListableEx (cfg : Config) : Prop :=
  ∃ k r, GetChRegion chRegion cfg.countryCode = some k ∧ chRegion[k]? = some r ∧
    (∃ d ∈ r.pChDesp, usesDesp cfg d = true) ∧ (cfg.channels r.pChDesp).Nodup ∧
    ∀ c ∈ cfg.channels r.pChDesp, c ∈ channelGroups

theorem channelGroups_high : ∀ c ∈ channelGroups, 14 < c := by decide

theorem plainCheck_of_mem {c : ℕ} (h : c ∈ channelGroups) : plainCheck c = true :=
  decide_eq_true ⟨channelGroups_high c h, h⟩

theorem filled_of_kept {domain : ℕ} {x : Slot} (hx : x.channel ∈ channelGroups) {e : ChannelTxPower} (he : Kept e) :
    x.filled domain e = x.filled domain .zero := by
  obtain ⟨hrem, heff, hflags⟩ := he
  unfold Slot.filled ChannelTxPower.cap fillEntry
  rw [if_pos (plainCheck_of_mem hx), if_pos (plainCheck_of_mem hx)]
  dsimp only
  rw [hrem, heff]
  rcases hflags with hflags | hflags
  · rw [hflags]
    rfl
  · rw [hflags]
    rfl

theorem Config.ListableEx.wellBuilt (h : cfg.ListableEx) : WellBuilt BuildChannelListEx cfg := by
  obtain ⟨k, r, hk, hr, huses, hnodup, hgroups⟩ := h
  have htidy := tidy_chRegion r (List.mem_of_getElem? hr)
  have hchannels := @map_channel_plainListEx cfg _ htidy
  have hslots : ∀ x ∈ slots cfg r.pChDesp, x.channel ∈ channelGroups := by
    intro x hx
    refine hgroups _ ?_
    rw [← channel_slots htidy.first]
    exact List.mem_map_of_mem hx
  have hlength : (slots cfg r.pChDesp).length ≤ 22 := by
    have hsub := (List.subperm_of_subset hnodup hgroups).length_le
    rw [← channel_slots htidy.first, List.length_map] at hsub
    exact hsub
  have hlist : ∀ history, (BuildChannelListEx cfg (afterBuilds BuildChannelListEx history)).listed = plainListEx cfg r ∧
      (BuildChannelListEx cfg (afterBuilds BuildChannelListEx history)).channelListNum ≤ 22 := by
    intro history
    have hs := sound_afterBuilds history
    obtain ⟨r', hcut, hl, hnum⟩ := hs.build_eq hk hr
    have hsame : slots cfg r'.pChDesp = slots cfg r.pChDesp :=
      slots_of_cut hcut.pChDesp fun x hx => channelGroups_high _ (hslots x hx)
    have hmax : MAX_NUM_OF_CHANNELS = 59 := rfl
    have hlen : (slots cfg r'.pChDesp).length ≤ (afterBuilds BuildChannelListEx history).channelList.length := by
      rw [hsame, hs.length]
      omega
    obtain ⟨hfill, hcount⟩ := @createLoop_plain cfg r.dfsType r'.pChDesp 0
      (afterBuilds BuildChannelListEx history).channelListNum (afterBuilds BuildChannelListEx history).channelList
      (by rwa [Nat.zero_add])
      fun x hx => channelGroups_high _ (hslots x (hsame ▸ hx))
    rw [if_pos ((uses_of_cut hcut.pChDesp).2 huses), Nat.zero_add] at hcount
    refine ⟨?_, by rw [hnum, hcount, hsame]; exact hlength⟩
    unfold Channels.listed plainListEx
    rw [hl, hnum, hfill, hcount, ← hsame]
    exact listed_fillPlain hlen fun x hx j => filled_of_kept (hslots x (hsame ▸ hx)) (hs.kept j)
  have hmem : ∀ e ∈ plainListEx cfg r, 14 < e.channel := by
    intro e he
    have hc : e.channel ∈ cfg.channels r.pChDesp := hchannels ▸ List.mem_map_of_mem he
    exact channelGroups_high _ (hgroups _ hc)
  refine ⟨fun history history' => (hlist history).1.trans (hlist history').1.symm, fun history e he => ?_,
    fun history => ?_, fun history => ?_, fun history e he h14 => ?_⟩
  · rw [(hlist history).1] at he
    have := hmem e he
    omega
  · rw [(hlist history).1, hchannels]
    exact hnodup
  · exact Nat.le_trans (hlist history).2 (by decide)
  · rw [(hlist history).1] at he
    have := hmem e he
    omega

def everyPower : List ChannelTxPower :=
  (List.range' 1 14 ++ List.range' 36 8 4 ++ List.range' 100 11 4 ++ List.range' 149 7 4).map fun c =>
    { ChannelTxPower.zero with channel := c }

def twoBuilds : List Config :=
  [⟨WMODE_A, 0, 0, ('A', 'R'), .BOTH, .MAX_RD_REGION, everyPower⟩,
    ⟨WMODE_A ||| WMODE_B, 0, 0, ('A', 'R'), .BOTH, .MAX_RD_REGION, everyPower⟩]

set_option maxRecDepth 4000 in
theorem cap_twoBuilds : (afterBuilds BuildChannelListEx twoBuilds).channelListNum ≠ 0 ∧
    ∀ k < 23, (entryAt (afterBuilds BuildChannelListEx twoBuilds).channelList k).flags &&& CHANNEL_40M_CAP ≠ 0 := by
  decide

theorem exists_first_not_mem {G L : List ℕ} (hnodup : L.Nodup) (hbad : ∃ c ∈ L, c ∉ G) :
    ∃ k c, k ≤ G.length ∧ L[k]? = some c ∧ c ∉ G := by
  by_contra hno
  push Not at hno
  have hsub : L.take (G.length + 1) ⊆ G := by
    intro c hc
    obtain ⟨i, hi⟩ := List.mem_iff_getElem?.1 hc
    rw [List.getElem?_take] at hi
    split_ifs at hi with hlt
    exact hno i c (by omega) hi
  have hle := (List.subperm_of_subset (hnodup.sublist (List.take_sublist _ _)) hsub).length_le
  rw [List.length_take] at hle
  obtain ⟨c, hc, hcG⟩ := hbad
  obtain ⟨i, hi⟩ := List.mem_iff_getElem?.1 hc
  have hlt := (List.getElem?_eq_some_iff.1 hi).1
  exact hcG (hno i c (by omega) hi)

theorem flags_filled_of_not_mem {domain : ℕ} {x : Slot} (hx : x.channel ∉ channelGroups) :
    (x.filled domain .zero).flags &&& CHANNEL_40M_CAP = 0 := by
  have hplain : plainCheck x.channel = false := decide_eq_false fun h => hx h.2
  unfold Slot.filled
  rw [hplain, if_neg Bool.false_ne_true]
  exact (by decide : (0 : BitVec 8) &&& CHANNEL_40M_CAP = 0)

theorem wellBuiltEx_iff_listable (cfg : Config) : WellBuilt BuildChannelListEx cfg ↔ cfg.ListableEx := by
  refine ⟨fun h => ?_, Config.ListableEx.wellBuilt⟩
  obtain ⟨k, r, hk, hr, hmem⟩ := exists_getChRegion cfg.countryCode
  have htidy := tidy_chRegion r hmem
  have hfresh : (BuildChannelListEx cfg (afterBuilds BuildChannelListEx [])).listed = plainListEx cfg r :=
    listed_fresh hk hr
  have hsame := h.same [] twoBuilds
  rw [hfresh] at hsame
  have hs := sound_afterBuilds twoBuilds
  have hlength := congrArg List.length hsame
  unfold plainListEx Channels.listed at hlength
  rw [List.length_map, List.length_map, List.length_range] at hlength
  have hnodup : (cfg.channels r.pChDesp).Nodup := by
    have := h.once []
    rwa [hfresh, map_channel_plainListEx htidy] at this
  refine ⟨k, r, hk, hr, ?_, hnodup, ?_⟩
  · by_contra hno
    rw [hs.channelListNum_of_not_uses hk hr hno, slots_eq_nil hno] at hlength
    exact cap_twoBuilds.1 hlength.symm
  · by_contra hbad
    push Not at hbad
    -- the first channel that is not half of a channel of 40 MHz
    obtain ⟨j, c, hj, hjc, hc⟩ := exists_first_not_mem hnodup hbad
    rw [← channel_slots htidy.first, List.getElem?_map] at hjc
    obtain ⟨x, hx, rfl⟩ := Option.map_eq_some_iff.1 hjc
    have hgroups : channelGroups.length = 22 := rfl
    have hentry := congrArg (·[j]?) hsame
    have hlt := (List.getElem?_eq_some_iff.1 hx).1
    unfold plainListEx Channels.listed at hentry
    rw [List.getElem?_map, hx, List.getElem?_map, List.getElem?_range (by omega), Option.map_some,
      Option.map_some] at hentry
    have hcap := @KeptBySlots.build cfg _ (keptBySlots_cap j) _ (cap_twoBuilds.2 j (by omega))
    rw [← Option.some.inj hentry] at hcap
    exact hcap (flags_filled_of_not_mem hc)

/-- **The channel lists are a function of the configuration** exactly for these configurations. -/
theorem wellBuilt_iff (cfg : Config) :
    (WellBuilt BuildChannelList cfg ↔ cfg.Listable) ∧ (WellBuilt BuildChannelListEx cfg ↔ cfg.ListableEx) :=
  ⟨wellBuilt_iff_listable cfg, wellBuiltEx_iff_listable cfg⟩

def usChannels : Config := ⟨WMODE_B, 0, 0, ('U', 'S'), .BOTH, .MAX_RD_REGION, everyPower⟩

set_option maxRecDepth 4000 in
/-- The first build of all does not find channel 5 when it comes to channel 1. -/
theorem not_wellBuilt_usChannels : ¬∀ cfg, WellBuilt BuildChannelList cfg ∧ WellBuilt BuildChannelListEx cfg := by
  intro h
  have hcap := (h usChannels).1.cap []
  have hfirst : ∃ e ∈ (BuildChannelList usChannels (afterBuilds BuildChannelList [])).listed,
      e.channel = 1 ∧ e.flags &&& CHANNEL_40M_CAP = 0 ∧
        ∃ f ∈ (BuildChannelList usChannels (afterBuilds BuildChannelList [])).listed, f.channel = 5 := by
    decide
  obtain ⟨e, he, hchannel, hflags, f, hf, hfive⟩ := hfirst
  refine (hcap e he (by omega)).2 ⟨by omega, f, hf, Or.inl ?_⟩ hflags
  omega

end Mt7610u.Channel
