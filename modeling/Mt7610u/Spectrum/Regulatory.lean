import Mathlib.Data.List.GetD
import Mathlib.Data.List.OfFn

/-! # The regulatory power of a channel

`GetRegulatoryMaxTxPwr` of `common/spectrum.c`, with its two tables. -/

namespace Mt7610u.Spectrum

structure ChannelSet where
  numberOfChannels : ℕ
  maxTxPwr : BitVec 8
  channelList : List (BitVec 8)
deriving DecidableEq

structure RegulatoryInformation where
  regulatoryClass : ℕ
  channelSet : ChannelSet
deriving DecidableEq

def RegulatoryInformation.invalid : RegulatoryInformation := ⟨0, 0, 0, [0]⟩

def usaRegulatoryInfo : List RegulatoryInformation :=
  [.invalid,
    ⟨1, 4, 16, [36, 40, 44, 48]⟩,
    ⟨2, 4, 23, [52, 56, 60, 64]⟩,
    ⟨3, 4, 29, [149, 153, 157, 161]⟩,
    ⟨4, 11, 23, [100, 104, 108, 112, 116, 120, 124, 128, 132, 136, 140]⟩,
    ⟨5, 5, 30, [149, 153, 157, 161, 165]⟩,
    ⟨6, 10, 14, [1, 2, 3, 4, 5, 6, 7, 8, 9, 10]⟩,
    ⟨7, 10, 27, [1, 2, 3, 4, 5, 6, 7, 8, 9, 10]⟩,
    ⟨8, 5, 17, [11, 13, 15, 17, 19]⟩,
    ⟨9, 5, 30, [11, 13, 15, 17, 19]⟩,
    ⟨10, 2, 20, [21, 25]⟩,
    ⟨11, 2, 33, [21, 25]⟩,
    ⟨12, 11, 30, [1, 2, 3, 4, 5, 6, 7, 8, 9, 10, 11]⟩]

def japanRegulatoryInfo : List RegulatoryInformation :=
  [.invalid,
    ⟨1, 4, 22, [34, 38, 42, 46]⟩,
    ⟨2, 3, 24, [8, 12, 16]⟩,
    ⟨3, 3, 24, [8, 12, 16]⟩,
    ⟨4, 3, 24, [8, 12, 16]⟩,
    ⟨5, 3, 24, [8, 12, 16]⟩,
    ⟨6, 3, 22, [8, 12, 16]⟩,
    ⟨7, 4, 24, [184, 188, 192, 196]⟩,
    ⟨8, 4, 24, [184, 188, 192, 196]⟩,
    ⟨9, 4, 24, [184, 188, 192, 196]⟩,
    ⟨10, 4, 24, [184, 188, 192, 196]⟩,
    ⟨11, 4, 22, [184, 188, 192, 196]⟩,
    ⟨12, 4, 24, [7, 8, 9, 11]⟩,
    ⟨13, 4, 24, [7, 8, 9, 11]⟩,
    ⟨14, 4, 24, [7, 8, 9, 11]⟩,
    ⟨15, 4, 24, [7, 8, 9, 11]⟩,
    ⟨16, 6, 24, [183, 184, 185, 187, 188, 189]⟩,
    ⟨17, 6, 24, [183, 184, 185, 187, 188, 189]⟩,
    ⟨18, 6, 24, [183, 184, 185, 187, 188, 189]⟩,
    ⟨19, 6, 24, [183, 184, 185, 187, 188, 189]⟩,
    ⟨20, 6, 17, [183, 184, 185, 187, 188, 189]⟩,
    ⟨21, 6, 24, [6, 7, 8, 9, 10, 11]⟩,
    ⟨22, 6, 24, [6, 7, 8, 9, 10, 11]⟩,
    ⟨23, 6, 24, [6, 7, 8, 9, 10, 11]⟩,
    ⟨24, 6, 24, [6, 7, 8, 9, 10, 11]⟩,
    ⟨25, 8, 24, [182, 183, 184, 185, 186, 187, 188, 189]⟩,
    ⟨26, 8, 24, [182, 183, 184, 185, 186, 187, 188, 189]⟩,
    ⟨27, 8, 24, [182, 183, 184, 185, 186, 187, 188, 189]⟩,
    ⟨28, 8, 24, [182, 183, 184, 185, 186, 187, 188, 189]⟩,
    ⟨29, 8, 17, [182, 183, 184, 185, 186, 187, 188, 189]⟩,
    ⟨30, 13, 23, [1, 2, 3, 4, 5, 6, 7, 8, 9, 10, 11, 12, 13]⟩,
    ⟨31, 1, 23, [14]⟩,
    ⟨32, 4, 22, [52, 56, 60, 64]⟩]

abbrev MAX_NUM_OF_REGULATORY_CLASS : ℕ := 16

def regulatoryInfo (countryCode : Char × Char) : Option (List RegulatoryInformation) :=
  if countryCode = ('U', 'S') then some usaRegulatoryInfo
  else if countryCode = ('J', 'P') then some japanRegulatoryInfo
  else none

def channelSetOf (table : List RegulatoryInformation) (regulatoryClass : BitVec 8) : ChannelSet :=
  (table.getD regulatoryClass.toNat .invalid).channelSet

/-- `ChIdx` when the loop over the channels of a set is left: at the channel, or behind the last one. -/
def ChannelSet.chIdx (s : ChannelSet) (channel : BitVec 8) : ℕ :=
  ((List.range s.numberOfChannels).find? fun i => channel = s.channelList.getD i 0).getD s.numberOfChannels

def classLoop (table : List RegulatoryInformation) (channel : BitVec 8) : List (BitVec 8) → BitVec 8
  | [] => 0xff
  | regulatoryClass :: rest =>
    if table.length ≤ regulatoryClass.toNat then 0xff
    else
      let channelSet := channelSetOf table regulatoryClass
      let chIdx := channelSet.chIdx channel
      if chIdx < channelSet.numberOfChannels then channelSet.maxTxPwr
      -- a set that was searched to its end ends the whole search
      else if chIdx = channelSet.numberOfChannels then 0xff
      else classLoop table channel rest

def getRegulatoryMaxTxPwr (countryCode : Char × Char)
    (regulatoryClass : Fin MAX_NUM_OF_REGULATORY_CLASS → BitVec 8) (channel : BitVec 8) : BitVec 8 :=
  match regulatoryInfo countryCode with
  | none => 0xff
  | some table => classLoop table channel (List.ofFn regulatoryClass)

/-! ### What is asked -/

def ChannelSet.channels (s : ChannelSet) : List (BitVec 8) :=
  (List.range s.numberOfChannels).map fun i => s.channelList.getD i 0

def ClassHas (table : List RegulatoryInformation) (channel regulatoryClass : BitVec 8) : Prop :=
  channel ∈ (channelSetOf table regulatoryClass).channels

instance (table : List RegulatoryInformation) (channel : BitVec 8) : DecidablePred (ClassHas table channel) :=
  fun _ => inferInstanceAs (Decidable (_ ∈ _))

def firstClass (table : List RegulatoryInformation) (channel : BitVec 8)
    (regulatoryClass : Fin MAX_NUM_OF_REGULATORY_CLASS → BitVec 8) : Option (BitVec 8) :=
  (List.ofFn regulatoryClass).find? (ClassHas table channel ·)

/-- **The search looks up the channel**: it answers with the power of the first configured class that has it, and with
`0xff` only if none has. -/
structure LooksUp (countryCode : Char × Char) (table : List RegulatoryInformation)
    (regulatoryClass : Fin MAX_NUM_OF_REGULATORY_CLASS → BitVec 8) (channel : BitVec 8) : Prop where
  first : ∀ c, firstClass table channel regulatoryClass = some c →
    getRegulatoryMaxTxPwr countryCode regulatoryClass channel = (channelSetOf table c).maxTxPwr
  none : getRegulatoryMaxTxPwr countryCode regulatoryClass channel = 0xff →
    ∀ i, ¬ ClassHas table channel (regulatoryClass i)

/-! ### What the search does -/

section

variable {table : List RegulatoryInformation} {channel : BitVec 8}

theorem chIdx_lt_iff (s : ChannelSet) : s.chIdx channel < s.numberOfChannels ↔ channel ∈ s.channels := by
  unfold ChannelSet.chIdx ChannelSet.channels
  rw [List.mem_map]
  cases hfind : (List.range s.numberOfChannels).find? fun i => channel = s.channelList.getD i 0 with
  | none =>
    rw [Option.getD_none, List.find?_eq_none] at *
    refine iff_of_false (lt_irrefl _) ?_
    rintro ⟨i, hi, rfl⟩
    exact hfind i hi (decide_eq_true rfl)
  | some i =>
    have hi := List.mem_range.1 (List.mem_of_find?_eq_some hfind)
    have heq : channel = s.channelList.getD i 0 := by simpa using List.find?_some hfind
    exact iff_of_true hi ⟨i, List.mem_range.2 hi, heq.symm⟩

theorem chIdx_le (s : ChannelSet) : s.chIdx channel ≤ s.numberOfChannels := by
  unfold ChannelSet.chIdx
  cases hfind : (List.range s.numberOfChannels).find? fun i => channel = s.channelList.getD i 0 with
  | none => exact le_rfl
  | some i => exact (List.mem_range.1 (List.mem_of_find?_eq_some hfind)).le

theorem classLoop_cons {c : BitVec 8} (hvalid : c.toNat < table.length) (rest : List (BitVec 8)) :
    classLoop table channel (c :: rest) =
      if ClassHas table channel c then (channelSetOf table c).maxTxPwr else 0xff := by
  unfold classLoop
  dsimp only
  rw [if_neg (by omega)]
  by_cases h : ClassHas table channel c
  · rw [if_pos h, if_pos ((chIdx_lt_iff _).2 h)]
  · have hge := (chIdx_lt_iff _).not.2 h
    have hle := @chIdx_le channel (channelSetOf table c)
    rw [if_neg h, if_neg hge, if_pos (by omega)]

end

theorem classHas_firstClass {table : List RegulatoryInformation} {channel c : BitVec 8}
    {regulatoryClass : Fin MAX_NUM_OF_REGULATORY_CLASS → BitVec 8}
    (h : firstClass table channel regulatoryClass = some c) :
    ClassHas table channel c ∧ ∃ i, regulatoryClass i = c := by
  unfold firstClass at h
  exact ⟨by simpa using List.find?_some h, List.mem_ofFn.1 (List.mem_of_find?_eq_some h)⟩

theorem maxTxPwr_ne {countryCode : Char × Char} {table : List RegulatoryInformation}
    (h : regulatoryInfo countryCode = some table) (c : BitVec 8) : (channelSetOf table c).maxTxPwr ≠ 0xff := by
  have hall : ∀ e ∈ table, e.channelSet.maxTxPwr ≠ 0xff := by
    unfold regulatoryInfo at h
    split_ifs at h
    · cases h
      decide
    · cases h
      decide
  unfold channelSetOf
  rcases Nat.lt_or_ge c.toNat table.length with hlt | hge
  · rw [List.getD_eq_getElem _ _ hlt]
    exact hall _ (List.getElem_mem hlt)
  · rw [List.getD_eq_default _ _ hge]
    decide

/-- **When the search looks up the channel**: exactly when the first configured class has it, or none has. -/
theorem looksUp_iff {countryCode : Char × Char} {table : List RegulatoryInformation}
    (htable : regulatoryInfo countryCode = some table)
    (regulatoryClass : Fin MAX_NUM_OF_REGULATORY_CLASS → BitVec 8)
    (hvalid : ∀ i, (regulatoryClass i).toNat < table.length) (channel : BitVec 8) :
    LooksUp countryCode table regulatoryClass channel ↔
      ClassHas table channel (regulatoryClass 0) ∨ ∀ i, ¬ ClassHas table channel (regulatoryClass i) := by
  have hlist : List.ofFn regulatoryClass = regulatoryClass 0 :: List.ofFn fun i : Fin 15 => regulatoryClass i.succ :=
    List.ofFn_succ
  have hget : getRegulatoryMaxTxPwr countryCode regulatoryClass channel =
      if ClassHas table channel (regulatoryClass 0) then (channelSetOf table (regulatoryClass 0)).maxTxPwr
      else 0xff := by
    unfold getRegulatoryMaxTxPwr
    rw [htable, hlist]
    exact classLoop_cons (hvalid 0) _
  constructor
  · intro h
    by_cases hfirst : ClassHas table channel (regulatoryClass 0)
    · exact Or.inl hfirst
    · rw [if_neg hfirst] at hget
      exact Or.inr (h.none hget)
  · rintro (hfirst | hnone)
    · rw [if_pos hfirst] at hget
      constructor
      · intro c hc
        have hhead : firstClass table channel regulatoryClass = some (regulatoryClass 0) := by
          unfold firstClass
          rw [hlist]
          exact List.find?_cons_of_pos (by simpa using hfirst)
        rw [hhead] at hc
        cases hc
        exact hget
      · intro heq
        exact absurd (hget.symm.trans heq) (maxTxPwr_ne htable _)
    · refine ⟨fun c hc => ?_, fun _ => hnone⟩
      obtain ⟨hhas, i, rfl⟩ := classHas_firstClass hc
      exact absurd hhas (hnone i)

theorem neZero_classes : @NeZero ℕ Zero.ofOfNat0 MAX_NUM_OF_REGULATORY_CLASS := ⟨by decide⟩

attribute [local instance] neZero_classes in
def twoClasses : Fin MAX_NUM_OF_REGULATORY_CLASS → BitVec 8 := fun i => if i = 0 then 1 else if i = 1 then 2 else 0

theorem looksUp_iff_twoClasses :
    LooksUp ('U', 'S') usaRegulatoryInfo twoClasses 36 ↔
      ClassHas usaRegulatoryInfo 36 (twoClasses 0) ∨ ∀ i, ¬ ClassHas usaRegulatoryInfo 36 (twoClasses i) :=
  looksUp_iff rfl twoClasses (by decide) 36

/-- Channel 52 is in the second class, and the search ends with the first. -/
theorem not_looksUp_twoClasses : ¬ LooksUp ('U', 'S') usaRegulatoryInfo twoClasses 52 := by
  intro h
  exact h.none (by decide) 1 (by decide)

end Mt7610u.Spectrum
