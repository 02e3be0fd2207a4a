import Mathlib.Data.List.Nodup
import Mt7610u.Channel.Tables

/-! # The channel lists

The list of channels for the site survey, the way the two builders fill it in. -/

namespace Mt7610u.Channel

/-! ### Data -/

abbrev MAX_NUM_OF_CHANNELS : ℕ := 59

structure ChannelTxPower where
  remainingTimeForUse : ℕ
  channel : ℕ
  bEffectedChannel : Bool
  power : ℤ
  power2 : ℤ
  maxTxPwr : ℕ
  dfsReq : Bool
  regulatoryDomain : ℕ
  flags : BitVec 8
  deriving DecidableEq, Repr

def ChannelTxPower.zero : ChannelTxPower := ⟨0, 0, false, 0, 0, 0, false, 0, 0⟩

/-- `WMODE_A`, `WMODE_B`, `WMODE_G`, `WMODE_GN`, `WMODE_AN`, `WMODE_AC` -/
abbrev WMODE_A : BitVec 8 := 0x01
abbrev WMODE_B : BitVec 8 := 0x02
abbrev WMODE_G : BitVec 8 := 0x04
abbrev WMODE_GN : BitVec 8 := 0x08
abbrev WMODE_AN : BitVec 8 := 0x10
abbrev WMODE_AC : BitVec 8 := 0x20

/-- What the builders read. No table of the operator (`CommonCfg.pChDesp`) is set. -/
structure Config where
  phyMode : BitVec 8
  countryRegion : BitVec 8
  countryRegionForABand : BitVec 8
  countryCode : Char × Char
  geography : Geography
  dfsType : RdRegion
  txPower : List ChannelTxPower

structure Channels where
  channelList : List ChannelTxPower
  channelListNum : ℕ
  /-- The country table is not constant. -/
  chRegion : List ChRegion

def Channels.init : Channels := ⟨List.replicate MAX_NUM_OF_CHANNELS .zero, 0, Channel.chRegion⟩

def entryAt (channelList : List ChannelTxPower) (i : ℕ) : ChannelTxPower := channelList.getD i .zero

def Channels.listed (s : Channels) : List ChannelTxPower := (List.range s.channelListNum).map (entryAt s.channelList)

def WMODE_CAP_5G (x : BitVec 8) : Bool := x &&& (WMODE_A ||| WMODE_AN ||| WMODE_AC) ≠ 0
def WMODE_CAP_2G (x : BitVec 8) : Bool := x &&& (WMODE_B ||| WMODE_G ||| WMODE_GN) ≠ 0
def WMODE_5G_ONLY (x : BitVec 8) : Bool := x &&& (WMODE_B ||| WMODE_G ||| WMODE_GN) = 0

/-! ### The extension channel -/

def IsValidChannel (channelList : List ChannelTxPower) (channelListNum : ℕ) (channel : ℕ) : Bool :=
  (List.range channelListNum).any fun i => (entryAt channelList i).channel = channel

/-- `GetExtCh`, above or below. -/
def GetExtCh (channel : ℕ) (above : Bool) : ℕ := if above then channel + 4 else channel - 4

/-- The channels of the 5 GHz band that `N_ChannelGroupCheck` names. -/
def channelGroups : List ℕ :=
  [36, 44, 52, 60, 100, 108, 116, 124, 132, 149, 157] ++ [40, 48, 56, 64, 104, 112, 120, 128, 136, 153, 161]

def N_ChannelGroupCheck (channelList : List ChannelTxPower) (channelListNum : ℕ) (channel : ℕ) : Bool :=
  if channel > 14 then decide (channel ∈ channelGroups)
  else if channel = 14 then false
  else if IsValidChannel channelList channelListNum (GetExtCh channel true) then true
  else IsValidChannel channelList channelListNum (GetExtCh channel false)

def ChannelTxPower.cap (e : ChannelTxPower) : ChannelTxPower := { e with flags := e.flags ||| CHANNEL_40M_CAP }

def markCap (channelListNum i : ℕ) (channelList : List ChannelTxPower) : List ChannelTxPower :=
  if N_ChannelGroupCheck channelList channelListNum (entryAt channelList i).channel then
    channelList.set i (entryAt channelList i).cap
  else channelList

/-! ### BuildChannelList -/

def TotalChNum (pChDesc : List ChDesc) : ℕ := (pChDesc.map ChDesc.numOfCh).sum

def getChannel (step : ℕ) : List ChDesc → ℕ → ℕ
  | [], _ => 0
  | d :: pChDesc, index =>
    if index < d.numOfCh then d.firstChannel + index * step else getChannel step pChDesc (index - d.numOfCh)

def GetChannel_5GHZ : List ChDesc → ℕ → ℕ := getChannel 4
def GetChannel_2GHZ : List ChDesc → ℕ → ℕ := getChannel 1

def GetChannelFlag : List ChDesc → ℕ → BitVec 8
  | [], _ => 0
  | d :: pChDesc, index => if index < d.numOfCh then d.channelProp else GetChannelFlag pChDesc (index - d.numOfCh)

def radarCh : List ℕ := [52, 56, 60, 64, 100, 104, 108, 112, 116, 120, 124, 128, 132, 136, 140]

def copyPower (txPower : List ChannelTxPower) (channel : ℕ) (flag : BitVec 8) (e : ChannelTxPower) : ChannelTxPower :=
  txPower.foldl (fun e p => { (if channel = p.channel then p else e) with flags := flag }) e

def listChannel (txPower : List ChannelTxPower) (radarCh : List ℕ) (channelListNum i channel : ℕ) (flag : BitVec 8)
    (l : List ChannelTxPower) : List ChannelTxPower :=
  let l := l.set i (copyPower txPower channel flag (entryAt l i))
  let l := markCap channelListNum i l
  let l := if channel ∈ radarCh then l.set i { entryAt l i with dfsReq := true } else l
  l.set i { entryAt l i with maxTxPwr := 20 }

def listBand (txPower : List ChannelTxPower) (radarCh : List ℕ) (channelListNum : ℕ) :
    List (ℕ × BitVec 8) → ℕ → List ChannelTxPower → List ChannelTxPower
  | [], _, l => l
  | (channel, flag) :: rest, i, l =>
    listBand txPower radarCh channelListNum rest (i + 1) (listChannel txPower radarCh channelListNum i channel flag l)

def findRegion (regions : List (ℕ × List ChDesc)) (region : BitVec 8) : Option (List ChDesc) :=
  (regions.find? fun r => (region &&& 0x7f).toNat = r.1).map Prod.snd

/-- `pChannelList` and `pChannelListFlag` of a band. -/
def channels2GHZ (pChDesc : List ChDesc) : List (ℕ × BitVec 8) :=
  (List.range (TotalChNum pChDesc)).map fun i => (GetChannel_2GHZ pChDesc i, GetChannelFlag pChDesc i)

def channels5GHZ (pChDesc : List ChDesc) : List (ℕ × BitVec 8) :=
  (List.range (TotalChNum pChDesc)).map fun i => (GetChannel_5GHZ pChDesc i, GetChannelFlag pChDesc i)

/-- The channels of the first part, `none` when the region is not in the table. -/
def Config.band2GHZ (cfg : Config) : Option (List (ℕ × BitVec 8)) :=
  if WMODE_5G_ONLY cfg.phyMode then some []
  else (findRegion Country_Region_ChDesc_2GHZ cfg.countryRegion).map channels2GHZ

def Config.band5GHZ (cfg : Config) : Option (List (ℕ × BitVec 8)) :=
  if WMODE_CAP_5G cfg.phyMode then
    (findRegion Country_Region_ChDesc_5GHZ cfg.countryRegionForABand).map channels5GHZ
  else some []

/-- `BuildChannelList`. A region that is not in the table ends it, and `ChannelListNum` stays what it was. -/
def BuildChannelList (cfg : Config) (s : Channels) : Channels :=
  let l := List.replicate MAX_NUM_OF_CHANNELS .zero
  match cfg.band2GHZ with
  | none => { s with channelList := l }
  | some band2 =>
    let l := listBand cfg.txPower [] s.channelListNum band2 0 l
    match cfg.band5GHZ with
    | none => { s with channelList := l }
    | some band5 =>
      let l := listBand cfg.txPower radarCh s.channelListNum band5 band2.length l
      { s with channelList := l, channelListNum := band2.length + band5.length }

/-! ### BuildChannelListEx -/

/-- `GetChRegion`: where the country is in the table, and the default `WO` when it is not. -/
def GetChRegion (table : List ChRegion) (countryCode : Char × Char) : Option ℕ :=
  (table.findIdx? fun r => r.countReg = countryCode).or (table.findIdx? fun r => r.countReg = ('W', 'O'))

/-- `ChBandCheck`: whether the 5 GHz band and whether the 2.4 GHz band is used. -/
def ChBandCheck (phyMode : BitVec 8) : Bool × Bool :=
  if WMODE_CAP_5G phyMode = false ∧ WMODE_CAP_2G phyMode = false then (false, true)
  else (WMODE_CAP_5G phyMode, WMODE_CAP_2G phyMode)

def RdRegion.toNat : RdRegion → ℕ
  | CE => 0
  | FCC => 1
  | JAP => 2
  | JAP_W53 => 3
  | JAP_W56 => 4
  | MAX_RD_REGION => 5

/-- An entry that `FillChList` writes. What the entry held before stays where it is not written. -/
def fillEntry (d : ChDesp) (channel regulatoryDomain : ℕ) (p e : ChannelTxPower) : ChannelTxPower :=
  { e with
    power := p.power
    power2 := p.power2
    channel := channel
    maxTxPwr := d.maxTxPwr
    dfsReq := d.dfsReq
    regulatoryDomain := regulatoryDomain }

def Config.Barred (cfg : Config) (channel : ℕ) : Prop :=
  cfg.countryCode = ('J', 'P') ∧ channel = 14 ∧ cfg.phyMode ≠ WMODE_B

instance (cfg : Config) (channel : ℕ) : Decidable (cfg.Barred channel) := by
  unfold Config.Barred
  infer_instance

/-- The loop of `FillChList` with its counters `i` and `j`: the list, `j`, and whether `NumOfCh` was decremented. -/
def fillLoop (cfg : Config) (d : ChDesp) (increment regulatoryDomain channelListNum : ℕ) :
    ℕ → ℕ → ℕ → List ChannelTxPower → List ChannelTxPower × ℕ × Bool
  | 0, _, j, l => (l, j, false)
  | turns + 1, i, j, l =>
    let channel := d.firstChannel + i * increment
    if cfg.Barred channel then (l, j, true)
    else
      match cfg.txPower.find? fun p => channel = p.channel with
      | none => fillLoop cfg d increment regulatoryDomain channelListNum turns (i + 1) j l
      | some p =>
        let l := l.set j (fillEntry d channel regulatoryDomain p (entryAt l j))
        fillLoop cfg d increment regulatoryDomain channelListNum turns (i + 1) (j + 1) (markCap channelListNum j l)

/-- `FillChList`: the list, the number of entries and the run of channels afterwards. -/
def FillChList (cfg : Config) (d : ChDesp) (offset increment regulatoryDomain : ℕ) (l : List ChannelTxPower)
    (channelListNum : ℕ) : List ChannelTxPower × ℕ × ChDesp :=
  let (l, j, cut) := fillLoop cfg d increment regulatoryDomain channelListNum d.numOfCh 0 offset l
  (l, j, if cut then { d with numOfCh := d.numOfCh - 1 } else d)

def usesDesp (cfg : Config) (d : ChDesp) : Bool :=
  let chType := ChBandCheck cfg.phyMode
  if chType = (true, false) ∧ d.firstChannel ≤ 14 then false
  else if chType = (false, true) ∧ d.firstChannel > 14 then false
  else d.geography = .BOTH ∨ cfg.geography = .BOTH ∨ d.geography = cfg.geography

/-- The loop of `CreateChList`: the list, `ChannelListNum` and the runs of channels afterwards. -/
def createLoop (cfg : Config) (dfsType : RdRegion) :
    List ChDesp → ℕ → List ChannelTxPower → ℕ → List ChannelTxPower × ℕ × List ChDesp
  | [], _, l, channelListNum => (l, channelListNum, [])
  | d :: pChDesp, offset, l, channelListNum =>
    if usesDesp cfg d then
      let increment := if d.firstChannel > 14 then 4 else 1
      let regulatoryDomain := (if cfg.dfsType ≠ .MAX_RD_REGION then cfg.dfsType else dfsType).toNat
      let (l, offset, d) := FillChList cfg d offset increment regulatoryDomain l channelListNum
      let (l, channelListNum, pChDesp) := createLoop cfg dfsType pChDesp offset l offset
      (l, channelListNum, d :: pChDesp)
    else
      let (l, channelListNum, pChDesp) := createLoop cfg dfsType pChDesp offset l channelListNum
      (l, channelListNum, d :: pChDesp)

def BuildChannelListEx (cfg : Config) (s : Channels) : Channels :=
  match GetChRegion s.chRegion cfg.countryCode with
  | none => s
  | some k =>
    match s.chRegion[k]? with
    | none => s
    | some pChRegion =>
      let (l, channelListNum, pChDesp) :=
        createLoop cfg pChRegion.dfsType pChRegion.pChDesp 0 s.channelList s.channelListNum
      { channelList := l
        channelListNum := channelListNum
        chRegion := s.chRegion.set k { pChRegion with pChDesp := pChDesp } }

/-! ### What a list should be -/

def afterBuilds (build : Config → Channels → Channels) (history : List Config) : Channels :=
  history.foldl (fun s cfg => build cfg s) .init

/-- What the list for a configuration should be, whatever was built before. -/
structure WellBuilt (build : Config → Channels → Channels) (cfg : Config) : Prop where
  same : ∀ history history',
    (build cfg (afterBuilds build history)).listed = (build cfg (afterBuilds build history')).listed
  nonzero : ∀ history, ∀ e ∈ (build cfg (afterBuilds build history)).listed, e.channel ≠ 0
  once : ∀ history, ((build cfg (afterBuilds build history)).listed.map ChannelTxPower.channel).Nodup
  bound : ∀ history, (build cfg (afterBuilds build history)).channelListNum ≤ MAX_NUM_OF_CHANNELS
  cap : ∀ history, ∀ e ∈ (build cfg (afterBuilds build history)).listed, e.channel ≤ 14 →
    (e.flags &&& CHANNEL_40M_CAP ≠ 0 ↔ e.channel ≠ 14 ∧ ∃ f ∈ (build cfg (afterBuilds build history)).listed,
      f.channel = e.channel + 4 ∨ f.channel + 4 = e.channel)

end Mt7610u.Channel
