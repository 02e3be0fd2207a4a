import Mt7610u.Lib.Bytes
import Mt7610u.Lib.RunningMax

/-! # The summary of the rate lists

`MlmeUpdateTxRates` marks the basic rates of the station's own lists and sums up the lists in use: the lowest
and the highest rate, the basic rates, and the rate of an acknowledgement. The basic rates are a bitmap, of
which the band takes its part; `UpdateBasicRateBitmap` marks by the bitmap it finds, not by the one it leaves. -/

namespace Mt7610u.RateCtrl.TxRates

open Lib Lib.Runs Lib.RunningMax

/-! ### Rates -/

def maxLen : ℕ := 12

/-- `rate[]`: the codes of `RATE_1` … `RATE_54`. -/
def rate (i : ℕ) : Byte := [2#8, 4, 11, 22, 12, 18, 24, 36, 48, 72, 96, 108].getD i 0

def code (e : Byte) : Byte := e &&& 0x7f

/-- `e & 0x80` -/
def marked (e : Byte) : Bool := e.getLsbD 7

def rateId (c : Byte) : Option ℕ := (List.range maxLen).find? fun i => rate i == c

/-- `RATE_1`, `RATE_11`, `RATE_6`, `RATE_12`, `RATE_24`, `RATE_54` -/
def rate1 : ℕ := 0
def rate11 : ℕ := 3
def rate6 : ℕ := 4
def rate12 : ℕ := 6
def rate24 : ℕ := 8
def rate54 : ℕ := 11

/-! ### `UpdateBasicRateBitmap` -/

/-- `BasicRateBitmap` and `BasicRateBitmapOld`. -/
structure Bitmaps where
  basicRateBitmap : BitVec 64
  basicRateBitmapOld : BitVec 64

/-- The turn of the loop for bit `i`. -/
def markRate (bitmap : BitVec 64) (l : List Byte) (i : ℕ) : List Byte :=
  if bitmap.getLsbD i then l.map fun e => if e = rate i then e ||| 0x80 else e else l

def markRates (bitmap : BitVec 64) (l : List Byte) : List Byte :=
  (List.range maxLen).foldl (markRate bitmap) (l.map (· &&& 0x7f))

def Bitmaps.forBand (b : Bitmaps) (channel : ℕ) : Bitmaps :=
  if channel > 14 then
    -- no 11b rate in the 5G band, and 6, 12, 24M
    let b := if b.basicRateBitmap &&& 0xF ≠ 0 then ⟨b.basicRateBitmap &&& ~~~0xF, b.basicRateBitmap⟩ else b
    { b with basicRateBitmap := b.basicRateBitmap ||| 0x150 }
  else ⟨b.basicRateBitmapOld, b.basicRateBitmapOld⟩

/-- `UpdateBasicRateBitmap`, with the bitmaps, `SupRate` and `ExtRate` after it. -/
def updateBasicRateBitmap (channel : ℕ) (b : Bitmaps) (supRate extRate : List Byte) :
    Bitmaps × List Byte × List Byte :=
  let bitmap := b.basicRateBitmap
  let b := b.forBand channel
  if b.basicRateBitmap > 4095 then (b, supRate, extRate)
  else (b, markRates bitmap supRate, markRates bitmap extRate)

/-! ### `MlmeUpdateTxRates` -/

/-- What a call reads: of the configuration and of the network, with the lists up to their lengths. -/
structure Env where
  bLinkUp : Bool
  channel : ℕ
  wmodeEqualB : Bool
  wmodeCapB : Bool
  bssAdhoc : Bool
  /-- `ADHOC_ON(pAd) || INFRA_ON(pAd)` -/
  linkOn : Bool
  supRate : List Byte
  extRate : List Byte
  activeSupRate : List Byte
  activeExtRate : List Byte
  desireRate : List Byte
  htMcs : ℕ
  dbm : ℤ

/-- What a call leaves. `mlmeRate` and `rtsRate` are set only without `bLinkUp`. -/
structure Summary where
  supRate : List Byte
  extRate : List Byte
  maxDesiredRate : ℕ
  autoTxRateSwitch : Bool
  legacyBasicRate : BitVec 32
  expectedACKRate : ℕ → ℕ
  maxTxRate : ℕ
  minTxRate : ℕ
  txRate : ℕ
  maxHtMode : ℕ
  maxHtMcs : ℕ
  minHtMcs : ℕ
  mlmeRates : Option (ℕ × ℕ)

/-- The variables of the loop over `DesireRate`. -/
structure Desire where
  rate : ℕ
  maxDesire : ℕ
  num : ℕ

def Desire.turn (d : Desire) (e : Byte) : Desire :=
  let d := match rateId (code e) with
    | some r => { d with rate := r, num := d.num + 1 }
    | none => d
  { d with maxDesire := max d.maxDesire d.rate }

structure Support where
  maxSupport : ℕ
  minSupport : ℕ
  basicRateBitmap : BitVec 32

def countsBasic (e : Byte) (r : ℕ) : Bool := marked e || r == rate6 || r == rate12 || r == rate24

def Support.turn (s : Support) (e : Byte) : Support :=
  let bitmap := match rateId (code e) with
    | some r => if countsBasic e r then s.basicRateBitmap ||| BitVec.twoPow 32 r else s.basicRateBitmap
    | none => s.basicRateBitmap
  let r := (rateId (code e)).getD rate1
  ⟨max s.maxSupport r, min s.minSupport r, bitmap⟩

/-- `CurrBasicRate` in turn `i` of the loop over `ExpectedACKRate`. -/
def currBasicRate (bitmap : BitVec 32) : ℕ → ℕ
  | 0 => if bitmap.getLsbD 0 then 0 else rate1
  | i + 1 => if bitmap.getLsbD (i + 1) then i + 1 else currBasicRate bitmap i

/-- `MCS_AUTO`, `MODE_CCK`, `MODE_OFDM` -/
def mcsAuto : ℕ := 33
def modeCck : ℕ := 0
def modeOfdm : ℕ := 1

def ofdmRateToRxwiMCS (r : ℕ) : ℕ := [0, 0, 0, 0, 0, 1, 2, 3, 4, 5, 6, 7].getD r 0

def txRate (env : Env) (auto : Bool) (maxTxRate : ℕ) : ℕ :=
  if auto then
    let r := if env.bLinkUp then rate24 else maxTxRate
    let r := if env.dbm < -75 then rate11 else if env.dbm < -70 then rate24 else r
    min r maxTxRate
  else maxTxRate

def inUse (env : Env) (supRate extRate : List Byte) : List Byte :=
  if env.linkOn then env.activeSupRate ++ env.activeExtRate else supRate ++ extRate

def mlmeUpdateTxRates (b : Bitmaps) (env : Env) : Bitmaps × Summary :=
  let (b, supRate, extRate) := updateBasicRateBitmap env.channel b env.supRate env.extRate
  let d := env.desireRate.foldl Desire.turn ⟨rate6, rate1, 0⟩
  let maxDesire := if env.bssAdhoc && env.wmodeEqualB && d.maxDesire > rate11 then rate11 else d.maxDesire
  -- the decision by `num` is overwritten by the one by `HtMcs`
  let auto := env.htMcs == mcsAuto
  let s := (inUse env supRate extRate).foldl Support.turn ⟨rate1, rate54, 0⟩
  let maxTxRate := if s.maxSupport < maxDesire then s.maxSupport else maxDesire
  let tx := txRate env auto maxTxRate
  (b,
    { supRate := supRate
      extRate := extRate
      maxDesiredRate := maxDesire
      autoTxRateSwitch := auto
      legacyBasicRate := s.basicRateBitmap
      expectedACKRate := currBasicRate s.basicRateBitmap
      maxTxRate := maxTxRate
      minTxRate := s.minSupport
      txRate := tx
      maxHtMode := if tx ≤ rate11 then modeCck else modeOfdm
      maxHtMcs := if tx ≤ rate11 then tx else ofdmRateToRxwiMCS tx
      minHtMcs :=
        if rate11 < tx ∧ rate6 ≤ s.minSupport ∧ s.minSupport ≤ rate54 then ofdmRateToRxwiMCS s.minSupport
        else s.minSupport
      mlmeRates :=
        if env.bLinkUp then none
        else if env.wmodeCapB ∧ env.channel ≤ 14 then some (rate1, rate11)
        else some (rate6, rate6) })

/-! ### Runs of calls -/

structure State where
  bitmaps : Bitmaps
  configured : BitVec 64
  last : Option (Env × Summary)

/-- The bitmaps of `UserCfgInit`. -/
def State.init : State := ⟨⟨0xF, 0xF⟩, 0xF, none⟩

/-- What happens: the profile sets both bitmaps, or the rates are updated, with any lists on any channel. -/
inductive Op
  | configure (bitmap : BitVec 64)
  | update (env : Env)

def step (s : State) : Op → State
  | .configure bitmap => ⟨⟨bitmap, bitmap⟩, bitmap, none⟩
  | .update env =>
    let (b, out) := mlmeUpdateTxRates s.bitmaps env
    ⟨b, s.configured, some (env, out)⟩

def Occurs (l : List Byte) (r : ℕ) : Prop := ∃ e ∈ l, rateId (code e) = some r

def Basic (l : List Byte) (r : ℕ) : Prop := ∃ e ∈ l, rateId (code e) = some r ∧ countsBasic e r = true

structure Exact (configured bitmap : BitVec 64) (env : Env) (out : Summary) : Prop where
  listed : out.supRate.map code = env.supRate.map code ∧ out.extRate.map code = env.extRate.map code
  marks : bitmap ≤ 4095 → ∀ e ∈ out.supRate ++ out.extRate,
    (marked e = true ↔ ∃ r, rateId (code e) = some r ∧ bitmap.getLsbD r = true)
  noCck : bitmap ≤ 4095 → 14 < env.channel → ∀ e ∈ out.supRate ++ out.extRate, marked e = true →
    ∃ r, rateId (code e) = some r ∧ rate6 ≤ r
  restored : env.channel ≤ 14 → bitmap = configured
  lowest : ∀ r, IsLeast {r | Occurs (inUse env out.supRate out.extRate) r} r → out.minTxRate = r
  highest : ∀ r, IsGreatest {r | Occurs (inUse env out.supRate out.extRate) r} r →
    out.maxTxRate = min out.maxDesiredRate r
  ack : ∀ i < maxLen,
    (∀ r, IsGreatest {r | Basic (inUse env out.supRate out.extRate) r ∧ r ≤ i} r → out.expectedACKRate i = r) ∧
    ((∀ r ≤ i, ¬Basic (inUse env out.supRate out.extRate) r) → out.expectedACKRate i = rate1)

def Summarized (s : State) : Prop :=
  ∀ env out, s.last = some (env, out) → Exact s.configured s.bitmaps.basicRateBitmap env out

def Found (b : Bitmaps) (env : Env) : Prop :=
  if 14 < env.channel then
    b.basicRateBitmap ≤ 4095 → ∀ r, Occurs (env.supRate ++ env.extRate) r →
      (r < rate6 → b.basicRateBitmap.getLsbD r = false) ∧
      (r = rate6 ∨ r = rate12 ∨ r = rate24 → b.basicRateBitmap.getLsbD r = true)
  else
    b.basicRateBitmapOld ≤ 4095 → ∀ r, Occurs (env.supRate ++ env.extRate) r →
      b.basicRateBitmap.getLsbD r = b.basicRateBitmapOld.getLsbD r

def RatesOnly (env : Env) : Prop :=
  (∀ e ∈ inUse env env.supRate env.extRate, rateId (code e) ≠ none) ∨
    (∀ e ∈ inUse env env.supRate env.extRate, rateId (code e) = none) ∨
    Occurs (inUse env env.supRate env.extRate) rate1

def Sound (s : State) : Op → Prop
  | .configure _ => True
  | .update env => Found s.bitmaps env ∧ RatesOnly env

end Mt7610u.RateCtrl.TxRates
