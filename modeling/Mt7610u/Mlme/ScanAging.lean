import Mathlib.Data.Nat.ModEq
import Mt7610u.Mlme.BssTable
import Mt7610u.Lib.Sweep

/-! # Ageing of the scan table

`MaintainBssTable` takes the entries out of the scan table that have not been heard of for too long. -/

namespace Mt7610u.Mlme

open Lib

/-! ### The code -/

/-- The fields of a `BSS_ENTRY` that only the ageing uses. -/
structure Aging (w : ℕ) where
  sameRxTimeCount : Byte
  lastBeaconRxTimeA : BitVec w

/-- The scan table, with these fields of each slot beside the entry. `w` is the width of `ULONG`. -/
structure ScanTab (w : ℕ) where
  tab : BssTable
  aging : ℕ → Aging w

/-- What `MaintainBssTable` is given, and what it reads of the system and of the adapter. -/
structure Upkeep (w : ℕ) where
  nowTime : BitVec w
  osHz : ℕ
  maxRxTimeDiff : BitVec w
  maxSameRxTimeCount : Byte
  mediaStateConnected : Bool
  ssid : ℕ → Byte
  ssidLen : ℕ

variable {w : ℕ}

def timeAfter (a b : BitVec w) : Bool := (b - a).msb

/-- `LastBeaconRxTime` as a `ULONG`. -/
def BssEntry.rxTime (w : ℕ) (e : BssEntry) : BitVec w := BitVec.ofNat w e.lastBeaconRxTime

/-- The first step for an entry: is it the time of the last beacon still? -/
def Aging.count (g : Aging w) (e : BssEntry) : Aging w :=
  if g.lastBeaconRxTimeA ≠ e.rxTime w then ⟨0, e.rxTime w⟩
  else { g with sameRxTimeCount := g.sameRxTimeCount + 1 }

namespace Upkeep

variable (u : Upkeep w)

def guarded (e : BssEntry) : Bool := u.mediaStateConnected && equalMemory e.ssid u.ssid u.ssidLen

/-- `bDelEntry`, for an entry that was counted. -/
def bDelEntry (e : BssEntry) (g : Aging w) : Bool :=
  (timeAfter u.nowTime (e.rxTime w + u.maxRxTimeDiff * BitVec.ofNat w u.osHz) ||
      u.maxSameRxTimeCount < g.sameRxTimeCount) && !u.guarded e

end Upkeep

namespace ScanTab

/-- The first step for slot `i`. -/
def countSlot (t : ScanTab w) (i : ℕ) : ScanTab w :=
  { t with aging := Function.update t.aging i ((t.aging i).count (t.tab.bssEntry i)) }

/-- The loop that closes the gap, over `n` slots from `j` on. -/
def shift (t : ScanTab w) : ℕ → ℕ → ScanTab w
  | _, 0 => t
  | j, n + 1 =>
    ({ tab := t.tab.shiftOne j, aging := Function.update t.aging j (t.aging (j + 1)) } : ScanTab w).shift (j + 1) n

/-- The deletion of slot `i` of a table with `total` entries. -/
def removeSlot (t : ScanTab w) (i total : ℕ) : ScanTab w :=
  let s := t.shift i (total - 1 - i)
  { tab :=
      { s.tab.clearVie (total - 1) with
        bssEntry := Function.update s.tab.bssEntry (total - 1) BssEntry.zero }
    aging := Function.update s.aging (total - 1) ⟨0, 0⟩ }

/-- `bDelEntry` for slot `i`. -/
def deletes (u : Upkeep w) (t : ScanTab w) (i : ℕ) : Bool :=
  u.bDelEntry (t.tab.bssEntry i) ((t.aging i).count (t.tab.bssEntry i))

/-- The loop from slot `i` on, with `total_bssNr`; `turns` bounds its turns. -/
def maintainLoop (u : Upkeep w) : (turns i total : ℕ) → ScanTab w → ScanTab w × ℕ
  | 0, _, total, t => (t, total)
  | turns + 1, i, total, t =>
    if i < total then
      if t.deletes u i then maintainLoop u turns (i + 1) (total - 1) ((t.countSlot i).removeSlot i total)
      else maintainLoop u turns (i + 1) total (t.countSlot i)
    else (t, total)

def maintainBssTable (u : Upkeep w) (t : ScanTab w) : ScanTab w :=
  let r := maintainLoop u t.tab.bssNr 0 t.tab.bssNr t
  { r.1 with tab := { r.1.tab with bssNr := r.2 } }

/-! ### What it is for -/

end ScanTab

namespace Upkeep

variable (u : Upkeep w)

def limit : ℕ := u.maxRxTimeDiff.toNat * u.osHz

def age (e : BssEntry) : ℕ := (u.nowTime - e.rxTime w).toNat

def OfConnectedSsid (e : BssEntry) : Prop :=
  u.mediaStateConnected = true ∧ BssTable.ssidEqual e.ssid e.ssidLen u.ssid u.ssidLen = true

instance (e : BssEntry) : Decidable (u.OfConnectedSsid e) := inferInstanceAs (Decidable (_ ∧ _))

def Stale (e : BssEntry) (g : Aging w) : Prop :=
  (u.limit < u.age e ∨ u.maxSameRxTimeCount < (g.count e).sameRxTimeCount) ∧ ¬ u.OfConnectedSsid e

instance (e : BssEntry) (g : Aging w) : Decidable (u.Stale e g) := inferInstanceAs (Decidable (_ ∧ _))

/-- The comparison of times is right: age and limit are not too far apart. -/
def Timely (e : BssEntry) : Prop :=
  (u.age e ≤ u.limit → (u.limit - u.age e) % 2 ^ w < 2 ^ (w - 1)) ∧
    (u.limit < u.age e → u.age e - u.limit ≤ 2 ^ (w - 1))

end Upkeep

namespace ScanTab

/-- The entry in slot `k` has to go. -/
def StaleAt (u : Upkeep w) (t : ScanTab w) (k : ℕ) : Prop := u.Stale (t.tab.bssEntry k) (t.aging k)

instance (u : Upkeep w) (t : ScanTab w) (k : ℕ) : Decidable (t.StaleAt u k) :=
  inferInstanceAs (Decidable (u.Stale _ _))

def kept (u : Upkeep w) (t : ScanTab w) : List ℕ := (List.range t.tab.bssNr).filter fun k => ¬ t.StaleAt u k

/-- **The ageing is exact**: the entries that stay are there in order, each with its content and that of its buffer,
and every slot has the buffer that it had. -/
def AgesExactly (u : Upkeep w) (t : ScanTab w) : Prop :=
  (t.maintainBssTable u).tab.views = (t.kept u).map t.tab.view ∧ ∀ k, (t.maintainBssTable u).tab.ptr k = t.tab.ptr k

structure Orderly (u : Upkeep w) (t : ScanTab w) : Prop where
  /-- no two entries that go are neighbours -/
  apart : ∀ k, k + 1 < t.tab.bssNr → t.StaleAt u k → ¬ t.StaleAt u (k + 1)
  /-- none that goes has an SSID that only begins like the one of the connection -/
  ssids : ∀ k < t.tab.bssNr, t.StaleAt u k → u.guarded (t.tab.bssEntry k) = false
  /-- the comparison of times is right wherever it decides -/
  times : ∀ k < t.tab.bssNr, (∀ j, j + 1 = k → ¬ t.StaleAt u j) → u.guarded (t.tab.bssEntry k) = false →
    ((t.aging k).count (t.tab.bssEntry k)).sameRxTimeCount ≤ u.maxSameRxTimeCount → u.Timely (t.tab.bssEntry k)
  /-- behind one that goes, no slot without a buffer is followed by one with a buffer -/
  buffers : ∀ k < t.tab.bssNr, t.StaleAt u k → ∀ j, k ≤ j → j + 1 < t.tab.bssNr →
    t.tab.ptr j = none → t.tab.ptr (j + 1) = none
  /-- the slots that come free have no buffers -/
  freed : ∀ k, (t.kept u).length ≤ k → k < t.tab.bssNr → t.tab.ptr k = none

end ScanTab

/-! ### One entry -/

section

variable (u : Upkeep w) (e : BssEntry)

theorem toNat_timeAfter :
    (e.rxTime w + u.maxRxTimeDiff * BitVec.ofNat w u.osHz - u.nowTime).toNat =
      if u.age e ≤ u.limit then (u.limit - u.age e) % 2 ^ w else 2 ^ w - (u.age e - u.limit) := by
  set x := e.rxTime w + u.maxRxTimeDiff * BitVec.ofNat w u.osHz - u.nowTime with hx
  have hsum : x + (u.nowTime - e.rxTime w) = u.maxRxTimeDiff * BitVec.ofNat w u.osHz := by
    rw [hx]
    grind
  have hmod : (x.toNat + u.age e) % 2 ^ w = u.limit % 2 ^ w := by
    have := congrArg BitVec.toNat hsum
    rwa [BitVec.toNat_add, BitVec.toNat_mul, BitVec.toNat_ofNat, Nat.mul_mod_mod] at this
  have hxlt : x.toNat < 2 ^ w := x.isLt
  have hage : u.age e < 2 ^ w := BitVec.isLt _
  split_ifs with hle
  · rw [← Nat.sub_add_cancel hle] at hmod
    have := Nat.ModEq.add_right_cancel' (u.age e) hmod
    rw [← this, Nat.mod_eq_of_lt hxlt]
  · rw [Nat.mod_eq_of_lt (by omega : u.limit < 2 ^ w)] at hmod
    rcases Nat.lt_or_ge (x.toNat + u.age e) (2 ^ w) with hlt | hge
    · rw [Nat.mod_eq_of_lt hlt] at hmod
      omega
    · rw [Nat.mod_eq_sub_mod hge, Nat.mod_eq_of_lt (by omega)] at hmod
      omega

theorem timely_iff :
    (timeAfter u.nowTime (e.rxTime w + u.maxRxTimeDiff * BitVec.ofNat w u.osHz) = true ↔ u.limit < u.age e) ↔
      u.Timely e := by
  unfold timeAfter Upkeep.Timely
  rw [BitVec.msb_eq_decide, decide_eq_true_iff, toNat_timeAfter]
  have hage : u.age e < 2 ^ w := BitVec.isLt _
  have hpos : 0 < 2 ^ w := Nat.two_pow_pos w
  have hhalf : 2 ^ w = 1 ∧ u.age e = 0 ∨ 2 ^ w = 2 ^ (w - 1) + 2 ^ (w - 1) := by
    rcases Nat.eq_zero_or_pos w with rfl | hw
    · exact .inl ⟨rfl, by omega⟩
    · right
      rw [← Nat.two_mul, Nat.mul_comm, Nat.pow_pred_mul hw]
  have hmod : (u.limit - u.age e) % 2 ^ w < 2 ^ w := Nat.mod_lt _ hpos
  split_ifs with hle
  · omega
  · omega

variable {u e}

theorem guarded_of_ofConnectedSsid (h : u.OfConnectedSsid e) : u.guarded e = true := by
  obtain ⟨hconn, hssid⟩ := h
  unfold BssTable.ssidEqual at hssid
  obtain ⟨hlen, heq⟩ := of_decide_eq_true hssid
  unfold Upkeep.guarded
  rw [hconn, ← hlen, heq]
  rfl

/-- **One entry**: the code deletes it just when it is stale, unless it is stale and guarded, or the comparison of
times is wrong and decides. -/
theorem bDelEntry_iff (g : Aging w) :
    (u.bDelEntry e (g.count e) = true ↔ u.Stale e g) ↔
      (u.Stale e g → u.guarded e = false) ∧
        (u.guarded e = false → (g.count e).sameRxTimeCount ≤ u.maxSameRxTimeCount → u.Timely e) := by
  rw [← timely_iff]
  unfold Upkeep.bDelEntry
  generalize timeAfter u.nowTime (e.rxTime w + u.maxRxTimeDiff * BitVec.ofNat w u.osHz) = after
  rw [← BitVec.not_lt]
  cases hg : u.guarded e with
  | true =>
    rw [Bool.not_true, Bool.and_false]
    constructor
    · intro h
      exact ⟨fun hs => absurd (h.2 hs) nofun, nofun⟩
    · intro h
      exact ⟨nofun, fun hs => absurd (h.1 hs) nofun⟩
  | false =>
    have hnot : ¬ u.OfConnectedSsid e := by
      intro h
      rw [guarded_of_ofConnectedSsid h] at hg
      exact absurd hg nofun
    unfold Upkeep.Stale
    rw [Bool.not_false, Bool.and_true, Bool.or_eq_true, decide_eq_true_iff, and_iff_left hnot]
    constructor
    · intro h
      refine ⟨fun _ => rfl, fun _ hcount => ?_⟩
      rwa [or_iff_left hcount, or_iff_left hcount] at h
    · intro h
      by_cases hcount : u.maxSameRxTimeCount < (g.count e).sameRxTimeCount
      · exact iff_of_true (.inr hcount) (.inr hcount)
      · rw [or_iff_left hcount, or_iff_left hcount]
        exact h.2 rfl hcount

end

/-! ### The gap is closed -/

namespace BssTable

def bare (t : BssTable) (k : ℕ) : BssEntry := (t.view k).1

theorem shiftOne_bssEntry (t : BssTable) (j : ℕ) :
    (t.shiftOne j).bssEntry = Function.update t.bssEntry j
      { t.bssEntry (j + 1) with pVarIeFromProbRsp := (t.ptr j).or (t.ptr (j + 1)) } := by
  unfold shiftOne ptr
  cases hp : (t.bssEntry j).pVarIeFromProbRsp with
  | none => rfl
  | some a =>
    simp only [clearVie, hp]
    rfl

theorem bare_shiftOne (t : BssTable) (j k : ℕ) :
    (t.shiftOne j).bare k = if k = j then t.bare (j + 1) else t.bare k := by
  unfold bare view
  rw [shiftOne_bssEntry]
  split_ifs with h
  · rw [h, Function.update_self]
  · rw [Function.update_of_ne h]

theorem ptr_shiftOne (t : BssTable) (j k : ℕ) :
    (t.shiftOne j).ptr k = if k = j then (t.ptr j).or (t.ptr (j + 1)) else t.ptr k := by
  unfold ptr
  rw [shiftOne_bssEntry]
  split_ifs with h
  · rw [h, Function.update_self]
    rfl
  · rw [Function.update_of_ne h]

theorem clearVie_bssEntry (t : BssTable) (k : ℕ) : (t.clearVie k).bssEntry = t.bssEntry := by
  unfold clearVie
  cases (t.bssEntry k).pVarIeFromProbRsp with
  | none => rfl
  | some a => rfl

end BssTable

namespace ScanTab

variable (t : ScanTab w)

theorem shift_tab (j n : ℕ) : (t.shift j n).tab = t.tab.shift j n := by
  induction n generalizing t j with
  | zero => rfl
  | succ n ih => exact ih _ (j + 1)

theorem shift_spec (j n k : ℕ) :
    (t.shift j n).tab.bare k = (if j ≤ k ∧ k < j + n then t.tab.bare (k + 1) else t.tab.bare k) ∧
      (t.shift j n).aging k = (if j ≤ k ∧ k < j + n then t.aging (k + 1) else t.aging k) ∧
      (t.shift j n).tab.ptr k =
        if j ≤ k ∧ k < j + n then (t.tab.ptr k).or (t.tab.ptr (k + 1)) else t.tab.ptr k := by
  induction n generalizing t j with
  | zero =>
    rw [if_neg (by omega), if_neg (by omega), if_neg (by omega)]
    exact ⟨rfl, rfl, rfl⟩
  | succ n ih =>
    unfold shift
    obtain ⟨hbare, haging, hptr⟩ := ih
      { tab := t.tab.shiftOne j, aging := Function.update t.aging j (t.aging (j + 1)) } (j + 1)
    rw [hbare, haging, hptr]
    dsimp only
    rw [BssTable.bare_shiftOne, BssTable.bare_shiftOne, BssTable.ptr_shiftOne, BssTable.ptr_shiftOne]
    rcases (by omega : k = j ∨ j + 1 ≤ k ∧ k < j + 1 + n ∨ k ≠ j ∧ ¬ (j + 1 ≤ k ∧ k < j + 1 + n)) with
      rfl | hin | ⟨hne, hout⟩
    · have hout : ¬ (k + 1 ≤ k ∧ k < k + 1 + n) := by omega
      have hin : k ≤ k ∧ k < k + (n + 1) := by omega
      simp only [if_neg hout, if_pos hin, if_true, Function.update_self, and_self]
    · have hin' : j ≤ k ∧ k < j + (n + 1) := by omega
      have hne : k ≠ j := by omega
      have hne' : k + 1 ≠ j := by omega
      simp only [if_pos hin, if_pos hin', if_neg hne, if_neg hne', Function.update_of_ne hne', and_self]
    · have hout' : ¬ (j ≤ k ∧ k < j + (n + 1)) := by omega
      simp only [if_neg hout, if_neg hout', if_neg hne, Function.update_of_ne hne, and_self]

/-- **The deletion of slot `i`**: what is behind it moves down, and the last slot loses its buffer. -/
theorem removeSlot_spec {i total : ℕ} (hi : i < total) (k : ℕ) :
    (k < total - 1 → (t.removeSlot i total).tab.bare k = if i ≤ k then t.tab.bare (k + 1) else t.tab.bare k) ∧
      (k < total - 1 → (t.removeSlot i total).aging k = if i ≤ k then t.aging (k + 1) else t.aging k) ∧
      (t.removeSlot i total).tab.ptr k =
        if k = total - 1 then none
        else if i ≤ k ∧ k < total - 1 then (t.tab.ptr k).or (t.tab.ptr (k + 1)) else t.tab.ptr k := by
  obtain ⟨hbare, haging, hptr⟩ := t.shift_spec i (total - 1 - i) k
  have hsum : i + (total - 1 - i) = total - 1 := by omega
  rw [hsum] at hbare haging hptr
  refine ⟨fun hk => ?_, fun hk => ?_, ?_⟩
  · have hentry : (t.removeSlot i total).tab.bssEntry k = (t.shift i (total - 1 - i)).tab.bssEntry k :=
      Function.update_of_ne (by omega) _ _
    have heq : (t.removeSlot i total).tab.bare k = (t.shift i (total - 1 - i)).tab.bare k := by
      unfold BssTable.bare BssTable.view
      rw [hentry]
    rw [heq, hbare]
    by_cases hik : i ≤ k
    · rw [if_pos ⟨hik, hk⟩, if_pos hik]
    · rw [if_neg (by omega), if_neg hik]
  · have heq : (t.removeSlot i total).aging k = (t.shift i (total - 1 - i)).aging k :=
      Function.update_of_ne (by omega) _ _
    rw [heq, haging]
    by_cases hik : i ≤ k
    · rw [if_pos ⟨hik, hk⟩, if_pos hik]
    · rw [if_neg (by omega), if_neg hik]
  · rw [← hptr]
    unfold BssTable.ptr removeSlot
    dsimp only
    split_ifs with hk
    · rw [hk, Function.update_self]
      rfl
    · rw [Function.update_of_ne hk]

/-! ### The loop -/

section

variable {γ : Type} (u : Upkeep w) (o : BssTable → ℕ → γ) {t : ScanTab w}

/-- What slot `k` holds, with something that is observed of it. -/
def slot (t : ScanTab w) (k : ℕ) : BssEntry × Aging w × γ := (t.tab.bare k, t.aging k, o t.tab k)

/-- The slots from `i` on, of `total`. -/
def slots (t : ScanTab w) (i total : ℕ) : List (BssEntry × Aging w × γ) :=
  (List.range' i (total - i)).map (t.slot o)

def countItem (x : BssEntry × Aging w × γ) : BssEntry × Aging w × γ := (x.1, x.2.1.count x.1, x.2.2)

theorem fst_countItem (x : BssEntry × Aging w × γ) : (countItem x).1 = x.1 := rfl

theorem observed_countItem (x : BssEntry × Aging w × γ) : (countItem x).2.2 = x.2.2 := rfl

/-- `bDelEntry` for it. -/
def testItem (x : BssEntry × Aging w × γ) : Bool := u.bDelEntry x.1 (x.2.1.count x.1)

theorem slots_cons {i total : ℕ} (h : i < total) : t.slots o i total = t.slot o i :: t.slots o (i + 1) total := by
  unfold slots
  rw [show total - i = total - (i + 1) + 1 by omega, List.range'_succ, List.map_cons]

theorem slots_nil {i total : ℕ} (h : total ≤ i) : t.slots o i total = [] := by
  unfold slots
  rw [Nat.sub_eq_zero_of_le h]
  rfl

theorem slots_congr {t' : ScanTab w} {i total : ℕ} (h : ∀ k, i ≤ k → k < total → t'.slot o k = t.slot o k) :
    t'.slots o i total = t.slots o i total := by
  refine List.map_congr_left fun k hk => ?_
  obtain ⟨h1, h2⟩ := List.mem_range'_1.1 hk
  exact h k h1 (by omega)

theorem length_slots (i total : ℕ) : (t.slots o i total).length = total - i := by
  rw [slots, List.length_map, List.length_range']

theorem countSlot_aging (i : ℕ) {k : ℕ} (h : k ≠ i) : (t.countSlot i).aging k = t.aging k := Function.update_of_ne h _ _

theorem slot_countSlot (i k : ℕ) :
    (t.countSlot i).slot o k = if k = i then countItem (t.slot o i) else t.slot o k := by
  unfold slot
  split_ifs with h
  · have hself : (t.countSlot i).aging i = (t.aging i).count (t.tab.bssEntry i) := Function.update_self i _ _
    rw [h, hself]
    rfl
  · rw [countSlot_aging i h]
    rfl

theorem deletes_eq (k : ℕ) : t.deletes u k = testItem u (t.slot o k) := rfl

theorem slots_drop {t' : ScanTab w} {i total : ℕ}
    (h : ∀ k < total - 1, t'.slot o k = if i ≤ k then t.slot o (k + 1) else t.slot o k) :
    t'.slots o (i + 1) (total - 1) = (t.slots o (i + 1) total).drop 1 := by
  rcases Nat.lt_or_ge (i + 1) total with hlt | hge
  · rw [slots_cons o hlt, List.drop_one, List.tail_cons]
    unfold slots
    have hshift : List.range' (i + 1 + 1) (total - (i + 1 + 1)) =
        (List.range' (i + 1) (total - (i + 1 + 1))).map (1 + ·) := by
      rw [List.map_add_range', Nat.add_comm 1]
    rw [show total - 1 - (i + 1) = total - (i + 1 + 1) by omega, hshift, List.map_map]
    refine List.map_congr_left fun k hk => ?_
    obtain ⟨h1, h2⟩ := List.mem_range'_1.1 hk
    rw [h k (by omega), if_pos (by omega), Function.comp_apply, Nat.add_comm 1 k]
  · rw [slots_nil o (by omega), slots_nil o hge]
    rfl

variable {o}

/-- **The loop is a sweep** over what the slots hold. The invariant `I` makes that what is observed of a slot moves with
its entry. -/
theorem loop_sweep {I : (turns i total : ℕ) → ScanTab w → Prop}
    (hkeep : ∀ f i total t, I (f + 1) i total t → i < total → t.deletes u i = false →
      I f (i + 1) total (t.countSlot i))
    (hdel : ∀ f i total t, I (f + 1) i total t → i < total → t.deletes u i = true →
      I f (i + 1) (total - 1) ((t.countSlot i).removeSlot i total) ∧
        ∀ k < total - 1, o ((t.countSlot i).removeSlot i total).tab k =
          if i ≤ k then o t.tab (k + 1) else o t.tab k) (f : ℕ) :
    ∀ {i total : ℕ} {t : ScanTab w}, I f i total t → total ≤ i + f →
      (∃ f' i', I f' i' (maintainLoop u f i total t).2 (maintainLoop u f i total t).1) ∧
        (∀ k < i, (maintainLoop u f i total t).1.slot o k = t.slot o k) ∧
        (maintainLoop u f i total t).2 ≤ total ∧ min i total ≤ (maintainLoop u f i total t).2 ∧
        (maintainLoop u f i total t).1.slots o i (maintainLoop u f i total t).2 =
          sweep countItem (testItem u) (t.slots o i total) := by
  induction f with
  | zero =>
    intro i total t hI hf
    unfold maintainLoop
    refine ⟨⟨_, _, hI⟩, fun _ _ => rfl, le_rfl, Nat.min_le_right _ _, ?_⟩
    rw [slots_nil o (by omega)]
    rfl
  | succ f ih =>
    intro i total t hI hf
    unfold maintainLoop
    by_cases hi : i < total
    · rw [if_pos hi]
      cases hdelete : t.deletes u i with
      | false =>
        rw [if_neg nofun]
        have hkept := hkeep f i total t hI hi hdelete
        rw [deletes_eq u o] at hdelete
        obtain ⟨hend, hbefore, hle, hmin, hsweep⟩ := ih hkept (by omega)
        have hslot : ∀ k, k ≠ i → (t.countSlot i).slot o k = t.slot o k := by
          intro k hk
          rw [slot_countSlot, if_neg hk]
        refine ⟨hend, fun k hk => ?_, hle, by omega, ?_⟩
        · rw [hbefore k (by omega), hslot k (by omega)]
        · rw [slots_cons o (by omega), hsweep, hbefore i (by omega), slot_countSlot, if_pos rfl, slots_cons o hi,
            sweep_cons_of_neg hdelete, slots_congr o fun k h1 h2 => hslot k (by omega)]
      | true =>
        rw [if_pos rfl]
        obtain ⟨hI', hmoves⟩ := hdel f i total t hI hi hdelete
        rw [deletes_eq u o] at hdelete
        obtain ⟨hend, hbefore, hle, hmin, hsweep⟩ := ih hI' (by omega)
        -- what the slots hold has moved down, also what is observed
        have hslot : ∀ k < total - 1, ((t.countSlot i).removeSlot i total).slot o k =
            if i ≤ k then t.slot o (k + 1) else t.slot o k := by
          intro k hk
          obtain ⟨hbare, haging, -⟩ := (t.countSlot i).removeSlot_spec hi k
          unfold slot
          rw [hbare hk, haging hk, hmoves k hk]
          split_ifs with hik
          · rw [countSlot_aging i (by omega)]
            rfl
          · rw [countSlot_aging i (by omega)]
            rfl
        refine ⟨hend, fun k hk => ?_, by omega, by omega, ?_⟩
        · rw [hbefore k (by omega), hslot k (by omega), if_neg (by omega)]
        · rw [slots_cons o hi, sweep_cons_of_pos hdelete, ← slots_drop o hslot, ← hsweep]
          rcases Nat.lt_or_ge (i + 1) total with hlt | hge
          · rw [slots_cons o (by omega), hbefore i (by omega), hslot i (by omega), if_pos le_rfl, slots_cons o hlt]
            rfl
          · rw [slots_nil o (by omega), slots_nil o (by omega), slots_nil o (by omega)]
            rfl
    · rw [if_neg hi]
      refine ⟨⟨_, _, hI⟩, fun _ _ => rfl, le_rfl, Nat.min_le_right _ _, ?_⟩
      rw [slots_nil o (by omega)]
      rfl

end

/-! ### The buffers -/

section

variable (u : Upkeep w)

theorem deletes_countSlot {t : ScanTab w} {i k : ℕ} (h : k ≠ i) : (t.countSlot i).deletes u k = t.deletes u k := by
  unfold deletes
  rw [countSlot_aging i h]
  rfl

/-- What the loop makes of the pointers: the slots that come free have none, the others keep theirs, and what is behind
the table is not touched. -/
theorem loop_ptr (f : ℕ) : ∀ (i total : ℕ) (t : ScanTab w),
    (maintainLoop u f i total t).2 ≤ total ∧
      (∀ j, (maintainLoop u f i total t).2 ≤ j → j < total → (maintainLoop u f i total t).1.tab.ptr j = none) ∧
      (∀ j < (maintainLoop u f i total t).2, ∀ a, t.tab.ptr j = some a →
        (maintainLoop u f i total t).1.tab.ptr j = some a) ∧
      ∀ j, total ≤ j → (maintainLoop u f i total t).1.tab.ptr j = t.tab.ptr j := by
  induction f with
  | zero => exact fun i total t => ⟨le_rfl, fun j h1 h2 => absurd h2 (not_lt.2 h1), fun _ _ _ h => h, fun _ _ => rfl⟩
  | succ f ih =>
    intro i total t
    unfold maintainLoop
    split_ifs with hi hdelete
    · obtain ⟨hle, hfree, hkeep, hbehind⟩ := ih (i + 1) (total - 1) ((t.countSlot i).removeSlot i total)
      have hptr := fun j => ((t.countSlot i).removeSlot_spec hi j).2.2
      refine ⟨by omega, fun j h1 h2 => ?_, fun j hj a ha => hkeep j hj a ?_, fun j hj => ?_⟩
      · rcases (by omega : j = total - 1 ∨ j < total - 1) with rfl | hlt
        · rw [hbehind _ le_rfl, hptr, if_pos rfl]
        · exact hfree j h1 hlt
      · rw [hptr, if_neg (by omega)]
        split_ifs with hmoved
        · rw [show (t.countSlot i).tab.ptr j = some a from ha, Option.some_or]
        · exact ha
      · rw [hbehind j (by omega), hptr, if_neg (by omega), if_neg (by omega)]
        rfl
    · exact ih (i + 1) total (t.countSlot i)
    · exact ⟨le_rfl, fun j h1 h2 => absurd h2 (not_lt.2 h1), fun _ _ _ h => h, fun _ _ => rfl⟩

theorem loop_shares {d : ℕ} (f : ℕ) : ∀ {i total : ℕ} {t : ScanTab w}, total ≤ i + f → i ≤ d → d < total →
    t.deletes u d = true → (∀ k, i ≤ k → k < d → t.deletes u k = false) →
    ∀ j, d ≤ j → j < (maintainLoop u f i total t).2 → t.tab.ptr j = none → ∀ a, t.tab.ptr (j + 1) = some a →
      (maintainLoop u f i total t).1.tab.ptr j = some a := by
  induction f with
  | zero =>
    intro i total t hf hid hd
    omega
  | succ f ih =>
    intro i total t hf hid hd hdelete hbefore j hj hlt hnone a ha
    unfold maintainLoop at hlt ⊢
    rw [if_pos (by omega : i < total)] at hlt ⊢
    rcases (by omega : i = d ∨ i < d) with rfl | hlt'
    · rw [if_pos hdelete] at hlt ⊢
      obtain ⟨hle, -, hkeep, -⟩ := loop_ptr u f (i + 1) (total - 1) ((t.countSlot i).removeSlot i total)
      refine hkeep j hlt a ?_
      rw [((t.countSlot i).removeSlot_spec hd j).2.2, if_neg (by omega), if_pos (by omega)]
      show (t.tab.ptr j).or (t.tab.ptr (j + 1)) = some a
      rw [hnone, ha, Option.none_or]
    · rw [if_neg (by rw [hbefore i le_rfl hlt']; exact Bool.false_ne_true)] at hlt ⊢
      refine ih (by omega) hlt' hd ?_ (fun k h1 h2 => ?_) j hj hlt hnone a ha
      · rw [deletes_countSlot u (by omega)]
        exact hdelete
      · rw [deletes_countSlot u (by omega)]
        exact hbefore k (by omega) h2

/-- **A deletion with a slot to spare**: if the last slot has no buffer, and behind slot `i` none without a buffer is
followed by one with a buffer, then the buffers stay, and what they hold moves with the entries. -/
theorem removeSlot_slots {alloc : ℕ → Option ℕ} (hinj : ∀ i j a, alloc i = some a → alloc j = some a → i = j)
    {t : ScanTab w} (hs : t.tab.Slots alloc) {i total : ℕ} (hi : i < total)
    (hgap : ∀ j, i ≤ j → j + 1 < total → alloc j = none → alloc (j + 1) = none) (hlast : alloc (total - 1) = none) :
    (t.removeSlot i total).tab.Slots alloc ∧
      ∀ k < total - 1, (t.removeSlot i total).tab.view k = if i ≤ k then t.tab.view (k + 1) else t.tab.view k := by
  obtain ⟨hshift, hview⟩ := hs.shift hinj (j := i) (n := total - 1 - i) fun j h1 h2 => hgap j h1 (by omega)
  obtain ⟨hwiped, hother, -, -⟩ := hshift.wipe hinj (total - 1) (e := BssEntry.zero) rfl rfl
  have hnone :
      (((t.tab.shift i (total - 1 - i)).clearVie (total - 1)).bssEntry (total - 1)).pVarIeFromProbRsp = none := by
    rw [BssTable.clearVie_bssEntry]
    exact (hshift.ptr_eq _).trans hlast
  have heq : (t.removeSlot i total).tab =
      ((t.tab.shift i (total - 1 - i)).clearVie (total - 1)).place (total - 1) BssEntry.zero := by
    unfold removeSlot BssTable.place
    rw [hnone]
    dsimp only
    rw [BssTable.clearVie_bssEntry, shift_tab]
  rw [heq]
  refine ⟨hwiped, fun k hk => ?_⟩
  rw [hother k (by omega), hview k]
  by_cases hik : i ≤ k
  · rw [if_pos (by omega), if_pos hik]
  · rw [if_neg (by omega), if_neg hik]

end

/-! ### When the ageing is exact -/

section

variable {γ : Type} (u : Upkeep w) (o : BssTable → ℕ → γ) (t : ScanTab w)

def staleItem (x : BssEntry × Aging w × γ) : Bool := u.Stale x.1 x.2.1

theorem staleItem_slot (k : ℕ) : staleItem u (t.slot o k) = decide (t.StaleAt u k) := rfl

theorem map_filter_slots {β : Type} (f : BssEntry × Aging w × γ → β) :
    ((t.slots o 0 t.tab.bssNr).filter fun x => !staleItem u x).map f = (t.kept u).map fun k => f (t.slot o k) := by
  unfold slots kept
  rw [List.filter_map, List.map_map, Nat.sub_zero, ← List.range_eq_range']
  refine congrArg (List.map _) (List.filter_congr fun k _ => ?_)
  rw [Function.comp_apply, staleItem_slot, decide_not]

/-- **Which entries the loop picks**: the right ones, if no two neighbours have to go and the test is right. -/
theorem picks_iff_apart :
    Picks (testItem u) (staleItem u) (t.slots o 0 t.tab.bssNr) ↔
      (∀ k, k + 1 < t.tab.bssNr → t.StaleAt u k → ¬ t.StaleAt u (k + 1)) ∧
        ∀ k < t.tab.bssNr, (∀ j, j + 1 = k → ¬ t.StaleAt u j) → (t.deletes u k = true ↔ t.StaleAt u k) := by
  unfold slots
  rw [Nat.sub_zero, picks_range'_iff]
  simp only [staleItem_slot, ← deletes_eq, decide_eq_true_eq, decide_eq_false_iff_not, Nat.zero_add]
  refine and_congr ⟨fun h k => h k (Nat.zero_le k), fun h k _ => h k⟩ ⟨fun h k hk hj => ?_, fun h k _ hk hj => ?_⟩
  · rw [h k (Nat.zero_le k) hk fun hpos => hj (k - 1) (by omega), decide_eq_true_iff]
  · rw [Bool.eq_iff_iff, decide_eq_true_iff]
    refine h k hk fun j hjk => ?_
    have := hj (by omega)
    rwa [show k - 1 = j by omega] at this

theorem picks_iff_orderly :
    Picks (testItem u) (staleItem u) (t.slots o 0 t.tab.bssNr) ↔
      (∀ k, k + 1 < t.tab.bssNr → t.StaleAt u k → ¬ t.StaleAt u (k + 1)) ∧
        (∀ k < t.tab.bssNr, t.StaleAt u k → u.guarded (t.tab.bssEntry k) = false) ∧
        ∀ k < t.tab.bssNr, (∀ j, j + 1 = k → ¬ t.StaleAt u j) → u.guarded (t.tab.bssEntry k) = false →
          ((t.aging k).count (t.tab.bssEntry k)).sameRxTimeCount ≤ u.maxSameRxTimeCount →
          u.Timely (t.tab.bssEntry k) := by
  rw [picks_iff_apart]
  have hone : ∀ k, (t.deletes u k = true ↔ t.StaleAt u k) ↔ _ := fun k => bDelEntry_iff (t.aging k)
  refine and_congr_right fun hapart => ⟨fun h => ⟨fun k hk hs => ?_, fun k hk hj => ?_⟩, fun h k hk hj => ?_⟩
  · -- in front of one that has to go is none that has to go
    refine ((hone k).1 (h k hk fun j hj hsj => hapart j (by omega) hsj ?_)).1 hs
    rwa [hj]
  · exact ((hone k).1 (h k hk hj)).2
  · exact (hone k).2 ⟨h.1 k hk, h.2 k hk hj⟩

theorem nodup_map_slots (h : t.tab.Consistent) {β : Type} {f : BssEntry × Aging w × γ → β}
    (hf : ∀ i j, f (t.slot o i) = f (t.slot o j) → t.tab.bare i = t.tab.bare j) :
    ((t.slots o 0 t.tab.bssNr).map f).Nodup := by
  unfold slots
  rw [List.map_map]
  refine List.Nodup.map_on (fun i hi j hj hij => ?_) List.nodup_range'
  have hbare := hf i j hij
  have hbssid : (t.tab.bare i).bssid = (t.tab.bare j).bssid := by rw [hbare]
  have hchannel : (t.tab.bare i).channel = (t.tab.bare j).channel := by rw [hbare]
  have hi' := (List.mem_range'_1.1 hi).2
  have hj' := (List.mem_range'_1.1 hj).2
  refine h.distinct i j (by omega) (by omega) ⟨hbssid, ?_⟩
  show BssTable.SameBand (t.tab.bare i).channel (t.tab.bare j).channel
  rw [hchannel]
  unfold BssTable.SameBand
  omega

theorem maintainLoop_slots :
    (maintainLoop u t.tab.bssNr 0 t.tab.bssNr t).1.slots (fun _ _ => ()) 0
        (maintainLoop u t.tab.bssNr 0 t.tab.bssNr t).2 =
      sweep countItem (testItem u) (t.slots (fun _ _ => ()) 0 t.tab.bssNr) := by
  have h := loop_sweep (o := fun _ _ => ()) (I := fun _ _ _ _ => True) u (fun _ _ _ _ _ _ _ => trivial)
    (fun _ _ _ _ _ _ _ => ⟨trivial, fun _ _ => rfl⟩) t.tab.bssNr (i := 0) (t := t) trivial (Nat.le_add_left _ _)
  exact h.2.2.2.2

theorem maintainLoop_snd (h : t.tab.Consistent)
    (hpicks : Picks (testItem u) (staleItem u) (t.slots (fun _ _ => ()) 0 t.tab.bssNr)) :
    (maintainLoop u t.tab.bssNr 0 t.tab.bssNr t).2 = (t.kept u).length := by
  have hmap := (map_sweep_eq_iff (f := Prod.fst) (staleItem u) fst_countItem
    (t.nodup_map_slots (fun _ _ => ()) h fun i j hij => hij)).2 hpicks
  rw [← maintainLoop_slots, map_filter_slots] at hmap
  have hlen := congrArg List.length hmap
  rwa [List.length_map, List.length_map, length_slots, Nat.sub_zero] at hlen

theorem exists_first (n : ℕ) : ∃ d ≤ n, (∀ k < d, ¬ t.StaleAt u k) ∧ (d < n → t.StaleAt u d) := by
  induction n with
  | zero => exact ⟨0, le_rfl, fun k hk => absurd hk (Nat.not_lt_zero k), fun h => absurd h (Nat.not_lt_zero 0)⟩
  | succ n ih =>
    obtain ⟨d, hd, hbefore, hstale⟩ := ih
    rcases Nat.lt_or_ge d n with hlt | hge
    · exact ⟨d, by omega, hbefore, fun _ => hstale hlt⟩
    · have hdn : d = n := by omega
      subst hdn
      by_cases hs : t.StaleAt u d
      · exact ⟨d, by omega, hbefore, fun _ => hs⟩
      · refine ⟨d + 1, le_rfl, fun k hk => ?_, fun h => absurd h (lt_irrefl _)⟩
        rcases (by omega : k < d ∨ k = d) with hlt | rfl
        · exact hbefore k hlt
        · exact hs

variable {u t}

theorem AgesExactly.orderly (h : t.tab.Consistent) (hexact : t.AgesExactly u) : t.Orderly u := by
  obtain ⟨hviews, hptr⟩ := hexact
  -- the list of the entries gives what the loop picks
  have hpicks : Picks (testItem u) (staleItem u) (t.slots (fun _ _ => ()) 0 t.tab.bssNr) := by
    refine (map_sweep_eq_iff (f := Prod.fst) (staleItem u) fst_countItem
      (t.nodup_map_slots (fun _ _ => ()) h fun i j hij => hij)).1 ?_
    rw [← maintainLoop_slots, map_filter_slots]
    have hfst := congrArg (List.map Prod.fst) hviews
    rw [BssTable.views, List.map_map, List.map_map, List.range_eq_range'] at hfst
    unfold slots
    rw [List.map_map, Nat.sub_zero]
    exact hfst
  obtain ⟨hapart, htest⟩ := (t.picks_iff_apart u _).1 hpicks
  obtain ⟨-, hssids, htimes⟩ := (t.picks_iff_orderly u _).1 hpicks
  have hnr := t.maintainLoop_snd u h hpicks
  obtain ⟨hle, hfree, hkeep, -⟩ := loop_ptr u t.tab.bssNr 0 t.tab.bssNr t
  have hfreed : ∀ k, (t.kept u).length ≤ k → k < t.tab.bssNr → t.tab.ptr k = none := by
    intro k h1 h2
    rw [← hptr k]
    exact hfree k (by omega) h2
  refine ⟨hapart, hssids, htimes, fun k hk hs j hkj hj hnone => ?_, hfreed⟩
  rcases Nat.lt_or_ge j (t.kept u).length with hlt | hge
  · obtain ⟨d, hd, hbefore, hstale⟩ := t.exists_first u t.tab.bssNr
    have hdk : d ≤ k := by
      by_contra hcon
      exact hbefore k (by omega) hs
    -- the first one that is deleted is the first that has to go
    have hdel : t.deletes u d = true := (htest d (by omega) fun i hi => hbefore i (by omega)).2 (hstale (by omega))
    have hnot : ∀ i, 0 ≤ i → i < d → t.deletes u i = false := by
      intro i _ hid
      rw [← Bool.not_eq_true, htest i (by omega) fun i' hi' => hbefore i' (by omega)]
      exact hbefore i hid
    cases hnext : t.tab.ptr (j + 1) with
    | none => rfl
    | some a =>
      have hshared := loop_shares u t.tab.bssNr (Nat.le_add_left _ _) (Nat.zero_le d) (by omega) hdel hnot j (by omega)
        (by omega) hnone a hnext
      rw [← hptr j] at hnone
      exact absurd (hnone.symm.trans hshared) nofun
  · exact hfreed (j + 1) (by omega) hj

/-- What holds before each turn: the buffers are in their places, the loop will leave as many entries as are kept, and
no one in front of slot `d` will be deleted. -/
structure Intact (u : Upkeep w) (t : ScanTab w) (d turns i total : ℕ) (s : ScanTab w) : Prop where
  slots : s.tab.Slots t.tab.ptr
  left : (maintainLoop u turns i total s).2 = (t.kept u).length
  le : total ≤ t.tab.bssNr
  before : ∀ k, i ≤ k → k < d → s.deletes u k = false

theorem Intact.keep {d f i total : ℕ} {s : ScanTab w} (h : Intact u t d (f + 1) i total s) (hi : i < total)
    (hdel : s.deletes u i = false) : Intact u t d f (i + 1) total (s.countSlot i) := by
  obtain ⟨hs, hleft, hle, hbefore⟩ := h
  rw [maintainLoop, if_pos hi, if_neg (by rw [hdel]; exact Bool.false_ne_true)] at hleft
  refine ⟨hs, hleft, hle, fun k h1 h2 => ?_⟩
  rw [deletes_countSlot u (by omega)]
  exact hbefore k (by omega) h2

theorem Intact.delete {d f i total : ℕ} {s : ScanTab w} (h : Intact u t d (f + 1) i total s) (hi : i < total)
    (hdel : s.deletes u i = true) (hcons : t.tab.Consistent) (ho : t.Orderly u)
    (hstale : d < t.tab.bssNr → t.StaleAt u d) :
    Intact u t d f (i + 1) (total - 1) ((s.countSlot i).removeSlot i total) ∧
      ∀ k < total - 1, ((s.countSlot i).removeSlot i total).tab.view k =
        if i ≤ k then s.tab.view (k + 1) else s.tab.view k := by
  obtain ⟨hs, hleft, hle, hbefore⟩ := h
  rw [maintainLoop, if_pos hi, if_pos hdel] at hleft
  have hdi : d ≤ i := by
    by_contra hcon
    rw [hbefore i le_rfl (by omega)] at hdel
    exact absurd hdel nofun
  have hbound := (loop_ptr u f (i + 1) (total - 1) ((s.countSlot i).removeSlot i total)).1
  obtain ⟨hs', hview⟩ := removeSlot_slots hcons.buffers (t := s.countSlot i) hs hi
    (fun j h1 h2 => ho.buffers d (by omega) (hstale (by omega)) j (by omega) (by omega))
    (ho.freed (total - 1) (by omega) (by omega))
  exact ⟨⟨hs', hleft, by omega, fun k h1 h2 => by omega⟩, hview⟩

theorem Orderly.loop (h : t.tab.Consistent)
    (hlen : ∀ k, t.tab.ptr k = none → (t.tab.bssEntry k).varIeFromProbeRspLen = 0) (ho : t.Orderly u) :
    (maintainLoop u t.tab.bssNr 0 t.tab.bssNr t).1.tab.Slots t.tab.ptr ∧
      (maintainLoop u t.tab.bssNr 0 t.tab.bssNr t).1.slots BssTable.view 0
          (maintainLoop u t.tab.bssNr 0 t.tab.bssNr t).2 =
        sweep countItem (testItem u) (t.slots BssTable.view 0 t.tab.bssNr) := by
  have hpicks := (t.picks_iff_orderly u fun _ _ => ()).2 ⟨ho.apart, ho.ssids, ho.times⟩
  obtain ⟨-, htest⟩ := (t.picks_iff_apart u _).1 hpicks
  obtain ⟨d, hd, hbefore, hstale⟩ := t.exists_first u t.tab.bssNr
  have hstart : Intact u t d t.tab.bssNr 0 t.tab.bssNr t := by
    refine ⟨⟨fun _ => rfl, hlen⟩, t.maintainLoop_snd u h hpicks, le_rfl, fun k _ hk => ?_⟩
    rw [← Bool.not_eq_true, htest k (by omega) fun j hj => hbefore j (by omega)]
    exact hbefore k hk
  obtain ⟨⟨f', i', hend⟩, -, -, -, hsweep⟩ := loop_sweep (o := BssTable.view) (I := Intact u t d) u
    (fun f i total s hI hi hdel => hI.keep hi hdel)
    (fun f i total s hI hi hdel => hI.delete hi hdel h ho hstale) t.tab.bssNr hstart (Nat.le_add_left _ _)
  exact ⟨hend.slots, hsweep⟩

/-- **Which tables come out right.** Of a consistent table in which no entry without a buffer has a probe response, the
ageing is exact just when no two neighbours have to go, no one that has to go has an SSID that begins like that of the
connection, the comparison of times is right, and the deletions meet slots without buffers: those that come free, and
before them no such slot in front of one with a buffer. -/
theorem agesExactly_iff (u : Upkeep w) (t : ScanTab w) (h : t.tab.Consistent)
    (hlen : ∀ k, t.tab.ptr k = none → (t.tab.bssEntry k).varIeFromProbeRspLen = 0) :
    t.AgesExactly u ↔ t.Orderly u := by
  refine ⟨AgesExactly.orderly h, fun ho => ?_⟩
  obtain ⟨hslots, hsweep⟩ := ho.loop h hlen
  have hpicks := (t.picks_iff_orderly u BssTable.view).2 ⟨ho.apart, ho.ssids, ho.times⟩
  have hmap := (map_sweep_eq_iff (f := fun x => x.2.2) (staleItem u) observed_countItem
    (t.nodup_map_slots BssTable.view h fun i j hij => congrArg Prod.fst hij)).2 hpicks
  rw [← hsweep, map_filter_slots] at hmap
  refine ⟨?_, hslots.ptr_eq⟩
  unfold slots at hmap
  rw [List.map_map, Nat.sub_zero, ← List.range_eq_range'] at hmap
  exact hmap

end

/-! ### Two tables -/

def pairTab (alloc : ℕ → Option ℕ) (rxTime : ℕ → ℕ) : ScanTab 32 where
  tab :=
    { BssTable.fresh alloc with
      bssNr := 2
      bssEntry := fun k =>
        { BssEntry.zero with
          bssid := BitVec.ofNat 48 k
          lastBeaconRxTime := rxTime k
          pVarIeFromProbRsp := alloc k } }
  aging := fun k => ⟨0, BitVec.ofNat 32 (rxTime k)⟩

def laterUpkeep : Upkeep 32 where
  nowTime := 13000
  osHz := 100
  maxRxTimeDiff := 120
  maxSameRxTimeCount := 2
  mediaStateConnected := false
  ssid := zeroMemory
  ssidLen := 0

theorem consistent_pairTab {alloc : ℕ → Option ℕ} (rxTime : ℕ → ℕ)
    (hinj : ∀ i j a, alloc i = some a → alloc j = some a → i = j) : (pairTab alloc rxTime).tab.Consistent := by
  refine ⟨by show 2 ≤ 128; decide, fun i j hi hj hsame => ?_, hinj⟩
  have hbssid : BitVec.ofNat 48 i = BitVec.ofNat 48 j := hsame.1
  have hi' : i < 2 := hi
  have hj' : j < 2 := hj
  have hnat := congrArg BitVec.toNat hbssid
  rw [BitVec.toNat_ofNat, BitVec.toNat_ofNat] at hnat
  omega

/-- An old entry in front of a new one, in a table without buffers, is taken out and nothing else changes. -/
theorem agesExactly_pairTab :
    (pairTab (fun _ => none) fun k => if k = 0 then 0 else 13000).AgesExactly laterUpkeep := by
  refine (agesExactly_iff laterUpkeep _ (consistent_pairTab _ ?_) fun _ _ => rfl).2 ⟨?_, ?_, ?_, ?_, ?_⟩
  · nofun
  · intro k hk
    have hk' : k + 1 < 2 := hk
    have h0 : k = 0 := by omega
    subst h0
    decide
  · decide
  · intro k hk _ _ _
    have hk' : k < 2 := hk
    rcases (by omega : k = 0 ∨ k = 1) with rfl | rfl
    · exact ⟨by decide, by decide⟩
    · exact ⟨by decide, by decide⟩
  · exact fun _ _ _ _ _ _ _ => rfl
  · exact fun _ _ _ => rfl

/-- What one may expect of `MaintainBssTable`. -/
def AgingExact : Prop :=
  ∀ (w : ℕ) (u : Upkeep w) (t : ScanTab w), t.tab.Consistent →
    (∀ k, t.tab.ptr k = none → (t.tab.bssEntry k).varIeFromProbeRspLen = 0) → t.AgesExactly u

/-- Of two old entries the second one stays, and the slot that comes free loses its buffer. -/
theorem not_agingExact : ¬ AgingExact := by
  intro h
  obtain ⟨-, hptr⟩ := h 32 laterUpkeep (pairTab some fun _ => 0)
    (consistent_pairTab _ fun i j a hi hj => by rw [Option.some_inj] at hi hj; rw [hi, hj]) nofun
  exact absurd (hptr 1) (by decide)

end ScanTab

end Mt7610u.Mlme
