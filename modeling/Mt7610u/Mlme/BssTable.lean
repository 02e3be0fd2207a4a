import Mt7610u.Mlme.BssEntry
import Mt7610u.Lib.Runs

/-! # The BSS table

The scan table: up to 128 entries, of which each slot owns a buffer for the variable elements of a probe
response, if that buffer could be allocated. -/

namespace Mt7610u.Mlme

open Lib Lib.Runs

def maxLenOfBssTable : ℕ := 128

def maxVieLen : ℕ := 1024

/-- `BSS_TABLE`, and the memory of the probe-response buffers by their addresses. -/
structure BssTable where
  bssNr : ℕ
  bssOverlapNr : ℕ
  bssEntry : ℕ → BssEntry
  heap : ℕ → ℕ → Byte

structure Wanted where
  staConnected : Bool
  apConnected : Bool
  bssid : BitVec 48
  ssid : ℕ → Byte
  ssidLen : ℕ

namespace BssTable

/-- `RTMPZeroMemory` of a buffer. -/
def zeroVie (m : ℕ → Byte) : ℕ → Byte := fun i => if i < maxVieLen then 0#8 else m i

/-- The slot `k` with the entry `e`, over the buffer that the slot has. -/
def place (t : BssTable) (k : ℕ) (e : BssEntry) : BssTable :=
  match (t.bssEntry k).pVarIeFromProbRsp with
  | some a => { t with bssEntry := Function.update t.bssEntry k { e with pVarIeFromProbRsp := some a } }
  | none => { t with bssEntry := Function.update t.bssEntry k e }

/-- `RTMPZeroMemory` of the buffer of slot `k`, if it has one. -/
def clearVie (t : BssTable) (k : ℕ) : BssTable :=
  match (t.bssEntry k).pVarIeFromProbRsp with
  | some a => { t with heap := Function.update t.heap a (zeroVie (t.heap a)) }
  | none => t

/-- `BssTableInit`. Rssi starts at -127. -/
def bssTableInit (t : BssTable) : BssTable :=
  (List.range maxLenOfBssTable).foldl
    (fun t k => (t.clearVie k).place k { BssEntry.zero with rssi := 0x81#8 })
    { t with bssNr := 0, bssOverlapNr := 0 }

def SameBand (c d : Byte) : Prop := c.toNat ≤ 14 ∧ d.toNat ≤ 14 ∨ c.toNat > 14 ∧ d.toNat > 14

instance (c d : Byte) : Decidable (SameBand c d) := inferInstanceAs (Decidable (_ ∨ _))

/-- `BssTableSearch`; `none` is `BSS_NOT_FOUND`. -/
def bssTableSearch (t : BssTable) (bssid : BitVec 48) (channel : Byte) : Option ℕ :=
  (List.range t.bssNr).find? fun i =>
    SameBand (t.bssEntry i).channel channel ∧ (t.bssEntry i).bssid = bssid

def ssidEqual (s1 : ℕ → Byte) (len1 : ℕ) (s2 : ℕ → Byte) (len2 : ℕ) : Bool :=
  len1 = len2 ∧ equalMemory s1 s2 len1 = true

/-- `BssEntrySet` on slot `k`. -/
def setSlot (env : BssEnv) (t : BssTable) (k : ℕ) (bcn : Beacon) : BssTable :=
  { t with bssEntry := Function.update t.bssEntry k (BssEntry.bssEntrySet env (t.bssEntry k) bcn) }

/-- `BssTableSetEntry`: the table and the index returned. In a full table the BSS that is wanted takes
the place of another. -/
def bssTableSetEntry (env : BssEnv) (w : Wanted) (t : BssTable) (bcn : Beacon) : BssTable × Option ℕ :=
  match t.bssTableSearch bcn.ie.bssid bcn.ie.channel with
  | some i => (t.setSlot env i bcn, some i)
  | none =>
    if t.bssNr ≥ maxLenOfBssTable then
      if w.staConnected = false ∨ w.apConnected = false then
        if w.bssid = bcn.ie.bssid ∨ ssidEqual w.ssid w.ssidLen bcn.ie.ssid bcn.ie.ssidLen = true then
          ({ t.setSlot env t.bssOverlapNr bcn with
              bssOverlapNr := (t.bssOverlapNr + 1) % maxLenOfBssTable }, some t.bssOverlapNr)
        else (t, none)
      else (t, none)
    else ({ t.setSlot env t.bssNr bcn with bssNr := t.bssNr + 1 }, some t.bssNr)

/-- What the address `p` points to. -/
def buffer (t : BssTable) (p : Option ℕ) : ℕ → Byte :=
  match p with
  | some a => t.heap a
  | none => zeroMemory

/-- One turn of the loop that closes the gap: slot `j` takes over the entry behind it. -/
def shiftOne (t : BssTable) (j : ℕ) : BssTable :=
  let e := t.bssEntry (j + 1)
  match (t.bssEntry j).pVarIeFromProbRsp with
  | none => { t with bssEntry := Function.update t.bssEntry j e }
  | some a =>
    let t := t.clearVie j
    { t with
      bssEntry := Function.update t.bssEntry j { e with pVarIeFromProbRsp := some a }
      heap := Function.update t.heap a
        (moveMemory (t.heap a) (t.buffer e.pVarIeFromProbRsp) e.varIeFromProbeRspLen) }

/-- The loop over `n` slots from `j` on. -/
def shift (t : BssTable) : ℕ → ℕ → BssTable
  | _, 0 => t
  | j, n + 1 => (t.shiftOne j).shift (j + 1) n

/-- The entry that `BssTableDeleteEntry` deletes. It asks for the very channel, not only for the band. -/
def matching (t : BssTable) (bssid : BitVec 48) (channel : Byte) : Option ℕ :=
  (List.range t.bssNr).find? fun i => (t.bssEntry i).channel = channel ∧ (t.bssEntry i).bssid = bssid

def bssTableDeleteEntry (t : BssTable) (bssid : BitVec 48) (channel : Byte) : BssTable :=
  match t.matching bssid channel with
  | none => t
  | some i =>
    let t' := t.shift i (t.bssNr - 1 - i)
    { (t'.clearVie (t.bssNr - 1)).place (t.bssNr - 1) BssEntry.zero with bssNr := t.bssNr - 1 }

def storeProbeRsp (t : BssTable) (k : ℕ) (lenVIE : ℕ) (pVIE : ℕ → Byte) : BssTable :=
  if lenVIE = 0 then t
  else match (t.bssEntry k).pVarIeFromProbRsp with
    | none =>
      { t with
        bssEntry := Function.update t.bssEntry k { t.bssEntry k with varIeFromProbeRspLen := 0 } }
    | some a =>
      { t with
        bssEntry := Function.update t.bssEntry k { t.bssEntry k with varIeFromProbeRspLen := lenVIE }
        heap := Function.update t.heap a (moveMemory (zeroVie (t.heap a)) pVIE lenVIE) }

/-- The table of a fresh adapter: slot `k` has the buffer at `alloc k`, if it was allocated. -/
def fresh (alloc : ℕ → Option ℕ) : BssTable where
  bssNr := 0
  bssOverlapNr := 0
  bssEntry := fun k => { BssEntry.zero with pVarIeFromProbRsp := alloc k }
  heap := fun _ => zeroMemory

inductive Op
  | init
  | setEntry (w : Wanted) (bcn : Beacon)
  | deleteEntry (bssid : BitVec 48) (channel : Byte)
  | storeProbeRsp (k : ℕ) (lenVIE : ℕ) (pVIE : ℕ → Byte)

def step (env : BssEnv) (t : BssTable) : Op → BssTable
  | .init => t.bssTableInit
  | .setEntry w bcn => (t.bssTableSetEntry env w bcn).1
  | .deleteEntry bssid channel => t.bssTableDeleteEntry bssid channel
  | .storeProbeRsp k lenVIE pVIE => t.storeProbeRsp k lenVIE pVIE

/-! ### Consistency -/

/-- The buffer that slot `k` owns. -/
def ptr (t : BssTable) (k : ℕ) : Option ℕ := (t.bssEntry k).pVarIeFromProbRsp

def view (t : BssTable) (k : ℕ) : BssEntry × List Byte :=
  ({ t.bssEntry k with pVarIeFromProbRsp := none },
    Lib.read (t.buffer (t.ptr k)) (t.bssEntry k).varIeFromProbeRspLen)

def views (t : BssTable) : List (BssEntry × List Byte) := (List.range t.bssNr).map t.view

/-- Slots `i` and `j` hold the same BSS. -/
def SameBss (t : BssTable) (i j : ℕ) : Prop :=
  (t.bssEntry i).bssid = (t.bssEntry j).bssid ∧ SameBand (t.bssEntry i).channel (t.bssEntry j).channel

/-- **The table is consistent.** -/
structure Consistent (t : BssTable) : Prop where
  nr_le : t.bssNr ≤ maxLenOfBssTable
  distinct : ∀ i j, i < t.bssNr → j < t.bssNr → t.SameBss i j → i = j
  buffers : ∀ i j a, t.ptr i = some a → t.ptr j = some a → i = j

def SetFinds (env : BssEnv) (t : BssTable) (w : Wanted) (bcn : Beacon) : Prop :=
  ∀ i, (t.bssTableSetEntry env w bcn).2 = some i →
    (t.bssTableSetEntry env w bcn).1.bssTableSearch bcn.ie.bssid bcn.ie.channel = some i ∧
      ((t.bssTableSetEntry env w bcn).1.bssEntry i).bssid = bcn.ie.bssid

def DeletesExactly (t : BssTable) (bssid : BitVec 48) (channel : Byte) : Prop :=
  match t.matching bssid channel with
  | none => t.bssTableDeleteEntry bssid channel = t
  | some i => (t.bssTableDeleteEntry bssid channel).views = t.views.eraseIdx i

def Buffered (t : BssTable) : Op → Prop
  | .deleteEntry bssid channel => ∀ i ∈ t.matching bssid channel, ∀ j < t.bssNr - 1, i ≤ j →
      t.ptr j = none → t.ptr (j + 1) = none
  | _ => True

instance (t : BssTable) (op : Op) : Decidable (t.Buffered op) :=
  match op with
  | .deleteEntry bssid channel => inferInstanceAs (Decidable (∀ i ∈ t.matching bssid channel,
      ∀ j < t.bssNr - 1, i ≤ j → t.ptr j = none → t.ptr (j + 1) = none))
  | .init | .setEntry .. | .storeProbeRsp .. => isTrue trivial

/-! ### Closing the gap -/

structure Slots (alloc : ℕ → Option ℕ) (t : BssTable) : Prop where
  ptr_eq : ∀ k, t.ptr k = alloc k
  none_len : ∀ k, alloc k = none → (t.bssEntry k).varIeFromProbeRspLen = 0

theorem read_moveMemory (dst src : ℕ → Byte) (len : ℕ) :
    Lib.read (moveMemory dst src len) len = Lib.read src len := by
  unfold Lib.read
  refine List.map_congr_left fun i hi => ?_
  unfold moveMemory
  rw [if_pos (List.mem_range.1 hi)]

theorem view_congr {t t' : BssTable} {k : ℕ} (he : t'.bssEntry k = t.bssEntry k)
    (hb : ∀ a, t.ptr k = some a → t'.heap a = t.heap a) : t'.view k = t.view k := by
  have hptr : t'.ptr k = t.ptr k := by
    unfold ptr
    rw [he]
  unfold view
  rw [he, hptr]
  cases hp : t.ptr k with
  | none => rfl
  | some a =>
    unfold buffer
    simp only []
    rw [hb a hp]

theorem shiftOne_spec {t : BssTable} {j : ℕ} (hnone : t.ptr j = none → t.ptr (j + 1) = none)
    (hsome : ∀ a, t.ptr j = some a → t.ptr (j + 1) ≠ some a) :
    (t.shiftOne j).bssEntry = Function.update t.bssEntry j
        { t.bssEntry (j + 1) with pVarIeFromProbRsp := t.ptr j } ∧
      (∀ b, t.ptr j ≠ some b → (t.shiftOne j).heap b = t.heap b) ∧
      Lib.read ((t.shiftOne j).buffer (t.ptr j)) (t.bssEntry (j + 1)).varIeFromProbeRspLen =
        Lib.read (t.buffer (t.ptr (j + 1))) (t.bssEntry (j + 1)).varIeFromProbeRspLen := by
  cases hp : t.ptr j with
  | none =>
    have hnext := hnone hp
    have heq : t.shiftOne j =
        { t with bssEntry := Function.update t.bssEntry j (t.bssEntry (j + 1)) } := by
      unfold ptr at hp
      unfold shiftOne
      rw [hp]
    rw [heq, hnext]
    refine ⟨?_, fun b _ => rfl, rfl⟩
    unfold ptr at hnext
    rw [← hnext]
  | some a =>
    have hclear : t.clearVie j = { t with heap := Function.update t.heap a (zeroVie (t.heap a)) } := by
      unfold ptr at hp
      unfold clearVie
      rw [hp]
    have hne := hsome a hp
    unfold ptr at hp hne ⊢
    unfold shiftOne
    simp only [hp, hclear]
    refine ⟨trivial, fun b hb => ?_, ?_⟩
    · have hba : b ≠ a := fun h => hb (by rw [h])
      rw [Function.update_of_ne hba, Function.update_of_ne hba]
    · simp only [buffer]
      rw [Function.update_self, read_moveMemory]
      cases hq : (t.bssEntry (j + 1)).pVarIeFromProbRsp with
      | none => rfl
      | some b =>
        rw [hq] at hne
        simp only []
        rw [Function.update_of_ne (fun hba => hne (by rw [hba]))]

section Shift

variable {alloc : ℕ → Option ℕ} (hinj : ∀ i j a, alloc i = some a → alloc j = some a → i = j)
include hinj

/-- **One entry moves down**: slot `j` looks like the one behind it, the others as before, and every
buffer stays in its place. -/
theorem Slots.shiftOne {t : BssTable} (hs : t.Slots alloc) {j : ℕ} (hj : alloc j = none → alloc (j + 1) = none) :
    (t.shiftOne j).Slots alloc ∧ (t.shiftOne j).view j = t.view (j + 1) ∧
      ∀ k ≠ j, (t.shiftOne j).view k = t.view k := by
  have hptr := hs.ptr_eq j
  obtain ⟨hentry, hheap, hread⟩ := shiftOne_spec (t := t) (j := j)
    (by rw [hptr, hs.ptr_eq]; exact hj)
    (by
      intro a ha hb
      rw [hs.ptr_eq] at ha hb
      have := hinj j (j + 1) a ha hb
      omega)
  refine ⟨⟨fun k => ?_, fun k hk => ?_⟩, ?_, fun k hk => ?_⟩
  · unfold ptr
    rw [hentry]
    by_cases hkj : k = j
    · subst hkj
      rw [Function.update_self]
      exact hptr
    · rw [Function.update_of_ne hkj]
      exact hs.ptr_eq k
  · rw [hentry]
    by_cases hkj : k = j
    · subst hkj
      rw [Function.update_self]
      exact hs.none_len (k + 1) (hj hk)
    · rw [Function.update_of_ne hkj]
      exact hs.none_len k hk
  · unfold view
    rw [show (t.shiftOne j).ptr j = t.ptr j by unfold ptr; rw [hentry, Function.update_self]; rfl,
      hentry, Function.update_self]
    exact congrArg (Prod.mk _) hread
  · refine view_congr ?_ fun b hb => hheap b ?_
    · rw [hentry, Function.update_of_ne hk]
    · intro hjb
      rw [hs.ptr_eq] at hb hjb
      exact hk (hinj k j b hb hjb)

/-- **The gap closes**: the entries behind slot `j` have all moved down by one. -/
theorem Slots.shift {t : BssTable} (hs : t.Slots alloc) {j n : ℕ}
    (hj : ∀ i, j ≤ i → i < j + n → alloc i = none → alloc (i + 1) = none) :
    (t.shift j n).Slots alloc ∧
      ∀ k, (t.shift j n).view k = if j ≤ k ∧ k < j + n then t.view (k + 1) else t.view k := by
  induction n generalizing t j with
  | zero =>
    refine ⟨hs, fun k => ?_⟩
    rw [if_neg (by omega)]
    rfl
  | succ n ih =>
    obtain ⟨hs', hself, hother⟩ := hs.shiftOne hinj (hj j le_rfl (by omega))
    obtain ⟨hs'', hview⟩ := ih hs' (j := j + 1) fun i hi hi' => hj i (by omega) (by omega)
    refine ⟨hs'', fun k => ?_⟩
    show ((t.shiftOne j).shift (j + 1) n).view k = _
    rw [hview k]
    by_cases hkj : k = j
    · subst hkj
      rw [if_neg (by omega), if_pos (by omega), hself]
    · by_cases hin : j + 1 ≤ k ∧ k < j + 1 + n
      · rw [if_pos hin, if_pos (by omega), hother _ (by omega)]
      · rw [if_neg hin, if_neg (by omega), hother _ hkj]

theorem Slots.wipe {t : BssTable} (hs : t.Slots alloc) (k : ℕ) {e : BssEntry}
    (hp : e.pVarIeFromProbRsp = none) (hl : e.varIeFromProbeRspLen = 0) :
    ((t.clearVie k).place k e).Slots alloc ∧
      (∀ i ≠ k, ((t.clearVie k).place k e).view i = t.view i) ∧
      ((t.clearVie k).place k e).bssNr = t.bssNr ∧
      ((t.clearVie k).place k e).bssOverlapNr = t.bssOverlapNr := by
  have hspec : ((t.clearVie k).place k e).bssEntry =
        Function.update t.bssEntry k { e with pVarIeFromProbRsp := t.ptr k } ∧
      (∀ b, t.ptr k ≠ some b → ((t.clearVie k).place k e).heap b = t.heap b) ∧
      ((t.clearVie k).place k e).bssNr = t.bssNr ∧
      ((t.clearVie k).place k e).bssOverlapNr = t.bssOverlapNr := by
    cases hk : t.ptr k with
    | none =>
      unfold ptr at hk
      simp only [clearVie, place, hk]
      refine ⟨?_, fun b _ => trivial, trivial, trivial⟩
      rw [← hp]
    | some a =>
      unfold ptr at hk
      simp only [clearVie, place, hk]
      refine ⟨trivial, fun b hb => ?_, trivial, trivial⟩
      rw [Function.update_of_ne (fun h => hb (by rw [h]))]
  obtain ⟨hentry, hheap, hnr, hoverlap⟩ := hspec
  refine ⟨⟨fun i => ?_, fun i hi => ?_⟩, fun i hi => ?_, hnr, hoverlap⟩
  · unfold ptr
    rw [hentry]
    by_cases hik : i = k
    · subst hik
      rw [Function.update_self]
      exact hs.ptr_eq i
    · rw [Function.update_of_ne hik]
      exact hs.ptr_eq i
  · rw [hentry]
    by_cases hik : i = k
    · subst hik
      rw [Function.update_self]
      exact hl
    · rw [Function.update_of_ne hik]
      exact hs.none_len i hi
  · refine view_congr ?_ fun b hb => hheap b ?_
    · rw [hentry, Function.update_of_ne hi]
    · intro hkb
      rw [hs.ptr_eq] at hb hkb
      exact hi (hinj i k b hb hkb)

omit hinj in
theorem shift_fields (t : BssTable) (j n : ℕ) :
    (t.shift j n).bssNr = t.bssNr ∧ (t.shift j n).bssOverlapNr = t.bssOverlapNr := by
  induction n generalizing t j with
  | zero => exact ⟨rfl, rfl⟩
  | succ n ih =>
    have hone : (t.shiftOne j).bssNr = t.bssNr ∧ (t.shiftOne j).bssOverlapNr = t.bssOverlapNr := by
      cases h : (t.bssEntry j).pVarIeFromProbRsp with
      | none => simp only [BssTable.shiftOne, h, and_self]
      | some a => simp only [BssTable.shiftOne, clearVie, h, and_self]
    obtain ⟨h1, h2⟩ := ih (t.shiftOne j) (j + 1)
    exact ⟨h1.trans hone.1, h2.trans hone.2⟩

omit hinj in
theorem matching_lt {t : BssTable} {bssid : BitVec 48} {channel : Byte} {i : ℕ}
    (h : t.matching bssid channel = some i) : i < t.bssNr :=
  List.mem_range.1 (List.mem_of_find?_eq_some h)

/-- **A deletion** leaves the entries before the one that matches and moves those behind it down. -/
theorem Slots.deleteEntry {t : BssTable} (hs : t.Slots alloc) {bssid : BitVec 48} {channel : Byte}
    (hb : t.Buffered (.deleteEntry bssid channel)) {i : ℕ} (hi : t.matching bssid channel = some i) :
    (t.bssTableDeleteEntry bssid channel).Slots alloc ∧
      (t.bssTableDeleteEntry bssid channel).bssNr = t.bssNr - 1 ∧
      (t.bssTableDeleteEntry bssid channel).bssOverlapNr = t.bssOverlapNr ∧
      ∀ k < t.bssNr - 1, (t.bssTableDeleteEntry bssid channel).view k =
        if i ≤ k then t.view (k + 1) else t.view k := by
  have hlt := matching_lt hi
  obtain ⟨hs', hview⟩ := hs.shift hinj (j := i) (n := t.bssNr - 1 - i) (by
    intro j hij hjn hj
    have := hb i (by rw [hi]; rfl) j (by omega) hij
    rw [hs.ptr_eq, hs.ptr_eq] at this
    exact this hj)
  obtain ⟨hwiped, hother, -, hover⟩ := hs'.wipe hinj (t.bssNr - 1) (e := BssEntry.zero) rfl rfl
  have heq : t.bssTableDeleteEntry bssid channel =
      { ((t.shift i (t.bssNr - 1 - i)).clearVie (t.bssNr - 1)).place (t.bssNr - 1) BssEntry.zero with
        bssNr := t.bssNr - 1 } := by
    unfold bssTableDeleteEntry
    rw [hi]
  rw [heq]
  refine ⟨⟨hwiped.ptr_eq, hwiped.none_len⟩, rfl, hover.trans (shift_fields t _ _).2, fun k hk => ?_⟩
  refine (hother k (by omega)).trans ?_
  rw [hview k]
  by_cases hik : i ≤ k
  · rw [if_pos (by omega), if_pos hik]
  · rw [if_neg (by omega), if_neg hik]

theorem deletesExactly {t : BssTable} (hs : t.Slots alloc) {bssid : BitVec 48} {channel : Byte}
    (hb : t.Buffered (.deleteEntry bssid channel)) : t.DeletesExactly bssid channel := by
  unfold DeletesExactly
  cases hi : t.matching bssid channel with
  | none =>
    unfold bssTableDeleteEntry
    rw [hi]
  | some i =>
    have hlt := matching_lt hi
    obtain ⟨-, hnr, -, hview⟩ := hs.deleteEntry hinj hb hi
    unfold views
    rw [hnr]
    refine List.ext_getElem ?_ fun k hk hk' => ?_
    · rw [List.length_eraseIdx, List.length_map, List.length_map, List.length_range, List.length_range, if_pos hlt]
    · rw [List.length_map, List.length_range] at hk
      rw [List.getElem_map, List.getElem_range, hview k hk, List.getElem_eraseIdx]
      by_cases hik : i ≤ k
      · rw [if_pos hik, dif_neg (by omega), List.getElem_map, List.getElem_range]
      · rw [if_neg hik, dif_pos (by omega), List.getElem_map, List.getElem_range]

end Shift

/-! ### Setting an entry -/

structure Inv (alloc : ℕ → Option ℕ) (t : BssTable) : Prop extends Slots alloc t where
  nr_le : t.bssNr ≤ maxLenOfBssTable
  overlap_lt : t.bssOverlapNr < maxLenOfBssTable
  distinct : ∀ i j, i < t.bssNr → j < t.bssNr → t.SameBss i j → i = j

theorem sameBand_comm {c d : Byte} : SameBand c d ↔ SameBand d c := by
  unfold SameBand
  constructor
  · rintro (⟨h1, h2⟩ | ⟨h1, h2⟩)
    · exact Or.inl ⟨h2, h1⟩
    · exact Or.inr ⟨h2, h1⟩
  · rintro (⟨h1, h2⟩ | ⟨h1, h2⟩)
    · exact Or.inl ⟨h2, h1⟩
    · exact Or.inr ⟨h2, h1⟩

theorem sameBand_trans {c d e : Byte} (h1 : SameBand c d) (h2 : SameBand d e) : SameBand c e := by
  unfold SameBand at *
  omega

theorem search_some {t : BssTable} {bssid : BitVec 48} {channel : Byte} {i : ℕ}
    (h : t.bssTableSearch bssid channel = some i) :
    i < t.bssNr ∧ SameBand (t.bssEntry i).channel channel ∧ (t.bssEntry i).bssid = bssid := by
  refine ⟨List.mem_range.1 (List.mem_of_find?_eq_some h), ?_⟩
  have := List.find?_some h
  simpa using this

theorem search_none {t : BssTable} {bssid : BitVec 48} {channel : Byte}
    (h : t.bssTableSearch bssid channel = none) {i : ℕ} (hi : i < t.bssNr) :
    ¬ (SameBand (t.bssEntry i).channel channel ∧ (t.bssEntry i).bssid = bssid) := by
  have := List.find?_eq_none.1 h i (List.mem_range.2 hi)
  simpa using this

theorem search_eq {t : BssTable} (hd : ∀ i j, i < t.bssNr → j < t.bssNr → t.SameBss i j → i = j)
    {i : ℕ} (hi : i < t.bssNr) : t.bssTableSearch (t.bssEntry i).bssid (t.bssEntry i).channel = some i := by
  cases hs : t.bssTableSearch (t.bssEntry i).bssid (t.bssEntry i).channel with
  | none =>
    refine absurd ⟨?_, rfl⟩ (search_none hs hi)
    unfold SameBand
    omega
  | some j =>
    obtain ⟨hj, hband, hid⟩ := search_some hs
    rw [hd j i hj hi ⟨hid, hband⟩]

theorem setSlot_ne (env : BssEnv) (t : BssTable) (bcn : Beacon) {i k : ℕ} (h : i ≠ k) :
    (t.setSlot env k bcn).bssEntry i = t.bssEntry i :=
  Function.update_of_ne h _ _

theorem setSlot_self (env : BssEnv) (t : BssTable) (k : ℕ) (bcn : Beacon) :
    ((t.setSlot env k bcn).bssEntry k).bssid = bcn.ie.bssid ∧
      ((t.setSlot env k bcn).bssEntry k).channel = bcn.ie.channel ∧
      ((t.setSlot env k bcn).bssEntry k).varIeFromProbeRspLen = (t.bssEntry k).varIeFromProbeRspLen ∧
      (t.setSlot env k bcn).ptr k = t.ptr k := by
  have hself : (t.setSlot env k bcn).bssEntry k = BssEntry.bssEntrySet env (t.bssEntry k) bcn :=
    Function.update_self _ _ _
  have hkey := BssEntry.key_bssEntrySet env (t.bssEntry k) bcn
  unfold ptr
  rw [hself]
  unfold BssEntry.key at hkey
  simp only [Prod.mk.injEq] at hkey
  exact hkey

theorem Slots.setSlot {alloc : ℕ → Option ℕ} {t : BssTable} (hs : t.Slots alloc) (env : BssEnv) (k : ℕ)
    (bcn : Beacon) : (t.setSlot env k bcn).Slots alloc := by
  obtain ⟨-, -, hlen, hptr⟩ := setSlot_self env t k bcn
  constructor
  · intro i
    by_cases hik : i = k
    · rw [hik, hptr]
      exact hs.ptr_eq k
    · unfold ptr
      rw [setSlot_ne env t bcn hik]
      exact hs.ptr_eq i
  · intro i hi
    by_cases hik : i = k
    · rw [hik] at hi ⊢
      rw [hlen]
      exact hs.none_len k hi
    · rw [setSlot_ne env t bcn hik]
      exact hs.none_len i hi

theorem distinct_setSlot {env : BssEnv} {t : BssTable} {k n : ℕ} {bcn : Beacon}
    (hd : ∀ i j, i < n → j < n → i ≠ k → j ≠ k → t.SameBss i j → i = j)
    (hnew : ∀ i < n, i ≠ k →
      ¬ (SameBand (t.bssEntry i).channel bcn.ie.channel ∧ (t.bssEntry i).bssid = bcn.ie.bssid)) :
    ∀ i j, i < n → j < n → (t.setSlot env k bcn).SameBss i j → i = j := by
  obtain ⟨hid, hch, -, -⟩ := setSlot_self env t k bcn
  intro i j hi hj h
  unfold SameBss at h
  by_cases hik : i = k
  · by_cases hjk : j = k
    · rw [hik, hjk]
    · rw [hik, hid, hch, setSlot_ne env t bcn hjk] at h
      exact absurd ⟨sameBand_comm.1 h.2, h.1.symm⟩ (hnew j hj hjk)
  · rw [setSlot_ne env t bcn hik] at h
    by_cases hjk : j = k
    · rw [hjk, hid, hch] at h
      exact absurd ⟨h.2, h.1⟩ (hnew i hi hik)
    · rw [setSlot_ne env t bcn hjk] at h
      exact hd i j hi hj hik hjk h

/-- The ways through `bssTableSetEntry`: the entry of the BSS is renewed, in a full table another one
is overwritten or nothing is done, or an entry is added. -/
theorem setEntry_cases (env : BssEnv) (w : Wanted) (t : BssTable) (bcn : Beacon) :
    (∃ i, t.bssTableSearch bcn.ie.bssid bcn.ie.channel = some i ∧
      t.bssTableSetEntry env w bcn = (t.setSlot env i bcn, some i)) ∨
    (t.bssTableSearch bcn.ie.bssid bcn.ie.channel = none ∧
      (t.bssTableSetEntry env w bcn = (t, none) ∨
        maxLenOfBssTable ≤ t.bssNr ∧ t.bssTableSetEntry env w bcn =
          ({ t.setSlot env t.bssOverlapNr bcn with
              bssOverlapNr := (t.bssOverlapNr + 1) % maxLenOfBssTable }, some t.bssOverlapNr) ∨
        t.bssNr < maxLenOfBssTable ∧ t.bssTableSetEntry env w bcn =
          ({ t.setSlot env t.bssNr bcn with bssNr := t.bssNr + 1 }, some t.bssNr))) := by
  unfold bssTableSetEntry
  cases hs : t.bssTableSearch bcn.ie.bssid bcn.ie.channel with
  | some i => exact Or.inl ⟨i, rfl, rfl⟩
  | none =>
    refine Or.inr ⟨rfl, ?_⟩
    simp only []
    split_ifs with h1 h2 h3
    · exact Or.inr (Or.inl ⟨h1, rfl⟩)
    · exact Or.inl rfl
    · exact Or.inl rfl
    · exact Or.inr (Or.inr ⟨by omega, rfl⟩)

theorem Inv.setEntry {alloc : ℕ → Option ℕ} {t : BssTable} (hI : t.Inv alloc) (env : BssEnv) (w : Wanted)
    (bcn : Beacon) : (t.bssTableSetEntry env w bcn).1.Inv alloc ∧ SetFinds env t w bcn := by
  unfold SetFinds
  have hlt := hI.overlap_lt
  -- in each case a slot below the new number of entries is written, and no other holds the BSS
  have hfound : ∀ (t' : BssTable) (k : ℕ), t'.bssEntry = (t.setSlot env k bcn).bssEntry → k < t'.bssNr →
      (∀ i j, i < t'.bssNr → j < t'.bssNr → t'.SameBss i j → i = j) →
      ∀ i, some k = some i → t'.bssTableSearch bcn.ie.bssid bcn.ie.channel = some i ∧
        (t'.bssEntry i).bssid = bcn.ie.bssid := by
    rintro t' k hentry hk hd i ⟨⟩
    obtain ⟨hid, hch, -, -⟩ := setSlot_self env t k bcn
    have hsearch := search_eq hd hk
    rw [hentry, hid, hch] at hsearch
    rw [hentry]
    exact ⟨hsearch, hid⟩
  rcases setEntry_cases env w t bcn with ⟨k, hs, heq⟩ | ⟨hs, heq | ⟨hfull, heq⟩ | ⟨hroom, heq⟩⟩
  · obtain ⟨hk, hband, hid⟩ := search_some hs
    have hslots := hI.toSlots.setSlot env k bcn
    have hd : ∀ i j, i < t.bssNr → j < t.bssNr → (t.setSlot env k bcn).SameBss i j → i = j := by
      refine distinct_setSlot (fun i j hi hj _ _ => hI.distinct i j hi hj) fun i hi hik hc => ?_
      exact hik (hI.distinct i k hi hk ⟨hc.2.trans hid.symm, sameBand_trans hc.1 (sameBand_comm.1 hband)⟩)
    rw [heq]
    exact ⟨⟨hslots, hI.nr_le, hI.overlap_lt, hd⟩, hfound _ k rfl hk hd⟩
  · rw [heq]
    exact ⟨hI, fun i hi => (by cases hi)⟩
  · have hslots := hI.toSlots.setSlot env t.bssOverlapNr bcn
    have hd : ∀ i j, i < t.bssNr → j < t.bssNr →
        (t.setSlot env t.bssOverlapNr bcn).SameBss i j → i = j :=
      distinct_setSlot (fun i j hi hj _ _ => hI.distinct i j hi hj) fun i hi _ => search_none hs hi
    rw [heq]
    refine ⟨⟨⟨hslots.ptr_eq, hslots.none_len⟩, hI.nr_le, Nat.mod_lt _ (by decide), hd⟩, ?_⟩
    exact hfound { t.setSlot env t.bssOverlapNr bcn with
      bssOverlapNr := (t.bssOverlapNr + 1) % maxLenOfBssTable } _ rfl (lt_of_lt_of_le hlt hfull) hd
  · have hslots := hI.toSlots.setSlot env t.bssNr bcn
    have hd : ∀ i j, i < t.bssNr + 1 → j < t.bssNr + 1 → (t.setSlot env t.bssNr bcn).SameBss i j →
        i = j := by
      refine distinct_setSlot (fun i j hi hj hik hjk => hI.distinct i j (by omega) (by omega))
        fun i hi hik => search_none hs (by omega)
    rw [heq]
    refine ⟨⟨⟨hslots.ptr_eq, hslots.none_len⟩, hroom, hI.overlap_lt, hd⟩, ?_⟩
    exact hfound { t.setSlot env t.bssNr bcn with bssNr := t.bssNr + 1 } _ rfl (Nat.lt_succ_self _) hd

/-! ### The other operations -/

section Operations

variable {alloc : ℕ → Option ℕ} (hinj : ∀ i j a, alloc i = some a → alloc j = some a → i = j)
include hinj

theorem Inv.init {t : BssTable} (hI : t.Inv alloc) : t.bssTableInit.Inv alloc := by
  have hfold : ∀ (l : List ℕ) (t : BssTable), t.Slots alloc → t.bssNr = 0 → t.bssOverlapNr = 0 →
      (l.foldl (fun t k => (t.clearVie k).place k { BssEntry.zero with rssi := 0x81#8 }) t).Slots alloc ∧
      (l.foldl (fun t k => (t.clearVie k).place k { BssEntry.zero with rssi := 0x81#8 }) t).bssNr = 0 ∧
      (l.foldl (fun t k => (t.clearVie k).place k { BssEntry.zero with rssi := 0x81#8 })
        t).bssOverlapNr = 0 := by
    intro l
    induction l with
    | nil => exact fun t hs hn ho => ⟨hs, hn, ho⟩
    | cons k l ih =>
      intro t hs hn ho
      obtain ⟨hs', -, hn', ho'⟩ := hs.wipe hinj k (e := { BssEntry.zero with rssi := 0x81#8 }) rfl rfl
      exact ih _ hs' (hn'.trans hn) (ho'.trans ho)
  obtain ⟨hs, hn, ho⟩ := hfold (List.range maxLenOfBssTable) { t with bssNr := 0, bssOverlapNr := 0 }
    ⟨hI.ptr_eq, hI.none_len⟩ rfl rfl
  refine ⟨hs, ?_, ?_, fun i j hi => ?_⟩
  · exact hn.trans_le (Nat.zero_le _)
  · exact ho.trans_lt (by decide)
  · have : i < 0 := lt_of_lt_of_eq hi hn
    omega

theorem Inv.deleteEntry {t : BssTable} (hI : t.Inv alloc) {bssid : BitVec 48} {channel : Byte}
    (hb : t.Buffered (.deleteEntry bssid channel)) : (t.bssTableDeleteEntry bssid channel).Inv alloc := by
  cases hi : t.matching bssid channel with
  | none =>
    unfold bssTableDeleteEntry
    rw [hi]
    exact hI
  | some k =>
    have hnr := hI.nr_le
    obtain ⟨hs, hn, ho, hview⟩ := hI.toSlots.deleteEntry hinj hb hi
    refine ⟨hs, by omega, ho.trans_lt hI.overlap_lt, fun i j hi hj h => ?_⟩
    -- entry `i` is the old entry `f i`, and `f` is injective
    have hold : ∀ i < t.bssNr - 1, ((t.bssTableDeleteEntry bssid channel).bssEntry i).bssid =
          (t.bssEntry (if k ≤ i then i + 1 else i)).bssid ∧
        ((t.bssTableDeleteEntry bssid channel).bssEntry i).channel =
          (t.bssEntry (if k ≤ i then i + 1 else i)).channel := by
      intro i hi
      have hv := hview i hi
      rw [← apply_ite t.view] at hv
      exact ⟨congrArg (fun v => v.1.bssid) hv, congrArg (fun v => v.1.channel) hv⟩
    rw [hn] at hi hj
    unfold SameBss at h
    rw [(hold i hi).1, (hold i hi).2, (hold j hj).1, (hold j hj).2] at h
    have heq := hI.distinct _ _ (by split <;> omega) (by split <;> omega) h
    split_ifs at heq <;> omega

omit hinj in
theorem Inv.storeProbeRsp {t : BssTable} (hI : t.Inv alloc) (k lenVIE : ℕ) (pVIE : ℕ → Byte) :
    (t.storeProbeRsp k lenVIE pVIE).Inv alloc := by
  -- only the length field of slot `k` and its buffer change
  have hset : ∀ (n : ℕ) (h : ℕ → ℕ → Byte), (alloc k = none → n = 0) →
      Inv alloc { t with
        bssEntry := Function.update t.bssEntry k { t.bssEntry k with varIeFromProbeRspLen := n }
        heap := h } := by
    intro n h hn
    have hentry : ∀ i, (Function.update t.bssEntry k
          { t.bssEntry k with varIeFromProbeRspLen := n } i).bssid = (t.bssEntry i).bssid ∧
        (Function.update t.bssEntry k { t.bssEntry k with varIeFromProbeRspLen := n } i).channel =
          (t.bssEntry i).channel ∧
        (Function.update t.bssEntry k
          { t.bssEntry k with varIeFromProbeRspLen := n } i).pVarIeFromProbRsp = t.ptr i ∧
        (alloc i = none → (Function.update t.bssEntry k
          { t.bssEntry k with varIeFromProbeRspLen := n } i).varIeFromProbeRspLen = 0) := by
      intro i
      by_cases hik : i = k
      · subst hik
        rw [Function.update_self]
        exact ⟨rfl, rfl, rfl, hn⟩
      · rw [Function.update_of_ne hik]
        exact ⟨rfl, rfl, rfl, hI.none_len i⟩
    refine ⟨⟨fun i => (hentry i).2.2.1.trans (hI.ptr_eq i), fun i hi => (hentry i).2.2.2 hi⟩, hI.nr_le,
      hI.overlap_lt, fun i j hi hj h => hI.distinct i j hi hj ?_⟩
    unfold SameBss at h ⊢
    simp only [] at h
    rwa [(hentry i).1, (hentry j).1, (hentry i).2.1, (hentry j).2.1] at h
  unfold BssTable.storeProbeRsp
  split
  · exact hI
  · split
    · exact hset 0 t.heap fun _ => rfl
    · next a ha =>
      refine hset lenVIE _ fun hn => ?_
      have hk := hI.ptr_eq k
      unfold ptr at hk
      rw [ha, hn] at hk
      cases hk

theorem Inv.step {t : BssTable} (hI : t.Inv alloc) (env : BssEnv) (op : Op) (hb : t.Buffered op) :
    (t.step env op).Inv alloc := by
  cases op with
  | init => exact hI.init hinj
  | setEntry w bcn => exact (hI.setEntry env w bcn).1
  | deleteEntry bssid channel => exact hI.deleteEntry hinj hb
  | storeProbeRsp k lenVIE pVIE => exact hI.storeProbeRsp k lenVIE pVIE

/-- **The BSS table is consistent** after every run in which no deletion moves an entry with a buffer to
a slot without one; what is set then is found, and what is deleted is exactly what matches. -/
theorem consistent_of_buffered (env : BssEnv) (ops : List Op) (h : Along (step env) Buffered (fresh alloc) ops) :
    (run (step env) (fresh alloc) ops).Consistent ∧
      (∀ w bcn, SetFinds env (run (step env) (fresh alloc) ops) w bcn) ∧
      ∀ bssid channel, (run (step env) (fresh alloc) ops).Buffered (.deleteEntry bssid channel) →
        (run (step env) (fresh alloc) ops).DeletesExactly bssid channel := by
  have hfresh : (fresh alloc).Inv alloc :=
    { ptr_eq := fun _ => rfl
      none_len := fun _ _ => rfl
      nr_le := Nat.zero_le _
      overlap_lt := Nat.zero_lt_succ _
      distinct := fun i j hi => absurd hi (Nat.not_lt_zero i) }
  have hI := run_invariant (I := Inv alloc) (fun t op hI hb => hI.step hinj env op hb) ops _ hfresh h
  refine ⟨⟨hI.nr_le, hI.distinct, fun i j a hi hj => ?_⟩, fun w bcn => (hI.setEntry env w bcn).2,
    fun bssid channel hb => deletesExactly hinj hI.toSlots hb⟩
  rw [hI.ptr_eq] at hi hj
  exact hinj i j a hi hj

end Operations

def noCipher : ℕ → Byte := mem [1, 0, 0, 0, 1, 0, 0, 0, 1]

/-- `BssCipherParse` on an entry without variable elements, and no HT elements to look at. -/
def plainEnv : BssEnv where
  getCentChByHtinfo := fun addHtInfo _ => addHtInfo 0
  bssCipherParse := fun b => ⟨b.cipher.bSES, noCipher, noCipher, 0, 0, if b.privacy then 0 else 1⟩

/-- A bare beacon of the BSS `bssid` on `channel`. -/
def plainBeacon (bssid : BitVec 48) (channel : Byte) : Beacon where
  ie :=
    { bssid := bssid
      ssid := mem [0x61#8]
      ssidLen := 1
      bssType := 1
      beaconPeriod := 100
      channel := channel
      atimWin := 0
      capabilityInfo := 1
      supRate := mem [0x82#8]
      supRateLen := 1
      extRate := zeroMemory
      extRateLen := 0
      ckipFlag := 0
      timeStamp := zeroMemory
      cfParm := ⟨false, 0, 0, 0, 0⟩
      edcaParm := ⟨false, zeroMemory⟩
      qbssLoad := ⟨false, zeroMemory⟩
      qosCapability := ⟨false, zeroMemory⟩
      htCapabilityLen := 0
      htCapability := zeroMemory
      addHtInfoLen := 0
      addHtInfo := zeroMemory
      newExtChannelOffset := 0
      vhtCapIe := zeroMemory
      vhtOpIe := zeroMemory
      vhtCapLen := 0
      vhtOpLen := 0 }
  rssi := 0xc0#8
  lengthVIE := 0
  pVIE := zeroMemory
  now := 0

def noWish : Wanted := ⟨false, false, 0, zeroMemory, 0⟩

def lostRun : List Op :=
  [.setEntry noWish (plainBeacon 0x0a 1), .setEntry noWish (plainBeacon 0x0b 6), .deleteEntry 0x0a 1]

theorem consistent_lostRun :
    Along (step plainEnv) Buffered (fresh some) lostRun ∧ (run (step plainEnv) (fresh some) lostRun).Consistent :=
  have h : Along (step plainEnv) Buffered (fresh some) lostRun := by decide +kernel
  ⟨h, (consistent_of_buffered (fun i j a hi hj => by cases hi; cases hj; rfl) plainEnv lostRun h).1⟩

/-- Without a buffer of its own, slot 0 takes over the one of slot 1. -/
theorem not_consistent_lostRun :
    ¬ (run (step plainEnv) (fresh fun k => if k = 0 then none else some k) lostRun).Consistent := by
  intro h
  have h0 : (run (step plainEnv) (fresh fun k => if k = 0 then none else some k) lostRun).ptr 0 =
      some 1 := by decide +kernel
  have h1 : (run (step plainEnv) (fresh fun k => if k = 0 then none else some k) lostRun).ptr 1 =
      some 1 := by decide +kernel
  exact absurd (h.buffers 0 1 1 h0 h1) (by decide)

end BssTable

end Mt7610u.Mlme
