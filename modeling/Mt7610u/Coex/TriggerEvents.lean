import Mathlib.Data.Finset.Card
import Mt7610u.Lib.Bytes

/-! # Trigger events

The table of 20/40 trigger events, `TriEventInit` and `TriEventTableSetEntry` of `common/mlme.c`. -/

namespace Mt7610u.Coex

open Mt7610u.Lib

structure TriggerEventA where
  bValid : Bool
  bssid : List Byte
  regClass : Byte
  channel : BitVec 16
deriving DecidableEq

def MAX_TRIGGER_EVENT : ℕ := 64

/-- `TRIGGER_EVENT_TAB`. The array always has its `MAX_TRIGGER_EVENT` places. -/
structure TriggerEventTab where
  eventANo : ℕ
  eventA : List TriggerEventA
  eventBCountDown : BitVec 32
  size : eventA.length = MAX_TRIGGER_EVENT

def triEventInit (tab : TriggerEventTab) : TriggerEventTab where
  eventANo := 0
  eventA := tab.eventA.map fun e => { e with bValid := false }
  eventBCountDown := 0
  size := by rw [List.length_map, tab.size]

structure Heard where
  bssid : List Byte
  htCapabilityLen : ℕ
  fortyMhzIntolerant : Bool
  regClass : Byte
  channelNo : Byte
deriving DecidableEq

def Heard.isSet (h : Heard) (e : TriggerEventA) : Bool :=
  e.bValid && e.channel = h.channelNo.setWidth 16 && e.regClass = h.regClass

def Heard.event (h : Heard) : TriggerEventA :=
  ⟨true, h.bssid, if h.regClass ≠ 0 then h.regClass else 0, h.channelNo.setWidth 16⟩

/-- `TriEventTableSetEntry`; `delay` is `Dot11BssWidthChanTranDelay`. -/
def triEventTableSetEntry (delay : BitVec 32) (tab : TriggerEventTab) (h : Heard) : TriggerEventTab :=
  if h.htCapabilityLen = 0 then
    if tab.eventA.any h.isSet then tab
    else if tab.eventANo < MAX_TRIGGER_EVENT then
      { tab with
        eventANo := tab.eventANo + 1
        eventA := tab.eventA.set tab.eventANo h.event
        size := by rw [List.length_set, tab.size] }
    else tab
  else if h.fortyMhzIntolerant then { tab with eventBCountDown := delay }
  else tab

/-- The table after calls, from `TriEventInit` on. -/
def setEntries (delay : BitVec 32) (tab : TriggerEventTab) (calls : List Heard) : TriggerEventTab :=
  calls.foldl (triEventTableSetEntry delay) (triEventInit tab)

/-- The channel and the regulatory class of each legacy access point. -/
def legacyPairs (calls : List Heard) : List (Byte × Byte) :=
  (calls.filter (·.htCapabilityLen = 0)).map fun h => (h.channelNo, h.regClass)

/-! ### What is recorded -/

def TriggerEventA.key (e : TriggerEventA) : Option (BitVec 16 × Byte) :=
  if e.bValid then some (e.channel, e.regClass) else none

def keyOf (p : Byte × Byte) : BitVec 16 × Byte := (p.1.setWidth 16, p.2)

theorem keyOf_injective : Function.Injective keyOf := by
  rintro ⟨a, c⟩ ⟨b, d⟩ h
  obtain ⟨hch, hcl⟩ := Prod.mk.inj h
  have hnat := congrArg BitVec.toNat hch
  rw [BitVec.toNat_setWidth_of_le (by decide), BitVec.toNat_setWidth_of_le (by decide)] at hnat
  exact Prod.ext (BitVec.eq_of_toNat_eq hnat) hcl

structure Records (tab : TriggerEventTab) (pairs : List (Byte × Byte)) : Prop where
  no : tab.eventANo = pairs.length
  keys : tab.eventA.map TriggerEventA.key =
    pairs.map (fun p => some (keyOf p)) ++ List.replicate (MAX_TRIGGER_EVENT - pairs.length) none
  nodup : pairs.Nodup

theorem Records.length_le {tab : TriggerEventTab} {pairs : List (Byte × Byte)} (h : Records tab pairs) :
    pairs.length ≤ MAX_TRIGGER_EVENT := by
  have hlen := congrArg List.length h.keys
  rw [List.length_map, tab.size, List.length_append, List.length_map] at hlen
  omega

theorem records_init (tab : TriggerEventTab) : Records (triEventInit tab) [] := by
  refine ⟨rfl, ?_, List.nodup_nil⟩
  show (tab.eventA.map fun e => { e with bValid := false }).map TriggerEventA.key = _
  rw [List.map_map, List.map_nil, List.nil_append, List.length_nil, Nat.sub_zero, ← tab.size, ← List.map_const']
  rfl

theorem isSet_iff {h : Heard} {e : TriggerEventA} :
    h.isSet e = true ↔ e.key = some (keyOf (h.channelNo, h.regClass)) := by
  unfold Heard.isSet TriggerEventA.key keyOf
  cases e.bValid <;> simp

theorem key_event (h : Heard) : h.event.key = some (keyOf (h.channelNo, h.regClass)) := by
  have hclass : (if h.regClass ≠ 0 then h.regClass else 0) = h.regClass := by
    split
    · rfl
    · rename_i hzero
      exact (not_not.1 hzero).symm
  show some (_, if h.regClass ≠ 0 then h.regClass else 0) = _
  rw [hclass]
  rfl

theorem any_isSet_iff {tab : TriggerEventTab} {pairs : List (Byte × Byte)} (h : Records tab pairs) (x : Heard) :
    tab.eventA.any x.isSet = true ↔ (x.channelNo, x.regClass) ∈ pairs := by
  have hkeys : tab.eventA.any x.isSet = true ↔
      some (keyOf (x.channelNo, x.regClass)) ∈ tab.eventA.map TriggerEventA.key := by
    rw [List.any_eq_true, List.mem_map]
    exact exists_congr fun e => and_congr_right fun _ => isSet_iff
  rw [hkeys, h.keys, List.mem_append, List.mem_map]
  constructor
  · rintro (⟨p, hp, heq⟩ | hnone)
    · rwa [keyOf_injective (Option.some.inj heq)] at hp
    · exact absurd (List.eq_of_mem_replicate hnone) nofun
  · intro hp
    exact Or.inl ⟨_, hp, rfl⟩

def recordPair (pairs : List (Byte × Byte)) (x : Heard) : List (Byte × Byte) :=
  if x.htCapabilityLen = 0 ∧ (x.channelNo, x.regClass) ∉ pairs ∧ pairs.length < MAX_TRIGGER_EVENT then
    pairs ++ [(x.channelNo, x.regClass)]
  else pairs

theorem records_setEntry {delay : BitVec 32} {tab : TriggerEventTab} {pairs : List (Byte × Byte)}
    (h : Records tab pairs) (x : Heard) : Records (triEventTableSetEntry delay tab x) (recordPair pairs x) := by
  unfold triEventTableSetEntry
  by_cases hlegacy : x.htCapabilityLen = 0
  swap
  · have hsame : recordPair pairs x = pairs := if_neg fun hc => hlegacy hc.1
    rw [if_neg hlegacy, hsame]
    split
    · exact ⟨h.no, h.keys, h.nodup⟩
    · exact h
  rw [if_pos hlegacy]
  by_cases hset : (x.channelNo, x.regClass) ∈ pairs
  · have hsame : recordPair pairs x = pairs := if_neg fun hc => hc.2.1 hset
    rw [if_pos ((any_isSet_iff h x).2 hset), hsame]
    exact h
  rw [if_neg ((any_isSet_iff h x).not.2 hset)]
  by_cases hroom : pairs.length < MAX_TRIGGER_EVENT
  swap
  · have hsame : recordPair pairs x = pairs := if_neg fun hc => hroom hc.2.2
    rw [if_neg (by rwa [h.no]), hsame]
    exact h
  have hmore : recordPair pairs x = pairs ++ [(x.channelNo, x.regClass)] := if_pos ⟨hlegacy, hset, hroom⟩
  rw [if_pos (by rwa [h.no]), hmore]
  constructor
  · show tab.eventANo + 1 = _
    rw [h.no, List.length_append]
    rfl
  · show (tab.eventA.set tab.eventANo x.event).map TriggerEventA.key = _
    obtain ⟨k, hk⟩ : ∃ k, MAX_TRIGGER_EVENT - pairs.length = k + 1 := ⟨MAX_TRIGGER_EVENT - pairs.length - 1, by omega⟩
    have hk' : MAX_TRIGGER_EVENT - (pairs ++ [(x.channelNo, x.regClass)]).length = k := by
      rw [List.length_append, List.length_singleton]
      omega
    have hplace : (pairs.map fun p => some (keyOf p)).length ≤ pairs.length := by rw [List.length_map]
    rw [List.map_set, h.keys, key_event, hk, hk', h.no, List.replicate_succ, List.map_append,
      List.set_append_right _ _ hplace, List.length_map, Nat.sub_self]
    simp
  · rw [← List.concat_eq_append]
    exact h.nodup.concat hset

theorem records_foldl {delay : BitVec 32} {tab : TriggerEventTab} {pairs : List (Byte × Byte)}
    (h : Records tab pairs) (calls : List Heard) :
    Records (calls.foldl (triEventTableSetEntry delay) tab) (calls.foldl recordPair pairs) := by
  induction calls generalizing tab pairs with
  | nil => exact h
  | cons x calls ih => exact ih (records_setEntry h x)

theorem nodup_foldl_recordPair (calls : List Heard) : (calls.foldl recordPair []).Nodup := by
  induction calls using List.reverseRecOn with
  | nil => exact List.nodup_nil
  | append_singleton calls x ih =>
    rw [List.foldl_append, List.foldl_cons, List.foldl_nil]
    unfold recordPair
    split
    · rename_i h
      rw [← List.concat_eq_append]
      exact ih.concat h.2.1
    · exact ih

theorem legacyPairs_append (calls : List Heard) (x : Heard) :
    legacyPairs (calls ++ [x]) =
      legacyPairs calls ++ if x.htCapabilityLen = 0 then [(x.channelNo, x.regClass)] else [] := by
  unfold legacyPairs
  rw [List.filter_append, List.map_append]
  by_cases h : x.htCapabilityLen = 0
  · simp [h]
  · simp [h]

theorem mem_foldl_recordPair {calls : List Heard} (hroom : (legacyPairs calls).toFinset.card ≤ MAX_TRIGGER_EVENT) :
    ∀ p, p ∈ calls.foldl recordPair [] ↔ p ∈ legacyPairs calls := by
  induction calls using List.reverseRecOn with
  | nil => exact fun _ => Iff.rfl
  | append_singleton calls x ih =>
    have hsub : (legacyPairs calls).toFinset ⊆ (legacyPairs (calls ++ [x])).toFinset := by
      rw [legacyPairs_append, List.toFinset_append]
      exact Finset.subset_union_left
    have ih := ih (le_trans (Finset.card_le_card hsub) hroom)
    intro p
    rw [List.foldl_append, List.foldl_cons, List.foldl_nil]
    generalize hpairs : calls.foldl recordPair [] = pairs at ih ⊢
    have hnodup : pairs.Nodup := hpairs ▸ nodup_foldl_recordPair calls
    rw [legacyPairs_append, List.mem_append, ← ih]
    by_cases hlegacy : x.htCapabilityLen = 0
    swap
    · have hsame : recordPair pairs x = pairs := if_neg fun hc => hlegacy hc.1
      rw [hsame, if_neg hlegacy]
      simp
    rw [if_pos hlegacy]
    by_cases hset : (x.channelNo, x.regClass) ∈ pairs
    · have hsame : recordPair pairs x = pairs := if_neg fun hc => hc.2.1 hset
      rw [hsame, List.mem_singleton]
      exact ⟨Or.inl, fun hp => hp.elim id fun heq => heq ▸ hset⟩
    · -- the pairs so far and this one are among at most sixty-four
      have hcard : pairs.length + 1 ≤ MAX_TRIGGER_EVENT := by
        have hall : (pairs.concat (x.channelNo, x.regClass)).toFinset ⊆ (legacyPairs (calls ++ [x])).toFinset := by
          intro q hq
          rw [List.mem_toFinset, List.concat_eq_append, List.mem_append] at hq
          rw [List.mem_toFinset, legacyPairs_append, if_pos hlegacy, List.mem_append, ← ih]
          exact hq
        have hle := le_trans (Finset.card_le_card hall) hroom
        rwa [List.toFinset_card_of_nodup (hnodup.concat hset), List.length_concat] at hle
      have hmore : recordPair pairs x = pairs ++ [(x.channelNo, x.regClass)] := if_pos ⟨hlegacy, hset, hcard⟩
      rw [hmore, List.mem_append]

theorem records_setEntries (delay : BitVec 32) (tab : TriggerEventTab) (calls : List Heard)
    (hroom : (legacyPairs calls).toFinset.card ≤ MAX_TRIGGER_EVENT) :
    ∃ pairs, Records (setEntries delay tab calls) pairs ∧ ∀ p, p ∈ pairs ↔ p ∈ legacyPairs calls :=
  ⟨_, records_foldl (records_init tab) calls, mem_foldl_recordPair hroom⟩

end Mt7610u.Coex
