import Mt7610u.Coex.TriggerEvents

/-! # The intolerant channel report

`BuildIntolerantChannelRep` of `common/action.c`. -/

namespace Mt7610u.Coex

open Mt7610u.Lib

def IE_2040_BSS_INTOLERANT_REPORT : Byte := 73

def regClassArray : List Byte := [0, 11, 12, 32, 33, 54, 55]

def collect (tmpRegClass : Byte) : List TriggerEventA → List Byte → List TriggerEventA × List Byte
  | [], channelList => ([], channelList)
  | e :: rest, channelList =>
    if e.bValid ∧ e.regClass = tmpRegClass then
      let channel := e.channel.setWidth 8
      let r := collect tmpRegClass rest (if channel ∈ channelList then channelList else channelList ++ [channel])
      ({ e with bValid := false } :: r.1, r.2)
    else
      let r := collect tmpRegClass rest channelList
      (e :: r.1, r.2)

structure Report where
  eventA : List TriggerEventA
  pDest : ℕ → Byte
  readOffset : ℕ
  frameLen : ℕ

def reportClass (eventANo : ℕ) (s : Report) (tmpRegClass : Byte) : Report :=
  let r := collect tmpRegClass (s.eventA.take eventANo) []
  let eventA := r.1 ++ s.eventA.drop eventANo
  let idx := r.2.length
  if 0 < idx then
    { eventA
      pDest := copy (copy s.pDest s.readOffset [IE_2040_BSS_INTOLERANT_REPORT, BitVec.ofNat 8 (1 + idx), tmpRegClass])
        (s.readOffset + 3) r.2
      readOffset := s.readOffset + (3 + idx)
      frameLen := s.frameLen + (3 + idx) }
  else { s with eventA }

/-- `BuildIntolerantChannelRep`, with the events that it leaves. -/
def buildIntolerantChannelRep (tab : TriggerEventTab) (pDest : ℕ → Byte) : Report :=
  regClassArray.foldl (reportClass tab.eventANo) ⟨tab.eventA, pDest, 0, 0⟩

/-! ### What is asked -/

abbrev Element := Byte × List Byte

def Element.octets (e : Element) : List Byte :=
  [IE_2040_BSS_INTOLERANT_REPORT, BitVec.ofNat 8 (1 + e.2.length), e.1] ++ e.2

def Element.pairs (e : Element) : List (Byte × Byte) := e.2.map fun channel => (channel, e.1)

/-- **What is asked of the report** on the pairs that were recorded: it is a row of well-formed elements, in which each
pair comes once and no other; its length is what is returned, and nothing is written behind it; and no event is left
valid. -/
structure Complete (tab : TriggerEventTab) (recorded : List (Byte × Byte)) (pDest : ℕ → Byte) : Prop where
  reported : ∃ elements : List Element,
    (∀ e ∈ elements, e.2 ≠ [] ∧ 1 + e.2.length < 256) ∧
    HoldsAt (buildIntolerantChannelRep tab pDest).pDest 0 (elements.flatMap Element.octets) ∧
    (buildIntolerantChannelRep tab pDest).frameLen = (elements.flatMap Element.octets).length ∧
    (elements.flatMap Element.pairs).Nodup ∧ ∀ p, p ∈ elements.flatMap Element.pairs ↔ p ∈ recorded
  behind : ∀ i, (buildIntolerantChannelRep tab pDest).frameLen ≤ i →
    (buildIntolerantChannelRep tab pDest).pDest i = pDest i
  cleared : ∀ e ∈ (buildIntolerantChannelRep tab pDest).eventA, e.bValid = false

/-! ### One class -/

section

variable {c : Byte}

def channelOf (c : Byte) : Option (BitVec 16 × Byte) → Option Byte
  | none => none
  | some (channel, regClass) => if regClass = c then some (channel.setWidth 8) else none

def dropClass (c : Byte) : Option (BitVec 16 × Byte) → Option (BitVec 16 × Byte)
  | none => none
  | some (channel, regClass) => if regClass = c then none else some (channel, regClass)

theorem key_of_takes {e : TriggerEventA} (h : e.bValid = true ∧ e.regClass = c) :
    channelOf c e.key = some (e.channel.setWidth 8) ∧ dropClass c e.key = none := by
  have hkey : e.key = some (e.channel, e.regClass) := if_pos h.1
  rw [hkey]
  exact ⟨if_pos h.2, if_pos h.2⟩

theorem key_of_leaves {e : TriggerEventA} (h : ¬ (e.bValid = true ∧ e.regClass = c)) :
    channelOf c e.key = none ∧ dropClass c e.key = e.key := by
  by_cases hvalid : e.bValid = true
  · have hkey : e.key = some (e.channel, e.regClass) := if_pos hvalid
    have hclass : e.regClass ≠ c := fun hc => h ⟨hvalid, hc⟩
    rw [hkey]
    exact ⟨if_neg hclass, if_neg hclass⟩
  · have hkey : e.key = none := if_neg hvalid
    rw [hkey]
    exact ⟨rfl, rfl⟩

theorem keys_collect (es : List TriggerEventA) (channelList : List Byte) :
    (collect c es channelList).1.map TriggerEventA.key = (es.map TriggerEventA.key).map (dropClass c) := by
  induction es generalizing channelList with
  | nil => rfl
  | cons e es ih =>
    unfold collect
    split
    · rename_i h
      rw [List.map_cons, List.map_cons, List.map_cons, (key_of_takes h).2, ih]
      rfl
    · rename_i h
      rw [List.map_cons, List.map_cons, List.map_cons, (key_of_leaves h).2, ih]

theorem snd_collect (es : List TriggerEventA) (channelList : List Byte)
    (h : (channelList ++ (es.map TriggerEventA.key).filterMap (channelOf c)).Nodup) :
    (collect c es channelList).2 = channelList ++ (es.map TriggerEventA.key).filterMap (channelOf c) := by
  induction es generalizing channelList with
  | nil => exact (List.append_nil _).symm
  | cons e es ih =>
    unfold collect
    split
    · rename_i hc
      rw [List.map_cons, List.filterMap_cons_some (key_of_takes hc).1] at h ⊢
      have hnew : e.channel.setWidth 8 ∉ channelList := by
        intro hmem
        exact (List.nodup_append.1 h).2.2 _ hmem _ List.mem_cons_self rfl
      rw [List.append_cons] at h ⊢
      dsimp only
      rw [if_neg hnew]
      exact ih _ h
    · rename_i hc
      rw [List.map_cons, List.filterMap_cons_none (key_of_leaves hc).1] at h ⊢
      exact ih _ h

end

/-! ### Class after class -/

attribute [local instance] lawfulBEq_byte in
def pending (done : List Byte) (p : Byte × Byte) : Option (BitVec 16 × Byte) :=
  if p.2 ∈ done then none else some (keyOf p)

def channelsOf (pairs : List (Byte × Byte)) (c : Byte) : List Byte := (pairs.filter (·.2 = c)).map Prod.fst

def elementsOf (pairs : List (Byte × Byte)) (done : List Byte) : List Element :=
  (done.map fun c => (c, channelsOf pairs c)).filter (·.2 ≠ [])

section

variable {pairs : List (Byte × Byte)} {done : List Byte} {c : Byte}

theorem dropClass_pending (p : Byte × Byte) : dropClass c (pending done p) = pending (done ++ [c]) p := by
  unfold pending
  by_cases hdone : p.2 ∈ done
  · rw [if_pos hdone, if_pos (List.mem_append_left _ hdone)]
    rfl
  · rw [if_neg hdone]
    by_cases hc : p.2 = c
    · rw [if_pos (List.mem_append_right _ (List.mem_singleton.2 hc))]
      exact if_pos hc
    · rw [if_neg (by simp [hdone, hc])]
      exact if_neg hc

theorem filterMap_pending (hc : c ∉ done) :
    (pairs.map (pending done)).filterMap (channelOf c) = channelsOf pairs c := by
  unfold channelsOf
  induction pairs with
  | nil => rfl
  | cons p pairs ih =>
    rw [List.map_cons]
    by_cases hp : p.2 = c
    · have hchannel : channelOf c (pending done p) = some p.1 := by
        unfold pending
        rw [if_neg (hp ▸ hc)]
        have hwidth : ((p.1.setWidth 16).setWidth 8 : Byte) = p.1 := by
          rw [BitVec.setWidth_setWidth_of_le _ (by decide)]
          exact BitVec.setWidth_eq _
        rw [← hwidth]
        exact if_pos hp
      rw [List.filterMap_cons_some hchannel, List.filter_cons_of_pos (by simpa using hp), List.map_cons, ih]
    · have hchannel : channelOf c (pending done p) = none := by
        unfold pending
        split
        · rfl
        · exact if_neg hp
      rw [List.filterMap_cons_none hchannel, List.filter_cons_of_neg (by simpa using hp), ih]

theorem nodup_channelsOf (h : pairs.Nodup) (c : Byte) : (channelsOf pairs c).Nodup := by
  refine List.Nodup.map_on ?_ (h.filter _)
  intro p hp q hq heq
  have hp2 : p.2 = c := by simpa using (List.mem_filter.1 hp).2
  have hq2 : q.2 = c := by simpa using (List.mem_filter.1 hq).2
  exact Prod.ext heq (hp2.trans hq2.symm)

theorem mem_channelsOf {channel : Byte} : channel ∈ channelsOf pairs c ↔ (channel, c) ∈ pairs := by
  unfold channelsOf
  rw [List.mem_map]
  constructor
  · rintro ⟨⟨channel', c'⟩, hp, rfl⟩
    obtain ⟨hmem, hc⟩ := List.mem_filter.1 hp
    obtain rfl : c' = c := by simpa using hc
    exact hmem
  · intro h
    exact ⟨(channel, c), List.mem_filter.2 ⟨h, by simp⟩, rfl⟩

theorem mem_pairs {p : Byte × Byte} : p ∈ Element.pairs (c, channelsOf pairs c) ↔ p ∈ pairs ∧ p.2 = c := by
  unfold Element.pairs
  rw [List.mem_map]
  constructor
  · rintro ⟨channel, hmem, rfl⟩
    exact ⟨mem_channelsOf.1 hmem, rfl⟩
  · rintro ⟨hmem, rfl⟩
    exact ⟨p.1, mem_channelsOf.2 hmem, rfl⟩

theorem mem_elementsOf (p : Byte × Byte) :
    p ∈ (elementsOf pairs done).flatMap Element.pairs ↔ p ∈ pairs ∧ p.2 ∈ done := by
  unfold elementsOf
  simp only [List.mem_flatMap, List.mem_filter, List.mem_map]
  constructor
  · rintro ⟨e, ⟨⟨c, hc, rfl⟩, -⟩, hp⟩
    obtain ⟨hmem, rfl⟩ := mem_pairs.1 hp
    exact ⟨hmem, hc⟩
  · rintro ⟨hmem, hdone⟩
    refine ⟨_, ⟨⟨p.2, hdone, rfl⟩, ?_⟩, mem_pairs.2 ⟨hmem, rfl⟩⟩
    simpa using List.ne_nil_of_mem (mem_channelsOf.2 hmem)

theorem nodup_elementsOf (h : pairs.Nodup) (hdone : done.Nodup) :
    ((elementsOf pairs done).flatMap Element.pairs).Nodup := by
  rw [List.nodup_flatMap]
  constructor
  · intro e he
    obtain ⟨c, -, rfl⟩ := List.mem_map.1 (List.mem_filter.1 he).1
    exact (nodup_channelsOf h c).map fun a b heq => (Prod.mk.inj heq).1
  · refine List.Pairwise.filter _ (List.pairwise_map.2 (hdone.imp fun {c d} hne => ?_))
    intro p hp hq
    exact hne ((mem_pairs.1 hp).2.symm.trans (mem_pairs.1 hq).2)

theorem elementsOf_append :
    elementsOf pairs (done ++ [c]) =
      elementsOf pairs done ++ if channelsOf pairs c ≠ [] then [(c, channelsOf pairs c)] else [] := by
  unfold elementsOf
  rw [List.map_append, List.filter_append]
  congr 1
  by_cases hnil : channelsOf pairs c = []
  · simp [hnil]
  · simp [hnil]

structure Reported (pairs : List (Byte × Byte)) (pDest : ℕ → Byte) (done : List Byte) (s : Report) : Prop where
  used : (s.eventA.take pairs.length).map TriggerEventA.key = pairs.map (pending done)
  unused : ∀ e ∈ s.eventA.drop pairs.length, e.bValid = false
  readOffset : s.readOffset = ((elementsOf pairs done).flatMap Element.octets).length
  frameLen : s.frameLen = s.readOffset
  holds : HoldsAt s.pDest 0 ((elementsOf pairs done).flatMap Element.octets)
  behind : ∀ i, s.frameLen ≤ i → s.pDest i = pDest i

theorem reported_start {tab : TriggerEventTab} (h : Records tab pairs) (pDest : ℕ → Byte) :
    Reported pairs pDest [] ⟨tab.eventA, pDest, 0, 0⟩ := by
  have hlen : pairs.length = (pairs.map fun p => some (keyOf p)).length := (List.length_map _).symm
  refine ⟨?_, ?_, rfl, rfl, holdsAt_nil _ _, fun _ _ => rfl⟩
  · rw [List.map_take, h.keys, List.take_left' hlen.symm]
    rfl
  · intro e he
    have hkey : e.key ∈ (tab.eventA.drop pairs.length).map TriggerEventA.key := List.mem_map_of_mem he
    rw [List.map_drop, h.keys, List.drop_left' hlen.symm] at hkey
    have hnone := List.eq_of_mem_replicate hkey
    by_contra hvalid
    rw [TriggerEventA.key, if_pos (by simpa using hvalid)] at hnone
    exact absurd hnone nofun

theorem reported_class {pDest : ℕ → Byte} {s : Report} (hnodup : pairs.Nodup) (h : Reported pairs pDest done s)
    (hc : c ∉ done) : Reported pairs pDest (done ++ [c]) (reportClass pairs.length s c) := by
  have hchannels : (collect c (s.eventA.take pairs.length) []).2 = channelsOf pairs c := by
    rw [snd_collect]
    · rw [h.used, List.nil_append, filterMap_pending hc]
    · rw [h.used, List.nil_append, filterMap_pending hc]
      exact nodup_channelsOf hnodup c
  have hkeys : (collect c (s.eventA.take pairs.length) []).1.map TriggerEventA.key =
      pairs.map (pending (done ++ [c])) := by
    rw [keys_collect, h.used, List.map_map]
    exact List.map_congr_left fun p _ => dropClass_pending p
  have hlen : (collect c (s.eventA.take pairs.length) []).1.length = pairs.length := by
    have := congrArg List.length hkeys
    rwa [List.length_map, List.length_map] at this
  have hoctets : ((elementsOf pairs (done ++ [c])).flatMap Element.octets) =
      (elementsOf pairs done).flatMap Element.octets ++
        if channelsOf pairs c ≠ [] then Element.octets (c, channelsOf pairs c) else [] := by
    rw [elementsOf_append, List.flatMap_append]
    split <;> simp
  have hused : ((collect c (s.eventA.take pairs.length) []).1 ++ s.eventA.drop pairs.length).take pairs.length =
      (collect c (s.eventA.take pairs.length) []).1 := List.take_left' hlen
  have hunused : ((collect c (s.eventA.take pairs.length) []).1 ++ s.eventA.drop pairs.length).drop pairs.length =
      s.eventA.drop pairs.length := List.drop_left' hlen
  unfold reportClass
  dsimp only
  rw [hchannels]
  by_cases hnil : channelsOf pairs c = []
  · rw [if_neg (by simp [hnil])]
    rw [if_neg (by simpa using hnil), List.append_nil] at hoctets
    refine ⟨?_, ?_, ?_, h.frameLen, ?_, h.behind⟩
    · rw [hused, hkeys]
    · rw [hunused]
      exact h.unused
    · rw [hoctets, ← h.readOffset]
    · rw [hoctets]
      exact h.holds
  · rw [if_pos (List.length_pos_iff.2 hnil)]
    rw [if_pos hnil] at hoctets
    have hoff := h.readOffset
    refine ⟨?_, ?_, ?_, ?_, ?_, ?_⟩
    · rw [hused, hkeys]
    · rw [hunused]
      exact h.unused
    · rw [hoctets, List.length_append, ← hoff, Element.octets, List.length_append]
      rfl
    · show s.frameLen + _ = s.readOffset + _
      rw [h.frameLen]
    · rw [hoctets, Element.octets, ← List.append_assoc]
      refine HoldsAt.append_copy _ (HoldsAt.append_copy _ h.holds ?_) ?_
      · rw [hoff, Nat.zero_add]
      · rw [hoff, List.length_append, Nat.zero_add]
        rfl
    · intro i hi
      have hle : s.frameLen + (3 + (channelsOf pairs c).length) ≤ i := hi
      have hfl := h.frameLen
      show copy (copy s.pDest s.readOffset _) (s.readOffset + 3) _ i = _
      rw [copy_of_ge (by omega), copy_of_ge]
      · exact h.behind i (by omega)
      · show s.readOffset + 3 ≤ i
        omega

theorem reported_foldl {pDest : ℕ → Byte} {s : Report} (hnodup : pairs.Nodup) (h : Reported pairs pDest done s)
    (cs : List Byte) (hcs : (done ++ cs).Nodup) :
    Reported pairs pDest (done ++ cs) (cs.foldl (reportClass pairs.length) s) := by
  induction cs generalizing done s with
  | nil => rwa [List.append_nil]
  | cons c cs ih =>
    have hc : c ∉ done := fun hmem => (List.nodup_append.1 hcs).2.2 _ hmem _ List.mem_cons_self rfl
    rw [List.append_cons] at hcs ⊢
    exact ih (reported_class hnodup h hc) hcs

end

/-- **When the report is complete**: exactly when every recorded class is one of the list. -/
theorem complete_iff (delay : BitVec 32) (tab : TriggerEventTab) (calls : List Heard) (pDest : ℕ → Byte)
    (hroom : (legacyPairs calls).toFinset.card ≤ MAX_TRIGGER_EVENT) :
    Complete (setEntries delay tab calls) (legacyPairs calls) pDest ↔
      ∀ p ∈ legacyPairs calls, p.2 ∈ regClassArray := by
  obtain ⟨pairs, hrec, hmem⟩ := records_setEntries delay tab calls hroom
  have hrep : Reported pairs pDest regClassArray (buildIntolerantChannelRep (setEntries delay tab calls) pDest) := by
    unfold buildIntolerantChannelRep
    rw [hrec.no]
    exact reported_foldl hrec.nodup (reported_start hrec pDest) regClassArray (by decide)
  have hsplit := List.take_append_drop pairs.length
    (buildIntolerantChannelRep (setEntries delay tab calls) pDest).eventA
  generalize hR : buildIntolerantChannelRep (setEntries delay tab calls) pDest = R at hrep hsplit
  constructor
  · intro h p hp
    by_contra hclass
    have hkey : some (keyOf p) ∈ (R.eventA.take pairs.length).map TriggerEventA.key := by
      rw [hrep.used]
      exact List.mem_map.2 ⟨p, (hmem p).2 hp, if_neg hclass⟩
    obtain ⟨e, he, hek⟩ := List.mem_map.1 hkey
    have hvalid := h.cleared e (hR ▸ List.mem_of_mem_take he)
    rw [TriggerEventA.key, hvalid] at hek
    exact absurd hek nofun
  · intro h
    refine ⟨⟨elementsOf pairs regClassArray, ?_, ?_, ?_, ?_, ?_⟩, ?_, ?_⟩
    · intro e he
      obtain ⟨hmap, hne⟩ := List.mem_filter.1 he
      obtain ⟨c, -, rfl⟩ := List.mem_map.1 hmap
      have hle : (channelsOf pairs c).length ≤ pairs.length := by
        unfold channelsOf
        rw [List.length_map]
        exact List.length_filter_le _ _
      have hsixtyfour := hrec.length_le
      unfold MAX_TRIGGER_EVENT at hsixtyfour
      refine ⟨by simpa using hne, ?_⟩
      show 1 + (channelsOf pairs c).length < 256
      omega
    · rw [hR]
      exact hrep.holds
    · rw [hR, hrep.frameLen, hrep.readOffset]
    · exact nodup_elementsOf hrec.nodup (by decide)
    · intro p
      rw [mem_elementsOf, hmem]
      exact and_iff_left_of_imp (h p)
    · rw [hR]
      exact hrep.behind
    · rw [hR]
      intro e he
      rw [← hsplit, List.mem_append] at he
      rcases he with he | he
      · have hkey : e.key ∈ (R.eventA.take pairs.length).map TriggerEventA.key := List.mem_map_of_mem he
        rw [hrep.used] at hkey
        obtain ⟨p, hp, hpk⟩ := List.mem_map.1 hkey
        rw [pending, if_pos (h p ((hmem p).1 hp))] at hpk
        by_contra hvalid
        rw [TriggerEventA.key, if_pos (by simpa using hvalid)] at hpk
        exact absurd hpk nofun
      · exact hrep.unused e he

/-- An access point of class 12 and one that says nothing of its class. -/
theorem complete_iff_two :
    Complete (setEntries 0 ⟨0, List.replicate 64 ⟨false, [], 0, 0⟩, 0, rfl⟩
          [⟨[], 0, false, 12, 6⟩, ⟨[], 0, false, 0, 1⟩])
        (legacyPairs [⟨[], 0, false, 12, 6⟩, ⟨[], 0, false, 0, 1⟩]) (mem []) ↔
      ∀ p ∈ legacyPairs [⟨[], 0, false, 12, 6⟩, ⟨[], 0, false, 0, 1⟩], p.2 ∈ regClassArray :=
  complete_iff 0 _ _ (mem []) (by decide)

/-- An access point on channel 6 of class 4, which has the channels 1 to 13 in Europe. -/
theorem not_complete_europe :
    ¬ Complete (setEntries 0 ⟨0, List.replicate 64 ⟨false, [], 0, 0⟩, 0, rfl⟩ [⟨[], 0, false, 4, 6⟩])
      (legacyPairs [⟨[], 0, false, 4, 6⟩]) (mem []) := by
  intro h
  have hcleared := h.cleared ⟨true, [], 4, 6⟩ (by decide)
  exact absurd hcleared (by decide)

end Mt7610u.Coex
