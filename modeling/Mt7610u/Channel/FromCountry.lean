import Mt7610u.Channel.FromRegion

/-! # What `BuildChannelListEx` lists -/

namespace Mt7610u.Channel

variable {cfg : Config}

/-! ### Slots -/

structure Slot where
  d : ChDesp
  channel : ℕ
  p : ChannelTxPower

def slotsFrom (cfg : Config) (d : ChDesp) (increment : ℕ) : ℕ → ℕ → List Slot
  | 0, _ => []
  | turns + 1, i =>
    if cfg.Barred (d.firstChannel + i * increment) then []
    else
      match cfg.txPower.find? fun p => d.firstChannel + i * increment = p.channel with
      | none => slotsFrom cfg d increment turns (i + 1)
      | some p => ⟨d, d.firstChannel + i * increment, p⟩ :: slotsFrom cfg d increment turns (i + 1)

def fillFrom (regulatoryDomain channelListNum : ℕ) : List Slot → ℕ → List ChannelTxPower → List ChannelTxPower
  | [], _, l => l
  | x :: slots, j, l =>
    fillFrom regulatoryDomain channelListNum slots (j + 1)
      (markCap channelListNum j (l.set j (fillEntry x.d x.channel regulatoryDomain x.p (entryAt l j))))

def isCut (cfg : Config) (d : ChDesp) (increment : ℕ) (turns i : ℕ) : Prop :=
  ∃ k < turns, cfg.Barred (d.firstChannel + (i + k) * increment)

theorem fillLoop_eq (d : ChDesp) (increment regulatoryDomain n turns i j : ℕ) (l : List ChannelTxPower) :
    (fillLoop cfg d increment regulatoryDomain n turns i j l).1 =
        fillFrom regulatoryDomain n (slotsFrom cfg d increment turns i) j l ∧
      (fillLoop cfg d increment regulatoryDomain n turns i j l).2.1 = j + (slotsFrom cfg d increment turns i).length ∧
      ((fillLoop cfg d increment regulatoryDomain n turns i j l).2.2 = true ↔ isCut cfg d increment turns i) := by
  induction turns generalizing i j l with
  | zero =>
    refine ⟨rfl, rfl, iff_of_false (by simp [fillLoop]) ?_⟩
    rintro ⟨k, hk, -⟩
    exact absurd hk (Nat.not_lt_zero k)
  | succ turns ih =>
    have hnext : isCut cfg d increment (turns + 1) i ↔
        cfg.Barred (d.firstChannel + i * increment) ∨ isCut cfg d increment turns (i + 1) := by
      constructor
      · rintro ⟨k, hk, hb⟩
        rcases k with _ | k
        · exact Or.inl hb
        · exact Or.inr ⟨k, by omega, by rwa [Nat.add_assoc, Nat.add_comm 1 k]⟩
      · rintro (hb | ⟨k, hk, hb⟩)
        · exact ⟨0, by omega, hb⟩
        · exact ⟨k + 1, by omega, by rwa [← Nat.add_assoc, Nat.add_right_comm]⟩
    unfold fillLoop slotsFrom
    dsimp only
    rw [hnext]
    by_cases hb : cfg.Barred (d.firstChannel + i * increment)
    · rw [if_pos hb, if_pos hb]
      exact ⟨rfl, rfl, iff_of_true rfl (Or.inl hb)⟩
    · rw [if_neg hb, if_neg hb]
      simp only [hb, false_or]
      cases cfg.txPower.find? fun p => d.firstChannel + i * increment = p.channel with
      | none => exact ih (i + 1) j l
      | some p =>
        obtain ⟨hl, hj, hcut⟩ := ih (i + 1) (j + 1)
          (markCap n j (l.set j (fillEntry d (d.firstChannel + i * increment) regulatoryDomain p (entryAt l j))))
        exact ⟨hl, hj.trans (by rw [List.length_cons]; omega), hcut⟩

def ChDesp.increment (d : ChDesp) : ℕ := if d.firstChannel > 14 then 4 else 1

def slots (cfg : Config) (pChDesp : List ChDesp) : List Slot :=
  (pChDesp.filter (usesDesp cfg)).flatMap fun d => slotsFrom cfg d d.increment d.numOfCh 0

def Config.domain (cfg : Config) (dfsType : RdRegion) : ℕ :=
  (if cfg.dfsType ≠ .MAX_RD_REGION then cfg.dfsType else dfsType).toNat

theorem slots_cons_of_uses {d : ChDesp} (h : usesDesp cfg d = true) (pChDesp : List ChDesp) :
    slots cfg (d :: pChDesp) = slotsFrom cfg d d.increment d.numOfCh 0 ++ slots cfg pChDesp := by
  unfold slots
  rw [List.filter_cons_of_pos h, List.flatMap_cons]

theorem slots_cons_of_not_uses {d : ChDesp} (h : ¬usesDesp cfg d = true) (pChDesp : List ChDesp) :
    slots cfg (d :: pChDesp) = slots cfg pChDesp := by
  unfold slots
  rw [List.filter_cons_of_neg h]

theorem createLoop_cons_of_uses {d : ChDesp} (h : usesDesp cfg d = true) (dfsType : RdRegion) (pChDesp : List ChDesp)
    (offset : ℕ) (l : List ChannelTxPower) (n : ℕ) :
    createLoop cfg dfsType (d :: pChDesp) offset l n =
      let xs := slotsFrom cfg d d.increment d.numOfCh 0
      let next := createLoop cfg dfsType pChDesp (offset + xs.length) (fillFrom (cfg.domain dfsType) n xs offset l)
        (offset + xs.length)
      (next.1, next.2.1, (FillChList cfg d offset d.increment (cfg.domain dfsType) l n).2.2 :: next.2.2) := by
  obtain ⟨hl, hj, -⟩ := @fillLoop_eq cfg d d.increment (cfg.domain dfsType) n d.numOfCh 0 offset l
  dsimp only
  rw [← hl, ← hj]
  conv_lhs => unfold createLoop
  rw [if_pos h]
  rfl

theorem createLoop_cons_of_not_uses {d : ChDesp} (h : ¬usesDesp cfg d = true) (dfsType : RdRegion)
    (pChDesp : List ChDesp) (offset : ℕ) (l : List ChannelTxPower) (n : ℕ) :
    createLoop cfg dfsType (d :: pChDesp) offset l n =
      ((createLoop cfg dfsType pChDesp offset l n).1, (createLoop cfg dfsType pChDesp offset l n).2.1,
        d :: (createLoop cfg dfsType pChDesp offset l n).2.2) := by
  conv_lhs => unfold createLoop
  rw [if_neg h]

/-! ### What every build keeps -/

def fillSlot (regulatoryDomain n j : ℕ) (x : Slot) (l : List ChannelTxPower) : List ChannelTxPower :=
  markCap n j (l.set j (fillEntry x.d x.channel regulatoryDomain x.p (entryAt l j)))

theorem fillFrom_cons (regulatoryDomain n : ℕ) (x : Slot) (xs : List Slot) (j : ℕ) (l : List ChannelTxPower) :
    fillFrom regulatoryDomain n (x :: xs) j l =
      fillFrom regulatoryDomain n xs (j + 1) (fillSlot regulatoryDomain n j x l) := rfl

def KeptBySlots (P : List ChannelTxPower → Prop) : Prop :=
  ∀ regulatoryDomain n j x l, P l → P (fillSlot regulatoryDomain n j x l)

section kept

variable {P : List ChannelTxPower → Prop} (hP : KeptBySlots P)
include hP

theorem KeptBySlots.fillFrom {regulatoryDomain n : ℕ} (xs : List Slot) {j : ℕ} {l : List ChannelTxPower} (h : P l) :
    P (fillFrom regulatoryDomain n xs j l) := by
  induction xs generalizing j l with
  | nil => exact h
  | cons x xs ih => exact ih (hP _ _ _ _ _ h)

theorem KeptBySlots.createLoop {dfsType : RdRegion} (pChDesp : List ChDesp) {offset n : ℕ} {l : List ChannelTxPower}
    (h : P l) : P (createLoop cfg dfsType pChDesp offset l n).1 := by
  induction pChDesp generalizing offset n l with
  | nil => exact h
  | cons d pChDesp ih =>
    by_cases hd : usesDesp cfg d = true
    · rw [createLoop_cons_of_uses hd]
      exact ih (hP.fillFrom _ h)
    · rw [createLoop_cons_of_not_uses hd]
      exact ih h

theorem KeptBySlots.build {s : Channels} (h : P s.channelList) : P (BuildChannelListEx cfg s).channelList := by
  unfold BuildChannelListEx
  split
  · exact h
  · split
    · exact h
    · exact hP.createLoop _ h

end kept

theorem entryAt_set_of_le {l : List ChannelTxPower} {i : ℕ} (hi : l.length ≤ i) (e : ChannelTxPower) :
    l.set i e = l := List.set_eq_of_length_le hi

theorem fillSlot_eq (regulatoryDomain n : ℕ) {j : ℕ} (x : Slot) {l : List ChannelTxPower} (hj : j < l.length) :
    fillSlot regulatoryDomain n j x l = l.set j
      (if N_ChannelGroupCheck (l.set j (fillEntry x.d x.channel regulatoryDomain x.p (entryAt l j))) n x.channel then
        (fillEntry x.d x.channel regulatoryDomain x.p (entryAt l j)).cap
      else fillEntry x.d x.channel regulatoryDomain x.p (entryAt l j)) := by
  have hself : entryAt (l.set j (fillEntry x.d x.channel regulatoryDomain x.p (entryAt l j))) j =
      fillEntry x.d x.channel regulatoryDomain x.p (entryAt l j) := by
    rw [entryAt_set hj, if_pos rfl]
  have hchannel : (fillEntry x.d x.channel regulatoryDomain x.p (entryAt l j)).channel = x.channel := rfl
  unfold fillSlot markCap
  rw [hself, hchannel]
  split_ifs
  · rw [List.set_set]
  · rfl

theorem fillSlot_of_le (regulatoryDomain n : ℕ) {j : ℕ} (x : Slot) {l : List ChannelTxPower} (hj : l.length ≤ j) :
    fillSlot regulatoryDomain n j x l = l := by
  unfold fillSlot markCap
  rw [entryAt_set_of_le hj, entryAt_set_of_le hj, ite_self]

theorem keptBySlots_length (n : ℕ) : KeptBySlots (List.length · = n) := by
  intro regulatoryDomain m j x l h
  rcases Nat.lt_or_ge j l.length with hj | hj
  · rw [fillSlot_eq _ _ _ hj]
    rw [List.length_set]
    exact h
  · rw [fillSlot_of_le _ _ _ hj]
    exact h

def Kept (e : ChannelTxPower) : Prop :=
  e.remainingTimeForUse = 0 ∧ e.bEffectedChannel = false ∧ (e.flags = 0 ∨ e.flags = CHANNEL_40M_CAP)

theorem Kept.cap {e : ChannelTxPower} (h : Kept e) : Kept e.cap := by
  obtain ⟨hrem, heff, hflags⟩ := h
  refine ⟨hrem, heff, Or.inr ?_⟩
  unfold ChannelTxPower.cap
  rcases hflags with hflags | hflags
  · rw [hflags]
    rfl
  · rw [hflags]
    rfl

theorem keptBySlots_kept : KeptBySlots fun l => ∀ k, Kept (entryAt l k) := by
  intro regulatoryDomain n j x l h k
  rcases Nat.lt_or_ge j l.length with hj | hj
  · rw [fillSlot_eq _ _ _ hj, entryAt_set hj]
    have hfill : Kept (fillEntry x.d x.channel regulatoryDomain x.p (entryAt l j)) := h j
    split_ifs
    · exact hfill.cap
    · exact hfill
    · exact h k
  · rw [fillSlot_of_le _ _ _ hj]
    exact h k

theorem keptBySlots_cap (k : ℕ) : KeptBySlots fun l => (entryAt l k).flags &&& CHANNEL_40M_CAP ≠ 0 := by
  intro regulatoryDomain n j x l h
  rcases Nat.lt_or_ge j l.length with hj | hj
  · rw [fillSlot_eq _ _ _ hj, entryAt_set hj]
    split_ifs with hk hcheck
    · have hor : ∀ b : BitVec 8, (b ||| CHANNEL_40M_CAP) &&& CHANNEL_40M_CAP ≠ 0 := by decide
      exact hor _
    · subst hk
      exact h
    · exact h
  · rw [fillSlot_of_le _ _ _ hj]
    exact h

/-! ### Checks that do not depend on the list -/

def Slot.filled (regulatoryDomain : ℕ) (x : Slot) (e : ChannelTxPower) : ChannelTxPower :=
  if plainCheck x.channel then (fillEntry x.d x.channel regulatoryDomain x.p e).cap
  else fillEntry x.d x.channel regulatoryDomain x.p e

def fillPlain (regulatoryDomain : ℕ) : List Slot → ℕ → List ChannelTxPower → List ChannelTxPower
  | [], _, l => l
  | x :: xs, j, l => fillPlain regulatoryDomain xs (j + 1) (l.set j (x.filled regulatoryDomain (entryAt l j)))

theorem fillPlain_append (regulatoryDomain : ℕ) (xs ys : List Slot) (j : ℕ) (l : List ChannelTxPower) :
    fillPlain regulatoryDomain (xs ++ ys) j l =
      fillPlain regulatoryDomain ys (j + xs.length) (fillPlain regulatoryDomain xs j l) := by
  induction xs generalizing j l with
  | nil => rfl
  | cons x xs ih =>
    rw [List.cons_append, List.length_cons, ← Nat.add_assoc, Nat.add_right_comm]
    exact ih (j + 1) _

theorem length_fillPlain (regulatoryDomain : ℕ) (xs : List Slot) (j : ℕ) (l : List ChannelTxPower) :
    (fillPlain regulatoryDomain xs j l).length = l.length := by
  induction xs generalizing j l with
  | nil => rfl
  | cons x xs ih => exact (ih _ _).trans (List.length_set ..)

theorem groupCheck_plain (l : List ChannelTxPower) {n channel : ℕ} (h : n = 0 ∨ 14 < channel) :
    N_ChannelGroupCheck l n channel = plainCheck channel := by
  unfold N_ChannelGroupCheck plainCheck
  by_cases h14 : 14 < channel
  · rw [if_pos h14, decide_eq_decide]
    exact (and_iff_right h14).symm
  · obtain rfl : n = 0 := h.resolve_right h14
    have hnone : ∀ c, IsValidChannel l 0 c = false := fun c => by
      unfold IsValidChannel
      rw [List.range_zero, List.any_nil]
    rw [if_neg h14, hnone, hnone, decide_eq_false fun hc => h14 hc.1, if_neg Bool.false_ne_true, ite_self]

theorem fillFrom_plain {regulatoryDomain n : ℕ} (xs : List Slot) {j : ℕ} {l : List ChannelTxPower}
    (hlen : j + xs.length ≤ l.length) (h : n = 0 ∨ ∀ x ∈ xs, 14 < x.channel) :
    fillFrom regulatoryDomain n xs j l = fillPlain regulatoryDomain xs j l := by
  induction xs generalizing j l with
  | nil => rfl
  | cons x xs ih =>
    rw [List.length_cons] at hlen
    have hx : n = 0 ∨ 14 < x.channel := h.imp_right fun h => h x List.mem_cons_self
    have hstep : fillSlot regulatoryDomain n j x l = l.set j (x.filled regulatoryDomain (entryAt l j)) := by
      rw [fillSlot_eq _ _ _ (by omega), groupCheck_plain _ hx]
      rfl
    rw [fillFrom_cons, hstep]
    exact ih (by rw [List.length_set]; omega) (h.imp_right fun h y hy => h y (List.mem_cons_of_mem _ hy))

theorem entryAt_fillPlain_of_lt {regulatoryDomain : ℕ} (xs : List Slot) {j k : ℕ} {l : List ChannelTxPower}
    (hlen : j + xs.length ≤ l.length) (hk : k < j) : entryAt (fillPlain regulatoryDomain xs j l) k = entryAt l k := by
  induction xs generalizing j l with
  | nil => rfl
  | cons x xs ih =>
    rw [List.length_cons] at hlen
    unfold fillPlain
    rw [ih (by rw [List.length_set]; omega) (by omega), entryAt_set (by omega), if_neg (by omega)]

theorem entryAt_fillPlain {regulatoryDomain : ℕ} (xs : List Slot) {j k : ℕ} {l : List ChannelTxPower} {x : Slot}
    (hlen : j + xs.length ≤ l.length) (hk : xs[k]? = some x) :
    entryAt (fillPlain regulatoryDomain xs j l) (j + k) = x.filled regulatoryDomain (entryAt l (j + k)) := by
  induction xs generalizing j l k with
  | nil => exact absurd hk (by simp)
  | cons y xs ih =>
    rw [List.length_cons] at hlen
    have hset : ∀ i, entryAt (l.set j (y.filled regulatoryDomain (entryAt l j))) i =
        if i = j then y.filled regulatoryDomain (entryAt l j) else entryAt l i := entryAt_set (by omega) _
    unfold fillPlain
    rcases k with _ | k
    · obtain rfl := Option.some.inj hk
      rw [entryAt_fillPlain_of_lt _ (by rw [List.length_set]; omega) (by omega), hset, if_pos (Nat.add_zero j)]
      rfl
    · have hrest := @ih (j + 1) k (l.set j (y.filled regulatoryDomain (entryAt l j)))
        (by rw [List.length_set]; omega) hk
      rw [hset, if_neg (by omega), Nat.add_assoc, Nat.add_comm 1 k] at hrest
      exact hrest

theorem listed_fillPlain {regulatoryDomain : ℕ} {xs : List Slot} {l : List ChannelTxPower} (hlen : xs.length ≤ l.length)
    (hentry : ∀ x ∈ xs, ∀ k, x.filled regulatoryDomain (entryAt l k) = x.filled regulatoryDomain .zero) :
    (List.range xs.length).map (entryAt (fillPlain regulatoryDomain xs 0 l)) =
      xs.map fun x => x.filled regulatoryDomain .zero := by
  refine List.ext_getElem (by rw [List.length_map, List.length_map, List.length_range]) fun k hk hk' => ?_
  rw [List.length_map] at hk'
  have hfill := @entryAt_fillPlain regulatoryDomain xs 0 k l xs[k] (by omega) (List.getElem?_eq_getElem hk')
  rw [Nat.zero_add, hentry _ (List.getElem_mem hk')] at hfill
  rw [List.getElem_map, List.getElem_range, List.getElem_map]
  exact hfill

/-! ### The loop over the runs -/

theorem channel_of_mem_slotsFrom {d : ChDesp} {increment turns i : ℕ} {x : Slot}
    (hx : x ∈ slotsFrom cfg d increment turns i) :
    ∃ k < turns, x.channel = d.firstChannel + (i + k) * increment ∧ ¬cfg.Barred x.channel ∧
      ∃ p ∈ cfg.txPower, x.channel = p.channel := by
  induction turns generalizing i with
  | zero => exact absurd hx List.not_mem_nil
  | succ turns ih =>
    have hlater : x ∈ slotsFrom cfg d increment turns (i + 1) → ∃ k < turns + 1,
        x.channel = d.firstChannel + (i + k) * increment ∧ ¬cfg.Barred x.channel ∧
          ∃ p ∈ cfg.txPower, x.channel = p.channel := by
      intro h
      obtain ⟨k, hk, hc, hrest⟩ := ih h
      exact ⟨k + 1, by omega, by rw [hc, Nat.add_assoc i, Nat.add_comm 1 k], hrest⟩
    unfold slotsFrom at hx
    split_ifs at hx with hb
    · exact absurd hx List.not_mem_nil
    · cases hfind : cfg.txPower.find? fun p => d.firstChannel + i * increment = p.channel with
      | none =>
        rw [hfind] at hx
        exact hlater hx
      | some p =>
        rw [hfind] at hx
        rcases List.mem_cons.1 hx with rfl | hx
        · exact ⟨0, by omega, rfl, hb, p, List.mem_of_find?_eq_some hfind, by simpa using List.find?_some hfind⟩
        · exact hlater hx

theorem length_slotsFrom_le (d : ChDesp) (increment turns i : ℕ) :
    (slotsFrom cfg d increment turns i).length ≤ turns := by
  induction turns generalizing i with
  | zero => exact Nat.le_refl _
  | succ turns ih =>
    have := ih (i + 1)
    unfold slotsFrom
    split_ifs
    · exact Nat.zero_le _
    · split
      · omega
      · rw [List.length_cons]
        omega

theorem length_slots_le (pChDesp : List ChDesp) : (slots cfg pChDesp).length ≤ (pChDesp.map ChDesp.numOfCh).sum := by
  induction pChDesp with
  | nil => exact Nat.le_refl _
  | cons d pChDesp ih =>
    rw [List.map_cons, List.sum_cons]
    by_cases hd : usesDesp cfg d = true
    · have := @length_slotsFrom_le cfg d d.increment d.numOfCh 0
      rw [slots_cons_of_uses hd, List.length_append]
      omega
    · rw [slots_cons_of_not_uses hd]
      omega

/-- **The loop over the runs** writes the slots, as long as all of them are in the 5 GHz band. -/
theorem createLoop_plain {dfsType : RdRegion} (pChDesp : List ChDesp) {offset n : ℕ} {l : List ChannelTxPower}
    (hlen : offset + (slots cfg pChDesp).length ≤ l.length) (h : ∀ x ∈ slots cfg pChDesp, 14 < x.channel) :
    (createLoop cfg dfsType pChDesp offset l n).1 = fillPlain (cfg.domain dfsType) (slots cfg pChDesp) offset l ∧
      (createLoop cfg dfsType pChDesp offset l n).2.1 =
        if ∃ d ∈ pChDesp, usesDesp cfg d = true then offset + (slots cfg pChDesp).length else n := by
  induction pChDesp generalizing offset n l with
  | nil => exact ⟨rfl, by rw [if_neg (by simp)]; rfl⟩
  | cons d pChDesp ih =>
    by_cases hd : usesDesp cfg d = true
    · rw [slots_cons_of_uses hd] at hlen h ⊢
      rw [List.length_append] at hlen ⊢
      have hfill : fillFrom (cfg.domain dfsType) n (slotsFrom cfg d d.increment d.numOfCh 0) offset l =
          fillPlain (cfg.domain dfsType) (slotsFrom cfg d d.increment d.numOfCh 0) offset l :=
        fillFrom_plain _ (by omega) (Or.inr fun x hx => h x (List.mem_append_left _ hx))
      have hrest := @ih (offset + (slotsFrom cfg d d.increment d.numOfCh 0).length)
        (offset + (slotsFrom cfg d d.increment d.numOfCh 0).length)
        (fillPlain (cfg.domain dfsType) (slotsFrom cfg d d.increment d.numOfCh 0) offset l)
        (by rw [length_fillPlain]; omega) (fun x hx => h x (List.mem_append_right _ hx))
      have huses : ∃ d' ∈ d :: pChDesp, usesDesp cfg d' = true := ⟨d, List.mem_cons_self, hd⟩
      rw [createLoop_cons_of_uses hd]
      dsimp only
      rw [hfill, fillPlain_append, if_pos huses]
      refine ⟨hrest.1, hrest.2.trans ?_⟩
      split_ifs with hany
      · omega
      · have hnil : slots cfg pChDesp = [] := by
          unfold slots
          rw [List.filter_eq_nil_iff.2 fun d' hd' hu => hany ⟨d', hd', hu⟩, List.flatMap_nil]
        rw [hnil, List.length_nil]
        omega
    · rw [slots_cons_of_not_uses hd] at hlen h ⊢
      rw [createLoop_cons_of_not_uses hd]
      have hany : (∃ d' ∈ d :: pChDesp, usesDesp cfg d' = true) ↔ ∃ d' ∈ pChDesp, usesDesp cfg d' = true := by
        simp [hd]
      simp only [hany]
      exact ih hlen h

theorem createLoop_fresh {dfsType : RdRegion} (d : ChDesp) (pChDesp : List ChDesp) {l : List ChannelTxPower}
    (hlen : (slots cfg (d :: pChDesp)).length ≤ l.length) (h : ∀ d' ∈ pChDesp, 14 < d'.firstChannel) :
    (createLoop cfg dfsType (d :: pChDesp) 0 l 0).1 =
        fillPlain (cfg.domain dfsType) (slots cfg (d :: pChDesp)) 0 l ∧
      (createLoop cfg dfsType (d :: pChDesp) 0 l 0).2.1 = (slots cfg (d :: pChDesp)).length := by
  have hhigh : ∀ x ∈ slots cfg pChDesp, 14 < x.channel := by
    intro x hx
    unfold slots at hx
    obtain ⟨d', hd', hx⟩ := List.mem_flatMap.1 hx
    obtain ⟨k, -, hc, -⟩ := channel_of_mem_slotsFrom hx
    have := h d' (List.mem_of_mem_filter hd')
    omega
  have hnone : ¬(∃ d' ∈ pChDesp, usesDesp cfg d' = true) → slots cfg pChDesp = [] := by
    intro hany
    unfold slots
    rw [List.filter_eq_nil_iff.2 fun d' hd' hu => hany ⟨d', hd', hu⟩, List.flatMap_nil]
  by_cases hd : usesDesp cfg d = true
  · rw [slots_cons_of_uses hd] at hlen ⊢
    rw [List.length_append] at hlen ⊢
    have hfill : fillFrom (cfg.domain dfsType) 0 (slotsFrom cfg d d.increment d.numOfCh 0) 0 l =
        fillPlain (cfg.domain dfsType) (slotsFrom cfg d d.increment d.numOfCh 0) 0 l :=
      fillFrom_plain _ (by omega) (Or.inl rfl)
    have hrest := @createLoop_plain cfg dfsType pChDesp (0 + (slotsFrom cfg d d.increment d.numOfCh 0).length)
      (0 + (slotsFrom cfg d d.increment d.numOfCh 0).length)
      (fillPlain (cfg.domain dfsType) (slotsFrom cfg d d.increment d.numOfCh 0) 0 l)
      (by rw [length_fillPlain]; omega) hhigh
    rw [createLoop_cons_of_uses hd]
    dsimp only
    rw [hfill, fillPlain_append]
    refine ⟨hrest.1, hrest.2.trans ?_⟩
    split_ifs with hany
    · omega
    · rw [hnone hany, List.length_nil]
      omega
  · rw [slots_cons_of_not_uses hd] at hlen ⊢
    rw [createLoop_cons_of_not_uses hd]
    have hrest := @createLoop_plain cfg dfsType pChDesp 0 0 l (by omega) hhigh
    refine ⟨hrest.1, hrest.2.trans ?_⟩
    split_ifs with hany
    · omega
    · rw [hnone hany]
      rfl

/-! ### The country table -/

def Cut (d d' : ChDesp) : Prop :=
  d' = d ∨ d.firstChannel ≤ 14 ∧ d.firstChannel + d.numOfCh = 15 ∧ d' = { d with numOfCh := d.numOfCh - 1 }

structure CutRegion (r r' : ChRegion) : Prop where
  countReg : r'.countReg = r.countReg
  dfsType : r'.dfsType = r.dfsType
  pChDesp : List.Forall₂ Cut r.pChDesp r'.pChDesp

def CutTable (table table' : List ChRegion) : Prop := List.Forall₂ CutRegion table table'

structure Tidy (r : ChRegion) : Prop where
  first : ∀ d ∈ r.pChDesp, d.firstChannel ≤ 14 → d.firstChannel + d.numOfCh ≤ 15
  rest : ∀ d ∈ r.pChDesp.tail, 14 < d.firstChannel
  some : r.pChDesp ≠ []
  total : (r.pChDesp.map ChDesp.numOfCh).sum ≤ 37

set_option maxRecDepth 1000 in
theorem tidy_chRegion : ∀ r ∈ chRegion, Tidy r := by
  have h : ∀ r ∈ chRegion, (∀ d ∈ r.pChDesp, d.firstChannel ≤ 14 → d.firstChannel + d.numOfCh ≤ 15) ∧
      (∀ d ∈ r.pChDesp.tail, 14 < d.firstChannel) ∧ r.pChDesp ≠ [] ∧
      (r.pChDesp.map ChDesp.numOfCh).sum ≤ 37 := by
    decide
  intro r hr
  obtain ⟨hfirst, hrest, hsome, htotal⟩ := h r hr
  exact ⟨hfirst, hrest, hsome, htotal⟩

theorem Cut.usesDesp {d d' : ChDesp} (h : Cut d d') : usesDesp cfg d' = usesDesp cfg d := by
  rcases h with rfl | ⟨-, -, rfl⟩
  · rfl
  · rfl

theorem Cut.fill {d d' : ChDesp} (h : Cut d d') (htidy : d.firstChannel ≤ 14 → d.firstChannel + d.numOfCh ≤ 15)
    (offset domain n : ℕ) (l : List ChannelTxPower) :
    Cut d (FillChList cfg d' offset d'.increment domain l n).2.2 := by
  have hcut := (@fillLoop_eq cfg d' d'.increment domain n d'.numOfCh 0 offset l).2.2
  unfold FillChList
  dsimp only
  split_ifs with hb
  · obtain ⟨k, hk, -, h14, -⟩ := hcut.1 hb
    rw [Nat.zero_add] at h14
    unfold ChDesp.increment at h14
    rcases h with rfl | ⟨hlow, hsum, rfl⟩
    · by_cases hhigh : d'.firstChannel > 14
      · omega
      · rw [if_neg hhigh, Nat.mul_one] at h14
        have := htidy (by omega)
        exact Or.inr ⟨by omega, by omega, rfl⟩
    · dsimp only at hk h14
      rw [if_neg (by omega), Nat.mul_one] at h14
      omega
  · exact h

theorem forall₂_cut_createLoop {dfsType : RdRegion} {ds ds' : List ChDesp} (h : List.Forall₂ Cut ds ds')
    (htidy : ∀ d ∈ ds, d.firstChannel ≤ 14 → d.firstChannel + d.numOfCh ≤ 15) (offset n : ℕ)
    (l : List ChannelTxPower) : List.Forall₂ Cut ds (createLoop cfg dfsType ds' offset l n).2.2 := by
  induction h generalizing offset n l with
  | nil => exact .nil
  | @cons d d' ds ds' hd _ ih =>
    have htidy' := fun d'' hd'' => htidy d'' (List.mem_cons_of_mem d hd'')
    by_cases hu : Channel.usesDesp cfg d' = true
    · rw [createLoop_cons_of_uses hu]
      exact .cons (hd.fill (htidy d List.mem_cons_self) _ _ _ _) (ih htidy' _ _ _)
    · rw [createLoop_cons_of_not_uses hu]
      exact .cons hd (ih htidy' _ _ _)

theorem CutTable.getChRegion {table table' : List ChRegion} (h : CutTable table table') (code : Char × Char) :
    GetChRegion table' code = GetChRegion table code := by
  have hfind : ∀ c : Char × Char,
      (table'.findIdx? fun r => r.countReg = c) = table.findIdx? fun r => r.countReg = c := by
    intro c
    induction h with
    | nil => rfl
    | cons hr _ ih => rw [List.findIdx?_cons, List.findIdx?_cons, hr.countReg, ih]
  unfold GetChRegion
  rw [hfind, hfind]

theorem exists_getChRegion (code : Char × Char) :
    ∃ k r, GetChRegion chRegion code = some k ∧ chRegion[k]? = some r ∧ r ∈ chRegion := by
  have hbound : ∀ c k, (chRegion.findIdx? fun r => r.countReg = c) = some k →
      ∃ r, chRegion[k]? = some r ∧ r ∈ chRegion := by
    intro c k hk
    obtain ⟨hlt, -⟩ := List.findIdx?_eq_some_iff_getElem.1 hk
    exact ⟨chRegion[k], List.getElem?_eq_getElem hlt, List.getElem_mem hlt⟩
  unfold GetChRegion
  cases hcode : chRegion.findIdx? fun r => r.countReg = code with
  | some k =>
    obtain ⟨r, hr, hmem⟩ := hbound code k hcode
    exact ⟨k, r, rfl, hr, hmem⟩
  | none =>
    obtain ⟨k, hk⟩ : ∃ k, (chRegion.findIdx? fun r => r.countReg = ('W', 'O')) = some k := ⟨119, by decide⟩
    obtain ⟨r, hr, hmem⟩ := hbound _ k hk
    exact ⟨k, r, by rw [hk]; rfl, hr, hmem⟩

theorem CutTable.get {table' : List ChRegion} (h : CutTable chRegion table') {k : ℕ} {r : ChRegion}
    (hk : chRegion[k]? = some r) : ∃ r', table'[k]? = some r' ∧ CutRegion r r' := by
  obtain ⟨hlt, rfl⟩ := List.getElem?_eq_some_iff.1 hk
  have hlt' : k < table'.length := h.length_eq ▸ hlt
  exact ⟨table'[k], List.getElem?_eq_getElem hlt', List.Forall₂.get h hlt hlt'⟩

theorem forall₂_set {α β : Type*} {R : α → β → Prop} {l : List α} {l' : List β} (h : List.Forall₂ R l l') {k : ℕ}
    {a : α} {b : β} (hk : l[k]? = some a) (hab : R a b) : List.Forall₂ R l (l'.set k b) := by
  induction h generalizing k with
  | nil => exact absurd hk (by simp)
  | cons hr hrest ih =>
    rcases k with _ | k
    · obtain rfl := Option.some.inj hk
      exact .cons hab hrest
    · exact .cons hr (ih hk)

theorem CutTable.build {s : Channels} (h : CutTable chRegion s.chRegion) :
    CutTable chRegion (BuildChannelListEx cfg s).chRegion := by
  obtain ⟨k, r, hk, hr, hmem⟩ := exists_getChRegion cfg.countryCode
  obtain ⟨r', hr', hcut⟩ := h.get hr
  unfold BuildChannelListEx
  rw [h.getChRegion, hk]
  dsimp only
  rw [hr']
  dsimp only
  have hregion : CutRegion r { r' with
      pChDesp := (createLoop cfg r'.dfsType r'.pChDesp 0 s.channelList s.channelListNum).2.2 } :=
    ⟨hcut.countReg, hcut.dfsType, forall₂_cut_createLoop hcut.pChDesp (tidy_chRegion r hmem).first _ _ _⟩
  exact forall₂_set h hr hregion

theorem cutTable_refl : CutTable chRegion chRegion :=
  List.forall₂_same.2 fun _ _ => ⟨rfl, rfl, List.forall₂_same.2 fun _ _ => Or.inl rfl⟩

/-! ### Channels -/

def ChDesp.channels (d : ChDesp) : List ℕ := (List.range d.numOfCh).map fun i => d.firstChannel + i * d.increment

/-- The channels of a country that a configuration uses and that have a power. -/
def Config.channels (cfg : Config) (pChDesp : List ChDesp) : List ℕ :=
  ((pChDesp.filter (usesDesp cfg)).flatMap ChDesp.channels).filter fun c =>
    ¬cfg.Barred c ∧ ∃ p ∈ cfg.txPower, c = p.channel

theorem channel_slotsFrom {d : ChDesp} {increment turns i : ℕ}
    (hlast : ∀ k < turns, cfg.Barred (d.firstChannel + (i + k) * increment) → k + 1 = turns) :
    (slotsFrom cfg d increment turns i).map Slot.channel =
      ((List.range' i turns).map fun i => d.firstChannel + i * increment).filter fun c =>
        ¬cfg.Barred c ∧ ∃ p ∈ cfg.txPower, c = p.channel := by
  induction turns generalizing i with
  | zero => rfl
  | succ turns ih =>
    have hrest := @ih (i + 1) fun k hk hb => by
      have := hlast (k + 1) (by omega) (by rwa [Nat.add_comm k 1, ← Nat.add_assoc])
      omega
    rw [List.range'_succ, List.map_cons]
    unfold slotsFrom
    by_cases hb : cfg.Barred (d.firstChannel + i * increment)
    · have hone := hlast 0 (Nat.succ_pos _) hb
      obtain rfl : turns = 0 := by omega
      rw [if_pos hb, List.filter_cons_of_neg (by simp [hb])]
      rfl
    · rw [if_neg hb]
      cases hfind : cfg.txPower.find? fun p => d.firstChannel + i * increment = p.channel with
      | none =>
        have hno : ¬∃ p ∈ cfg.txPower, d.firstChannel + i * increment = p.channel := by
          rintro ⟨p, hp, he⟩
          exact absurd he (by simpa using List.find?_eq_none.1 hfind p hp)
        rw [List.filter_cons_of_neg (by simp only [hno, and_false, decide_false]; exact Bool.false_ne_true)]
        exact hrest
      | some p =>
        have hyes : ∃ p ∈ cfg.txPower, d.firstChannel + i * increment = p.channel :=
          ⟨p, List.mem_of_find?_eq_some hfind, by simpa using List.find?_some hfind⟩
        rw [List.filter_cons_of_pos (by exact decide_eq_true ⟨hb, hyes⟩)]
        exact congrArg _ hrest

theorem channel_slots {pChDesp : List ChDesp}
    (htidy : ∀ d ∈ pChDesp, d.firstChannel ≤ 14 → d.firstChannel + d.numOfCh ≤ 15) :
    (slots cfg pChDesp).map Slot.channel = cfg.channels pChDesp := by
  unfold slots Config.channels
  rw [List.map_flatMap, List.filter_flatMap]
  refine List.flatMap_congr fun d hd => ?_
  have hd' := htidy d (List.mem_of_mem_filter hd)
  rw [channel_slotsFrom fun k hk hb => ?_]
  · unfold ChDesp.channels
    rw [List.range_eq_range']
  · obtain ⟨-, h14, -⟩ := hb
    rw [Nat.zero_add] at h14
    unfold ChDesp.increment at h14
    split_ifs at h14
    · omega
    · have := hd' (by omega)
      omega

theorem slotsFrom_eq_nil {d d' : ChDesp} (hfirst : d'.firstChannel = d.firstChannel) {increment turns turns' i : ℕ}
    (hle : turns' ≤ turns) (h : slotsFrom cfg d increment turns i = []) : slotsFrom cfg d' increment turns' i = [] := by
  induction turns' generalizing turns i with
  | zero => rfl
  | succ turns' ih =>
    obtain ⟨turns, rfl⟩ : ∃ t, turns = t + 1 := ⟨turns - 1, by omega⟩
    unfold slotsFrom at h ⊢
    rw [hfirst]
    split_ifs at h ⊢ with hb
    · rfl
    · cases hfind : cfg.txPower.find? fun p => d.firstChannel + i * increment = p.channel with
      | none =>
        rw [hfind] at h
        exact ih (by omega) h
      | some p =>
        rw [hfind] at h
        exact absurd h (by simp)

theorem slots_of_cut {ds ds' : List ChDesp} (h : List.Forall₂ Cut ds ds')
    (hhigh : ∀ x ∈ slots cfg ds, 14 < x.channel) : slots cfg ds' = slots cfg ds := by
  induction h with
  | nil => rfl
  | @cons d d' ds ds' hd _ ih =>
    by_cases hu : usesDesp cfg d = true
    · have hu' : usesDesp cfg d' = true := hd.usesDesp.trans hu
      rw [slots_cons_of_uses hu] at hhigh
      rw [slots_cons_of_uses hu, slots_cons_of_uses hu', ih fun x hx => hhigh x (List.mem_append_right _ hx)]
      congr 1
      rcases hd with rfl | ⟨hlow, hsum, rfl⟩
      · rfl
      · have hnil : slotsFrom cfg d d.increment d.numOfCh 0 = [] := by
          refine List.eq_nil_iff_forall_not_mem.2 fun x hx => ?_
          obtain ⟨k, hk, hc, -⟩ := channel_of_mem_slotsFrom hx
          have := hhigh x (List.mem_append_left _ hx)
          unfold ChDesp.increment at hc
          rw [if_neg (by omega), Nat.mul_one] at hc
          omega
        rw [hnil]
        exact @slotsFrom_eq_nil cfg d { d with numOfCh := d.numOfCh - 1 } rfl d.increment _ _ 0 (Nat.sub_le _ _) hnil
    · have hu' : ¬usesDesp cfg d' = true := by rwa [hd.usesDesp]
      rw [slots_cons_of_not_uses hu] at hhigh
      rw [slots_cons_of_not_uses hu, slots_cons_of_not_uses hu', ih hhigh]

theorem uses_of_cut {ds ds' : List ChDesp} (h : List.Forall₂ Cut ds ds') :
    (∃ d ∈ ds', usesDesp cfg d = true) ↔ ∃ d ∈ ds, usesDesp cfg d = true := by
  induction h with
  | nil => exact Iff.rfl
  | cons hd _ ih => rw [List.exists_mem_cons_iff, List.exists_mem_cons_iff, hd.usesDesp, ih]

end Mt7610u.Channel
