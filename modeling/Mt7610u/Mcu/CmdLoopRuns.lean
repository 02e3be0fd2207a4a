import Mt7610u.Mcu.CmdLoop
import Mathlib.Data.Nat.Find

/-! # What the loops send and return

Each round of a loop but the last sends a message of full length, and the index goes on by what it held. The lengths are
numbers of 32 bits, and a length close to the largest of them is never reached in steps of `InbandPacketMaxLen`. -/

namespace Mt7610u.Mcu.CmdLoop

namespace Loop

variable {l : Loop} {ad : Answers} {head size per num : ℕ} {element : ℕ → List Word}

/-! ### The plan -/

def pieces (l : Loop) : ℕ := (l.varLen + 191) / 192

def planMsg (l : Loop) (per k : ℕ) : CmdMsg := l.msg (per * k) (l.sentLen (192 * k)) (decide (k + 1 = l.pieces))

def plan (l : Loop) (per : ℕ) : List CmdMsg := (List.range l.pieces).map (l.planMsg per)

theorem sentLen_eq (l : Loop) (curLen : ℕ) : l.sentLen curLen = min 192 (l.varLen - curLen) := by
  unfold sentLen inbandPacketMaxLen
  split <;> omega

theorem varLen_dvd (h : Layout l head size per num element) : 4 ∣ l.varLen := by
  rw [h.varLen_eq]
  have hsum : 4 ∣ head * ((num + per - 1) / per) + size * num :=
    Nat.dvd_add (Dvd.dvd.mul_right h.head_dvd _) (Dvd.dvd.mul_right h.size_dvd _)
  omega

theorem per_le (h : Layout l head size per num element) : per ≤ 192 := by
  have hfull : head + size * per = 192 := h.full
  have hper : per ≤ size * per := Nat.le_mul_of_pos_left per h.size_pos
  omega

theorem count_full (h : Layout l head size per num element) : l.count 192 = per := by
  have hfull : head + size * per = 192 := h.full
  rw [h.count_eq, ← hfull, Nat.add_sub_cancel_left, Nat.mul_div_cancel_left per h.size_pos]

theorem count_le (h : Layout l head size per num element) {len : ℕ} (hlen : len ≤ 192) : l.count len ≤ per := by
  rw [← count_full h, h.count_eq, h.count_eq]
  exact Nat.div_le_div_right (by omega)

/-! ### A run -/

/-- The state of a run behind `m` rounds. -/
structure At (l : Loop) (ad : Answers) (per m : ℕ) (st : State) : Prop where
  curLen : st.curLen = 192 * m
  sent : st.sent = (List.range m).map (l.planMsg per)
  curIndex : m < l.pieces → st.curIndex = per * m
  lastPacket : m < l.pieces → st.lastPacket = false
  ret : st.ret = if m = 0 then 0 else ad.send (m - 1)

theorem At.zero (l : Loop) (ad : Answers) (per : ℕ) : At l ad per 0 State.start :=
  ⟨rfl, rfl, fun _ => rfl, fun _ => rfl, rfl⟩

theorem At.length {m : ℕ} {st : State} (h : At l ad per m st) : st.sent.length = m := by
  rw [h.sent, List.length_map, List.length_range]

variable (hl : Layout l head size per num element) (hv : l.varLen ≤ 2 ^ 32 - 64)
include hl hv

theorem At.lastPacket_eq {m : ℕ} {st : State} (h : At l ad per m st) (hm : m < l.pieces) :
    l.lastPacket st = decide (m + 1 = l.pieces) := by
  rw [Loop.lastPacket, h.lastPacket hm, Bool.false_or, h.curLen, sentLen_eq]
  have h4 := varLen_dvd hl
  unfold pieces at hm ⊢
  rw [decide_eq_decide]
  unfold inbandPacketMaxLen
  omega

theorem At.round {m : ℕ} {st : State} (h : At l ad per m st) (hm : m < l.pieces) :
    At l ad per (m + 1) (l.round ad st) where
  curLen := by
    show (st.curLen + 192) % 2 ^ 32 = _
    unfold pieces at hm
    rw [h.curLen]
    omega
  sent := by
    show st.sent ++ [l.msg st.curIndex (l.sentLen st.curLen) (l.lastPacket st)] = _
    rw [List.range_succ, List.map_append, ← h.sent, h.curIndex hm, h.curLen, h.lastPacket_eq hl hv hm]
    rfl
  curIndex hm2 := by
    show (st.curIndex + l.count (l.sentLen st.curLen)) % 2 ^ 32 = _
    -- a round that is not the last is of full length
    have hfull : l.sentLen st.curLen = 192 := by
      rw [sentLen_eq, h.curLen]
      unfold pieces at hm2
      omega
    have hle : per * (m + 1) ≤ 192 * (m + 1) := Nat.mul_le_mul_right _ (per_le hl)
    rw [hfull, count_full hl, h.curIndex hm, ← Nat.mul_add_one, Nat.mod_eq_of_lt]
    unfold pieces at hm2
    omega
  lastPacket hm2 := by
    show l.lastPacket st = false
    rw [h.lastPacket_eq hl hv hm, decide_eq_false_iff_not]
    omega
  ret := by
    show ad.send st.sent.length = _
    rw [h.length, if_neg (Nat.succ_ne_zero m), Nat.add_sub_cancel]

omit hl hv in
theorem At.curLen_lt {m : ℕ} {st : State} (h : At l ad per m st) : st.curLen < l.varLen ↔ m < l.pieces := by
  rw [h.curLen, pieces]
  omega

theorem reach {m : ℕ} (hm : m ≤ l.pieces) (halloc : ∀ k < m, ad.alloc k = true) :
    ∃ st, At l ad per m st ∧ ∀ n, l.rounds ad (m + n) State.start = l.rounds ad n st := by
  induction m with
  | zero => exact ⟨State.start, At.zero l ad per, fun n => by rw [Nat.zero_add]⟩
  | succ m ih =>
    obtain ⟨st, hat, hrun⟩ := ih (by omega) fun k hk => halloc k (by omega)
    refine ⟨l.round ad st, hat.round hl hv hm, fun n => ?_⟩
    rw [Nat.add_assoc, Nat.add_comm 1 n, hrun, rounds, if_pos (hat.curLen_lt.2 hm), hat.length,
      if_pos (halloc m (Nat.lt_succ_self m))]

theorem run_all (ad : Answers) (halloc : ∀ k < l.pieces, ad.alloc k = true) :
    ∃ n st, l.rounds ad n State.start = some st ∧ st.sent = l.plan per ∧
      st.ret = if l.pieces = 0 then 0 else ad.send (l.pieces - 1) := by
  obtain ⟨st, hat, hrun⟩ := reach hl hv le_rfl halloc
  refine ⟨l.pieces + 0, st, ?_, hat.sent, hat.ret⟩
  rw [hrun, rounds, if_neg fun h => Nat.lt_irrefl _ (hat.curLen_lt.1 h)]

theorem run_short {m : ℕ} (hm : m < l.pieces) (halloc : ∀ k < m, ad.alloc k = true) (hfail : ad.alloc m = false) :
    ∃ n st, l.rounds ad n State.start = some st ∧ st.sent <+: l.plan per ∧ st.ret = ndisStatusResources := by
  obtain ⟨st, hat, hrun⟩ := reach hl hv hm.le halloc
  refine ⟨m + 1, { st with lastPacket := l.lastPacket st, ret := ndisStatusResources }, ?_, ?_, rfl⟩
  · rw [hrun, rounds, if_pos (hat.curLen_lt.2 hm), hat.length, hfail]
    rfl
  · show st.sent <+: _
    rw [hat.sent, plan]
    refine List.IsPrefix.map _ ?_
    rw [← Nat.add_sub_cancel' hm.le, List.range_add]
    exact List.prefix_append _ _

omit hl hv

theorem rounds_mono {n m : ℕ} {st r : State} (h : l.rounds ad n st = some r) (hnm : n ≤ m) :
    l.rounds ad m st = some r := by
  induction n generalizing m st with
  | zero =>
    rw [rounds] at h
    split at h
    · exact absurd h nofun
    · rename_i hlt
      cases m with
      | zero => rw [rounds, if_neg hlt, h]
      | succ m => rw [rounds, if_neg hlt, h]
  | succ n ih =>
    obtain ⟨m, rfl⟩ : ∃ m', m = m' + 1 := ⟨m - 1, by omega⟩
    rw [rounds] at h ⊢
    split at h
    · split at h
      · rename_i hlt halloc
        rw [if_pos hlt, if_pos halloc]
        exact ih h (by omega)
      · rename_i hlt halloc
        rw [if_pos hlt, if_neg halloc, h]
    · rename_i hlt
      rw [if_neg hlt, h]

theorem rounds_unique {n m : ℕ} {st r r' : State} (h : l.rounds ad n st = some r) (h' : l.rounds ad m st = some r') :
    r = r' := by
  rcases Nat.le_total n m with hle | hle
  · exact Option.some.inj ((rounds_mono h hle).symm.trans h')
  · exact Option.some.inj (h.symm.trans (rounds_mono h' hle))

theorem rounds_eq_none (halloc : ∀ k, ad.alloc k = true) (hlong : 2 ^ 32 - 64 < l.varLen) (n : ℕ) {st : State}
    (hdvd : 64 ∣ st.curLen) (hlt : st.curLen < 2 ^ 32) : l.rounds ad n st = none := by
  have hmore : st.curLen < l.varLen := by omega
  induction n generalizing st with
  | zero => rw [rounds, if_pos hmore]
  | succ n ih =>
    rw [rounds, if_pos hmore, if_pos (halloc _)]
    have hnext : (l.round ad st).curLen = (st.curLen + 192) % 2 ^ 32 := rfl
    exact ih (by rw [hnext]; omega) (by rw [hnext]; omega) (by rw [hnext]; omega)

/-! ### What the plan is for -/

theorem elements_planMsg (hl : Layout l head size per num element) (hv : l.varLen ≤ 2 ^ 32 - 64) {k : ℕ}
    (hk : k < l.pieces) : (l.planMsg per k).elements =
      (List.range' (per * k) (l.count (l.sentLen (192 * k)))).map element := by
  have hlen : l.sentLen (192 * k) ≤ 192 := by
    rw [sentLen_eq]
    exact Nat.min_le_left _ _
  have hle : per * (k + 1) ≤ 192 * (k + 1) := Nat.mul_le_mul_right _ (per_le hl)
  have hcount := count_le hl hlen
  refine hl.elements_eq _ _ hlen ?_
  unfold pieces at hk
  rw [Nat.mul_add_one] at hle
  omega

theorem elements_plan (hl : Layout l head size per num element) (hv : l.varLen ≤ 2 ^ 32 - 64) :
    (l.plan per).flatMap CmdMsg.elements =
      ((List.range l.pieces).flatMap fun k => List.range' (per * k) (l.count (l.sentLen (192 * k)))).map element := by
  rw [plan, List.flatMap_map, List.map_flatMap]
  exact List.flatMap_congr fun k hk => elements_planMsg hl hv (List.mem_range.1 hk)

theorem fills_plan (hl : Layout l head size per num element) (hreads : l.type.reads = true) :
    (l.plan per).flatMap CmdMsg.fills =
      (List.range l.pieces).flatMap fun k => List.range' (per * k) (l.count (l.sentLen (192 * k))) := by
  rw [plan, List.flatMap_map]
  refine List.flatMap_congr fun k _ => ?_
  rw [planMsg, CmdMsg.fills]
  simp only [msg, hreads, if_true, hl.written_eq hreads]

theorem sum_count (hl : Layout l head size per num element) {m : ℕ} (hm : m ≤ l.pieces) :
    size * ((List.range m).map fun k => l.count (l.sentLen (192 * k))).sum + head * m ≤ min (192 * m) l.varLen := by
  induction m with
  | zero => simp
  | succ m ih =>
    have hlen := sentLen_eq l (192 * m)
    have hhead := hl.head_le
    have h4 := varLen_dvd hl
    have hcount : size * l.count (l.sentLen (192 * m)) ≤ l.sentLen (192 * m) - head := by
      rw [hl.count_eq]
      exact Nat.mul_div_le _ _
    have ih2 := ih (by omega)
    unfold pieces at hm
    rw [List.range_succ, List.map_append, List.sum_append, Nat.mul_add, List.map_singleton, List.sum_singleton,
      Nat.mul_add_one]
    omega

theorem sum_count_le (hl : Layout l head size per num element) (m : ℕ) :
    ((List.range m).map fun k => l.count (l.sentLen (192 * k))).sum ≤ per * m := by
  induction m with
  | zero => exact Nat.zero_le _
  | succ m ih =>
    have hlen := sentLen_eq l (192 * m)
    have hcount := count_le hl (hlen.trans_le (Nat.min_le_left _ _))
    rw [List.range_succ, List.map_append, List.sum_append, List.map_singleton, List.sum_singleton, Nat.mul_add_one]
    omega

end Loop

/-! ### Cutting into pieces -/

theorem lt_pieces_iff {per num k : ℕ} (hper : 0 < per) : k < (num + per - 1) / per ↔ per * k < num := by
  rw [Nat.lt_iff_add_one_le, Nat.le_div_iff_mul_le hper, Nat.mul_comm, Nat.mul_add_one]
  omega

theorem flatMap_range' (per num m : ℕ) :
    ((List.range m).flatMap fun k => List.range' (per * k) (min per (num - per * k))) =
      List.range (min num (per * m)) := by
  induction m with
  | zero => rw [Nat.mul_zero, Nat.min_zero]; rfl
  | succ m ih =>
    rw [List.range_succ, List.flatMap_append, ih, List.flatMap_singleton, Nat.mul_add_one]
    rcases Nat.le_total num (per * m) with hle | hle
    · rw [Nat.sub_eq_zero_of_le hle, Nat.min_zero, List.range'_zero, List.append_nil, Nat.min_eq_left hle,
        Nat.min_eq_left (by omega)]
    · have happend := @List.range'_append_1 0 (per * m) (min per (num - per * m))
      rw [Nat.zero_add] at happend
      rw [Nat.min_eq_right hle, List.range_eq_range', List.range_eq_range', happend]
      congr 1
      omega

section Fits

variable {l : Loop} {head size per num : ℕ} {element : ℕ → List Word}

theorem Layout.per_pos (hl : Layout l head size per num element) : 0 < per := by
  have hfull : head + size * per = 192 := hl.full
  have hhead := hl.head_le
  rcases Nat.eq_zero_or_pos per with rfl | h
  · omega
  · exact h

variable (hl : Layout l head size per num element)
  (hfits : head * ((num + per - 1) / per) + size * num ≤ 2 ^ 32 - 64)
include hl hfits

theorem Layout.varLen_eq_total : l.varLen = head * ((num + per - 1) / per) + size * num := by
  rw [hl.varLen_eq, Nat.mod_eq_of_lt (by omega)]

theorem Layout.pieces_eq : l.pieces = (num + per - 1) / per := by
  have hfull : head + size * per = 192 := hl.full
  refine eq_of_forall_lt_iff fun k => ?_
  rw [lt_pieces_iff hl.per_pos]
  have hvar := hl.varLen_eq_total hfits
  have hmul : 192 * k = head * k + size * (per * k) := by rw [← hfull, Nat.add_mul, Nat.mul_assoc]
  constructor
  · intro h
    by_contra hge
    have h1 : (num + per - 1) / per ≤ k := Nat.le_of_not_lt fun hk => hge ((lt_pieces_iff hl.per_pos).1 hk)
    have h2 := Nat.mul_le_mul_left head h1
    have h3 := Nat.mul_le_mul_left size (Nat.le_of_not_lt hge)
    unfold Loop.pieces at h
    omega
  · intro h
    have h1 := Nat.mul_le_mul_left head ((lt_pieces_iff hl.per_pos).2 h).le
    have h2 := Nat.mul_lt_mul_of_pos_left h hl.size_pos
    unfold Loop.pieces
    omega

theorem Layout.count_eq_min {k : ℕ} (hk : k < l.pieces) :
    l.count (l.sentLen (192 * k)) = min per (num - per * k) := by
  have hfull : head + size * per = 192 := hl.full
  have hvar := hl.varLen_eq_total hfits
  have hlast : k + 1 < l.pieces ↔ per * (k + 1) < num := by rw [hl.pieces_eq hfits, lt_pieces_iff hl.per_pos]
  have hmul : 192 * k = head * k + size * (per * k) := by rw [← hfull, Nat.add_mul, Nat.mul_assoc]
  rw [Nat.mul_add_one] at hlast
  rcases (by omega : k + 1 < l.pieces ∨ k + 1 = l.pieces) with h | h
  · -- a full message
    have hlen : l.sentLen (192 * k) = 192 := by
      rw [Loop.sentLen_eq]
      unfold Loop.pieces at h
      omega
    have hnum := hlast.1 h
    rw [hlen, Loop.count_full hl]
    omega
  · -- the last one has what is left
    have hle : num ≤ per * k + per := Nat.le_of_not_lt fun hlt => by
      have := hlast.2 hlt
      omega
    have hlt : per * k < num := by rwa [hl.pieces_eq hfits, lt_pieces_iff hl.per_pos] at hk
    have hrest : l.varLen - 192 * k = head + size * (num - per * k) := by
      rw [hvar, ← hl.pieces_eq hfits, ← h, hmul, Nat.mul_sub, Nat.mul_add_one]
      have := Nat.mul_le_mul_left size hlt.le
      omega
    have hmsg : size * (num - per * k) ≤ size * per := Nat.mul_le_mul_left size (by omega)
    rw [Loop.sentLen_eq, hrest, hl.count_eq, Nat.min_eq_right (by omega), Nat.add_sub_cancel_left,
      Nat.mul_div_cancel_left _ hl.size_pos, Nat.min_eq_right (by omega)]

theorem Layout.flatMap_pieces :
    ((List.range l.pieces).flatMap fun k => List.range' (per * k) (l.count (l.sentLen (192 * k)))) =
      List.range num := by
  have hcount : ∀ k ∈ List.range l.pieces, List.range' (per * k) (l.count (l.sentLen (192 * k))) =
      List.range' (per * k) (min per (num - per * k)) :=
    fun k hk => by rw [hl.count_eq_min hfits (List.mem_range.1 hk)]
  rw [List.flatMap_congr hcount, flatMap_range', Nat.min_eq_left (Nat.le_of_not_lt fun hlt => ?_)]
  have := (lt_pieces_iff hl.per_pos).2 hlt
  rw [hl.pieces_eq hfits] at this
  omega

end Fits

/-! ### What the functions are for -/

namespace Request

variable (wlanMemmapOffset : Word)

def ready : Answers := { alloc := fun _ => true, send := fun _ => 0 }

def Returns (r : Request) (ad : Answers) (st : State) : Prop := ∃ n, call ad n (r.loop? wlanMemmapOffset) = some st

structure Splits (r : Request) (plan : List CmdMsg) : Prop where
  short : ∀ m ∈ plan, 4 * m.payload.length ≤ inbandPacketMaxLen ∧ 4 * m.payload.length ≤ m.size ∧
    m.rspPayloadLen ≤ inbandPacketMaxLen
  covers : plan.flatMap CmdMsg.elements = (List.range r.num).map fun i => r.element wlanMemmapOffset i
  fills : r.reads = true → plan.flatMap CmdMsg.fills = List.range r.num
  asks : r.reads = false → ∀ i (h : i < plan.length), plan[i].needRsp = decide (i + 1 = plan.length)

/-- What the functions are for: the call ends; its messages split what it is for; it reports success only if every one
of them was sent with success. -/
def Meets (r : Request) (ad : Answers) : Prop :=
  ∃ full st, r.Returns wlanMemmapOffset ready full ∧ r.Splits wlanMemmapOffset full.sent ∧
    r.Returns wlanMemmapOffset ad st ∧ st.sent <+: full.sent ∧
    (st.ret = 0 → st.sent = full.sent ∧ ∀ k < st.sent.length, ad.send k = 0)

def Hides (r : Request) (ad : Answers) : Prop :=
  (∀ k < r.msgs, ad.alloc k = true) ∧ 0 < r.msgs ∧ ad.send (r.msgs - 1) = 0 ∧ ∃ k < r.msgs, ad.send k ≠ 0

variable {wlanMemmapOffset} {r : Request} {l : Loop} {ad : Answers}

theorem Returns.unique {st st' : State} (h : r.Returns wlanMemmapOffset ad st) (h' : r.Returns wlanMemmapOffset ad st') :
    st = st' := by
  obtain ⟨n, hn⟩ := h
  obtain ⟨m, hm⟩ := h'
  obtain ⟨l, hl, -⟩ := r.loop?_isSome wlanMemmapOffset
  rw [hl] at hn hm
  exact Loop.rounds_unique hn hm

section Plan

variable (hr : r.loop? wlanMemmapOffset = some l)
include hr

theorem splits_plan (hreads : l.type.reads = r.reads) (hfits : r.total ≤ 2 ^ 32 - 64) :
    r.Splits wlanMemmapOffset (l.plan r.perMsg) := by
  have hl := r.layout wlanMemmapOffset hr
  have hv : l.varLen ≤ 2 ^ 32 - 64 := by
    rw [hl.varLen_eq_total hfits]
    exact hfits
  refine ⟨fun m hm => ?_, ?_, fun h => ?_, fun h i hi => ?_⟩
  · obtain ⟨k, hk, rfl⟩ := List.mem_map.1 hm
    have hlen := l.sentLen_eq (192 * k)
    have hle : l.sentLen (192 * k) ≤ 192 := hlen.trans_le (Nat.min_le_left _ _)
    have hhead : r.head ≤ l.sentLen (192 * k) := by
      have h4 := Loop.varLen_dvd hl
      have h5 := hl.head_le
      rw [List.mem_range, Loop.pieces] at hk
      omega
    obtain ⟨h1, h2⟩ := hl.length_le (r.perMsg * k) _ hhead hle
    refine ⟨h1, h2, ?_⟩
    show (if l.type.reads then l.sentLen (192 * k) else 0) ≤ 192
    split
    · exact hle
    · exact Nat.zero_le _
  · rw [Loop.elements_plan hl hv, hl.flatMap_pieces hfits]
  · rw [Loop.fills_plan hl (hreads.trans h), hl.flatMap_pieces hfits]
  · have hplan : (l.plan r.perMsg).length = l.pieces := by rw [Loop.plan, List.length_map, List.length_range]
    rw [hplan]
    simp only [Loop.plan, List.getElem_map, List.getElem_range, Loop.planMsg, Loop.msg, hreads, h, Bool.false_or]

theorem total_le (hv : l.varLen ≤ 2 ^ 32 - 64)
    (hcovers : (l.plan r.perMsg).flatMap CmdMsg.elements =
      (List.range r.num).map fun i => r.element wlanMemmapOffset i) : r.total ≤ l.varLen := by
  have hl := r.layout wlanMemmapOffset hr
  have hnum := congrArg List.length hcovers
  rw [Loop.elements_plan hl hv, List.length_map, List.length_map, List.length_range, List.length_flatMap] at hnum
  simp only [List.length_range'] at hnum
  have h1 := Loop.sum_count hl le_rfl
  have h2 := Loop.sum_count_le hl l.pieces
  rw [hnum] at h1 h2
  have hmsgs : r.msgs ≤ l.pieces := Nat.le_of_not_lt fun hlt => by
    have := (lt_pieces_iff hl.per_pos).1 hlt
    omega
  have h3 := Nat.mul_le_mul_left r.head hmsgs
  unfold total
  omega

end Plan

/-- **The functions split and report as they should** exactly if what they are called for fits into 32 bits, short of
the last steps, and the last message does not succeed behind one that failed: `ret` is written over by each message. -/
theorem meets_iff (wlanMemmapOffset : Word) (r : Request) (ad : Answers) :
    r.Meets wlanMemmapOffset ad ↔ r.total ≤ 2 ^ 32 - 64 ∧ ¬r.Hides ad := by
  obtain ⟨l, hr, hreads⟩ := r.loop?_isSome wlanMemmapOffset
  have hl := r.layout wlanMemmapOffset hr
  constructor
  · rintro ⟨full, st, hfull, hsplits, hst, -, hret⟩
    have hv : l.varLen ≤ 2 ^ 32 - 64 := Nat.le_of_not_lt fun hlong => by
      obtain ⟨n, hn⟩ := hfull
      rw [hr, call, Loop.rounds_eq_none (fun _ => rfl) hlong n (Nat.dvd_zero 64) (by decide)] at hn
      exact absurd hn nofun
    obtain ⟨n, st', hrun, hsent, -⟩ := Loop.run_all hl hv ready fun _ _ => rfl
    have hst' : full = st' := hfull.unique ⟨n, by rw [hr]; exact hrun⟩
    have hfits : r.total ≤ 2 ^ 32 - 64 := by
      have hcovers := hsplits.covers
      rw [hst', hsent] at hcovers
      exact (total_le hr hv hcovers).trans hv
    refine ⟨hfits, fun ⟨halloc, hpos, hlast, k, hk, hfail⟩ => ?_⟩
    have hmsgs : l.pieces = r.msgs := hl.pieces_eq hfits
    rw [← hmsgs] at halloc hpos hlast hk
    obtain ⟨m, st2, hrun2, hsent2, hret2⟩ := Loop.run_all hl hv ad halloc
    have hst2 : st = st2 := hst.unique ⟨m, by rw [hr]; exact hrun2⟩
    rw [hst2, hret2, if_neg (by omega), hsent2] at hret
    refine hfail ((hret hlast).2 k ?_)
    rwa [Loop.plan, List.length_map, List.length_range]
  · rintro ⟨hfits, hhides⟩
    have hmsgs : l.pieces = r.msgs := hl.pieces_eq hfits
    have hv : l.varLen ≤ 2 ^ 32 - 64 := by
      rw [hl.varLen_eq_total hfits]
      exact hfits
    obtain ⟨n, full, hrun, hsent, -⟩ := Loop.run_all hl hv ready fun _ _ => rfl
    have hfull : r.Returns wlanMemmapOffset ready full := ⟨n, by rw [hr]; exact hrun⟩
    have hsplits := splits_plan hr hreads hfits
    rw [← hsent] at hsplits
    by_cases halloc : ∀ k < l.pieces, ad.alloc k = true
    · obtain ⟨m, st, hrun2, hsent2, hret2⟩ := Loop.run_all hl hv ad halloc
      have hall : st.sent = full.sent := hsent2.trans hsent.symm
      refine ⟨full, st, hfull, hsplits, ⟨m, by rw [hr]; exact hrun2⟩, ?_, fun h0 => ⟨hall, ?_⟩⟩
      · exact hall ▸ List.prefix_rfl
      · intro k hk
        rw [hsent2, Loop.plan, List.length_map, List.length_range] at hk
        rw [hret2, if_neg (by omega)] at h0
        by_contra hfail
        rw [hmsgs] at halloc hk h0
        exact hhides ⟨halloc, by omega, h0, k, hk, hfail⟩
    · -- the first message for which there is no memory
      have hex : ∃ k, k < l.pieces ∧ ad.alloc k = false := by
        by_contra hno
        exact halloc fun k hk => (Bool.not_eq_false _).mp fun hf => hno ⟨k, hk, hf⟩
      obtain ⟨hlt, hf⟩ := Nat.find_spec hex
      have hbefore : ∀ k < Nat.find hex, ad.alloc k = true := fun k hk =>
        (Bool.not_eq_false _).mp fun hf' => Nat.find_min hex hk ⟨hk.trans hlt, hf'⟩
      obtain ⟨m, st, hrun2, hsent2, hret2⟩ := Loop.run_short hl hv hlt hbefore hf
      refine ⟨full, st, hfull, hsplits, ⟨m, by rw [hr]; exact hrun2⟩, by rwa [hsent], fun h0 => ?_⟩
      rw [hret2] at h0
      exact absurd h0 (by decide)

/-- Twenty-five register pairs, in two messages: the first one fails, and the call reports success. -/
theorem not_meets_randomWrite :
    ¬(Request.randomWrite (fun _ => { register := 0x1000, value := 0 }) 25).Meets 0
      { alloc := fun _ => true, send := fun k => if k = 0 then -1 else 0 } := by
  rintro ⟨_, st, -, -, hst, -, hret⟩
  obtain ⟨st', hst', h0, hlen⟩ : ∃ st', (randomWrite (fun _ => { register := 0x1000, value := 0 }) 25).Returns 0
      { alloc := fun _ => true, send := fun k => if k = 0 then -1 else 0 } st' ∧ st'.ret = 0 ∧ st'.sent.length = 2 :=
    ⟨_, ⟨2, rfl⟩, rfl, rfl⟩
  rw [hst.unique hst'] at hret
  exact absurd ((hret h0).2 0 (by rw [hlen]; decide)) (by decide)

end Request

end Mt7610u.Mcu.CmdLoop
