import Mt7610u.Usb.TxRing

/-! # Packets in the buffer

How packets lie behind each other in the ring, and what the loop of the bulk-out routine makes of them. -/

namespace Mt7610u.Usb

open Lib

/-! ### One packet -/

namespace Packet

def size (p : Packet) : ℕ := 4 + p.body.length

/-- The lengths for which the ring is made: a TXWI at least, and no more than an aggregate may have. -/
def Fits (p : Packet) : Prop := 20 ≤ p.body.length ∧ p.body.length ≤ 4002

@[simp] theorem length_bytes (p : Packet) (n r : Bool) : (p.bytes n r).length = p.size := by
  simp [bytes, txInfo, size]
  omega

end Packet

section OnePacket

variable {m : ℕ → Byte} {off : ℕ} {p : Packet} {n r : Bool}

theorem bytes_eq (p : Packet) (n r : Bool) :
    p.bytes n r = [BitVec.ofNat 8 p.body.length, BitVec.ofNat 8 (p.body.length / 256)] ++
      ([infoFlags n p.txBurst r] ++ (0x04#8 :: p.body)) := rfl

theorem HoldsAt.flags (h : HoldsAt m off (p.bytes n r)) : m (off + 2) = infoFlags n p.txBurst r :=
  holdsAt_iff.1 h 2 (by rw [Packet.length_bytes]; unfold Packet.size; omega)

theorem HoldsAt.pktLenAt (h : HoldsAt m off (p.bytes n r)) (hp : p.Fits) : pktLenAt m off = p.body.length := by
  have hlen : 4 ≤ (p.bytes n r).length := by
    rw [Packet.length_bytes]
    exact Nat.le_add_right _ _
  have h0 : m off = BitVec.ofNat 8 p.body.length := holdsAt_iff.1 h 0 (by omega)
  have h1 : m (off + 1) = BitVec.ofNat 8 (p.body.length / 256) := holdsAt_iff.1 h 1 (by omega)
  have hle := hp.2
  unfold Usb.pktLenAt
  rw [h0, h1, BitVec.toNat_ofNat, BitVec.toNat_ofNat]
  omega

theorem HoldsAt.swLstRndAt (h : HoldsAt m off (p.bytes n r)) : swLstRndAt m off = r := by
  unfold Usb.swLstRndAt
  rw [HoldsAt.flags h]
  cases n <;> cases p.txBurst <;> cases r <;> rfl

theorem HoldsAt.setQsel (h : HoldsAt m off (p.bytes n r)) : setQsel m off = m := by
  have h3 : m (off + 3) = 0x04#8 := holdsAt_iff.1 h 3 (by rw [Packet.length_bytes]; unfold Packet.size; omega)
  unfold Usb.setQsel
  refine copy_of_holdsAt (holdsAt_iff.2 fun i hi => ?_)
  have hi0 : i = 0 := by simpa using hi
  subst hi0
  rw [Nat.add_zero, h3]
  rfl

theorem HoldsAt.setFlags (h : HoldsAt m off (p.bytes n r)) (b : Byte) (n' r' : Bool)
    (hb : b = infoFlags n' p.txBurst r') : HoldsAt (copy m (off + 2) [b]) off (p.bytes n' r') := by
  rw [bytes_eq] at h ⊢
  rw [← hb]
  exact h.patch [b] rfl rfl

theorem HoldsAt.setNextVld (h : HoldsAt m off (p.bytes n r)) (b : Bool) :
    HoldsAt (setNextVld m off b) off (p.bytes b r) := by
  refine HoldsAt.setFlags h _ b r ?_
  rw [HoldsAt.flags h]
  cases n <;> cases p.txBurst <;> cases r <;> cases b <;> rfl

theorem HoldsAt.setSwLstRnd (h : HoldsAt m off (p.bytes n r)) (b : Bool) :
    HoldsAt (setSwLstRnd m off b) off (p.bytes n b) := by
  refine HoldsAt.setFlags h _ n b ?_
  rw [HoldsAt.flags h]
  cases n <;> cases p.txBurst <;> cases r <;> cases b <;> rfl

end OnePacket

/-- The two buffers differ between `lo` and `hi` only. -/
def SameOutside (lo hi : ℕ) (m m' : ℕ → Byte) : Prop := ∀ i, i < lo ∨ hi ≤ i → m' i = m i

theorem SameOutside.refl (lo hi : ℕ) (m : ℕ → Byte) : SameOutside lo hi m m := fun _ _ => rfl

theorem SameOutside.mono {lo hi lo' hi' : ℕ} {m m' : ℕ → Byte} (h : SameOutside lo hi m m')
    (hlo : lo' ≤ lo) (hhi : hi ≤ hi') : SameOutside lo' hi' m m' :=
  fun i hi => h i (by omega)

theorem SameOutside.trans {lo hi lo' hi' : ℕ} {m m' m'' : ℕ → Byte} (h : SameOutside lo hi m m')
    (h' : SameOutside lo' hi' m' m'') (hlo : lo' ≤ lo) (hhi : hi ≤ hi') : SameOutside lo' hi' m m'' := by
  intro i hi
  rw [h' i hi]
  exact h i (by omega)

theorem sameOutside_copy {m : ℕ → Byte} {lo hi off : ℕ} {bs : List Byte} (hlo : lo ≤ off)
    (hhi : off + bs.length ≤ hi) : SameOutside lo hi m (copy m off bs) := by
  intro i h
  rcases h with h | h
  · exact copy_of_lt (by omega)
  · exact copy_of_ge (by omega)

theorem sameOutside_setNextVld {m : ℕ → Byte} {lo hi off : ℕ} (b : Bool) (hlo : lo ≤ off)
    (hhi : off + 3 ≤ hi) : SameOutside lo hi m (setNextVld m off b) :=
  sameOutside_copy (by omega) (by simp; omega)

theorem sameOutside_setSwLstRnd {m : ℕ → Byte} {lo hi off : ℕ} (b : Bool) (hlo : lo ≤ off)
    (hhi : off + 3 ≤ hi) : SameOutside lo hi m (setSwLstRnd m off b) :=
  sameOutside_copy (by omega) (by simp; omega)

theorem HoldsAt.sameOutside {m m' : ℕ → Byte} {lo hi off : ℕ} {bs : List Byte}
    (h : HoldsAt m off bs) (hs : SameOutside lo hi m m') (hd : off + bs.length ≤ lo ∨ hi ≤ off) :
    HoldsAt m' off bs :=
  h.congr fun i h1 h2 => hs i (by omega)

/-! ### Packets behind each other -/

def size : List Packet → ℕ
  | [] => 0
  | p :: ps => p.size + size ps

@[simp] theorem size_nil : size [] = 0 := rfl

@[simp] theorem size_cons (p : Packet) (ps : List Packet) : size (p :: ps) = p.size + size ps := rfl

@[simp] theorem size_append (ps qs : List Packet) : size (ps ++ qs) = size ps + size qs := by
  induction ps with
  | nil => simp
  | cons p ps ih =>
    rw [List.cons_append, size_cons, ih, size_cons]
    omega

theorem length_le_size {ps : List Packet} (h : ∀ p ∈ ps, p.Fits) : 24 * ps.length ≤ size ps := by
  induction ps with
  | nil => simp
  | cons p ps ih =>
    have hp := (h p List.mem_cons_self).1
    have hps := ih fun q hq => h q (List.mem_cons_of_mem p hq)
    rw [List.length_cons, size_cons]
    unfold Packet.size
    omega

theorem size_pos {ps : List Packet} (h : ∀ p ∈ ps, p.Fits) (hne : ps ≠ []) : 24 ≤ size ps := by
  have hlen := length_le_size h
  have hpos := List.length_pos_of_ne_nil hne
  omega

/-- Packets behind each other: `next` is the `next_vld` of all but the last, `nextLast` and `lastRnd` are
`next_vld` and `SwLstRnd` of the last. -/
def lay (next nextLast lastRnd : Bool) : List Packet → List Byte
  | [] => []
  | p :: ps => p.bytes (if ps.isEmpty then nextLast else next) (ps.isEmpty && lastRnd) ++
      lay next nextLast lastRnd ps

theorem lay_cons (a b c : Bool) (p : Packet) (ps : List Packet) :
    lay a b c (p :: ps) = p.bytes (if ps.isEmpty then b else a) (ps.isEmpty && c) ++ lay a b c ps := rfl

/-- As the writers leave them; the last one ends the round if `lastRnd` is set. -/
def waiting (lastRnd : Bool) (ps : List Packet) : List Byte := lay false false lastRnd ps

def chained (nextLast : Bool) (ps : List Packet) : List Byte := lay true nextLast false ps

@[simp] theorem length_lay (a b c : Bool) (ps : List Packet) : (lay a b c ps).length = size ps := by
  induction ps with
  | nil => rfl
  | cons p ps ih =>
    rw [lay_cons, List.length_append, Packet.length_bytes, ih, size_cons]

@[simp] theorem length_waiting (c : Bool) (ps : List Packet) : (waiting c ps).length = size ps :=
  length_lay _ _ _ ps

@[simp] theorem length_chained (b : Bool) (ps : List Packet) : (chained b ps).length = size ps :=
  length_lay _ _ _ ps

theorem lay_append (a b c : Bool) (ps : List Packet) {qs : List Packet} (h : qs ≠ []) :
    lay a b c (ps ++ qs) = lay a a false ps ++ lay a b c qs := by
  induction ps with
  | nil => rfl
  | cons p ps ih =>
    have hne : (ps ++ qs).isEmpty = false := by
      rw [List.isEmpty_eq_false_iff]
      simp [h]
    rw [List.cons_append, lay_cons, lay_cons, ih, hne]
    cases ps <;> simp

theorem waiting_append (c : Bool) (ps : List Packet) {qs : List Packet} (h : qs ≠ []) :
    waiting c (ps ++ qs) = waiting false ps ++ waiting c qs :=
  lay_append _ _ _ ps h

theorem chained_append (b : Bool) (ps : List Packet) {qs : List Packet} (h : qs ≠ []) :
    chained b (ps ++ qs) = chained true ps ++ chained b qs :=
  lay_append _ _ _ ps h

theorem waiting_append_false (ps qs : List Packet) :
    waiting false (ps ++ qs) = waiting false ps ++ waiting false qs := by
  by_cases h : qs = []
  · subst h
    simp [waiting, lay]
  · exact waiting_append false ps h

theorem chained_singleton (b : Bool) (p : Packet) : chained b [p] = p.bytes b false := by
  simp [chained, lay]

theorem waiting_singleton (c : Bool) (p : Packet) : waiting c [p] = p.bytes false c := by
  simp [waiting, lay]

theorem waiting_cons (c : Bool) (p : Packet) (ps : List Packet) :
    waiting c (p :: ps) = p.bytes false (ps.isEmpty && c) ++ waiting c ps := by
  simp [waiting, lay]

/-! ### The loop -/

/-- `pLastTxInfo` after the packets `g` from `start` on. -/
def lastInfo (start : ℕ) (g : List Packet) : Option ℕ :=
  if g = [] then none else some (start + size g.dropLast)

theorem lastInfo_nil (start : ℕ) : lastInfo start [] = none := if_pos rfl

theorem lastInfo_snoc (start : ℕ) (g : List Packet) (p : Packet) :
    lastInfo start (g ++ [p]) = some (start + size g) := by
  unfold lastInfo
  rw [if_neg (by simp), List.dropLast_concat]

theorem overLimit_zero (maxPacketSize : ℕ) (cck : Bool) : overLimit maxPacketSize 0 cck = false := by
  simp [overLimit]

section Loop

variable {maxPacketSize cw : ℕ}

/-- **One turn.** A packet is chained to the next unless it reaches the write position, and is the last
one if it ends the round. -/
theorem bulkLoop_packet (fuel : ℕ) (last : Option ℕ) {tmp sz : ℕ} {m : ℕ → Byte} {p : Packet} {r : Bool}
    (h : HoldsAt m tmp (p.bytes false r)) (hp : p.Fits)
    (hlim : overLimit maxPacketSize sz (isCckAt m tmp) = false) (hcw : tmp ≠ cw) :
    ∃ (m' : ℕ → Byte) (n : Bool), HoldsAt m' tmp (p.bytes n false) ∧
      SameOutside tmp (tmp + p.size) m m' ∧ (r = false → n = decide (tmp + p.size ≠ cw)) ∧
      bulkLoop maxPacketSize cw (fuel + 1) m tmp sz last =
        if r then ⟨m', tmp + p.size, sz + p.size, some tmp, true, false⟩
        else bulkLoop maxPacketSize cw fuel m' (tmp + p.size) (sz + p.size) (some tmp) := by
  have hlen : pktLenAt m tmp = p.body.length := HoldsAt.pktLenAt h hp
  have hsize : pktLenAt m tmp + 4 = p.size := by
    rw [hlen]
    exact Nat.add_comm _ _
  have h24 : 24 ≤ p.size := by
    have := hp.1
    unfold Packet.size
    omega
  -- the buffer after `TxInfoUDMANextVld` of a packet that is not at the write position was set
  obtain ⟨m1, hm1, h1, hs1⟩ : ∃ m1, m1 = (if tmp + p.size ≠ cw then setNextVld m tmp true else m) ∧
      HoldsAt m1 tmp (p.bytes (decide (tmp + p.size ≠ cw)) r) ∧
      SameOutside tmp (tmp + p.size) m m1 := by
    refine ⟨_, rfl, ?_⟩
    by_cases hc : tmp + p.size ≠ cw
    · rw [if_pos hc, decide_eq_true hc]
      exact ⟨HoldsAt.setNextVld h true, sameOutside_setNextVld true le_rfl (by omega)⟩
    · rw [if_neg hc, decide_eq_false hc]
      exact ⟨h, SameOutside.refl _ _ m⟩
  have hloop : bulkLoop maxPacketSize cw (fuel + 1) m tmp sz last =
      if r then
        ⟨setSwLstRnd (if cw = 8 then setNextVld m1 tmp false else m1) tmp false, tmp + p.size,
          sz + p.size, some tmp, true, false⟩
      else bulkLoop maxPacketSize cw fuel m1 (tmp + p.size) (sz + p.size) (some tmp) := by
    rw [bulkLoop, if_neg (by simp [hlim, hcw])]
    simp only
    rw [if_neg (by have := hp.1; omega), HoldsAt.setQsel h, hsize, ← hm1, HoldsAt.swLstRndAt h1]
  cases r with
  | false => exact ⟨m1, _, h1, hs1, fun _ => rfl, hloop⟩
  | true =>
    obtain ⟨m2, n2, hm2, h2, hs2⟩ : ∃ m2 n2, m2 = (if cw = 8 then setNextVld m1 tmp false else m1) ∧
        HoldsAt m2 tmp (p.bytes n2 true) ∧ SameOutside tmp (tmp + p.size) m m2 := by
      by_cases h8 : cw = 8
      · refine ⟨_, false, rfl, ?_⟩
        rw [if_pos h8]
        exact ⟨HoldsAt.setNextVld h1 false,
          hs1.trans (sameOutside_setNextVld false le_rfl (by omega)) le_rfl le_rfl⟩
      · refine ⟨_, decide (tmp + p.size ≠ cw), rfl, ?_⟩
        rw [if_neg h8]
        exact ⟨h1, hs1⟩
    refine ⟨setSwLstRnd m2 tmp false, n2, HoldsAt.setSwLstRnd h2 false, ?_, by simp, ?_⟩
    · exact hs2.trans (sameOutside_setSwLstRnd false le_rfl (by omega)) le_rfl le_rfl
    · rw [hloop, ← hm2]
      rfl

/-- How the loop ends when it took the packets `g` from `start` on and left `rest`; `lastRnd` says
whether the packets in front of the loop end with the round. -/
structure Exit (start : ℕ) (lastRnd : Bool) (m : ℕ → Byte) (g rest : List Packet) (r : BulkExit) :
    Prop where
  failed : r.failed = false
  lastRound : r.lastRound = (lastRnd && rest.isEmpty)
  pos : r.tmpBulkEndPos = start + size g
  bulk : r.thisBulkSize = size g
  last : r.lastTxInfo = lastInfo start g
  holds : ∃ n, HoldsAt r.mem start (chained n g)
  outside : SameOutside start (start + size g) m r.mem

variable (maxPacketSize) in
/-- **The loop.** With the packets `ps` in front of it, up to the write position or up to the end of the
round, the loop takes packets from the front. It takes at least one when it has none yet. -/
theorem bulkLoop_exit {start : ℕ} {lastRnd : Bool} (ps : List Packet) :
    ∀ (g : List Packet) (fuel tmp : ℕ) (m : ℕ → Byte), tmp = start + size g →
      HoldsAt m start (chained (decide (tmp ≠ cw)) g) → HoldsAt m tmp (waiting lastRnd ps) →
      (∀ p ∈ ps, p.Fits) → ps.length < fuel →
      (lastRnd = false ∧ tmp + size ps = cw ∨ lastRnd = true ∧ cw < tmp ∧ ps ≠ []) →
      ∃ taken rest, ps = taken ++ rest ∧ (g = [] → ps ≠ [] → taken ≠ []) ∧
        Exit start lastRnd m (g ++ taken) rest
          (bulkLoop maxPacketSize cw fuel m tmp (size g) (lastInfo start g)) := by
  induction ps with
  | nil =>
    intro g fuel tmp m htmp hg _ _ hfuel hend
    rcases hend with ⟨rfl, hend⟩ | ⟨_, _, hne⟩
    · obtain ⟨fuel, rfl⟩ := Nat.exists_eq_succ_of_ne_zero (Nat.ne_zero_of_lt hfuel)
      rw [size_nil, Nat.add_zero] at hend
      have hexit : bulkLoop maxPacketSize cw (fuel + 1) m tmp (size g) (lastInfo start g) =
          ⟨m, tmp, size g, lastInfo start g, false, false⟩ := by
        rw [bulkLoop, if_pos (Or.inr hend)]
      refine ⟨[], [], rfl, fun _ h => h, ?_⟩
      rw [hexit, List.append_nil]
      exact ⟨rfl, rfl, htmp, rfl, rfl, ⟨_, hg⟩, SameOutside.refl _ _ m⟩
    · exact absurd rfl hne
  | cons p ps ih =>
    intro g fuel tmp m htmp hg hps hfit hfuel hend
    obtain ⟨fuel, rfl⟩ := Nat.exists_eq_succ_of_ne_zero (Nat.ne_zero_of_lt hfuel)
    have hp := hfit p List.mem_cons_self
    have h24 : 24 ≤ p.size := by
      have := hp.1
      unfold Packet.size
      omega
    have hcw : tmp ≠ cw := by
      rw [size_cons] at hend
      omega
    rw [decide_eq_true hcw] at hg
    cases hlim : overLimit maxPacketSize (size g) (isCckAt m tmp) with
    | true =>
      -- the limit is reached; the first packet is always taken
      have hexit : bulkLoop maxPacketSize cw (fuel + 1) m tmp (size g) (lastInfo start g) =
          ⟨m, tmp, size g, lastInfo start g, false, false⟩ := by
        rw [bulkLoop, if_pos (Or.inl hlim)]
      refine ⟨[], p :: ps, rfl, ?_, ?_⟩
      · rintro rfl _
        rw [size_nil, overLimit_zero] at hlim
        exact absurd hlim (by decide)
      · rw [hexit, List.append_nil]
        exact ⟨rfl, by simp, htmp, rfl, rfl, ⟨_, hg⟩, SameOutside.refl _ _ m⟩
    | false =>
      rw [waiting_cons, holdsAt_append, Packet.length_bytes] at hps
      obtain ⟨m', n, hp', hs, hn, hstep⟩ := bulkLoop_packet fuel (lastInfo start g) hps.1 hp hlim hcw
      have hg' : HoldsAt m' start (chained n (g ++ [p])) := by
        rw [chained_append n g (by simp), chained_singleton, holdsAt_append, length_chained, ← htmp]
        refine ⟨HoldsAt.sameOutside hg hs (Or.inl ?_), hp'⟩
        rw [length_chained]
        omega
      have hsize : size (g ++ [p]) = size g + p.size := by simp
      have hout : SameOutside start (start + size (g ++ [p])) m m' := hs.mono (by omega) (by omega)
      rw [hstep]
      by_cases hlast : (ps.isEmpty && lastRnd) = true
      · -- the packet ends the round
        rw [if_pos hlast]
        rw [Bool.and_eq_true, List.isEmpty_iff] at hlast
        obtain ⟨rfl, rfl⟩ := hlast
        have hinfo : some tmp = lastInfo start (g ++ [p]) := by rw [lastInfo_snoc, htmp]
        refine ⟨[p], [], rfl, by simp, ?_⟩
        exact ⟨rfl, rfl, by simp only; omega, hsize.symm, hinfo, ⟨n, hg'⟩, hout⟩
      · rw [if_neg hlast]
        have hlast' : (ps.isEmpty && lastRnd) = false := Bool.eq_false_iff.2 hlast
        rw [hn hlast'] at hg'
        have hend' : lastRnd = false ∧ tmp + p.size + size ps = cw ∨
            lastRnd = true ∧ cw < tmp + p.size ∧ ps ≠ [] := by
          rw [size_cons] at hend
          rcases hend with ⟨hr, hend⟩ | ⟨hr, hend, -⟩
          · exact Or.inl ⟨hr, by omega⟩
          · refine Or.inr ⟨hr, by omega, ?_⟩
            rintro rfl
            rw [hr] at hlast'
            exact absurd hlast' (by decide)
        obtain ⟨taken, rest, hps', -, hexit⟩ := ih (g ++ [p]) fuel (tmp + p.size) m' (by omega) hg'
          (HoldsAt.sameOutside hps.2 hs (Or.inr le_rfl))
          (fun q hq => hfit q (List.mem_cons_of_mem p hq)) (by simpa using hfuel) hend'
        rw [hsize, lastInfo_snoc, ← htmp] at hexit
        refine ⟨p :: taken, rest, by rw [hps']; rfl, by simp, ?_⟩
        rw [← List.append_cons] at hexit
        have hle : size (g ++ [p]) ≤ size (g ++ p :: taken) := by simp
        exact ⟨hexit.failed, hexit.lastRound, hexit.pos, hexit.bulk, hexit.last, hexit.holds,
          hout.trans hexit.outside le_rfl (by omega)⟩

end Loop

end Mt7610u.Usb
