import Mt7610u.Data.RxLengths
import Mt7610u.Data.RxOwnership

/-! # Cleartext frames under encryption

Which received data frames an associated station passes up although they were not decrypted. The driver does not
know that of a packet once it has looked at it; an `Audit` beside the adapter keeps a record, which says of a
packet that it carries a cleartext frame, also while a reordering list holds it, and of the fragment buffer that it
holds a cleartext fragment. -/

namespace Mt7610u.Data.RxPath

open Lib Lib.Runs BlockAck BlockAck.Tables BlockAck.Conservation BlockAck.Account BlockAck.Steps
open BlockAck.Reorder (Event ReorderingMpdu Session)

/-! ### The audit -/

/-- What the driver does not keep: `fragClear` says that a fragment in the fragment buffer was not decrypted, and
`cleartext` lists the packets with frames that must not be passed up. -/
structure Audit where
  fragClear : Bool
  cleartext : List ℕ

def encrypting (s : Adapter) : Bool :=
  s.ba.cfg.mediaStateConnected && !s.ba.cfg.monitorOn && !s.cfg.encryptionDisabled

def undecrypted (s : Adapter) (rx : RxPacket) : Bool :=
  fcType rx.header == 2 && encrypting s && !rx.rxInfo.decrypted

def isEapol (blk : RxBlk) : Bool := !blk.fRxAmsdu && rtmpCheckWPAframe blk.pkt

def carriers (s t : Adapter) (p : ℕ) : List ℕ := p :: List.range' s.nextPacket (t.nextPacket - s.nextPacket)

def Audit.mark (a : Audit) (clear : Bool) (blk : RxBlk) (ps : List ℕ) : Audit :=
  if clear = true ∧ isEapol blk = false then { a with cleartext := ps ++ a.cleartext } else a

def fragmentOf (blk : RxBlk) : Data.RxBlk :=
  { blk.pkt with
    sequence := sequence blk.pkt.frame, frag := frag blk.pkt.frame, moreFrag := moreFrag blk.pkt.frame }

def fragClearAfter (a : Audit) (clear : Bool) (ff : FragFrame) (rx : Data.RxBlk) : Bool :=
  if rx.frag = 0 then if rx.moreFrag then clear else a.fragClear
  else if Appends ff rx then rx.moreFrag && (a.fragClear || clear)
  else if RepeatsLlc ff rx then a.fragClear
  else false

/-- The frame comes to `RTMPDeFragmentDataFrame`. -/
def ToReassembly (s : Adapter) (rx : RxPacket) : Prop :=
  Passes s rx ∧ ¬EarlyDropped s rx ∧ ¬(rx.rxInfo.bcast = true ∨ rx.rxInfo.mcast = true) ∧
    rx.rxInfo.u2M = true ∧ isFragment rx.header = true

instance (s : Adapter) (rx : RxPacket) : Decidable (Passes s rx) :=
  decidable_of_iff ((rx.infoType = 0 ∧ rx.pkt80211 = true) ∧ 14 ≤ rx.rxWI.mpduByteCnt.toNat ∧
      s.ba.cfg.monitorOn = false ∧ rtmpCheckRxError s rx = true ∧ fcType rx.header = 2)
    ⟨fun h => ⟨h.1, h.2.1, h.2.2.1, h.2.2.2.1, h.2.2.2.2⟩, fun h => ⟨h.port, h.long, h.receiving, h.checked, h.data⟩⟩

instance (s : Adapter) (rx : RxPacket) : Decidable (ToReassembly s rx) := inferInstanceAs (Decidable (_ ∧ _))

def auditPacket (s : Adapter) (w : World) (x : ℕ) (rx : RxPacket) (a : Audit) : Audit :=
  let blk := dataRxBlk s.cfg x rx
  let clear := undecrypted s rx
  if ToReassembly s rx then
    let a' := { a with fragClear := fragClearAfter a clear s.fragFrame (fragmentOf blk) }
    match (deFragment s w blk).2 with
    | some p =>
      let s' := (deFragment s w blk).1
      a'.mark (a.fragClear || clear) (withoutMic s' w rx.rxInfo.decrypted (reassembledBlk w blk p))
        (carriers s' (handlePacket s w x rx) p.1)
    | none => a'
  else a.mark clear blk (carriers s (handlePacket s w x rx) x)

def auditRing : List (Flags × RingEntry) → Adapter × Audit → Adapter × Audit
  | [], r => r
  | (flags, entry) :: ring, (s, a) =>
    if flags.stop then (s, a)
    else
      match entry with
      | .cmdRsp => auditRing ring (s, a)
      | .packet rx w =>
        let s' := { s with nextPacket := s.nextPacket + 1 }
        auditRing ring (handlePacket s' w s.nextPacket rx, auditPacket s' w s.nextPacket rx a)

def auditStep (r : Adapter × Audit) : Op → Adapter × Audit
  | .staRxDoneInterruptHandle ring => auditRing ring r
  | op => (step r.1 op, r.2)

/-- **The audit changes nothing**: the adapter is that of the receive path. -/
theorem auditRing_fst (ring : List (Flags × RingEntry)) (s : Adapter) (a : Audit) :
    (auditRing ring (s, a)).1 = staRxDoneInterruptHandle ring s := by
  induction ring generalizing s a with
  | nil => rfl
  | cons e ring ih =>
    obtain ⟨flags, entry⟩ := e
    unfold auditRing staRxDoneInterruptHandle
    split_ifs
    · rfl
    · cases entry with
      | cmdRsp => exact ih s a
      | packet rx w => exact ih _ _

theorem auditStep_fst (r : Adapter × Audit) (op : Op) : (auditStep r op).1 = step r.1 op := by
  cases op with
  | staRxDoneInterruptHandle ring => exact auditRing_fst ring r.1 r.2
  | blockAck op w own => rfl
  | configure cfg => rfl

theorem auditRun_fst (r : Adapter × Audit) (ops : List Op) : (run auditStep r ops).1 = run step r.1 ops := by
  induction ops generalizing r with
  | nil => rfl
  | cons op ops ih => rw [run_cons, run_cons, ih, auditStep_fst]

def Disposal.passes (y : ℕ) : Disposal → Bool
  | .toOs p => p = y
  | .subframe p (.announce _) => p = y
  | _ => false

def Sealed (r : Adapter × Audit) : Prop := ∀ y ∈ r.2.cleartext, ∀ d ∈ r.1.disposals, d.passes y = false

/-! ### The frames that are dropped -/

section Dropped

variable (s : Adapter) (w : World) (blk : RxBlk)

/-- `Indicate_Legacy_Packet` finds the frame too long. -/
def TooLong (pkt : Packet) : Prop := 1520 < (convertedSize pkt).toNat

def NoSubframe : Prop :=
  Amsdu.announced (Amsdu.deaggregateAmsduAnnounce (w.resources blk.pRxPacket) 0 (atData blk.pkt)
    blk.pkt.dataSize.toNat).2 = []

def AralinkRefused : Prop :=
  ¬(msdu2Size blk.pkt ≤ 1536 ∧ msdu2Size blk.pkt < blk.pkt.dataSize.toNat) ∨ w.duplicated = false

/-- `Indicate_AMPDU_Packet` releases the frame: it is too long, of no station, or one that its session does not take,
since it is a duplicate, old, or listed already. -/
def AmpduRefused (fRxEap : Bool) : Prop :=
  (blk.fRxAmsdu = false ∧ 1520 < blk.pkt.dataSize.toNat) ∨
    if h : (blk.rxWI.wirelessCliID : ℕ) < 32 then
      let idx := recWcid (s.ba.content ⟨blk.rxWI.wirelessCliID, h⟩) blk.rxWI.tid
      idx ≠ 0 ∧ Event.release blk.pRxPacket ∈ ((session s.ba idx).indicateAmpduSession
        ⟨s.ba.cfg.osHz, w.now32, w.legacyNow32, s.ba.cfg.wpaSupplicantUP⟩ (blk.toReorder fRxEap)).events
    else True

/-- `STARxDataFrameAnnounce` drops the frame, or reports it to the MLME only: before the station is connected, for
its protection bit (a frame with it set when no cipher is in use; a frame with it clear when one is and the port is
not secured), for its length, as a duplicate, or because nothing comes out of it. -/
def Refused : Prop :=
  if rtmpCheckWPAframe blk.pkt = false then
    s.ba.cfg.mediaStateConnected = false ∨ (wep blk.pkt.frame = true ∧ s.cfg.encryptionDisabled = true) ∨
      (wep blk.pkt.frame = false ∧ s.cfg.encryptionDisabled = false ∧ s.cfg.portNotSecured = true) ∨
      if blk.fRxAralink = true then AralinkRefused w blk
      else if blk.fRxAmpdu = true ∧ s.cfg.bDisableReordering = false then AmpduRefused s w blk false
      else if blk.fRxAmsdu = true then NoSubframe w blk
      else TooLong blk.pkt
  else if blk.fRxAmpdu = true ∧ s.cfg.bDisableReordering = false then AmpduRefused s w blk true
  else s.ba.cfg.wpaSupplicantUP = false ∨ TooLong blk.pkt

def FrameGuard (x : ℕ) (rx : RxPacket) (a : Audit) : Prop :=
  let blk := dataRxBlk s.cfg x rx
  let clear := undecrypted s rx
  Passes s rx → ¬EarlyDropped s rx →
    if rx.rxInfo.bcast = true ∨ rx.rxInfo.mcast = true then
      clear = true → isEapol blk = false → groupWay s.cfg rx = .dropped ∨ TooLong blk.pkt
    else if rx.rxInfo.u2M = true then
      if isFragment rx.header = true then
        ∀ p, (deFragment s w blk).2 = some p →
          let s' := (deFragment s w blk).1
          let whole := withoutMic s' w rx.rxInfo.decrypted (reassembledBlk w blk p)
          (a.fragClear || clear) = true → isEapol whole = false →
            hasMic s' w rx.rxInfo.decrypted = true ∧ w.micEqual = false ∨ Refused s' w whole
      else clear = true → isEapol blk = false → Refused s w blk
    else True

end Dropped

def RingGuard : List (Flags × RingEntry) → Adapter × Audit → Prop
  | [], _ => True
  | (flags, entry) :: ring, (s, a) =>
    flags.stop = false →
      match entry with
      | .cmdRsp => RingGuard ring (s, a)
      | .packet rx w =>
        let s' := { s with nextPacket := s.nextPacket + 1 }
        FrameGuard s' w s.nextPacket rx a ∧
          RingGuard ring (handlePacket s' w s.nextPacket rx, auditPacket s' w s.nextPacket rx a)

def Guarded (r : Adapter × Audit) : Op → Prop
  | .staRxDoneInterruptHandle ring => RingGuard ring r
  | _ => True

/-! ### What can be passed up -/

def Outgoing (s : Adapter) (y : ℕ) : Prop := (∃ d ∈ s.disposals, d.passes y = true) ∨ y ∈ packets s.ba

/-- From `s` to `t`, what is passed up or listed was so before, or is one of the packets `ps`. -/
structure Sends (s t : Adapter) (ps : List ℕ) : Prop where
  outgoing : ∀ y, Outgoing t y → Outgoing s y ∨ y ∈ ps
  buffer : t.pFragPacket = s.pFragPacket
  next : s.nextPacket ≤ t.nextPacket

abbrev Silent (s t : Adapter) : Prop := Sends s t []

def OwnOnly (f : ℕ → List Disposal) : Prop := ∀ p, ∀ d ∈ f p, ∀ y, d.passes y = true → y = p

theorem ownOnly_toOs : OwnOnly fun p => [.toOs p] := by
  intro p d hd y hy
  rw [List.mem_singleton] at hd
  subst hd
  exact (of_decide_eq_true hy).symm

theorem ownOnly_deaggregate (w : World) (pkt : ℕ → Packet) :
    OwnOnly fun p => deaggregateAmsduAnnounce w p (pkt p) := by
  intro p d hd y hy
  rcases List.mem_append.1 hd with hd | hd
  · obtain ⟨e, -, rfl⟩ := List.mem_map.1 hd
    cases e with
    | report payload => cases hy
    | announce bytes => exact (of_decide_eq_true hy).symm
  · rw [List.mem_singleton] at hd
    subst hd
    cases hy

theorem ownOnly_legacy (pkt : Packet) : OwnOnly (legacyDisposals pkt) := by
  intro p d hd y hy
  unfold legacyDisposals at hd
  split_ifs at hd
  · rw [List.mem_singleton] at hd
    subst hd
    cases hy
  · exact ownOnly_toOs p d hd y hy

theorem ownOnly_indicate (s : Adapter) (w : World) (rx : RxBlk) (fRxEap : Bool) :
    OwnOnly (indicateLegacyOrAmsdu s w rx fRxEap) := by
  intro p d hd y hy
  unfold indicateLegacyOrAmsdu at hd
  split_ifs at hd
  · exact ownOnly_deaggregate w (fun _ => rx.pkt) p d hd y hy
  · simp only [List.mem_cons, List.not_mem_nil, or_false] at hd
    rcases hd with rfl | rfl <;> cases hy
  · exact ownOnly_legacy rx.pkt p d hd y hy

theorem ownOnly_announce (s : Adapter) (w : World) (blk : ReorderingMpdu) :
    OwnOnly (announceReorderingPacket s w blk) := by
  intro p d hd y hy
  unfold announceReorderingPacket at hd
  split_ifs at hd
  · exact ownOnly_deaggregate w s.contents p d hd y hy
  · exact ownOnly_toOs p d hd y hy

theorem passes_disposalsOf {s : Adapter} {w : World} {f : ℕ → List Disposal} (hf : OwnOnly f) {e : Event}
    {d : Disposal} (hd : d ∈ disposalsOf s w f e) {y : ℕ} (hy : d.passes y = true) : ∃ q, e = .deliver y q := by
  cases e with
  | deliver p q =>
    have hown : y = p := by
      simp only [disposalsOf] at hd
      cases hb : heldBlock s.ba p with
      | some blk =>
        rw [hb] at hd
        exact ownOnly_announce s w blk p d hd y hy
      | none =>
        rw [hb] at hd
        exact hf p d hd y hy
    exact ⟨q, by rw [hown]⟩
  | release p =>
    rw [disposalsOf, List.mem_singleton] at hd
    subst hd
    cases hy
  | reset => cases hd

theorem outgoing_dispose {s : Adapter} {ds : List Disposal} {y : ℕ} :
    Outgoing (s.dispose ds) y ↔ Outgoing s y ∨ ∃ d ∈ ds, d.passes y = true := by
  have hmem : (∃ d ∈ (s.dispose ds).disposals, d.passes y = true) ↔
      (∃ d ∈ s.disposals, d.passes y = true) ∨ ∃ d ∈ ds, d.passes y = true := by
    simp only [Adapter.dispose, List.mem_append, or_and_right, exists_or]
  unfold Outgoing
  rw [hmem]
  exact or_right_comm

theorem outgoing_settle {s : Adapter} {w : World} {f : ℕ → List Disposal} (hf : OwnOnly f) {ba : RtmpAdapter}
    {y : ℕ} (h : Outgoing (settle s w f ba) y) :
    (∃ d ∈ s.disposals, d.passes y = true) ∨ 0 < delivered ba y ∨ 0 < ∑ i, held ba i y := by
  have hlists : y ∈ packets (settle s w f ba).ba → 0 < 0 + 0 + ∑ i, held ba i y := by
    rw [← Multiset.count_pos, count_packets]
    exact id
  rcases h.imp_right hlists with ⟨d, hd, hpass⟩ | hheld
  · rcases List.mem_append.1 hd with hd | hd
    · exact .inl ⟨d, hd, hpass⟩
    · obtain ⟨e, he, hd⟩ := List.mem_flatMap.1 hd
      obtain ⟨q, hq⟩ := passes_disposalsOf hf hd hpass
      exact .inr (.inl (List.countP_pos_iff.2 ⟨e, he, by rw [hq]; exact decide_eq_true rfl⟩))
  · exact .inr (.inr (by omega))

namespace Sends

variable {s t u : Adapter} {ps qs : List ℕ} {w : World} {rx : RxBlk}

theorem mono (h : Sends s t ps) (hsub : ∀ y ∈ ps, y ∈ qs) : Sends s t qs :=
  ⟨fun y hy => (h.outgoing y hy).imp_right (hsub y), h.buffer, h.next⟩

theorem of_silent (h : Silent s t) : Sends s t ps := h.mono fun _ hy => absurd hy List.not_mem_nil

theorem trans (h : Silent s t) (h' : Sends t u ps) : Sends s u ps := by
  refine ⟨fun y hy => ?_, h'.buffer.trans h.buffer, h.next.trans h'.next⟩
  rcases h'.outgoing y hy with ht | hp
  · exact .inl ((h.outgoing y ht).resolve_right List.not_mem_nil)
  · exact .inr hp

theorem dispose {ds : List Disposal} (h : ∀ d ∈ ds, ∀ y, d.passes y = true → y ∈ ps) :
    Sends s (s.dispose ds) ps := by
  refine ⟨fun y hy => ?_, rfl, le_rfl⟩
  exact (outgoing_dispose.1 hy).imp_right fun ⟨d, hd, hpass⟩ => h d hd y hpass

theorem own {f : ℕ → List Disposal} (hf : OwnOnly f) (p : ℕ) : Sends s (s.dispose (f p)) [p] :=
  dispose fun d hd y hy => List.mem_singleton.2 (hf p d hd y hy)

theorem release (p : ℕ) : Silent s (s.dispose [.release p]) :=
  dispose fun d hd y hy => by
    rw [List.mem_singleton] at hd
    subst hd
    cases hy

theorem report (p : ℕ) : Silent s (s.dispose [.report p, .release p]) :=
  dispose fun d hd y hy => by
    simp only [List.mem_cons, List.not_mem_nil, or_false] at hd
    rcases hd with rfl | rfl <;> cases hy

/-- **Block-ack code has run**: what it lets go or still holds it has held or was given. -/
theorem settle (hl : ListsCounted s.ba) {f : ℕ → List Disposal} (hf : OwnOnly f) {ba : RtmpAdapter}
    {q : Multiset ℕ} (hba : Takes s.ba ba q) (hq : ∀ y ∈ q, y ∈ ps) : Sends s (settle s w f ba) ps := by
  have hin : ∀ y, 0 < (packets ba).count y → Outgoing s y ∨ y ∈ ps := by
    intro y hy
    rw [Multiset.count_pos, (hba hl).2, Multiset.mem_add] at hy
    exact hy.imp .inr (hq y)
  refine ⟨fun y hy => ?_, rfl, le_rfl⟩
  rcases outgoing_settle hf hy with hd | hd | hh
  · exact .inl (.inl hd)
  · refine hin y ?_
    rw [count_packets]
    omega
  · refine hin y ?_
    rw [count_packets]
    omega

theorem settle_none (hl : ListsCounted s.ba) {ba : RtmpAdapter} (hba : Takes s.ba ba 0) :
    Silent s (RxPath.settle s w (fun p => [.toOs p]) ba) :=
  settle hl ownOnly_toOs hba fun _ hy => absurd hy (Multiset.notMem_zero _)

/-- **Block-ack code that releases the frame** it was given passes up no more than it held: the frame, which no
list held before, is released once and is nowhere else. -/
theorem settle_released (hl : ListsCounted s.ba) {f : ℕ → List Disposal} (hf : OwnOnly f) {ba : RtmpAdapter}
    {p : ℕ} (hba : Takes s.ba ba {p}) (hp : p ∉ packets s.ba) {i : Option (Fin 128)}
    (hrel : (i, Event.release p) ∈ ba.log) : Silent s (RxPath.settle s w f ba) := by
  have hcount : (packets ba).count p = 1 := by
    rw [(hba hl).2, Multiset.count_add, Multiset.count_eq_zero_of_notMem hp, Multiset.count_singleton_self]
  rw [count_packets] at hcount
  have hreleased : 0 < BlockAck.Conservation.released ba p := List.countP_pos_iff.2 ⟨_, hrel, decide_eq_true rfl⟩
  have hsends : Sends s (RxPath.settle s w f ba) [p] :=
    settle hl hf hba fun y hy => List.mem_singleton.2 (Multiset.mem_singleton.1 hy)
  refine ⟨fun y hy => ?_, rfl, le_rfl⟩
  rcases hsends.outgoing y hy with hs | hyp
  · exact .inl hs
  · obtain rfl := List.mem_singleton.1 hyp
    rcases outgoing_settle hf hy with hd | hd | hh
    · exact .inl (.inl hd)
    · omega
    · omega

/-! ### The ways up -/

theorem indicateLegacyPacket (hl : ListsCounted s.ba) :
    Sends s (RxPath.indicateLegacyPacket s w rx) [rx.pRxPacket] := by
  unfold RxPath.indicateLegacyPacket
  split_ifs
  · exact of_silent (release _)
  · split
    · exact (settle_none hl (takes_flush s.ba _ _)).trans (own ownOnly_toOs _)
    · exact own ownOnly_toOs _

theorem indicateLegacyPacket_tooLong (h : TooLong rx.pkt) : Silent s (RxPath.indicateLegacyPacket s w rx) := by
  unfold TooLong at h
  unfold RxPath.indicateLegacyPacket
  rw [if_pos h]
  exact release _

theorem staRxEAPOLFrameIndicate (hl : ListsCounted s.ba) :
    Sends s (RxPath.staRxEAPOLFrameIndicate s w rx) [rx.pRxPacket] := by
  unfold RxPath.staRxEAPOLFrameIndicate
  split_ifs
  · exact indicateLegacyPacket hl
  · exact of_silent (report _)

theorem staRxEAPOLFrameIndicate_refused (h : s.ba.cfg.wpaSupplicantUP = false ∨ TooLong rx.pkt) :
    Silent s (RxPath.staRxEAPOLFrameIndicate s w rx) := by
  unfold RxPath.staRxEAPOLFrameIndicate
  split_ifs with hup
  · exact indicateLegacyPacket_tooLong (h.resolve_left (by simp [hup]))
  · exact report _

theorem indicateAmpduPacket (hl : ListsCounted s.ba) (fRxEap : Bool) :
    Sends s (RxPath.indicateAmpduPacket s w rx fRxEap) [rx.pRxPacket] := by
  unfold RxPath.indicateAmpduPacket
  dsimp only
  split_ifs
  · exact of_silent (release _)
  · exact own (ownOnly_indicate s w rx fRxEap) _
  · have hself : ∀ y ∈ ({rx.pRxPacket} : Multiset ℕ), y ∈ [rx.pRxPacket] :=
      fun y hy => List.mem_singleton.2 (Multiset.mem_singleton.1 hy)
    have hout := fun i env => settle (w := w) hl (ownOnly_indicate s w rx fRxEap)
      (takes_indicate s.ba i env (rx.toReorder fRxEap)) hself
    exact ⟨(hout _ _).outgoing, rfl, le_rfl⟩
  · exact of_silent (release _)

theorem indicateAmpduPacket_dropped (hl : ListsCounted s.ba) (hp : rx.pRxPacket ∉ packets s.ba) {fRxEap : Bool}
    (h : AmpduRefused s w rx fRxEap) : Silent s (RxPath.indicateAmpduPacket s w rx fRxEap) := by
  unfold RxPath.indicateAmpduPacket
  dsimp only
  by_cases hlong : ¬rx.fRxAmsdu ∧ 1520 < rx.pkt.dataSize.toNat
  · rw [if_pos hlong]
    exact release _
  · have hsession := h.resolve_left (by simpa using hlong)
    rw [if_neg hlong]
    split_ifs at hsession ⊢ with hwcid hidx
    · exact absurd hidx hsession.1
    · have hout := settle_released (w := w) hl (ownOnly_indicate s w rx fRxEap)
        (takes_indicate s.ba _ _ (rx.toReorder fRxEap)) hp
        (List.mem_append_right _ (List.mem_map_of_mem hsession.2))
      exact ⟨hout.outgoing, rfl, le_rfl⟩
    · exact release _

theorem deaggregate_noSubframe (h : NoSubframe w rx) :
    Silent s (s.dispose (deaggregateAmsduAnnounce w rx.pRxPacket rx.pkt)) := by
  refine dispose fun d hd y hy => ?_
  rcases List.mem_append.1 hd with hd | hd
  · obtain ⟨e, he, rfl⟩ := List.mem_map.1 hd
    cases e with
    | report payload => cases hy
    | announce bytes =>
      have hmem : bytes ∈ Amsdu.announced (Amsdu.deaggregateAmsduAnnounce (w.resources rx.pRxPacket) 0
          (atData rx.pkt) rx.pkt.dataSize.toNat).2 :=
        List.mem_filterMap.2 ⟨.announce bytes, he, rfl⟩
      rw [NoSubframe] at h
      rw [h] at hmem
      exact absurd hmem List.not_mem_nil
  · rw [List.mem_singleton] at hd
    subst hd
    cases hy

theorem cmmRxnonRalinkFrameIndicate (hl : ListsCounted s.ba) :
    Sends s (RxPath.cmmRxnonRalinkFrameIndicate s w rx) [rx.pRxPacket] := by
  unfold RxPath.cmmRxnonRalinkFrameIndicate
  split_ifs
  · exact indicateAmpduPacket hl false
  · exact own (ownOnly_deaggregate w fun _ => rx.pkt) rx.pRxPacket
  · exact indicateLegacyPacket hl

theorem cmmRxnonRalinkFrameIndicate_refused (hl : ListsCounted s.ba) (hp : rx.pRxPacket ∉ packets s.ba)
    (h : if rx.fRxAmpdu = true ∧ s.cfg.bDisableReordering = false then AmpduRefused s w rx false
      else if rx.fRxAmsdu = true then NoSubframe w rx else TooLong rx.pkt) :
    Silent s (RxPath.cmmRxnonRalinkFrameIndicate s w rx) := by
  unfold RxPath.cmmRxnonRalinkFrameIndicate
  simp only [Bool.not_eq_true]
  split_ifs at h ⊢
  · exact indicateAmpduPacket_dropped hl hp h
  · exact deaggregate_noSubframe h
  · exact indicateLegacyPacket_tooLong h

theorem cmmRxRalinkFrameIndicate (s : Adapter) (w : World) (rx : RxBlk) :
    Sends s (RxPath.cmmRxRalinkFrameIndicate s w rx)
      (carriers s (RxPath.cmmRxRalinkFrameIndicate s w rx) rx.pRxPacket) := by
  unfold RxPath.cmmRxRalinkFrameIndicate
  split_ifs
  · have hlen : s.nextPacket + 1 - s.nextPacket = 1 := by omega
    have hcar : carriers s ({ s with nextPacket := s.nextPacket + 1 }.dispose
        [.toOs rx.pRxPacket, .toOs s.nextPacket]) rx.pRxPacket = [rx.pRxPacket, s.nextPacket] := by
      simp only [carriers, Adapter.dispose, hlen]
      rfl
    rw [hcar]
    refine ⟨fun y hy => ?_, rfl, Nat.le_succ _⟩
    refine (outgoing_dispose.1 hy).imp (fun h => h) ?_
    rintro ⟨d, hd, hpass⟩
    simp only [List.mem_cons, List.not_mem_nil, or_false] at hd ⊢
    exact hd.imp (fun h => (of_decide_eq_true (h ▸ hpass)).symm) fun h => (of_decide_eq_true (h ▸ hpass)).symm
  · exact of_silent (release _)
  · exact of_silent (release _)

theorem cmmRxRalinkFrameIndicate_refused (h : AralinkRefused w rx) :
    Silent s (RxPath.cmmRxRalinkFrameIndicate s w rx) := by
  unfold RxPath.cmmRxRalinkFrameIndicate
  unfold AralinkRefused at h
  split_ifs with hacc hdup
  · rcases h with h | h
    · exact absurd hacc h
    · exact absurd hdup (by simp [h])
  · exact release _
  · exact release _

/-! ### Data frames -/

theorem carried {p : ℕ} (h : Sends s t [p]) : Sends s t (carriers s t p) :=
  h.mono fun _ hy => List.mem_cons.2 (.inl (List.mem_singleton.1 hy))

theorem staRxDataFrameAnnounce (hl : ListsCounted s.ba) :
    Sends s (RxPath.staRxDataFrameAnnounce s w rx)
      (carriers s (RxPath.staRxDataFrameAnnounce s w rx) rx.pRxPacket) := by
  unfold RxPath.staRxDataFrameAnnounce
  split_ifs
  · exact (indicateAmpduPacket hl true).carried
  · exact (staRxEAPOLFrameIndicate hl).carried
  · exact of_silent (release _)
  · exact of_silent (release _)
  · exact cmmRxRalinkFrameIndicate s w rx
  · exact (cmmRxnonRalinkFrameIndicate hl).carried
  · exact of_silent (release _)

theorem staRxDataFrameAnnounce_refused (hl : ListsCounted s.ba) (hp : rx.pRxPacket ∉ packets s.ba)
    (h : Refused s w rx) : Silent s (RxPath.staRxDataFrameAnnounce s w rx) := by
  unfold RxPath.staRxDataFrameAnnounce
  unfold Refused at h
  by_cases heap : rtmpCheckWPAframe rx.pkt = false
  · rw [if_pos heap] at h
    rw [if_pos (by simp [heap])]
    by_cases hconn : s.ba.cfg.mediaStateConnected = false
    · rw [if_pos (by simp [hconn])]
      exact release _
    by_cases hwep : wep rx.pkt.frame = true ∧ s.cfg.encryptionDisabled = true
    · rw [if_neg (by simpa using hconn), if_pos hwep]
      exact release _
    by_cases hport : wep rx.pkt.frame = false ∧ s.cfg.encryptionDisabled = false ∧ s.cfg.portNotSecured = true
    · rw [if_neg (by simpa using hconn), if_neg hwep, if_pos (by simp [hport])]
      exact release _
    -- the frame is past the checks of `STARxDataFrameAnnounce`
    have hlast := ((h.resolve_left hconn).resolve_left hwep).resolve_left hport
    rw [if_neg (by simpa using hconn), if_neg hwep, if_neg (by simpa using hport)]
    by_cases haralink : rx.fRxAralink = true
    · rw [if_pos haralink] at hlast
      rw [if_neg (by simpa using haralink)]
      exact cmmRxRalinkFrameIndicate_refused hlast
    · rw [if_neg haralink] at hlast
      rw [if_pos haralink]
      exact cmmRxnonRalinkFrameIndicate_refused hl hp hlast
  · rw [if_neg heap] at h
    rw [if_neg (by simpa using heap)]
    simp only [Bool.not_eq_true]
    split_ifs at h ⊢
    · exact indicateAmpduPacket_dropped hl hp h
    · exact staRxEAPOLFrameIndicate_refused h

theorem group (hl : ListsCounted s.ba) {x : ℕ} {rx : RxPacket} {blk : RxBlk} (hx : blk.pRxPacket = x) :
    Sends s (if moreFrag rx.header then s.dispose [.release x]
      else if frDs rx.header ∧ addr3 rx.header = s.cfg.currentAddress then s.dispose [.release x]
      else RxPath.indicateLegacyPacket s w blk) [x] := by
  split_ifs
  · exact of_silent (release _)
  · exact of_silent (release _)
  · exact hx ▸ indicateLegacyPacket hl

theorem group_refused {x : ℕ} {rx : RxPacket} {blk : RxBlk} (h : groupWay s.cfg rx = .dropped ∨ TooLong blk.pkt) :
    Silent s (if moreFrag rx.header then s.dispose [.release x]
      else if frDs rx.header ∧ addr3 rx.header = s.cfg.currentAddress then s.dispose [.release x]
      else RxPath.indicateLegacyPacket s w blk) := by
  unfold groupWay at h
  split_ifs at h ⊢
  · exact release _
  · exact release _
  · exact indicateLegacyPacket_tooLong (h.resolve_left not_false)

theorem staMonPktSend (x : ℕ) (rx : RxPacket) : Sends s (RxPath.staMonPktSend s w x rx) [x] := by
  unfold RxPath.staMonPktSend
  split_ifs
  · exact of_silent (release _)
  · exact of_silent (release _)
  · exact own ownOnly_toOs _
  · exact of_silent (release _)

theorem staHandleRxMgmtFrame (x : ℕ) (rx : RxPacket) : Silent s (RxPath.staHandleRxMgmtFrame s x rx) := by
  unfold RxPath.staHandleRxMgmtFrame
  split_ifs
  · exact release _
  · exact report _

theorem staHandleRxControlFrame (hl : ListsCounted s.ba) (x : ℕ) (rx : RxPacket) :
    Silent s (RxPath.staHandleRxControlFrame s w x rx) := by
  unfold RxPath.staHandleRxControlFrame
  split_ifs
  · exact (settle_none hl (Accounted.takes_enqueueBar s.ba rx.rxWI rx.header)).trans (release _)
  · exact release _

theorem handlePacket_other (hl : ListsCounted s.ba) (hmon : s.ba.cfg.monitorOn = false) (x : ℕ) {rx : RxPacket}
    (h : ¬Passes s rx) : Silent s (RxPath.handlePacket s w x rx) := by
  unfold RxPath.handlePacket
  split_ifs with hport hshort hmonitor hcheck
  · exact release _
  · exact release _
  · exact absurd hmonitor (by simp [hmon])
  · split
    · next hdata =>
      refine absurd ⟨?_, by omega, hmon, hcheck, BitVec.eq_of_toNat_eq hdata⟩ h
      push Not at hport
      simpa using hport
    · exact staHandleRxMgmtFrame x rx
    · exact staHandleRxControlFrame hl x rx
    · exact release _
  · exact release _

end Sends

/-! ### The frames that are not reassembled -/

section Frame

variable {s : Adapter} {w : World} {x : ℕ} {rx : RxPacket}

theorem staHandleRxDataFrame_of_kept (h : ¬EarlyDropped s rx) :
    staHandleRxDataFrame s w x rx =
      if rx.rxInfo.bcast ∨ rx.rxInfo.mcast then
        if moreFrag rx.header then s.dispose [.release x]
        else if frDs rx.header ∧ addr3 rx.header = s.cfg.currentAddress then s.dispose [.release x]
        else indicateLegacyPacket s w (dataRxBlk s.cfg x rx)
      else if rx.rxInfo.u2M then
        if isFragment rx.header then
          match deFragment s w (dataRxBlk s.cfg x rx) with
          | (s', some p) => announceReassembled s' w (dataRxBlk s.cfg x rx) rx.rxInfo.decrypted p
          | (s', none) => s'
        else staRxDataFrameAnnounce s w (dataRxBlk s.cfg x rx)
      else s.dispose [.release x] := by
  unfold EarlyDropped at h
  dsimp only at h
  push Not at h
  obtain ⟨h1, h2, h3, h4, h5, h6⟩ := h
  unfold staHandleRxDataFrame
  dsimp only
  exact (if_neg (by simpa using h1)).trans <| (if_neg (by simpa using h2)).trans <|
    (if_neg (by simpa using h3)).trans <| (if_neg (by simpa using h4)).trans <|
      (if_neg (by simpa using h5)).trans (if_neg (by omega))

/-- **A frame of its own**: it is the only one that is passed up or listed, and it is neither if it is a cleartext
frame that meets the condition. -/
theorem handlePacket_sends (hl : ListsCounted s.ba) (hx : x ∉ packets s.ba) (h : ¬ToReassembly s rx) (a : Audit) :
    Sends s (handlePacket s w x rx) (carriers s (handlePacket s w x rx) x) ∧
      (FrameGuard s w x rx a → undecrypted s rx = true → isEapol (dataRxBlk s.cfg x rx) = false →
        Silent s (handlePacket s w x rx)) := by
  have hsilent (hs : Silent s (handlePacket s w x rx)) : Sends s (handlePacket s w x rx)
      (carriers s (handlePacket s w x rx) x) ∧ (FrameGuard s w x rx a → undecrypted s rx = true →
        isEapol (dataRxBlk s.cfg x rx) = false → Silent s (handlePacket s w x rx)) :=
    ⟨.of_silent hs, fun _ _ _ => hs⟩
  by_cases hpass : Passes s rx
  · by_cases hearly : EarlyDropped s rx
    · refine hsilent ?_
      rw [hpass.handlePacket_eq, staHandleRxDataFrame_of_dropped hearly]
      exact .release _
    · rw [hpass.handlePacket_eq, staHandleRxDataFrame_of_kept hearly]
      unfold FrameGuard
      dsimp only
      by_cases hgroup : rx.rxInfo.bcast = true ∨ rx.rxInfo.mcast = true
      · simp only [if_pos hgroup]
        exact ⟨(Sends.group hl rfl).carried,
          fun hguard hclear heap => Sends.group_refused (hguard hpass hearly hclear heap)⟩
      · by_cases hu2m : rx.rxInfo.u2M = true
        · have hfrag : ¬isFragment rx.header = true := fun hfrag => h ⟨hpass, hearly, hgroup, hu2m, hfrag⟩
          simp only [if_neg hgroup, if_pos hu2m, if_neg hfrag]
          exact ⟨Sends.staRxDataFrameAnnounce hl,
            fun hguard hclear heap => Sends.staRxDataFrameAnnounce_refused hl hx (hguard hpass hearly hclear heap)⟩
        · simp only [if_neg hgroup, if_neg hu2m]
          exact ⟨.of_silent (.release _), fun _ _ _ => .release _⟩
  · by_cases hmon : s.ba.cfg.monitorOn = true
    · -- a monitor passes everything up, but a monitor is not associated
      have henc : undecrypted s rx = false := by simp [undecrypted, encrypting, hmon]
      refine ⟨Sends.carried ?_, fun _ hclear => absurd hclear (by simp [henc])⟩
      unfold handlePacket
      split_ifs
      · exact .of_silent (.release _)
      · exact .of_silent (.release _)
      · exact .staMonPktSend x rx
    · exact hsilent (.handlePacket_other hl (by simpa using hmon) x hpass)

theorem handlePacket_of_toReassembly (h : ToReassembly s rx) :
    handlePacket s w x rx =
      match deFragment s w (dataRxBlk s.cfg x rx) with
      | (s', some p) => announceReassembled s' w (dataRxBlk s.cfg x rx) rx.rxInfo.decrypted p
      | (s', none) => s' := by
  obtain ⟨hpass, hearly, hgroup, hu2m, hfrag⟩ := h
  rw [hpass.handlePacket_eq, staHandleRxDataFrame_of_kept hearly, if_neg hgroup, if_pos hu2m, if_pos hfrag]

theorem deFragment_cases (s : Adapter) (w : World) (blk : RxBlk) :
    ((deFragment s w blk).2 = none ∧ Silent s (deFragment s w blk).1) ∨
      ∃ pkt, (deFragment s w blk).2 = some (s.pFragPacket, pkt) ∧
        (deFragment s w blk).1.pFragPacket = s.nextPacket ∧
        (deFragment s w blk).1.nextPacket = s.nextPacket + 1 ∧
        ∀ y, Outgoing (deFragment s w blk).1 y → Outgoing s y := by
  have hrel : Silent s (s.dispose [.release blk.pRxPacket]) := .release _
  unfold deFragment
  dsimp only
  generalize rtmpDeFragmentDataFrame s.fragFrame _ = r
  cases r.2 with
  | none => exact .inl ⟨rfl, hrel.outgoing, hrel.buffer, hrel.next⟩
  | some pkt => exact .inr ⟨pkt, rfl, rfl, rfl, fun y hy => (hrel.outgoing y hy).resolve_right List.not_mem_nil⟩

theorem deFragment_ba (s : Adapter) (w : World) (blk : RxBlk) : (deFragment s w blk).1.ba = s.ba := by
  unfold deFragment
  dsimp only
  split <;> rfl

theorem announceReassembled_eq (s : Adapter) (w : World) (blk : RxBlk) (decrypted : Bool) (p : ℕ × Packet) :
    announceReassembled s w blk decrypted p =
      if hasMic s w decrypted = true ∧ w.micEqual = false then s.dispose [.release p.1]
      else staRxDataFrameAnnounce s w (withoutMic s w decrypted (reassembledBlk w blk p)) := by
  have hmic : decrypted = true ∧ s.cfg.tkip w.staleRxWI.wirelessCliID = true ↔ hasMic s w decrypted = true := by
    simp [hasMic]
  unfold announceReassembled withoutMic
  dsimp only
  by_cases hm : hasMic s w decrypted = true
  · rw [if_pos (hmic.2 hm), if_pos hm]
    cases w.micEqual with
    | true =>
      rw [if_pos rfl, if_neg (by simp)]
      rfl
    | false =>
      rw [if_neg (by simp), if_pos ⟨hm, rfl⟩]
  · rw [if_neg (mt hmic.1 hm), if_neg hm, if_neg fun h => hm h.1]
    rfl

end Frame

/-! ### One operation -/

structure Watched (s : Adapter) (a : Audit) : Prop where
  outgoing : ∀ y, Outgoing s y → y < s.nextPacket ∧ y ≠ s.pFragPacket
  buffer : s.pFragPacket < s.nextPacket
  clear : ∀ y ∈ a.cleartext, y < s.nextPacket ∧ y ≠ s.pFragPacket ∧ ¬Outgoing s y

/-- The packet `x` is in hand. -/
structure InHand (s : Adapter) (a : Audit) (x : ℕ) : Prop extends Watched s a where
  here : x < s.nextPacket
  notBuffer : x ≠ s.pFragPacket
  notOut : ¬Outgoing s x
  notClear : x ∉ a.cleartext

namespace Watched

variable {s t : Adapter} {a : Audit} {x : ℕ}

theorem isSealed (h : Watched s a) : Sealed (s, a) := by
  intro y hy d hd
  have hout := (h.clear y hy).2.2
  by_contra hpass
  exact hout (.inl ⟨d, hd, by simpa using hpass⟩)

theorem fragClear (h : Watched s a) (b : Bool) : Watched s { a with fragClear := b } :=
  ⟨h.outgoing, h.buffer, h.clear⟩

theorem silent (h : Watched s a) (hst : Silent s t) : Watched t a := by
  have hout (y) (hy : Outgoing t y) : Outgoing s y := (hst.outgoing y hy).resolve_right List.not_mem_nil
  have hnext := hst.next
  refine ⟨fun y hy => ?_, ?_, fun y hy => ?_⟩
  · obtain ⟨hlt, hne⟩ := h.outgoing y (hout y hy)
    exact ⟨by omega, hst.buffer ▸ hne⟩
  · rw [hst.buffer]
    exact h.buffer.trans_le hnext
  · obtain ⟨hlt, hne, hnot⟩ := h.clear y hy
    exact ⟨by omega, hst.buffer ▸ hne, mt (hout y) hnot⟩

theorem allocate (h : Watched s a) : InHand { s with nextPacket := s.nextPacket + 1 } a s.nextPacket := by
  have hbuf := h.buffer
  refine ⟨⟨fun y hy => ?_, by simp only; omega, fun y hy => ?_⟩, by simp only; omega, by simp only; omega, ?_, ?_⟩
  · obtain ⟨hlt, hne⟩ := h.outgoing y hy
    exact ⟨by simp only; omega, hne⟩
  · obtain ⟨hlt, hne, hnot⟩ := h.clear y hy
    exact ⟨by simp only; omega, hne, hnot⟩
  · exact fun hout => absurd (h.outgoing _ hout).1 (by omega)
  · exact fun hmem => absurd (h.clear _ hmem).1 (by omega)

end Watched

namespace InHand

variable {s t : Adapter} {a : Audit} {x : ℕ}

theorem mem_carriers {y : ℕ} (h : y ∈ carriers s t x) : y = x ∨ s.nextPacket ≤ y ∧ y < t.nextPacket := by
  rcases List.mem_cons.1 h with rfl | h
  · exact .inl rfl
  · rw [List.mem_range'_1] at h
    omega

/-- **The frame in hand** goes its way, and is put on record if it is a cleartext frame, which then must not go
out. -/
theorem hand_over (h : InHand s a x) {clear : Bool} {blk : RxBlk} (hst : Sends s t (carriers s t x))
    (hsilent : clear = true → isEapol blk = false → Silent s t) :
    Watched t (a.mark clear blk (carriers s t x)) := by
  have hnext := hst.next
  have hbuf := h.buffer
  have hfrag := hst.buffer
  have hx := h.here
  have hold : ∀ y ∈ a.cleartext, y < t.nextPacket ∧ y ≠ t.pFragPacket ∧ ¬Outgoing t y := by
    intro y hy
    obtain ⟨hlt, hne, hnot⟩ := h.clear y hy
    refine ⟨by omega, hfrag ▸ hne, fun hout => ?_⟩
    rcases hst.outgoing y hout with hout | hmem
    · exact hnot hout
    · rcases mem_carriers hmem with rfl | hfresh
      · exact h.notClear hy
      · omega
  refine ⟨fun y hy => ?_, by omega, ?_⟩
  · rcases hst.outgoing y hy with hout | hmem
    · obtain ⟨hlt, hne⟩ := h.toWatched.outgoing y hout
      exact ⟨by omega, hfrag ▸ hne⟩
    · rcases mem_carriers hmem with rfl | hfresh
      · exact ⟨by omega, hfrag ▸ h.notBuffer⟩
      · exact ⟨hfresh.2, by omega⟩
  · unfold Audit.mark
    split_ifs with hmark
    · have hquiet := hsilent hmark.1 hmark.2
      intro y hy
      rcases List.mem_append.1 hy with hy | hy
      · have hnot : ¬Outgoing t y := by
          intro hout
          have hs := (hquiet.outgoing y hout).resolve_right List.not_mem_nil
          rcases mem_carriers hy with rfl | hfresh
          · exact h.notOut hs
          · exact absurd (h.toWatched.outgoing y hs).1 (by omega)
        rcases mem_carriers hy with rfl | hfresh
        · exact ⟨by omega, hfrag ▸ h.notBuffer, hnot⟩
        · exact ⟨hfresh.2, by omega, hnot⟩
      · exact hold y hy
    · exact hold

theorem swap (h : InHand s a x) (hbuf : t.pFragPacket = s.nextPacket) (hnext : t.nextPacket = s.nextPacket + 1)
    (hout : ∀ y, Outgoing t y → Outgoing s y) : InHand t a s.pFragPacket := by
  have hb := h.buffer
  refine ⟨⟨fun y hy => ?_, by omega, fun y hy => ?_⟩, by omega, by omega, fun hy => ?_, fun hy => ?_⟩
  · have hlt := (h.toWatched.outgoing y (hout y hy)).1
    exact ⟨by omega, by omega⟩
  · obtain ⟨hlt, -, hnot⟩ := h.clear y hy
    exact ⟨by omega, by omega, mt (hout y) hnot⟩
  · exact (h.toWatched.outgoing _ (hout _ hy)).2 rfl
  · exact (h.clear _ hy).2.1 rfl

theorem notListed (h : InHand s a x) : x ∉ packets s.ba := mt Or.inr h.notOut

theorem fragment (h : InHand s a x) (hl : ListsCounted s.ba) {w : World} {rx : RxPacket} (hr : ToReassembly s rx)
    (hguard : FrameGuard s w x rx a) : Watched (RxPath.handlePacket s w x rx) (auditPacket s w x rx a) := by
  have hcase := deFragment_cases s w (dataRxBlk s.cfg x rx)
  have hba := deFragment_ba s w (dataRxBlk s.cfg x rx)
  have hpacket := handlePacket_of_toReassembly (w := w) (x := x) hr
  have hcond := hguard hr.1 hr.2.1
  rw [if_neg hr.2.2.1, if_pos hr.2.2.2.1, if_pos hr.2.2.2.2] at hcond
  unfold auditPacket
  dsimp only at hcond ⊢
  rw [if_pos hr]
  generalize deFragment s w (dataRxBlk s.cfg x rx) = r at hcase hba hpacket hcond ⊢
  obtain ⟨s', out⟩ := r
  dsimp only at hcase hba hpacket hcond ⊢
  rcases hcase with ⟨rfl, hsilent⟩ | ⟨pkt, rfl, hbuf, hnext, hout⟩
  · rw [hpacket]
    exact (h.toWatched.silent hsilent).fragClear _
  · have hin : InHand s' { a with
        fragClear := fragClearAfter a (undecrypted s rx) s.fragFrame (fragmentOf (dataRxBlk s.cfg x rx)) }
        s.pFragPacket := by
      have hswap := h.swap hbuf hnext hout
      exact ⟨hswap.toWatched.fragClear _, hswap.here, hswap.notBuffer, hswap.notOut, hswap.notClear⟩
    have hl' : ListsCounted s'.ba := hba ▸ hl
    dsimp only at hpacket
    rw [announceReassembled_eq] at hpacket
    have hrxp : (withoutMic s' w rx.rxInfo.decrypted
        (reassembledBlk w (dataRxBlk s.cfg x rx) (s.pFragPacket, pkt))).pRxPacket = s.pFragPacket := by
      unfold withoutMic
      split_ifs <;> rfl
    rw [hpacket]
    refine hin.hand_over ?_ fun hclear heap => ?_
    · split_ifs
      · exact .of_silent (.release _)
      · have hsend : Sends s' _ (carriers s' _ (withoutMic s' w rx.rxInfo.decrypted
            (reassembledBlk w (dataRxBlk s.cfg x rx) (s.pFragPacket, pkt))).pRxPacket) :=
          Sends.staRxDataFrameAnnounce (w := w) hl'
        rwa [hrxp] at hsend
    · split_ifs with hmic
      · exact .release _
      · have href := (hcond _ rfl hclear heap).resolve_left hmic
        refine .staRxDataFrameAnnounce_refused hl' ?_ href
        rw [hrxp]
        exact hin.notListed

theorem handlePacket (h : InHand s a x) (hl : ListsCounted s.ba) {w : World} {rx : RxPacket}
    (hguard : FrameGuard s w x rx a) : Watched (RxPath.handlePacket s w x rx) (auditPacket s w x rx a) := by
  by_cases hr : ToReassembly s rx
  · exact h.fragment hl hr hguard
  · obtain ⟨hsends, hsilent⟩ := handlePacket_sends (w := w) hl h.notListed hr a
    unfold auditPacket
    dsimp only
    rw [if_neg hr]
    exact h.hand_over hsends (hsilent hguard)

end InHand

structure Inv (r : Adapter × Audit) : Prop where
  accounted : Accounted 0 r.1 0
  watched : Watched r.1 r.2

theorem Inv.ring (ring : List (Flags × RingEntry)) {s : Adapter} {a : Audit} (h : Inv (s, a))
    (hguard : RingGuard ring (s, a)) : Inv (auditRing ring (s, a)) := by
  induction ring generalizing s a with
  | nil => exact h
  | cons e ring ih =>
    obtain ⟨flags, entry⟩ := e
    unfold auditRing
    unfold RingGuard at hguard
    split_ifs with hstop
    · exact h
    · have hguard' := hguard (by simpa using hstop)
      cases entry with
      | cmdRsp => exact ih h hguard'
      | packet rx w =>
        have hring := h.accounted.allocate
        rw [zero_add] at hring
        exact ih ⟨hring.handlePacket w rx, h.watched.allocate.handlePacket hring.lists hguard'.1⟩ hguard'.2

theorem auditStep_sealed (r : Adapter × Audit) (op : Op) (h : Inv r) (hguard : Guarded r op) :
    Inv (auditStep r op) := by
  cases op with
  | staRxDoneInterruptHandle ring => exact h.ring ring hguard
  | blockAck op w own =>
    refine ⟨h.accounted.step (.blockAck op w own), ?_⟩
    have hgiven : given op = 0 := by
      cases op with
      | indicateAmpduPacket rx now32 legacyNow32 => exact absurd rfl (own rx now32 legacyNow32)
      | _ => rfl
    have htakes := takes_step r.1.ba op
    rw [hgiven] at htakes
    exact h.watched.silent (.settle_none h.accounted.lists htakes)
  | configure cfg =>
    exact ⟨h.accounted.step (.configure cfg), h.watched.outgoing, h.watched.buffer, h.watched.clear⟩

/-! ### Every run -/

theorem inv_init (cfg : Settings) (ba : Config) (num : ℕ) (attrs : Fin 32 → MacTableEntry) (m : ℕ → Byte) :
    Inv (init cfg ba num attrs m, ⟨false, []⟩) := by
  have hnone : ∀ y, ¬Outgoing (init cfg ba num attrs m) y := by
    have h0 : packets (init cfg ba num attrs m).ba = 0 := by
      simp [packets, init, initAdapter, zeroRecEntry]
    intro y
    rw [Outgoing, h0]
    simp [init]
  exact ⟨accounted_init cfg ba num attrs m, fun y hy => absurd hy (hnone y), Nat.zero_lt_one,
    fun y hy => absurd hy List.not_mem_nil⟩

def encryptedStation (portNotSecured : Bool) : Adapter :=
  init { sampleSettings with encryptionDisabled := false, portNotSecured := portNotSecured } sampleConfig 0
    (fun _ => sampleStation) (mem [])

def clearFrame (group : Bool) : RxPacket :=
  let rx := sampleData [0x08#8, 0x02#8] 100
  { rx with rxInfo := { rx.rxInfo with mcast := group, u2M := !group } }

def clearOp (group : Bool) : Op :=
  .staRxDoneInterruptHandle [(⟨false, false, false, false, true, false⟩, .packet (clearFrame group) sampleWorld)]

def afterClear (portNotSecured group : Bool) : Adapter × Audit :=
  run auditStep (encryptedStation portNotSecured, ⟨false, []⟩) [clearOp group]

end Mt7610u.Data.RxPath
