import Mt7610u.Data.Ethernet
import Mt7610u.Lib.Runs

/-! # Reassembly of fragmented data frames

`rtmpDeFragmentDataFrame` and the one `FragFrame` in which it collects the fragments of an MSDU. The
buffer is the memory behind the packet in `pFragPacket`; a call brings along the buffer that
`RTMP_AllocateFragPacketBuffer` hands out, if it does. -/

namespace Mt7610u.Data

open Lib Lib.Runs

/-! ### Frames -/

/-- A frame in memory: `frame` is what lies at `pHeader`, the payload of `DataSize` bytes starts at
`pData`, `headerRoom` bytes further on. -/
structure Packet where
  frame : ℕ → Byte
  headerRoom : BitVec 8
  dataSize : BitVec 16

namespace Packet

/-- The `DataSize` bytes at `pData`. -/
def payload (p : Packet) : List Byte := readAt p.frame p.headerRoom.toNat p.dataSize.toNat

/-- The frame from `pHeader` to the end of its payload. -/
def whole (p : Packet) : List Byte := read p.frame (p.headerRoom.toNat + p.dataSize.toNat)

def header (p : Packet) : List Byte := read p.frame p.headerRoom.toNat

@[simp] theorem length_payload (p : Packet) : p.payload.length = p.dataSize.toNat := length_readAt _ _ _

@[simp] theorem length_header (p : Packet) : p.header.length = p.headerRoom.toNat := length_read _ _

theorem whole_eq (p : Packet) : p.whole = p.header ++ p.payload := read_add _ _ _

end Packet

/-- `RX_BLK` of a data frame, with the fields of its 802.11 header that the reassembly reads. -/
structure RxBlk extends Packet where
  sequence : BitVec 12
  frag : BitVec 4
  moreFrag : Bool

def maxFrameSize : ℕ := 2346

/-- The six bytes at `pData` are `SNAP_802_1H`; they are compared also where the payload is shorter. -/
def RxBlk.BeginsWithLlc (rx : RxBlk) : Prop := readAt rx.frame rx.headerRoom.toNat 6 = snap8021h

instance (rx : RxBlk) : Decidable rx.BeginsWithLlc :=
  inferInstanceAs (Decidable (readAt rx.frame rx.headerRoom.toNat 6 = snap8021h))

/-! ### The control block -/

/-- `FRAGMENT_FRAME`; `fragPacket` is the memory of the packet buffer. -/
structure FragFrame where
  fragPacket : ℕ → Byte
  rxSize : ℕ
  sequence : BitVec 12
  lastFrag : ℕ
  flags : ℕ

namespace FragFrame

def reset (s : FragFrame) : FragFrame :=
  { s with rxSize := 0, sequence := 0, lastFrag := 0, flags := 0 }

/-- The control block after initialisation, over the buffer `m`. -/
def init (m : ℕ → Byte) : FragFrame := ⟨m, 0, 0, 0, 0⟩

end FragFrame

/-- A call: the frame, and the packet buffer allocated if the call asks for one. -/
structure Arrival where
  rx : RxBlk
  newFragPacket : Option (ℕ → Byte)

/-- `RTMPDeFragmentDataFrame`: the control block after the call, and the reassembled packet. -/
def rtmpDeFragmentDataFrame (s : FragFrame) (a : Arrival) : FragFrame × Option Packet :=
  let rx := a.rx
  if rx.frag = 0 then
    if rx.moreFrag then
      let size := rx.headerRoom.toNat + rx.dataSize.toNat
      ({ s with
          rxSize := size
          fragPacket := copy s.fragPacket 0 (read rx.frame size)
          sequence := rx.sequence
          lastFrag := rx.frag.toNat }, none)
    else (s, none)
  else if rx.sequence ≠ s.sequence ∨ rx.frag.toNat ≠ s.lastFrag + 1 then (s.reset, none)
  else if s.rxSize + rx.dataSize.toNat > maxFrameSize then (s.reset, none)
  else if rx.BeginsWithLlc then (s, none)
  else
    let s' := { s with
      fragPacket := copy s.fragPacket s.rxSize rx.payload
      rxSize := s.rxSize + rx.dataSize.toNat
      lastFrag := rx.frag.toNat }
    if rx.moreFrag then (s', none)
    else match a.newFragPacket with
      -- the block keeps RxSize, Sequence and LastFrag of the packet it returns
      | some m =>
        ({ s' with fragPacket := m },
          some ⟨s'.fragPacket, rx.headerRoom, BitVec.ofNat 16 s'.rxSize - rx.headerRoom.setWidth 16⟩)
      | none => (s'.reset, none)

/-! ### What a call can do -/

def InLine (s : FragFrame) (rx : RxBlk) : Prop :=
  rx.frag ≠ 0 ∧ rx.sequence = s.sequence ∧ rx.frag.toNat = s.lastFrag + 1

def Appends (s : FragFrame) (rx : RxBlk) : Prop :=
  InLine s rx ∧ s.rxSize + rx.dataSize.toNat ≤ maxFrameSize ∧ ¬ rx.BeginsWithLlc

def RepeatsLlc (s : FragFrame) (rx : RxBlk) : Prop :=
  InLine s rx ∧ s.rxSize + rx.dataSize.toNat ≤ maxFrameSize ∧ rx.BeginsWithLlc

instance (s : FragFrame) (rx : RxBlk) : Decidable (InLine s rx) := inferInstanceAs (Decidable (_ ∧ _ ∧ _))

instance (s : FragFrame) (rx : RxBlk) : Decidable (Appends s rx) := inferInstanceAs (Decidable (_ ∧ _ ∧ _))

instance (s : FragFrame) (rx : RxBlk) : Decidable (RepeatsLlc s rx) := inferInstanceAs (Decidable (_ ∧ _ ∧ _))

def FragFrame.start (s : FragFrame) (rx : RxBlk) : FragFrame :=
  { s with
    rxSize := rx.headerRoom.toNat + rx.dataSize.toNat
    fragPacket := copy s.fragPacket 0 rx.whole
    sequence := rx.sequence
    lastFrag := 0 }

def FragFrame.append (s : FragFrame) (rx : RxBlk) : FragFrame :=
  { s with
    fragPacket := copy s.fragPacket s.rxSize rx.payload
    rxSize := s.rxSize + rx.dataSize.toNat
    lastFrag := rx.frag.toNat }

/-- The packet that the block holds, its payload taken to start where that of `rx` does. -/
def FragFrame.packet (s : FragFrame) (rx : RxBlk) : Packet :=
  ⟨s.fragPacket, rx.headerRoom, BitVec.ofNat 16 s.rxSize - rx.headerRoom.setWidth 16⟩

/-- The ways through `rtmpDeFragmentDataFrame`. -/
inductive Outcome (s : FragFrame) (a : Arrival) : FragFrame → Option Packet → Prop
  | first (h : a.rx.frag = 0) (hm : a.rx.moreFrag = true) : Outcome s a (s.start a.rx) none
  | unfragmented (h : a.rx.frag = 0) (hm : a.rx.moreFrag = false) : Outcome s a s none
  | givenUp (h : a.rx.frag ≠ 0) (hn : ¬ Appends s a.rx) (hr : ¬ RepeatsLlc s a.rx) :
      Outcome s a s.reset none
  | repeated (hr : RepeatsLlc s a.rx) : Outcome s a s none
  | appended (h : Appends s a.rx) (hm : a.rx.moreFrag = true) : Outcome s a (s.append a.rx) none
  | completed (h : Appends s a.rx) (hm : a.rx.moreFrag = false) {m : ℕ → Byte}
      (hb : a.newFragPacket = some m) :
      Outcome s a { s.append a.rx with fragPacket := m } (some ((s.append a.rx).packet a.rx))
  | noBuffer (h : Appends s a.rx) (hm : a.rx.moreFrag = false) (hb : a.newFragPacket = none) :
      Outcome s a (s.append a.rx).reset none

theorem outcome (s : FragFrame) (a : Arrival) :
    Outcome s a (rtmpDeFragmentDataFrame s a).1 (rtmpDeFragmentDataFrame s a).2 := by
  simp only [rtmpDeFragmentDataFrame]
  split_ifs with hf hm hl hs hllc hm
  · have h := Outcome.first (s := s) hf hm
    rw [FragFrame.start, Packet.whole] at h
    rw [hf]
    exact h
  · exact .unfragmented hf (by simpa using hm)
  · refine .givenUp hf (fun h => ?_) (fun h => ?_)
    · exact hl.elim (· h.1.2.1) (· h.1.2.2)
    · exact hl.elim (· h.1.2.1) (· h.1.2.2)
  · refine .givenUp hf (fun h => ?_) (fun h => ?_)
    · exact absurd h.2.1 (by omega)
    · exact absurd h.2.1 (by omega)
  · push Not at hl
    exact .repeated ⟨⟨hf, hl⟩, by omega, hllc⟩
  · push Not at hl
    exact .appended ⟨⟨hf, hl⟩, by omega, hllc⟩ hm
  · push Not at hl
    have happ : Appends s a.rx := ⟨⟨hf, hl⟩, by omega, hllc⟩
    have hlast : a.rx.moreFrag = false := by simpa using hm
    split
    next m hb => exact .completed happ hlast hb
    next hb => exact .noBuffer happ hlast hb

/-! ### The reassembly under way -/

structure Reassembly where
  fragFrame : FragFrame
  pending : Option (RxBlk × List RxBlk)

namespace Reassembly

def pendingAfter (s : Reassembly) (rx : RxBlk) : Option (RxBlk × List RxBlk) :=
  if rx.frag = 0 ∧ rx.moreFrag = true then some (rx, [])
  else if rx.frag = 0 ∨ RepeatsLlc s.fragFrame rx ∨ Appends s.fragFrame rx ∧ rx.moreFrag = true then
    s.pending.map fun p => (p.1, p.2 ++ [rx])
  else none

def observe (s : Reassembly) (a : Arrival) : Reassembly :=
  ⟨(rtmpDeFragmentDataFrame s.fragFrame a).1, s.pendingAfter a.rx⟩

def init (m : ℕ → Byte) : Reassembly := ⟨.init m, none⟩

end Reassembly

/-- A frame that counts as a fragment behind fragment 0: it carries a later number, and no second LLC
header. -/
def RxBlk.Counts (rx : RxBlk) : Prop := rx.frag ≠ 0 ∧ ¬ rx.BeginsWithLlc

instance (rx : RxBlk) : Decidable rx.Counts := inferInstanceAs (Decidable (_ ∧ _))

/-- The fragments of a reassembly that `f0` began, among the frames `since`. -/
def fragments (f0 : RxBlk) (since : List RxBlk) : List RxBlk := f0 :: since.filter fun f => decide f.Counts

/-- **What the block holds** while a reassembly is under way: fragment 0 with its header, and the
payloads of the fragments that came after it in the order of their numbers. -/
structure Collected (s : FragFrame) (f0 : RxBlk) (fs : List RxBlk) : Prop where
  sequence : ∀ f ∈ fs, f.sequence = s.sequence
  first : fs.head? = some f0
  moreFrag : ∀ f ∈ fs, f.moreFrag = true
  numbers : fs.map (fun f => f.frag.toNat) = List.range (s.lastFrag + 1)
  held : read s.fragPacket s.rxSize = f0.header ++ fs.flatMap fun f => f.payload

namespace Collected

variable {s : FragFrame} {f0 : RxBlk} {fs : List RxBlk}

theorem start (s : FragFrame) {f0 : RxBlk} (h : f0.frag = 0) (hm : f0.moreFrag = true) :
    Collected (s.start f0) f0 [f0] where
  sequence := by simp [FragFrame.start]
  first := rfl
  moreFrag := by simpa using hm
  numbers := by simp [FragFrame.start, h]
  held := by
    have hlen : f0.whole.length = f0.headerRoom.toNat + f0.dataSize.toNat := length_read _ _
    have hcopy := read_copy_append s.fragPacket 0 f0.whole
    rw [hlen, Nat.zero_add] at hcopy
    unfold FragFrame.start
    rw [List.flatMap_singleton, ← Packet.whole_eq]
    exact hcopy

theorem first_eq (hc : Collected s f0 fs) : f0.frag = 0 ∧ f0.moreFrag = true ∧ f0.sequence = s.sequence := by
  obtain ⟨rest, rfl⟩ : ∃ rest, fs = f0 :: rest := by
    cases fs with
    | nil => cases hc.first
    | cons f rest =>
      obtain rfl : f = f0 := by simpa using hc.first
      exact ⟨rest, rfl⟩
  have hnum : f0.frag.toNat = 0 := by
    have := congrArg List.head? hc.numbers
    simpa [List.range_succ_eq_map] using this
  exact ⟨BitVec.eq_of_toNat_eq hnum, hc.moreFrag f0 (by simp), hc.sequence f0 (by simp)⟩

theorem sequence_append (hc : Collected s f0 fs) {rx : RxBlk} (h : Appends s rx) :
    ∀ f ∈ fs ++ [rx], f.sequence = s.sequence := by
  intro f hf
  rcases List.mem_append.1 hf with hf | hf
  · exact hc.sequence f hf
  · rw [List.mem_singleton.1 hf]
    exact h.1.2.1

theorem numbers_append (hc : Collected s f0 fs) {rx : RxBlk} (h : Appends s rx) :
    (fs ++ [rx]).map (fun f => f.frag.toNat) = List.range ((s.append rx).lastFrag + 1) := by
  unfold FragFrame.append
  rw [List.map_append, hc.numbers, List.map_singleton, h.1.2.2, List.range_succ (n := s.lastFrag + 1)]

theorem held_append (hc : Collected s f0 fs) (rx : RxBlk) :
    read (s.append rx).fragPacket (s.append rx).rxSize =
      f0.header ++ (fs ++ [rx]).flatMap fun f => f.payload := by
  have hcopy := read_copy_append s.fragPacket s.rxSize rx.payload
  rw [Packet.length_payload] at hcopy
  unfold FragFrame.append
  rw [hcopy, hc.held, List.flatMap_append, List.flatMap_singleton, List.append_assoc]

theorem append (hc : Collected s f0 fs) {rx : RxBlk} (h : Appends s rx) (hm : rx.moreFrag = true) :
    Collected (s.append rx) f0 (fs ++ [rx]) where
  sequence := hc.sequence_append h
  first := by simp [List.head?_append, hc.first]
  moreFrag := by
    intro f hf
    rcases List.mem_append.1 hf with hf | hf
    · exact hc.moreFrag f hf
    · rw [List.mem_singleton.1 hf]
      exact hm
  numbers := hc.numbers_append h
  held := hc.held_append rx

end Collected

/-! ### Soundness -/

/-- `p` is what the fragments `fs` carry: they are numbered 0, 1, …, n under one sequence number, and
only the last is marked as the last. -/
structure IsReassembly (fs : List RxBlk) (p : Packet) : Prop where
  payload : p.payload = fs.flatMap fun f => f.payload
  numbers : fs.map (fun f => f.frag.toNat) = List.range fs.length
  sequence : ∀ f ∈ fs, ∀ g ∈ fs, f.sequence = g.sequence
  moreFrag : ∃ n, fs.map (fun f => f.moreFrag) = List.replicate n true ++ [false]

theorem payload_packet {s : FragFrame} {rx : RxBlk} {hdr body : List Byte}
    (hheld : read s.fragPacket s.rxSize = hdr ++ body) (hhdr : hdr.length = rx.headerRoom.toNat)
    (hsize : s.rxSize ≤ maxFrameSize) : (s.packet rx).payload = body := by
  have hlen : s.rxSize = rx.headerRoom.toNat + body.length := by
    have := congrArg List.length hheld
    rwa [length_read, List.length_append, hhdr] at this
  have hsub : (BitVec.ofNat 16 s.rxSize - rx.headerRoom.setWidth 16).toNat = body.length := by
    have hroom := rx.headerRoom.isLt
    unfold maxFrameSize at hsize
    rw [BitVec.toNat_sub, BitVec.toNat_ofNat, BitVec.toNat_setWidth]
    omega
  rw [hlen, read_add] at hheld
  unfold FragFrame.packet Packet.payload
  show readAt s.fragPacket rx.headerRoom.toNat _ = body
  rw [hsub]
  exact (List.append_inj hheld (by rw [length_read, hhdr])).2

theorem Collected.isReassembly {s : FragFrame} {f0 rx : RxBlk} {fs : List RxBlk}
    (hc : Collected s f0 fs) (h : Appends s rx) (hm : rx.moreFrag = false) (hroom : rx.headerRoom = f0.headerRoom) :
    IsReassembly (fs ++ [rx]) ((s.append rx).packet rx) where
  payload := by
    refine payload_packet (hc.held_append rx) ?_ h.2.1
    rw [Packet.length_header, hroom]
  numbers := by
    have hnum := hc.numbers_append h
    have hlen := congrArg List.length hnum
    rw [List.length_map, List.length_range] at hlen
    rw [hnum, hlen]
  sequence := by
    intro f hf g hg
    rw [hc.sequence_append h f hf, hc.sequence_append h g hg]
  moreFrag := by
    refine ⟨fs.length, ?_⟩
    rw [List.map_append, List.map_singleton, hm, List.eq_replicate_of_mem (l := fs.map _)]
    · rw [List.length_map]
    · intro b hb
      obtain ⟨f, hf, rfl⟩ := List.mem_map.1 hb
      exact hc.moreFrag f hf

namespace Reassembly

def Inv (s : Reassembly) : Prop :=
  ∀ f0 since, s.pending = some (f0, since) → Collected s.fragFrame f0 (fragments f0 since)

/-- A fragment that the block takes belongs to the reassembly under way, and the one that completes it
has a header as long as that of fragment 0. -/
def Expected (s : Reassembly) (a : Arrival) : Prop :=
  Appends s.fragFrame a.rx →
    s.pending.isSome = true ∧
      (a.rx.moreFrag = false → s.pending.map (fun p => p.1.headerRoom) = some a.rx.headerRoom)

instance (s : Reassembly) (a : Arrival) : Decidable (s.Expected a) := inferInstanceAs (Decidable (_ → _))

/-! #### One call -/

theorem pendingAfter_first (s : Reassembly) {rx : RxBlk} (h : rx.frag = 0) (hm : rx.moreFrag = true) :
    s.pendingAfter rx = some (rx, []) := if_pos ⟨h, hm⟩

theorem pendingAfter_kept {s : Reassembly} {rx : RxBlk} (h1 : ¬ (rx.frag = 0 ∧ rx.moreFrag = true))
    (h2 : rx.frag = 0 ∨ RepeatsLlc s.fragFrame rx ∨ Appends s.fragFrame rx ∧ rx.moreFrag = true) :
    s.pendingAfter rx = s.pending.map fun p => (p.1, p.2 ++ [rx]) := by
  unfold pendingAfter
  rw [if_neg h1, if_pos h2]

theorem pendingAfter_ended {s : Reassembly} {rx : RxBlk} (h0 : rx.frag ≠ 0)
    (hr : ¬ RepeatsLlc s.fragFrame rx) (ha : ¬ (Appends s.fragFrame rx ∧ rx.moreFrag = true)) :
    s.pendingAfter rx = none := by
  unfold pendingAfter
  rw [if_neg (fun h => h0 h.1), if_neg]
  rintro (h | h | h)
  · exact h0 h
  · exact hr h
  · exact ha h

theorem pendingAfter_completed {s : Reassembly} {rx : RxBlk} (h : Appends s.fragFrame rx)
    (hm : rx.moreFrag = false) : s.pendingAfter rx = none := by
  refine pendingAfter_ended h.1.1 (fun hr => h.2.2 hr.2.2) ?_
  rw [hm]
  simp

theorem pendingAfter_cases {s : Reassembly} {rx f0 : RxBlk} {since : List RxBlk}
    (h : s.pendingAfter rx = some (f0, since)) :
    f0 = rx ∧ since = [] ∨ ∃ old, s.pending = some (f0, old) ∧ since = old ++ [rx] := by
  unfold pendingAfter at h
  split_ifs at h with h1 h2
  · left
    simpa [eq_comm] using h
  · right
    obtain ⟨⟨f, old⟩, hp, heq⟩ := Option.map_eq_some_iff.1 h
    simp only [Prod.mk.injEq] at heq
    obtain ⟨rfl, rfl⟩ := heq
    exact ⟨old, hp, rfl⟩

theorem fragments_ignored (f0 : RxBlk) (since : List RxBlk) {rx : RxBlk} (h : ¬ rx.Counts) :
    fragments f0 (since ++ [rx]) = fragments f0 since := by
  simp [fragments, h]

theorem fragments_counted (f0 : RxBlk) (since : List RxBlk) {rx : RxBlk} (h : rx.Counts) :
    fragments f0 (since ++ [rx]) = fragments f0 since ++ [rx] := by
  simp [fragments, h]

theorem Inv.ignored {s : Reassembly} (hI : s.Inv) {rx : RxBlk} (hn : ¬ rx.Counts) {f0 : RxBlk}
    {since : List RxBlk} (h : (s.pending.map fun p => (p.1, p.2 ++ [rx])) = some (f0, since)) :
    Collected s.fragFrame f0 (fragments f0 since) := by
  obtain ⟨⟨f, old⟩, hp, heq⟩ := Option.map_eq_some_iff.1 h
  simp only [Prod.mk.injEq] at heq
  obtain ⟨rfl, rfl⟩ := heq
  rw [fragments_ignored _ _ hn]
  exact hI _ _ hp

theorem Inv.observe {s : Reassembly} (hI : s.Inv) (a : Arrival) : (s.observe a).Inv := by
  intro f0 since hp
  change s.pendingAfter a.rx = some (f0, since) at hp
  show Collected (rtmpDeFragmentDataFrame s.fragFrame a).1 f0 (fragments f0 since)
  have ho := outcome s.fragFrame a
  revert ho
  generalize rtmpDeFragmentDataFrame s.fragFrame a = r
  obtain ⟨s', p⟩ := r
  rintro (⟨h, hm⟩ | ⟨h, hm⟩ | ⟨h, hn, hr⟩ | hr | ⟨h, hm⟩ | ⟨h, hm, hb⟩ | ⟨h, hm, hb⟩)
  · rw [pendingAfter_first s h hm] at hp
    obtain ⟨rfl, rfl⟩ : a.rx = f0 ∧ [] = since := by simpa using hp
    exact Collected.start s.fragFrame h hm
  · rw [pendingAfter_kept (by simp [hm]) (Or.inl h)] at hp
    exact hI.ignored (fun hc => hc.1 h) hp
  · rw [pendingAfter_ended h hr (fun ha => hn ha.1)] at hp
    cases hp
  · rw [pendingAfter_kept (fun h => hr.1.1 h.1) (Or.inr (Or.inl hr))] at hp
    exact hI.ignored (fun hc => hc.2 hr.2.2) hp
  · rw [pendingAfter_kept (fun h0 => h.1.1 h0.1) (Or.inr (Or.inr ⟨h, hm⟩))] at hp
    obtain ⟨⟨f, old⟩, hold, heq⟩ := Option.map_eq_some_iff.1 hp
    simp only [Prod.mk.injEq] at heq
    obtain ⟨rfl, rfl⟩ := heq
    rw [fragments_counted _ _ ⟨h.1.1, h.2.2⟩]
    exact (hI _ _ hold).append h hm
  · rw [pendingAfter_completed h hm] at hp
    cases hp
  · rw [pendingAfter_completed h hm] at hp
    cases hp

theorem of_returned {s : FragFrame} {a : Arrival} {p : Packet} (h : (rtmpDeFragmentDataFrame s a).2 = some p) :
    Appends s a.rx ∧ a.rx.moreFrag = false ∧ p = (s.append a.rx).packet a.rx := by
  have ho := outcome s a
  rw [h] at ho
  generalize (rtmpDeFragmentDataFrame s a).1 = s' at ho
  cases ho with
  | completed happ hm hb => exact ⟨happ, hm, rfl⟩

/-! #### Runs -/

theorem pending_run (s : Reassembly) (as : List Arrival) {f0 : RxBlk} {since : List RxBlk}
    (h : (run observe s as).pending = some (f0, since)) :
    (∃ old, as.map Arrival.rx = old ++ f0 :: since) ∨ (∃ old, s.pending = some (f0, old)) := by
  induction as using List.reverseRecOn generalizing since with
  | nil => exact Or.inr ⟨since, h⟩
  | append_singleton as a ih =>
    rw [run_append] at h
    rcases pendingAfter_cases h with ⟨rfl, rfl⟩ | ⟨old, hold, rfl⟩
    · exact Or.inl ⟨as.map Arrival.rx, by simp⟩
    · rcases ih hold with ⟨pre, hpre⟩ | hs
      · exact Or.inl ⟨pre, by simp [hpre]⟩
      · exact Or.inr hs

theorem run_fragFrame (s : Reassembly) (as : List Arrival) :
    (run observe s as).fragFrame =
      run (fun t a => (rtmpDeFragmentDataFrame t a).1) s.fragFrame as := by
  induction as generalizing s with
  | nil => rfl
  | cons a as ih => exact ih (s.observe a)

end Reassembly

/-- The control block after the calls `as`, from initialisation on. -/
def blockAfter (m : ℕ → Byte) (as : List Arrival) : FragFrame :=
  run (fun s a => (rtmpDeFragmentDataFrame s a).1) (.init m) as

/-- **Soundness of a run.** A packet that is returned is made of a fragment 0 that was received and of
the fragments received since, and behind a completed packet nothing is appended before the fragment 0
of a new one. -/
structure Sound (m : ℕ → Byte) (as : List Arrival) : Prop where
  returned : ∀ pre a post p, as = pre ++ a :: post →
    (rtmpDeFragmentDataFrame (blockAfter m pre) a).2 = some p →
    ∃ old f0 since, pre.map Arrival.rx ++ [a.rx] = old ++ f0 :: since ∧ IsReassembly (fragments f0 since) p
  closed : ∀ pre a mid b post p, as = pre ++ a :: (mid ++ b :: post) →
    (rtmpDeFragmentDataFrame (blockAfter m pre) a).2 = some p →
    Appends (blockAfter m (pre ++ a :: mid)) b.rx →
    ∃ c ∈ mid, c.rx.frag = 0 ∧ c.rx.moreFrag = true ∧ c.rx.sequence = b.rx.sequence

theorem expected_at {m : ℕ → Byte} {pre post : List Arrival} {a : Arrival}
    (h : Along Reassembly.observe Reassembly.Expected (.init m) (pre ++ a :: post)) :
    (run Reassembly.observe (.init m) pre).Expected a ∧
      (run Reassembly.observe (.init m) pre).Inv ∧
      (run Reassembly.observe (.init m) pre).fragFrame = blockAfter m pre := by
  refine ⟨(along_append.1 h).2.1, ?_, Reassembly.run_fragFrame _ pre⟩
  refine run_invariant_all (I := Reassembly.Inv) (fun s a hI => hI.observe a) pre _ ?_
  intro f0 since hp
  cases hp

/-- **Reassembly is sound where every fragment taken is expected**: it belongs to the reassembly under
way, and the last one has a header as long as that of fragment 0. -/
theorem sound_of_expected (m : ℕ → Byte) (as : List Arrival)
    (h : Along Reassembly.observe Reassembly.Expected (.init m) as) : Sound m as := by
  constructor
  · rintro pre a post p rfl hret
    obtain ⟨hexp, hinv, hblock⟩ := expected_at h
    rw [← hblock] at hret
    obtain ⟨happ, hm, rfl⟩ := Reassembly.of_returned hret
    obtain ⟨hsome, hroom⟩ := hexp happ
    obtain ⟨⟨f0, since⟩, hp⟩ := Option.isSome_iff_exists.1 hsome
    have hr : f0.headerRoom = a.rx.headerRoom := by
      have := hroom hm
      rw [hp] at this
      simpa using this
    rcases Reassembly.pending_run _ pre hp with ⟨old, hold⟩ | ⟨old, hnone⟩
    · refine ⟨old, f0, since ++ [a.rx], by rw [hold, List.append_assoc, List.cons_append], ?_⟩
      rw [Reassembly.fragments_counted _ _ ⟨happ.1.1, happ.2.2⟩]
      exact (hinv f0 since hp).isReassembly happ hm hr.symm
    · cases hnone
  · rintro pre a mid b post p rfl hret happ
    obtain ⟨-, -, hpre⟩ := expected_at h
    rw [← hpre] at hret
    obtain ⟨hdone, hm, -⟩ := Reassembly.of_returned hret
    rw [← List.cons_append, ← List.append_assoc] at h
    obtain ⟨hexp, hinv, hblock⟩ := expected_at h
    rw [← hblock] at happ
    obtain ⟨hsome, -⟩ := hexp happ
    obtain ⟨⟨f0, since⟩, hp⟩ := Option.isSome_iff_exists.1 hsome
    obtain ⟨hfrag, hmore, hseq⟩ := (hinv f0 since hp).first_eq
    rw [run_append, run_cons] at hp
    rcases Reassembly.pending_run _ mid hp with ⟨old, hold⟩ | ⟨old, hnone⟩
    · have hmem : f0 ∈ mid.map Arrival.rx := by simp [hold]
      obtain ⟨c, hc, rfl⟩ := List.mem_map.1 hmem
      exact ⟨c, hc, hfrag, hmore, hseq.trans happ.1.2.1.symm⟩
    · -- the call that returned the packet ended the reassembly
      change Reassembly.pendingAfter _ _ = _ at hnone
      rw [Reassembly.pendingAfter_completed hdone hm] at hnone
      cases hnone

def sampleFragment (sequence : BitVec 12) (frag : BitVec 4) (moreFrag : Bool) (body : List Byte) :
    Arrival where
  rx :=
    { frame := mem (List.replicate 24 0 ++ body)
      headerRoom := 24
      dataSize := BitVec.ofNat 16 body.length
      sequence := sequence
      frag := frag
      moreFrag := moreFrag }
  newFragPacket := some (mem [])

/-- Three fragments with a frame of another sequence, which ends the first attempt, between them. -/
def interruptedRun : List Arrival :=
  [sampleFragment 7 0 true [1, 2], sampleFragment 9 1 true [3], sampleFragment 7 0 true [1, 2],
    sampleFragment 7 1 true [3, 4], sampleFragment 7 2 false [5]]

theorem sound_interruptedRun :
    Along Reassembly.observe Reassembly.Expected (.init (mem [])) interruptedRun ∧ Sound (mem []) interruptedRun :=
  have h : Along Reassembly.observe Reassembly.Expected (.init (mem [])) interruptedRun := by decide
  ⟨h, sound_of_expected _ _ h⟩

/-- The reset block takes fragment 1 of sequence 0 for the continuation of a fragment 0. -/
theorem not_sound_orphan : ¬ Sound (mem []) [sampleFragment 0 1 false (List.replicate 30 0x55)] := by
  intro h
  obtain ⟨old, f0, since, hfed, hre⟩ := h.returned [] _ [] _ rfl rfl
  have hnum := congrArg List.head? hre.numbers
  obtain ⟨rfl, rfl, rfl⟩ : old = [] ∧ f0 = _ ∧ since = [] := by
    cases old with
    | nil => simpa [eq_comm] using hfed
    | cons f old => simp at hfed
  simp [fragments, sampleFragment] at hnum

end Mt7610u.Data
