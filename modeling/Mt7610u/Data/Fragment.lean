import Mt7610u.Data.Defragment

/-! # Fragmentation and its round trip

`staFragmentFrameTx`, which cuts an MSDU into fragments, and what `rtmpDeFragmentDataFrame` makes of
the fragments it writes when they are received in order. Frames go unencrypted, and the software
encryption of the build is left out with them. -/

namespace Mt7610u.Data

open Lib Lib.Runs

/-! ### The 802.11 header -/

/-- `HEADER_802_11`: the two bytes of the frame control field, its MoreFrag bit aside, the duration,
the three addresses and the sequence control field. -/
structure Header80211 where
  fcLow : Byte
  fcHigh : Byte
  moreFrag : Bool
  duration : BitVec 16
  addr : Bytes 18
  frag : BitVec 4
  sequence : BitVec 12

namespace Header80211

def control (h : Header80211) : Byte := h.fcHigh &&& ~~~4#8 ||| if h.moreFrag then 4#8 else 0#8

def sequenceControl (h : Header80211) : BitVec 16 := h.sequence ++ h.frag

def bytes (h : Header80211) : List Byte :=
  [h.fcLow, h.control, h.duration.extractLsb' 0 8, h.duration.extractLsb' 8 8] ++ List.ofFn h.addr ++
    [h.sequenceControl.extractLsb' 0 8, h.sequenceControl.extractLsb' 8 8]

@[simp] theorem length_bytes (h : Header80211) : h.bytes.length = 24 := by
  simp [bytes]

end Header80211

/-- The receive block of an MPDU whose payload starts `room` bytes behind its header. `behind` is the
memory in which the MPDU lies. -/
def receive (behind : ℕ → Byte) (mpdu : List Byte) (room : BitVec 8) : RxBlk :=
  let frame := copy behind 0 mpdu
  let control : BitVec 16 := frame 23 ++ frame 22
  { frame := frame
    headerRoom := room
    dataSize := BitVec.ofNat 16 (mpdu.length - room.toNat)
    sequence := control.extractLsb' 4 12
    frag := control.extractLsb' 0 4
    moreFrag := (frame 1).getLsbD 2 }

/-! ### Cutting -/

/-- What `STA_Fragment_Frame_Tx` works on: the 802.3 frame, whether it goes out as a QoS frame, the
header that `STABuildCommon802_11Header` made, the bytes that align the LLC header to four, the
threshold, and the durations of the last and of an earlier fragment, the latter by the size of the next
one. -/
structure TxBlk extends EthFrame where
  wmm : Bool
  userPriority : Byte
  header : Header80211
  hdrPad : List Byte
  fragmentThreshold : BitVec 16
  lastDuration : BitVec 16
  duration : ℕ → BitVec 16
  hdrPad_lt : hdrPad.length < 4

namespace TxBlk

variable (tx : TxBlk)

def llc : List Byte :=
  match extraLlcSnapEncap tx.outerType with
  | some encap => encap ++ tx.typeLen
  | none => []

def qos : List Byte := if tx.wmm then [tx.userPriority &&& 0x0f#8, 0#8] else []

def headerLen : ℕ := 24 + tx.qos.length

end TxBlk

/-- A fragment as it is handed to `HAL_WriteFragTxResource`. -/
structure TxFragment where
  header : Header80211
  llc : List Byte
  body : List Byte

namespace TxFragment

def data (f : TxFragment) : List Byte := f.llc ++ f.body

def mpdu (tx : TxBlk) (f : TxFragment) : List Byte := f.header.bytes ++ tx.qos ++ tx.hdrPad ++ f.data

/-- The length of the fragment in the air: the alignment is not sent, and a CRC is appended. -/
def airLength (tx : TxBlk) (f : TxFragment) : ℕ := tx.headerLen + f.data.length + 4

end TxFragment

/-- The loop over the fragments, `fuel` turns of it at most: the header with the number of the next
fragment, `MpduHeaderLen`, the encapsulation that is still to be sent and the rest of the body. The room
in a fragment is computed in 32 bits. -/
def fragmentLoop (tx : TxBlk) : ℕ → Header80211 → ℕ → List Byte → List Byte → Option (List TxFragment)
  | 0, _, _, _, _ => none
  | fuel + 1, hdr, mpduHeaderLen, llc, src =>
    let freeMpduSize := (tx.fragmentThreshold.setWidth 32 - 4#32 - BitVec.ofNat 32 mpduHeaderLen).toNat
    if src.length ≤ freeMpduSize then
      some [⟨{ hdr with moreFrag := false, duration := tx.lastDuration }, llc, src⟩]
    else
      let next := min (src.length - freeMpduSize) tx.fragmentThreshold.toNat
      let hdr' := { hdr with moreFrag := true, duration := tx.duration next }
      (fragmentLoop tx fuel { hdr' with frag := hdr'.frag + 1 } (mpduHeaderLen - llc.length) []
        (src.drop freeMpduSize)).map (⟨hdr', llc, src.take freeMpduSize⟩ :: ·)

/-- `STA_Fragment_Frame_Tx`: the fragments written, if the loop ends within `fuel` turns. -/
def staFragmentFrameTx (fuel : ℕ) (tx : TxBlk) : Option (List TxFragment) :=
  fragmentLoop tx fuel { tx.header with frag := 0 } (tx.headerLen + tx.llc.length) tx.llc tx.body

/-- A fragment received: the MPDU lies in the memory `behind`, and `fresh` is the packet buffer that is
allocated if the call asks for one, both by the number of the fragment. -/
def arrival (tx : TxBlk) (behind fresh : BitVec 4 → ℕ → Byte) (f : TxFragment) : Arrival :=
  ⟨receive (behind f.header.frag) (f.mpdu tx) (BitVec.ofNat 8 (tx.headerLen + tx.hdrPad.length)),
    some (fresh f.header.frag)⟩

/-! ### What is received of a fragment -/

theorem frame_receive (behind : ℕ → Byte) {mpdu : List Byte} {i : ℕ} (h : i < mpdu.length) :
    copy behind 0 mpdu i = mem mpdu i := by
  unfold copy
  rw [if_pos (by omega), Nat.sub_zero]

theorem length_mpdu (tx : TxBlk) (f : TxFragment) :
    (f.mpdu tx).length = tx.headerLen + tx.hdrPad.length + f.data.length := by
  unfold TxFragment.mpdu TxBlk.headerLen
  simp only [List.length_append, Header80211.length_bytes]

theorem frame_header (behind : ℕ → Byte) (tx : TxBlk) (f : TxFragment) {i : ℕ} (h : i < 24) :
    copy behind 0 (f.mpdu tx) i = mem f.header.bytes i := by
  have hlen := length_mpdu tx f
  unfold TxBlk.headerLen at hlen
  rw [frame_receive behind (by omega)]
  unfold TxFragment.mpdu
  simp only [List.append_assoc]
  exact mem_append_left _ (by rw [Header80211.length_bytes]; exact h)

section Received

variable (tx : TxBlk) (behind fresh : BitVec 4 → ℕ → Byte) (f : TxFragment)

theorem sequenceControl_received :
    (copy (behind f.header.frag) 0 (f.mpdu tx) 23 ++ copy (behind f.header.frag) 0 (f.mpdu tx) 22 :
      BitVec 16) = f.header.sequenceControl := by
  rw [frame_header _ tx f (by decide), frame_header _ tx f (by decide)]
  exact BitVec.extractLsb'_append_extractLsb'

theorem sequence_arrival : (arrival tx behind fresh f).rx.sequence = f.header.sequence := by
  show BitVec.extractLsb' 4 12 (_ ++ _ : BitVec 16) = _
  rw [sequenceControl_received]
  exact BitVec.extractLsb'_append_eq_left

theorem frag_arrival : (arrival tx behind fresh f).rx.frag = f.header.frag := by
  show BitVec.extractLsb' 0 4 (_ ++ _ : BitVec 16) = _
  rw [sequenceControl_received]
  exact BitVec.extractLsb'_append_eq_right

theorem moreFrag_arrival : (arrival tx behind fresh f).rx.moreFrag = f.header.moreFrag := by
  show (copy (behind f.header.frag) 0 (f.mpdu tx) 1).getLsbD 2 = _
  rw [frame_header _ tx f (by decide)]
  show f.header.control.getLsbD 2 = _
  unfold Header80211.control
  cases f.header.moreFrag <;> simp

theorem headerRoom_toNat : (arrival tx behind fresh f).rx.headerRoom.toNat = tx.headerLen + tx.hdrPad.length := by
  have hpad := tx.hdrPad_lt
  have hqos : tx.qos.length ≤ 2 := by
    unfold TxBlk.qos
    split <;> simp
  show (BitVec.ofNat 8 (tx.headerLen + tx.hdrPad.length)).toNat = _
  unfold TxBlk.headerLen
  rw [BitVec.toNat_ofNat]
  omega

theorem dataSize_arrival (h : f.data.length < 65536) :
    (arrival tx behind fresh f).rx.dataSize.toNat = f.data.length := by
  have hroom := headerRoom_toNat tx behind fresh f
  show (BitVec.ofNat 16 ((f.mpdu tx).length - (arrival tx behind fresh f).rx.headerRoom.toNat)).toNat = _
  rw [hroom, length_mpdu, BitVec.toNat_ofNat]
  omega

theorem payload_arrival (h : f.data.length < 65536) : (arrival tx behind fresh f).rx.payload = f.data := by
  have hread := read_copy_append (behind f.header.frag) 0 (f.mpdu tx)
  rw [Nat.zero_add, length_mpdu, read_add] at hread
  change _ = [] ++ f.mpdu tx at hread
  unfold Packet.payload
  rw [dataSize_arrival tx behind fresh f h, headerRoom_toNat]
  have hsplit : f.mpdu tx = (f.header.bytes ++ tx.qos ++ tx.hdrPad) ++ f.data := rfl
  rw [List.nil_append, hsplit] at hread
  refine (List.append_inj hread ?_).2
  rw [length_read]
  unfold TxBlk.headerLen
  simp only [List.length_append, Header80211.length_bytes]

end Received

/-! ### The receiver on a train of fragments -/

/-- The packets that the calls `as` return. -/
def returnedBy (s : FragFrame) : List Arrival → List Packet
  | [] => []
  | a :: as => (rtmpDeFragmentDataFrame s a).2.toList ++ returnedBy (rtmpDeFragmentDataFrame s a).1 as

/-- One of the fragments that follow fragment 0, with number `n`. -/
structure Follows (sequence : BitVec 12) (room : BitVec 8) (n : ℕ) (a : Arrival) : Prop where
  sequence : a.rx.sequence = sequence
  frag : a.rx.frag.toNat = n
  room : a.rx.headerRoom = room
  llc : ¬ a.rx.BeginsWithLlc
  buffer : a.newFragPacket.isSome = true

/-- The fragments from number `n` on, up to the last. -/
inductive Train (sequence : BitVec 12) (room : BitVec 8) : ℕ → List Arrival → Prop
  | last {n : ℕ} {a : Arrival} (h : Follows sequence room n a) (hm : a.rx.moreFrag = false) :
      Train sequence room n [a]
  | more {n : ℕ} {a : Arrival} {as : List Arrival} (h : Follows sequence room n a)
      (hm : a.rx.moreFrag = true) (hrest : Train sequence room (n + 1) as) :
      Train sequence room n (a :: as)

theorem Follows.appends {s : FragFrame} {room : BitVec 8} {a : Arrival}
    (h : Follows s.sequence room (s.lastFrag + 1) a)
    (hsize : s.rxSize + a.rx.dataSize.toNat ≤ maxFrameSize) : Appends s a.rx := by
  refine ⟨⟨?_, h.sequence, h.frag⟩, hsize, h.llc⟩
  intro h0
  have := h.frag
  rw [h0] at this
  simp at this

theorem defragment_more {s : FragFrame} {a : Arrival} (h : Appends s a.rx)
    (hm : a.rx.moreFrag = true) : rtmpDeFragmentDataFrame s a = (s.append a.rx, none) := by
  obtain ⟨⟨h0, hseq, hfrag⟩, hsize, hllc⟩ := h
  simp only [rtmpDeFragmentDataFrame, if_neg h0, hseq, hfrag, hm, if_neg hllc]
  simp [FragFrame.append, hfrag, Nat.not_lt.2 hsize]

theorem defragment_last {s : FragFrame} {a : Arrival} (h : Appends s a.rx)
    (hm : a.rx.moreFrag = false) (hb : a.newFragPacket.isSome = true) :
    (rtmpDeFragmentDataFrame s a).2 = some ((s.append a.rx).packet a.rx) := by
  obtain ⟨m, hm'⟩ := Option.isSome_iff_exists.1 hb
  obtain ⟨⟨h0, hseq, hfrag⟩, hsize, hllc⟩ := h
  simp only [rtmpDeFragmentDataFrame, if_neg h0, hseq, hfrag, hm, if_neg hllc, hm']
  simp [FragFrame.append, FragFrame.packet, hfrag, Nat.not_lt.2 hsize]

/-- **The receiver on a train**: behind what was collected, the fragments up to the last yield one
packet, and it is made of all of them. -/
theorem returnedBy_train {s : FragFrame} {f0 : RxBlk} {fs : List RxBlk} {as : List Arrival}
    (hc : Collected s f0 fs) (ht : Train s.sequence f0.headerRoom (s.lastFrag + 1) as)
    (hsize : s.rxSize + (as.map fun a => a.rx.dataSize.toNat).sum ≤ maxFrameSize) :
    ∃ p, returnedBy s as = [p] ∧ IsReassembly (fs ++ as.map Arrival.rx) p := by
  induction as generalizing s fs with
  | nil => cases ht
  | cons a as ih =>
    rw [List.map_cons, List.sum_cons] at hsize
    cases ht with
    | last h hm =>
      have happ := h.appends (by omega)
      refine ⟨(s.append a.rx).packet a.rx, ?_, hc.isReassembly happ hm h.room⟩
      simp [returnedBy, defragment_last happ hm h.buffer]
    | more h hm hrest =>
      have happ := h.appends (by omega)
      obtain ⟨p, hp, hre⟩ := ih (hc.append happ hm)
        (by
          show Train s.sequence f0.headerRoom (a.rx.frag.toNat + 1) as
          rw [h.frag]
          exact hrest)
        (by
          show s.rxSize + a.rx.dataSize.toNat + _ ≤ maxFrameSize
          omega)
      refine ⟨p, ?_, ?_⟩
      · rw [returnedBy, defragment_more happ hm]
        exact hp
      · rw [List.map_cons, ← List.singleton_append, ← List.append_assoc]
        exact hre

/-! ### What the sender cuts -/

/-- The fragments `frs` of the data `llc ++ src`, the first of them under the number `n`. -/
inductive Cut (sequence : BitVec 12) : BitVec 4 → List Byte → List TxFragment → Prop
  | last {n : BitVec 4} {f : TxFragment} (hs : f.header.sequence = sequence) (hn : f.header.frag = n)
      (hm : f.header.moreFrag = false) : Cut sequence n f.data [f]
  | more {n : BitVec 4} {f : TxFragment} {rest : List Byte} {frs : List TxFragment}
      (hs : f.header.sequence = sequence) (hn : f.header.frag = n) (hm : f.header.moreFrag = true)
      (hrest : Cut sequence (n + 1) rest frs) : Cut sequence n (f.data ++ rest) (f :: frs)

theorem cut_fragmentLoop (tx : TxBlk) {fuel : ℕ} {hdr : Header80211} {len : ℕ} {llc src : List Byte}
    {frs : List TxFragment} (h : fragmentLoop tx fuel hdr len llc src = some frs) :
    Cut hdr.sequence hdr.frag (llc ++ src) frs := by
  induction fuel generalizing hdr len llc src frs with
  | zero => cases h
  | succ fuel ih =>
    simp only [fragmentLoop] at h
    split_ifs at h with hlast
    · cases h
      exact Cut.last (f := ⟨_, llc, src⟩) rfl rfl rfl
    · obtain ⟨rest, hrest, rfl⟩ := Option.map_eq_some_iff.1 h
      generalize (tx.fragmentThreshold.setWidth 32 - 4#32 - BitVec.ofNat 32 len).toNat = free at hrest ⊢
      have htail := ih hrest
      rw [List.nil_append] at htail
      have hcut := Cut.more (f := ⟨{ hdr with
        moreFrag := true
        duration := tx.duration (min (src.length - free) tx.fragmentThreshold.toNat) }, llc,
          src.take free⟩) rfl rfl rfl htail
      unfold TxFragment.data at hcut
      rwa [List.append_assoc, List.take_append_drop] at hcut

namespace Cut

variable {sequence : BitVec 12} {n : BitVec 4} {data : List Byte} {frs : List TxFragment}

theorem flatMap_data (h : Cut sequence n data frs) : frs.flatMap TxFragment.data = data := by
  induction h with
  | last hs hn hm => simp
  | more hs hn hm hrest ih => simp [ih]

theorem sequence_eq (h : Cut sequence n data frs) : ∀ f ∈ frs, f.header.sequence = sequence := by
  induction h with
  | last hs hn hm => simpa using hs
  | more hs hn hm hrest ih => simpa using ⟨hs, ih⟩

theorem moreFrag_eq (h : Cut sequence n data frs) :
    ∃ k, frs.map (fun f => f.header.moreFrag) = List.replicate k true ++ [false] := by
  induction h with
  | last hs hn hm => exact ⟨0, by simp [hm]⟩
  | more hs hn hm hrest ih =>
    obtain ⟨k, hk⟩ := ih
    exact ⟨k + 1, by rw [List.map_cons, hk, hm]; rfl⟩

theorem frag_eq (h : Cut sequence n data frs) (hle : n.toNat + frs.length ≤ 16) :
    frs.map (fun f => f.header.frag.toNat) = List.range' n.toNat frs.length := by
  induction h with
  | last hs hn hm => simp [hn]
  | @more n f rest frs hs hn hm hrest ih =>
    rw [List.length_cons] at hle ⊢
    have hpos : 0 < frs.length := by
      cases hrest <;> simp
    have hnext : (n + 1).toNat = n.toNat + 1 := by
      rw [BitVec.toNat_add]
      show (n.toNat + 1) % 16 = n.toNat + 1
      omega
    rw [hnext] at ih
    rw [List.map_cons, ih (by omega), hn]
    rfl

theorem train (tx : TxBlk) (behind fresh : BitVec 4 → ℕ → Byte) (h : Cut sequence n data frs)
    (hle : n.toNat + frs.length ≤ 16) (hllc : ∀ f ∈ frs, ¬ (arrival tx behind fresh f).rx.BeginsWithLlc) :
    Train sequence (BitVec.ofNat 8 (tx.headerLen + tx.hdrPad.length)) n.toNat
      (frs.map (arrival tx behind fresh)) := by
  have hfollows : ∀ f : TxFragment, f.header.sequence = sequence →
      ¬ (arrival tx behind fresh f).rx.BeginsWithLlc →
      Follows sequence (BitVec.ofNat 8 (tx.headerLen + tx.hdrPad.length)) f.header.frag.toNat
        (arrival tx behind fresh f) := by
    intro f hs hn
    exact ⟨by rw [sequence_arrival, hs], by rw [frag_arrival], rfl, hn, rfl⟩
  induction h with
  | @last n f hs hn hm =>
    subst hn
    refine .last (hfollows f hs (hllc f (by simp))) ?_
    rw [moreFrag_arrival, hm]
  | @more n f rest frs hs hn hm hrest ih =>
    subst hn
    rw [List.length_cons] at hle
    have hpos : 0 < frs.length := by
      cases hrest <;> simp
    have hnext : (f.header.frag + 1).toNat = f.header.frag.toNat + 1 := by
      rw [BitVec.toNat_add]
      show (f.header.frag.toNat + 1) % 16 = f.header.frag.toNat + 1
      omega
    rw [hnext] at ih
    refine .more (hfollows f hs (hllc f (by simp))) ?_ (ih (by omega) fun g hg => hllc g (by simp [hg]))
    rw [moreFrag_arrival, hm]

end Cut

theorem sum_dataSize (tx : TxBlk) (behind fresh : BitVec 4 → ℕ → Byte) (frs : List TxFragment)
    (h : (frs.flatMap TxFragment.data).length < 65536) :
    ((frs.map (arrival tx behind fresh)).map fun a => a.rx.dataSize.toNat).sum =
      (frs.flatMap TxFragment.data).length := by
  induction frs with
  | nil => rfl
  | cons f frs ih =>
    rw [List.flatMap_cons, List.length_append] at h ⊢
    rw [List.map_cons, List.map_cons, List.sum_cons, ih (by omega), dataSize_arrival _ _ _ f (by omega)]

theorem flatMap_payload (tx : TxBlk) (behind fresh : BitVec 4 → ℕ → Byte) (frs : List TxFragment)
    (h : (frs.flatMap TxFragment.data).length < 65536) :
    ((frs.map (arrival tx behind fresh)).map Arrival.rx).flatMap (fun rx => rx.payload) =
      frs.flatMap TxFragment.data := by
  induction frs with
  | nil => rfl
  | cons f frs ih =>
    rw [List.flatMap_cons, List.length_append] at h
    rw [List.map_cons, List.map_cons, List.flatMap_cons, ih (by omega),
      payload_arrival _ _ _ f (by omega), List.flatMap_cons]

/-- **Fragments stay under the threshold** if it leaves room for the headers of the first. -/
theorem airLength_le (tx : TxBlk) {fuel : ℕ} {hdr : Header80211} {llc src : List Byte}
    {frs : List TxFragment} (hroom : tx.headerLen + llc.length + 4 ≤ tx.fragmentThreshold.toNat)
    (h : fragmentLoop tx fuel hdr (tx.headerLen + llc.length) llc src = some frs) :
    ∀ f ∈ frs, f.airLength tx ≤ tx.fragmentThreshold.toNat := by
  induction fuel generalizing hdr llc src frs with
  | zero => cases h
  | succ fuel ih =>
    have hlt := tx.fragmentThreshold.isLt
    have hfree : (tx.fragmentThreshold.setWidth 32 - 4#32 -
        BitVec.ofNat 32 (tx.headerLen + llc.length)).toNat =
        tx.fragmentThreshold.toNat - 4 - (tx.headerLen + llc.length) := by
      simp only [BitVec.toNat_sub, BitVec.toNat_setWidth, BitVec.toNat_ofNat]
      omega
    simp only [fragmentLoop, hfree] at h
    split_ifs at h with hlast
    · cases h
      intro f hf
      rw [List.mem_singleton.1 hf]
      simp only [TxFragment.airLength, TxFragment.data, List.length_append]
      omega
    · obtain ⟨rest, hrest, rfl⟩ := Option.map_eq_some_iff.1 h
      intro f hf
      rcases List.mem_cons.1 hf with rfl | hf
      · simp only [TxFragment.airLength, TxFragment.data, List.length_append, List.length_take]
        omega
      · rw [Nat.add_sub_cancel] at hrest
        have hnil : tx.headerLen = tx.headerLen + ([] : List Byte).length := rfl
        rw [hnil] at hrest
        exact ih (by rw [List.length_nil]; omega) hrest f hf

/-! ### The round trip -/

/-- The marks of a fragmented MSDU: the fragments are numbered from 0, carry the sequence number of the
MSDU, and all but the last announce another. -/
structure Marked (tx : TxBlk) (frs : List TxFragment) : Prop where
  moreFrag : ∃ k, frs.map (fun f => f.header.moreFrag) = List.replicate k true ++ [false]
  numbers : frs.map (fun f => f.header.frag.toNat) = List.range frs.length
  sequence : ∀ f ∈ frs, f.header.sequence = tx.header.sequence

/-- From a reset block, the fragments received in order return one packet, and it holds the
encapsulation and the body of the MSDU. -/
def OnePacket (tx : TxBlk) (frs : List TxFragment) (m : ℕ → Byte)
    (behind fresh : BitVec 4 → ℕ → Byte) : Prop :=
  ∃ p, returnedBy (.init m) (frs.map (arrival tx behind fresh)) = [p] ∧ p.payload = tx.llc ++ tx.body

structure RoundTrip (tx : TxBlk) (frs : List TxFragment) (m : ℕ → Byte)
    (behind fresh : BitVec 4 → ℕ → Byte) : Prop extends Marked tx frs where
  onePacket : OnePacket tx frs m behind fresh
  threshold : ∀ f ∈ frs, f.airLength tx ≤ tx.fragmentThreshold.toNat

theorem marked_of_fragments {tx : TxBlk} {fuel : ℕ} {frs : List TxFragment}
    (h : staFragmentFrameTx fuel tx = some frs) (hle : frs.length ≤ 16) : Marked tx frs where
  moreFrag := (cut_fragmentLoop tx h).moreFrag_eq
  numbers := by
    rw [(cut_fragmentLoop tx h).frag_eq (by simpa using hle), List.range_eq_range']
    rfl
  sequence := (cut_fragmentLoop tx h).sequence_eq

theorem defragment_first (s : FragFrame) {a : Arrival} (h : a.rx.frag = 0)
    (hm : a.rx.moreFrag = true) : rtmpDeFragmentDataFrame s a = (s.start a.rx, none) := by
  simp only [rtmpDeFragmentDataFrame, if_pos hm, h]
  rfl

theorem onePacket_of_fragments {tx : TxBlk} {fuel : ℕ} {frs : List TxFragment} (m : ℕ → Byte)
    (behind fresh : BitVec 4 → ℕ → Byte) (h : staFragmentFrameTx fuel tx = some frs)
    (hle : frs.length ≤ 16) (htwo : 2 ≤ frs.length)
    (hllc : ∀ f ∈ frs.tail, ¬ (arrival tx behind fresh f).rx.BeginsWithLlc)
    (hsize : tx.headerLen + tx.hdrPad.length + tx.llc.length + tx.body.length ≤ maxFrameSize) :
    OnePacket tx frs m behind fresh := by
  have hcut := cut_fragmentLoop tx h
  have hdata := hcut.flatMap_data
  have hlen : (frs.flatMap TxFragment.data).length = tx.llc.length + tx.body.length := by
    rw [hdata, List.length_append]
  have hsum := sum_dataSize tx behind fresh frs (by unfold maxFrameSize at hsize; omega)
  have hpay := flatMap_payload tx behind fresh frs (by unfold maxFrameSize at hsize; omega)
  rw [hdata] at hpay
  rw [hlen] at hsum
  unfold OnePacket
  clear hdata h
  generalize tx.llc ++ tx.body = data at hcut hpay ⊢
  cases hcut with
  | last hs hn hm => simp at htwo
  | @more _ f _ frs hs hn hm hrest =>
    rw [List.length_cons] at hle
    have ht := hrest.train tx behind fresh (by simpa [Nat.add_comm] using hle) hllc
    have hfrag : (arrival tx behind fresh f).rx.frag = 0 := by rw [frag_arrival, hn]
    have hmore : (arrival tx behind fresh f).rx.moreFrag = true := by rw [moreFrag_arrival, hm]
    have hc := Collected.start (.init m) hfrag hmore
    have hseq : tx.header.sequence = (arrival tx behind fresh f).rx.sequence := by
      rw [sequence_arrival, hs]
    rw [List.map_cons, List.map_cons, List.sum_cons] at hsum
    obtain ⟨p, hp, hre⟩ := returnedBy_train hc
      (by
        show Train (arrival tx behind fresh f).rx.sequence _ (0 + 1) _
        rw [← hseq]
        exact ht)
      (by
        show (arrival tx behind fresh f).rx.headerRoom.toNat + _ + _ ≤ maxFrameSize
        rw [headerRoom_toNat]
        omega)
    refine ⟨p, ?_, ?_⟩
    · rw [List.map_cons, returnedBy, defragment_first _ hfrag hmore]
      exact hp
    · rw [hre.payload, ← hpay]
      rfl

theorem returnedBy_single {tx : TxBlk} {fuel : ℕ} {frs : List TxFragment} (m : ℕ → Byte)
    (behind fresh : BitVec 4 → ℕ → Byte) (h : staFragmentFrameTx fuel tx = some frs)
    (hone : frs.length = 1) : returnedBy (.init m) (frs.map (arrival tx behind fresh)) = [] := by
  have hcut := cut_fragmentLoop tx h
  clear h
  generalize tx.llc ++ tx.body = data at hcut
  cases hcut with
  | @last _ f hs hn hm =>
    have hfrag : (arrival tx behind fresh f).rx.frag = 0 := by rw [frag_arrival, hn]
    have hmore : (arrival tx behind fresh f).rx.moreFrag = false := by rw [moreFrag_arrival, hm]
    simp [returnedBy, rtmpDeFragmentDataFrame, hfrag, hmore]
  | more hs hn hm hrest =>
    cases hrest <;> simp at hone

/-- **The round trip of a fragmented MSDU.** Two to sixteen fragments of an MSDU that the receiver's
buffer limit admits come out as one packet; the marks are right and the threshold is kept. -/
theorem roundTrip_of_fragments {tx : TxBlk} {fuel : ℕ} {frs : List TxFragment} (m : ℕ → Byte)
    (behind fresh : BitVec 4 → ℕ → Byte) (h : staFragmentFrameTx fuel tx = some frs) (hle : frs.length ≤ 16)
    (hllc : ∀ f ∈ frs.tail, ¬ (arrival tx behind fresh f).rx.BeginsWithLlc) :
    Marked tx frs ∧
      (tx.headerLen + tx.llc.length + 4 ≤ tx.fragmentThreshold.toNat →
        ∀ f ∈ frs, f.airLength tx ≤ tx.fragmentThreshold.toNat) ∧
      (2 ≤ frs.length →
        tx.headerLen + tx.hdrPad.length + tx.llc.length + tx.body.length ≤ maxFrameSize →
        OnePacket tx frs m behind fresh) ∧
      (frs.length = 1 → returnedBy (.init m) (frs.map (arrival tx behind fresh)) = []) :=
  ⟨marked_of_fragments h hle, fun hroom => airLength_le tx hroom h,
    fun htwo hsize => onePacket_of_fragments m behind fresh h hle htwo hllc hsize,
    returnedBy_single m behind fresh h⟩

def sampleMsdu (n : ℕ) (threshold : BitVec 16) : TxBlk where
  bytes := List.replicate 12 0x11#8 ++ [0x08#8, 0x00#8] ++ List.replicate n 0x22#8
  vlan := false
  wmm := true
  userPriority := 0
  header := ⟨0x88#8, 0x01#8, false, 0, fun _ => 0x33#8, 0, 5⟩
  hdrPad := [0, 0]
  fragmentThreshold := threshold
  lastDuration := 0
  duration := fun _ => 0
  length_ge := by simp
  hdrPad_lt := by decide

def sampleFragments (n : ℕ) (threshold : BitVec 16) : List TxFragment :=
  (staFragmentFrameTx 16 (sampleMsdu n threshold)).getD []

theorem roundTrip_sampleMsdu :
    (sampleFragments 50 56).length = 3 ∧
      OnePacket (sampleMsdu 50 56) (sampleFragments 50 56) (mem []) (fun _ => mem [])
        (fun _ => mem []) :=
  have h : staFragmentFrameTx 16 (sampleMsdu 50 56) = some (sampleFragments 50 56) := rfl
  ⟨by decide, (roundTrip_of_fragments (mem []) _ _ h (by decide) (by decide)).2.2.1 (by decide)
    (by decide)⟩

set_option maxRecDepth 16000 in
/-- A packet that goes out in one piece is not returned, and neither is one that does not fit
`MAX_FRAME_SIZE` with its header. -/
theorem not_roundTrip_sampleMsdu :
    (staFragmentFrameTx 16 (sampleMsdu 10 256) = some (sampleFragments 10 256) ∧
      (sampleFragments 10 256).length ≤ 16 ∧
      (∀ f ∈ (sampleFragments 10 256).tail,
        ¬ (arrival (sampleMsdu 10 256) (fun _ => mem []) (fun _ => mem []) f).rx.BeginsWithLlc) ∧
      ¬ RoundTrip (sampleMsdu 10 256) (sampleFragments 10 256) (mem []) (fun _ => mem [])
        (fun _ => mem [])) ∧
    (staFragmentFrameTx 16 (sampleMsdu 2400 2346) = some (sampleFragments 2400 2346) ∧
      (sampleFragments 2400 2346).length ≤ 16 ∧
      (∀ f ∈ (sampleFragments 2400 2346).tail,
        ¬ (arrival (sampleMsdu 2400 2346) (fun _ => mem []) (fun _ => mem []) f).rx.BeginsWithLlc) ∧
      ¬ RoundTrip (sampleMsdu 2400 2346) (sampleFragments 2400 2346) (mem []) (fun _ => mem [])
        (fun _ => mem [])) := by
  have hnone : ∀ n threshold, (returnedBy (.init (mem [])) ((sampleFragments n threshold).map
      (arrival (sampleMsdu n threshold) (fun _ => mem []) (fun _ => mem [])))).length = 0 →
      ¬ RoundTrip (sampleMsdu n threshold) (sampleFragments n threshold) (mem []) (fun _ => mem [])
        (fun _ => mem []) := by
    intro n threshold hlen hrt
    obtain ⟨p, hp, -⟩ := hrt.onePacket
    rw [hp] at hlen
    cases hlen
  refine ⟨⟨rfl, by decide, by decide, hnone _ _ (by decide)⟩, ?_⟩
  have hsome : (staFragmentFrameTx 16 (sampleMsdu 2400 2346)).isSome = true := by decide
  obtain ⟨frs, hfrs⟩ := Option.isSome_iff_exists.1 hsome
  have heq : staFragmentFrameTx 16 (sampleMsdu 2400 2346) = some (sampleFragments 2400 2346) := by
    unfold sampleFragments
    rw [hfrs]
    rfl
  exact ⟨heq, by decide, by decide, hnone _ _ (by decide)⟩

end Mt7610u.Data
