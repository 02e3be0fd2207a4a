import Mt7610u.Data.Amsdu

/-! # Ralink aggregation: the round trip, and bodies of any content

`staARalinkFrameTx`, which puts two 802.3 frames into the body of one MPDU, and
`cmmRxRalinkFrameIndicate`, which takes such a body apart. The addresses of the first frame are not in
the body: they travel in the 802.11 header. -/

namespace Mt7610u.Data.Aralink

open Lib Amsdu

/-! ### The sender -/

def untagged (f : EthFrame) : List Byte := f.addresses ++ f.typeLen ++ f.body

/-- `nextBufLen`, the length of the second packet without its tag. -/
def nextBufLen (g : EthFrame) : ℕ := g.bytes.length - g.vlanSize

/-- The body that `STA_ARalink_Frame_Tx` writes: behind the 802.11 header the length of the second
frame, little-endian, the first frame with its LLC/SNAP header, and the second with its 802.3 header. -/
def staARalinkFrameTx (f g : EthFrame) : List Byte :=
  [(BitVec.ofNat 16 (nextBufLen g)).extractLsb' 0 8, (BitVec.ofNat 16 (nextBufLen g)).extractLsb' 8 8] ++
    (data f ++ untagged g)

/-! ### The receiver -/

/-- `CONVERT_TO_802_3` on the `size` bytes at `m`, for these addresses: the 802.3 header, and whether the
LLC/SNAP header is removed. The eight bytes compared are read also where the payload is shorter. -/
def convert8023 (addresses : List Byte) (m : ℕ → Byte) (size : BitVec 16) : List Byte × Bool :=
  let snap := Lib.read m 6
  let proto := readAt m 6 2
  let llcLen := [size.extractLsb' 8 8, size.extractLsb' 0 8]
  if snap = snap8021h ∨ snap = snapBridgeTunnel then
    if (proto = ipx ∨ proto = appleTalk) ∧ snap = snap8021h then (addresses ++ llcLen, false)
    else (addresses ++ proto, true)
  else (addresses ++ llcLen, false)

/-- A packet that is announced: `len` bytes of the body from `off` on, and all that the OS is given. -/
structure Announcement where
  off : ℕ
  len : ℕ
  bytes : List Byte

section Receiver

variable (m : ℕ → Byte) (dataSize : BitVec 16)

def msdu2Size : BitVec 16 := m 1 ++ m 0

/-- The test at the head of `CmmRxRalinkFrameIndicate`. -/
def Accepted : Prop := (msdu2Size m).toNat ≤ 1536 ∧ msdu2Size m < dataSize

instance : Decidable (Accepted m dataSize) := by unfold Accepted; infer_instance

def Removed : Prop := (convert8023 [] (fun i => m (2 + i)) 0).2 = true

instance : Decidable (Removed m) := by unfold Removed; infer_instance

def front : ℕ := if Removed m then 10 else 2

/-- `DataSize` behind the length field and the conversion. -/
def convertedSize : BitVec 16 := if Removed m then dataSize - 2 - 8 else dataSize - 2

def payload1Size : BitVec 16 := convertedSize m dataSize - msdu2Size m

def payload2Size : BitVec 16 := msdu2Size m - 14

/-- `pData2`, the second payload. -/
def pData2 : ℕ := front m + (payload1Size m dataSize).toNat + 14

/-- `CmmRxRalinkFrameIndicate` on the `dataSize` bytes at `m`, with the addresses of the 802.11 header:
the packets that it announces. `dup` says whether `duplicate_pkt` gets memory. -/
def cmmRxRalinkFrameIndicate (dup : Bool) (addresses : List Byte) : List Announcement :=
  if Accepted m dataSize then
    let header := (convert8023 addresses (fun i => m (2 + i)) (dataSize - 2)).1
    if dup then
      [⟨front m, (payload1Size m dataSize).toNat,
          header ++ readAt m (front m) (payload1Size m dataSize).toNat⟩,
        ⟨pData2 m dataSize - 14, 14 + (payload2Size m).toNat,
          readAt m (pData2 m dataSize - 14) 14 ++ readAt m (pData2 m dataSize) (payload2Size m).toNat⟩]
    else []
  else []

end Receiver

theorem convert8023_of_not_removed {m : ℕ → Byte} (h : ¬ Removed m) (addresses : List Byte) (size : BitVec 16) :
    convert8023 addresses (fun i => m (2 + i)) size =
      (addresses ++ [size.extractLsb' 8 8, size.extractLsb' 0 8], false) := by
  revert h
  unfold Removed convert8023
  simp only []
  split_ifs
  · exact fun _ => rfl
  · exact fun h => absurd rfl h
  · exact fun _ => rfl

theorem length_convert8023 (addresses : List Byte) (m : ℕ → Byte) (size : BitVec 16) :
    (convert8023 addresses m size).1.length = addresses.length + 2 := by
  unfold convert8023
  simp only []
  split_ifs <;> simp

/-! ### Safety -/

/-- A received body is handled safely: if it passes the test, neither payload size wraps, and the packets
announced lie inside it. -/
structure Safe (dup : Bool) (addresses : List Byte) (m : ℕ → Byte) (dataSize : BitVec 16) : Prop where
  payload1 : Accepted m dataSize → ((payload1Size m dataSize).toNat : ℤ) =
    dataSize.toNat - front m - (msdu2Size m).toNat
  payload2 : Accepted m dataSize → ((payload2Size m).toNat : ℤ) = (msdu2Size m).toNat - 14
  inside : ∀ p ∈ cmmRxRalinkFrameIndicate m dataSize dup addresses, p.off + p.len ≤ dataSize.toNat

/-- Both frames have room: the second has an 802.3 header, and what is in front of the first is not part
of the second. -/
def RoomForTwo (m : ℕ → Byte) (dataSize : BitVec 16) : Prop :=
  14 ≤ (msdu2Size m).toNat ∧ front m + (msdu2Size m).toNat ≤ dataSize.toNat

section Safety

variable {m : ℕ → Byte} {dataSize : BitVec 16}

theorem front_le : 2 ≤ front m ∧ front m ≤ 10 := by
  unfold front
  split <;> omega

theorem toNat_payload1Size : (payload1Size m dataSize).toNat =
    (dataSize.toNat + (65536 - front m) + (65536 - (msdu2Size m).toNat)) % 65536 := by
  have h2 := (msdu2Size m).isLt
  have hd := dataSize.isLt
  unfold payload1Size convertedSize front
  split
  · rw [BitVec.toNat_sub, BitVec.toNat_sub, BitVec.toNat_sub]
    show (65536 - _ + (65536 - 8 + (65536 - 2 + dataSize.toNat) % 65536) % 65536) % 65536 = _
    omega
  · rw [BitVec.toNat_sub, BitVec.toNat_sub]
    show (65536 - _ + (65536 - 2 + dataSize.toNat) % 65536) % 65536 = _
    omega

theorem toNat_payload2Size : (payload2Size m).toNat = ((msdu2Size m).toNat + (65536 - 14)) % 65536 := by
  unfold payload2Size
  rw [BitVec.toNat_sub]
  show (65536 - 14 + (msdu2Size m).toNat) % 65536 = _
  omega

theorem payload1Size_eq_iff (h : Accepted m dataSize) :
    ((payload1Size m dataSize).toNat : ℤ) = dataSize.toNat - front m - (msdu2Size m).toNat ↔
      front m + (msdu2Size m).toNat ≤ dataSize.toNat := by
  have hf := front_le (m := m)
  have h2 : (msdu2Size m).toNat < dataSize.toNat := h.2
  have hd := dataSize.isLt
  rw [toNat_payload1Size]
  omega

theorem payload2Size_eq_iff :
    ((payload2Size m).toNat : ℤ) = (msdu2Size m).toNat - 14 ↔ 14 ≤ (msdu2Size m).toNat := by
  have h2 := (msdu2Size m).isLt
  rw [toNat_payload2Size]
  omega

theorem safe_iff_room (dup : Bool) (addresses : List Byte) :
    Safe dup addresses m dataSize ↔ (Accepted m dataSize → RoomForTwo m dataSize) := by
  constructor
  · intro h hacc
    exact ⟨payload2Size_eq_iff.1 (h.payload2 hacc), (payload1Size_eq_iff hacc).1 (h.payload1 hacc)⟩
  · intro h
    refine ⟨fun hacc => (payload1Size_eq_iff hacc).2 (h hacc).2,
      fun hacc => payload2Size_eq_iff.2 (h hacc).1, ?_⟩
    intro p hp
    unfold cmmRxRalinkFrameIndicate at hp
    by_cases hacc : Accepted m dataSize
    · obtain ⟨h14, hroom⟩ := h hacc
      have h1 := (payload1Size_eq_iff hacc).2 hroom
      have h2 := payload2Size_eq_iff.2 h14
      rw [if_pos hacc] at hp
      by_cases hdup : dup = true
      · simp only [hdup, if_true, List.mem_cons, List.not_mem_nil, or_false] at hp
        obtain rfl | rfl := hp
        · simp only
          omega
        · simp only [pData2]
          omega
      · rw [if_neg hdup] at hp
        exact absurd hp List.not_mem_nil
    · rw [if_neg hacc] at hp
      exact absurd hp List.not_mem_nil

end Safety

/-! ### A body that the sender wrote -/

theorem length_untagged (f : EthFrame) : (untagged f).length = 14 + f.body.length := by
  unfold untagged
  rw [List.length_append, List.length_append, f.length_addresses, f.length_typeLen]

theorem nextBufLen_eq (g : EthFrame) : nextBufLen g = (untagged g).length := by
  have h := g.length_body
  unfold nextBufLen
  rw [length_untagged]
  omega

theorem length_staARalinkFrameTx (f g : EthFrame) :
    (staARalinkFrameTx f g).length = 2 + (data f).length + nextBufLen g := by
  unfold staARalinkFrameTx
  rw [List.length_append, List.length_append, nextBufLen_eq, Nat.add_assoc]
  rfl

section Written

variable {m : ℕ → Byte} {f g : EthFrame} (hm : Holds m (staARalinkFrameTx f g))
include hm

theorem msdu2Size_written : msdu2Size m = BitVec.ofNat 16 (nextBufLen g) := by
  have hread := (holds_append.1 hm).1
  have h0 : m 0 = (BitVec.ofNat 16 (nextBufLen g)).extractLsb' 0 8 := congrArg (List.getD · 0 0) hread
  have h1 : m 1 = (BitVec.ofNat 16 (nextBufLen g)).extractLsb' 8 8 := congrArg (List.getD · 1 0) hread
  unfold msdu2Size
  rw [h0, h1]
  exact BitVec.extractLsb'_append_extractLsb'

theorem holds_frames : Holds (fun i => m (2 + i)) (data f ++ untagged g) := (holds_append.1 hm).2

theorem read_second {off : ℕ} (h : off = 2 + (data f).length) : readAt m off (14 + g.body.length) = untagged g := by
  have hg := (holds_append.1 (holds_frames hm)).2
  unfold Holds at hg
  rw [length_untagged] at hg
  subst h
  rw [← readAt_shift]
  exact hg

theorem convert_of_type (addresses : List Byte) (size : BitVec 16) (ht : 1500 < bigEndian f.typeLen) :
    convert8023 addresses (fun i => m (2 + i)) size = (addresses ++ f.typeLen, true) := by
  obtain ⟨e, he, hllc, hlen⟩ := llc_of_type ht
  have hd := (holds_append.1 (holds_frames hm)).1
  unfold data at hd
  rw [hllc, List.append_assoc] at hd
  obtain ⟨hsnap, htail⟩ := holds_append.1 hd
  have hproto := (holds_append.1 htail).1
  unfold Holds at hsnap hproto
  rw [hlen] at hsnap hproto
  rw [f.length_typeLen] at hproto
  have hproto' : readAt (fun i => m (2 + i)) 6 2 = f.typeLen := hproto
  unfold convert8023
  simp only [hsnap, hproto']
  unfold extraLlcSnapEncap at he
  rw [if_pos ht] at he
  split_ifs at he with hspecial
  · cases he
    rw [if_pos (Or.inr rfl), if_neg (fun h => absurd h.2 (by decide))]
  · cases he
    rw [if_pos (Or.inl rfl), if_neg (fun h => hspecial h.1)]

theorem read_first_of_type (ht : 1500 < bigEndian f.typeLen) : readAt m 10 f.body.length = f.body := by
  obtain ⟨e, -, hllc, hlen⟩ := llc_of_type ht
  have hd := (holds_append.1 (holds_frames hm)).1
  unfold data at hd
  rw [hllc] at hd
  have hbody := (holds_append.1 hd).2
  have hfront : (e ++ f.typeLen).length = 8 := by
    rw [List.length_append, hlen, f.length_typeLen]
  rw [hfront] at hbody
  exact (readAt_shift m 2 8 _).symm.trans hbody

theorem read_first_of_length (ht : ¬ 1500 < bigEndian f.typeLen) : readAt m 2 f.body.length = f.body := by
  have hd := (holds_append.1 (holds_frames hm)).1
  unfold data at hd
  rwa [llc_of_length ht, List.nil_append] at hd

end Written

/-! ### The round trip -/

section RoundTrip

variable {m : ℕ → Byte} {dataSize : BitVec 16} {f g : EthFrame}
  (hm : Holds m (staARalinkFrameTx f g)) (hsize : dataSize.toNat = (staARalinkFrameTx f g).length)
include hm hsize

theorem toNat_msdu2Size : (msdu2Size m).toNat = nextBufLen g := by
  have hlen := length_staARalinkFrameTx f g
  have hd := dataSize.isLt
  rw [msdu2Size_written hm, BitVec.toNat_ofNat]
  exact Nat.mod_eq_of_lt (by omega)

theorem accepted_iff : Accepted m dataSize ↔ nextBufLen g ≤ 1536 := by
  have h2 := toNat_msdu2Size hm hsize
  have hlen := length_staARalinkFrameTx f g
  unfold Accepted
  rw [BitVec.lt_def, h2]
  omega

theorem toNat_payload2 : 14 + (payload2Size m).toNat = 14 + g.body.length := by
  have h2 := toNat_msdu2Size hm hsize
  have hg := nextBufLen_eq g
  have hlen := length_staARalinkFrameTx f g
  have hd := dataSize.isLt
  rw [length_untagged] at hg
  rw [toNat_payload2Size]
  omega

theorem second_eq (hend : front m + (payload1Size m dataSize).toNat = 2 + (data f).length) :
    readAt m (pData2 m dataSize - 14) 14 ++ readAt m (pData2 m dataSize) (payload2Size m).toNat =
      untagged g := by
  have hoff : pData2 m dataSize - 14 = 2 + (data f).length := by
    unfold pData2
    omega
  have hback : pData2 m dataSize = pData2 m dataSize - 14 + 14 := by
    unfold pData2
    omega
  rw [← read_second hm hoff, ← toNat_payload2 hm hsize]
  nth_rewrite 2 [hback]
  rw [← readAt_shift]
  exact (read_add _ 14 _).symm

theorem announced_of_type (ht : 1500 < bigEndian f.typeLen) (hle : nextBufLen g ≤ 1536) :
    (cmmRxRalinkFrameIndicate m dataSize true f.addresses).map Announcement.bytes =
      [untagged f, untagged g] := by
  have h2 := toNat_msdu2Size hm hsize
  have hlen := length_staARalinkFrameTx f g
  have hdata := length_data_of_type ht
  have hd := dataSize.isLt
  have hremoved : Removed m := by
    unfold Removed
    rw [convert_of_type hm [] 0 ht]
  have hfront : front m = 10 := if_pos hremoved
  have h1 : (payload1Size m dataSize).toNat = f.body.length := by
    rw [toNat_payload1Size]
    omega
  unfold cmmRxRalinkFrameIndicate
  rw [if_pos ((accepted_iff hm hsize).2 hle), if_pos rfl, List.map_cons, List.map_singleton,
    second_eq hm hsize (by omega), convert_of_type hm _ _ ht, h1, hfront, read_first_of_type hm ht]
  rfl

theorem announced_of_length (ht : ¬ 1500 < bigEndian f.typeLen) (hle : nextBufLen g ≤ 1536) (hsnap : ¬ Removed m) :
    (cmmRxRalinkFrameIndicate m dataSize true f.addresses).map Announcement.bytes =
      [f.addresses ++ [(dataSize - 2).extractLsb' 8 8, (dataSize - 2).extractLsb' 0 8] ++ f.body,
        untagged g] := by
  have h2 := toNat_msdu2Size hm hsize
  have hlen := length_staARalinkFrameTx f g
  have hdata := length_data_of_length ht
  have hd := dataSize.isLt
  have hfront : front m = 2 := if_neg hsnap
  have h1 : (payload1Size m dataSize).toNat = f.body.length := by
    rw [toNat_payload1Size]
    omega
  unfold cmmRxRalinkFrameIndicate
  rw [if_pos ((accepted_iff hm hsize).2 hle), if_pos rfl, List.map_cons, List.map_singleton,
    second_eq hm hsize (by omega), convert8023_of_not_removed hsnap, h1, hfront,
    read_first_of_length hm ht]

theorem length_announced_of_length (ht : ¬ 1500 < bigEndian f.typeLen) (hsnap : Removed m)
    {p : List Byte} {ps : List (List Byte)}
    (h : (cmmRxRalinkFrameIndicate m dataSize true f.addresses).map Announcement.bytes = p :: ps) :
    p.length ≠ (untagged f).length := by
  have h2 := toNat_msdu2Size hm hsize
  have hlen := length_staARalinkFrameTx f g
  have hdata := length_data_of_length ht
  have hd := dataSize.isLt
  have hfront : front m = 10 := if_pos hsnap
  have h1 : (payload1Size m dataSize).toNat = (f.body.length + (65536 - 8)) % 65536 := by
    rw [toNat_payload1Size]
    omega
  unfold cmmRxRalinkFrameIndicate at h
  by_cases hacc : Accepted m dataSize
  · rw [if_pos hacc, if_pos rfl] at h
    cases h
    rw [List.length_append, length_convert8023, length_readAt, f.length_addresses, length_untagged, h1]
    omega
  · rw [if_neg hacc] at h
    cases h

end RoundTrip

/-- The two frames that went into the body are announced, addresses, type and payload. The body lies in
the memory `behind`. -/
def RoundTrip (dup : Bool) (behind : ℕ → Byte) (f g : EthFrame) : Prop :=
  ∃ dataSize : BitVec 16, dataSize.toNat = (staARalinkFrameTx f g).length ∧
    (cmmRxRalinkFrameIndicate (copy behind 0 (staARalinkFrameTx f g)) dataSize dup f.addresses).map
      Announcement.bytes = [untagged f, untagged g]

/-- The first frame comes back with its type: it has an EtherType, or what it begins with is not taken
for an LLC/SNAP header and its length field happens to count the second frame too. -/
def TypeRestored (m : ℕ → Byte) (f g : EthFrame) : Prop :=
  1500 < bigEndian f.typeLen ∨ ¬ Removed m ∧ bigEndian f.typeLen = f.body.length + nextBufLen g

theorem lengthBytes_eq_iff (f : EthFrame) (size : BitVec 16) :
    [size.extractLsb' 8 8, size.extractLsb' 0 8] = f.typeLen ↔ bigEndian f.typeLen = size.toNat := by
  obtain ⟨a, b, hab⟩ := List.length_eq_two.1 f.length_typeLen
  have hs := size.isLt
  have ha := a.isLt
  have hb := b.isLt
  have hhi : (size.extractLsb' 8 8).toNat = size.toNat / 256 % 256 := by
    rw [BitVec.extractLsb'_toNat, Nat.shiftRight_eq_div_pow]
  have hlo : (size.extractLsb' 0 8).toNat = size.toNat % 256 := by
    rw [BitVec.extractLsb'_toNat, Nat.shiftRight_zero]
  have hnum : bigEndian [a, b] = a.toNat * 256 + b.toNat := by
    rw [bigEndian_cons, bigEndian_cons, bigEndian_nil]
    simp
  rw [hab, hnum]
  constructor
  · intro h
    simp only [List.cons.injEq, and_true] at h
    obtain ⟨rfl, rfl⟩ := h
    omega
  · intro h
    have hA : size.extractLsb' 8 8 = a := BitVec.eq_of_toNat_eq (by omega)
    have hB : size.extractLsb' 0 8 = b := BitVec.eq_of_toNat_eq (by omega)
    rw [hA, hB]

theorem pairRoundTrip_iff (dup : Bool) (behind : ℕ → Byte) (f g : EthFrame) :
    RoundTrip dup behind f g ↔
      dup = true ∧ (staARalinkFrameTx f g).length < 65536 ∧ nextBufLen g ≤ 1536 ∧
        TypeRestored (copy behind 0 (staARalinkFrameTx f g)) f g := by
  have hm := holds_copy behind (staARalinkFrameTx f g)
  have hlen := length_staARalinkFrameTx f g
  constructor
  · rintro ⟨dataSize, hsize, h⟩
    have hd := dataSize.isLt
    have hdup : dup = true := by
      by_contra hno
      unfold cmmRxRalinkFrameIndicate at h
      rw [if_neg hno, ite_self] at h
      cases h
    have hacc : Accepted (copy behind 0 (staARalinkFrameTx f g)) dataSize := by
      by_contra hno
      unfold cmmRxRalinkFrameIndicate at h
      rw [if_neg hno] at h
      cases h
    subst hdup
    have hle := (accepted_iff hm hsize).1 hacc
    refine ⟨rfl, by omega, hle, ?_⟩
    by_cases ht : 1500 < bigEndian f.typeLen
    · exact Or.inl ht
    · refine Or.inr ?_
      have hsnap : ¬ Removed (copy behind 0 (staARalinkFrameTx f g)) := fun hr =>
        length_announced_of_length hm hsize ht hr h rfl
      have hdata := length_data_of_length ht
      rw [announced_of_length hm hsize ht hle hsnap] at h
      have htype := (List.append_inj (List.append_inj_left' (List.cons.inj h).1 rfl) rfl).2
      have hnum := (lengthBytes_eq_iff f _).1 htype
      have hsub : (dataSize - 2).toNat = (65536 - 2 + dataSize.toNat) % 65536 := BitVec.toNat_sub _ _
      exact ⟨hsnap, by omega⟩
  · rintro ⟨rfl, hlt, hle, htype⟩
    have hsize : (BitVec.ofNat 16 (staARalinkFrameTx f g).length).toNat = (staARalinkFrameTx f g).length := by
      rw [BitVec.toNat_ofNat]
      exact Nat.mod_eq_of_lt hlt
    refine ⟨BitVec.ofNat 16 (staARalinkFrameTx f g).length, hsize, ?_⟩
    by_cases ht : 1500 < bigEndian f.typeLen
    · exact announced_of_type hm hsize ht hle
    · obtain ⟨hsnap, hnum⟩ := htype.resolve_left ht
      have hdata := length_data_of_length ht
      have hsub : (BitVec.ofNat 16 (staARalinkFrameTx f g).length - 2).toNat =
          (65536 - 2 + (BitVec.ofNat 16 (staARalinkFrameTx f g).length).toNat) % 65536 :=
        BitVec.toNat_sub _ _
      rw [announced_of_length hm hsize ht hle hsnap, (lengthBytes_eq_iff f _).2 (by omega)]
      rfl

/-- **Ralink aggregation.** Two frames come out as they went in exactly if the second packet is
allocated, the body fits `DataSize`, the second frame has at most 1536 bytes and the first one its type
restored; and a body of any content is handled safely exactly if it is refused or has room for two
frames. -/
theorem aralink_iff (dup : Bool) (behind : ℕ → Byte) (f g : EthFrame) (addresses : List Byte) (m : ℕ → Byte)
    (dataSize : BitVec 16) :
    (RoundTrip dup behind f g ↔
      dup = true ∧ (staARalinkFrameTx f g).length < 65536 ∧ nextBufLen g ≤ 1536 ∧
        TypeRestored (copy behind 0 (staARalinkFrameTx f g)) f g) ∧
      (Safe dup addresses m dataSize ↔ (Accepted m dataSize → RoomForTwo m dataSize)) :=
  ⟨pairRoundTrip_iff dup behind f g, safe_iff_room dup addresses⟩

/-- A frame with a length field of 20 does not come back, and a second frame of five bytes has no
802.3 header. -/
theorem not_aralink :
    ¬ RoundTrip true (mem []) (sampleFrame 0x00#8 0x14#8 20) (sampleFrame 0x08#8 0x00#8 20) ∧
      ¬ Safe true (List.replicate 12 0x11#8) (mem [0x05#8, 0x00#8]) 40 := by
  constructor
  · intro h
    have htype := ((pairRoundTrip_iff _ _ _ _).1 h).2.2.2
    rcases htype with ht | ⟨-, hnum⟩
    · revert ht
      decide
    · revert hnum
      decide
  · intro h
    have hroom := (safe_iff_room _ _).1 h (by decide)
    exact absurd hroom.1 (by decide)

end Mt7610u.Data.Aralink
