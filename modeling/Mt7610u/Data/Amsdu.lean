import Mt7610u.Data.Ethernet
import Mathlib.Tactic.IntervalCases

/-! # A-MSDU aggregation and its round trip

`staAmsduFrameTx`, which puts 802.3 frames one behind the other into the body of an A-MSDU, and
`deaggregateAmsduAnnounce`, which takes such a body apart and announces the frames. -/

namespace Mt7610u.Data.Amsdu

open Lib

/-! ### The sender -/

section Sender

variable (f : EthFrame)

def llc : List Byte :=
  match extraLlcSnapEncap f.typeLen with
  | some encap => encap ++ f.typeLen
  | none => []

def data : List Byte := llc f ++ f.body

def subFramePayloadLen : BitVec 16 := BitVec.ofNat 16 (data f).length

def subframe : List Byte :=
  f.addresses ++ [(subFramePayloadLen f).extractLsb' 8 8, (subFramePayloadLen f).extractLsb' 0 8] ++ data f

end Sender

/-- The bytes that bring a subframe of `len` bytes of data, with its header, to a multiple of four. -/
def padding (len : BitVec 16) : List Byte := List.replicate ((14 + len.toNat + 3) / 4 * 4 - (14 + len.toNat)) 0#8

/-- The loop of `STA_AMSDU_Frame_Tx`: the body it writes for the packets in the list. A subframe that
follows another begins with the padding of that one, whose length is at hand. -/
def staAmsduFrameTx : Option (BitVec 16) → List EthFrame → List Byte
  | _, [] => []
  | none, f :: fs => subframe f ++ staAmsduFrameTx (some (subFramePayloadLen f)) fs
  | some len, f :: fs => padding len ++ subframe f ++ staAmsduFrameTx (some (subFramePayloadLen f)) fs

def body (fs : List EthFrame) : List Byte := staAmsduFrameTx none fs

/-! ### The receiver -/

/-- `CONVERT_TO_802_3` on the subframe at `m`: the 802.3 header, and whether the LLC/SNAP header is
removed. The eight bytes compared are read also where the payload is shorter. -/
def convertTo8023 (m : ℕ → Byte) (payloadSize : BitVec 16) : List Byte × Bool :=
  let snap := readAt m 14 6
  let proto := readAt m 20 2
  let llcLen := [payloadSize.extractLsb' 8 8, payloadSize.extractLsb' 0 8]
  if snap = snap8021h ∨ snap = snapBridgeTunnel then
    if (proto = ipx ∨ proto = appleTalk) ∧ snap = snap8021h then (Lib.read m 12 ++ llcLen, false)
    else (Lib.read m 12 ++ proto, true)
  else (Lib.read m 12 ++ llcLen, false)

inductive Event
  /-- `REPORT_MGMT_FRAME_TO_MLME` on the payload of an EAPOL frame. -/
  | report (payload : List Byte)
  /-- `ANNOUNCE_OR_FORWARD_802_3_PACKET` on a clone that covers these bytes. -/
  | announce (bytes : List Byte)
  deriving DecidableEq, Repr

structure Resources where
  elem : ℕ → Bool
  clone : ℕ → Bool

def converted (m : ℕ → Byte) (payloadSize : BitVec 16) : ℕ → Byte :=
  let c := convertTo8023 m payloadSize
  if c.2 then copy m 8 c.1 else m

def cloned (m : ℕ → Byte) (payloadSize : BitVec 16) : List Byte :=
  if (convertTo8023 m payloadSize).2 then
    readAt (converted m payloadSize) 8 (payloadSize - 8 + 14).toNat
  else readAt m 14 payloadSize.toNat

/-- What happens to subframe `n`, which lies at `m`. -/
def events (res : Resources) (n : ℕ) (m : ℕ → Byte) (payloadSize : BitVec 16) : List Event :=
  let c := convertTo8023 m payloadSize
  let payload :=
    if c.2 then readAt m 22 (payloadSize - 8).toNat else readAt m 14 payloadSize.toNat
  (if c.1.drop 12 = [0x88#8, 0x8e#8] ∧ res.elem n = true then [.report payload] else []) ++
    (if res.clone n then [.announce (cloned m payloadSize)] else [])

/-- `PayloadSize` of the subframe at `m`, from its length field. -/
def payloadSize (m : ℕ → Byte) : BitVec 16 := m 12 ++ m 13

/-- `SubFrameSize`, before and after it is rounded up to a multiple of four. -/
def subFrameSize (m : ℕ → Byte) : BitVec 16 := payloadSize m + 14

@[inherit_doc subFrameSize]
def alignedSize (m : ℕ → Byte) : BitVec 16 := (subFrameSize m + 3) &&& ~~~3#16

/-- `deaggregate_AMSDU_announce` on the `dataSize` bytes at `m`, `n` subframes behind it: the number of
subframes met, and what was done with them. -/
def deaggregateAmsduAnnounce (res : Resources) (n : ℕ) (m : ℕ → Byte) (dataSize : ℕ) :
    ℕ × List Event :=
  if dataSize > 14 then
    if dataSize < (subFrameSize m).toNat ∨ (payloadSize m).toNat > 1518 then (n + 1, [])
    else if (alignedSize m).toNat > 1528 ∨ (alignedSize m).toNat < 32 then
      (n + 1, events res n m (payloadSize m))
    else if dataSize > (alignedSize m).toNat then
      let rest := deaggregateAmsduAnnounce res (n + 1)
        (fun i => converted m (payloadSize m) ((alignedSize m).toNat + i))
        (dataSize - (alignedSize m).toNat)
      (rest.1, events res n m (payloadSize m) ++ rest.2)
    else (n + 1, events res n m (payloadSize m))
  else (n, [])
termination_by dataSize
decreasing_by omega

def announced (es : List Event) : List (List Byte) :=
  es.filterMap fun e => match e with
    | .report _ => none
    | .announce bytes => some bytes

/-! ### Sizes -/

theorem length_snap {t e : List Byte} (h : extraLlcSnapEncap t = some e) : e.length = 6 := by
  unfold extraLlcSnapEncap at h
  split_ifs at h
  · cases h
    rfl
  · cases h
    rfl

theorem llc_of_type {f : EthFrame} (h : 1500 < bigEndian f.typeLen) :
    ∃ e, extraLlcSnapEncap f.typeLen = some e ∧ llc f = e ++ f.typeLen ∧ e.length = 6 := by
  have he : ∃ e, extraLlcSnapEncap f.typeLen = some e := by
    unfold extraLlcSnapEncap
    rw [if_pos h]
    split
    · exact ⟨_, rfl⟩
    · exact ⟨_, rfl⟩
  obtain ⟨e, he⟩ := he
  refine ⟨e, he, ?_, length_snap he⟩
  unfold llc
  rw [he]

theorem llc_of_length {f : EthFrame} (h : ¬ 1500 < bigEndian f.typeLen) : llc f = [] := by
  unfold llc extraLlcSnapEncap
  rw [if_neg h]

theorem length_data_of_type {f : EthFrame} (h : 1500 < bigEndian f.typeLen) :
    (data f).length = f.body.length + 8 := by
  obtain ⟨e, -, hllc, he⟩ := llc_of_type h
  unfold data
  rw [hllc, List.length_append, List.length_append, he, f.length_typeLen]
  omega

theorem length_data_of_length {f : EthFrame} (h : ¬ 1500 < bigEndian f.typeLen) :
    (data f).length = f.body.length := by
  unfold data
  rw [llc_of_length h, List.nil_append]

theorem length_data_le (f : EthFrame) : (data f).length ≤ f.body.length + 8 := by
  by_cases h : 1500 < bigEndian f.typeLen
  · rw [length_data_of_type h]
  · rw [length_data_of_length h]
    omega

theorem length_subframe (f : EthFrame) : (subframe f).length = 14 + (data f).length := by
  unfold subframe
  rw [List.length_append, List.length_append, f.length_addresses]
  rfl

theorem toNat_and_not_three (x : BitVec 16) : (x &&& ~~~3#16).toNat = x.toNat / 4 * 4 := by
  have h : x &&& ~~~3#16 = (x >>> 2) <<< 2 := by
    apply BitVec.eq_of_getLsbD_eq
    intro i hi
    interval_cases i <;> simp
  have hx := x.isLt
  rw [h, BitVec.toNat_shiftLeft, BitVec.toNat_ushiftRight, Nat.shiftRight_eq_div_pow, Nat.shiftLeft_eq]
  omega

section Sizes

variable {m : ℕ → Byte} (h : (payloadSize m).toNat ≤ 1518)
include h

theorem toNat_subFrameSize : (subFrameSize m).toNat = (payloadSize m).toNat + 14 := by
  unfold subFrameSize
  rw [BitVec.toNat_add]
  show ((payloadSize m).toNat + 14) % 65536 = _
  omega

theorem toNat_alignedSize : (alignedSize m).toNat = ((payloadSize m).toNat + 17) / 4 * 4 := by
  have hs := toNat_subFrameSize h
  unfold alignedSize
  rw [toNat_and_not_three, BitVec.toNat_add, hs]
  show ((payloadSize m).toNat + 14 + 3) % 65536 / 4 * 4 = _
  omega

theorem toNat_convertedSize : (payloadSize m - 8 + 14).toNat = (payloadSize m).toNat + 6 := by
  rw [BitVec.toNat_add, BitVec.toNat_sub]
  show ((65536 - 8 + (payloadSize m).toNat) % 65536 + 14) % 65536 = _
  omega

end Sizes

/-! ### A subframe in memory -/

section Subframe

variable {m : ℕ → Byte} {f : EthFrame} {rest : List Byte} (hm : Holds m (subframe f ++ rest))
include hm

theorem read_addresses : Lib.read m 12 = f.addresses := by
  unfold subframe at hm
  rw [List.append_assoc, List.append_assoc] at hm
  have h := (holds_append.1 hm).1
  unfold Holds at h
  rwa [f.length_addresses] at h

theorem holds_data : Holds (fun i => m (14 + i)) (data f ++ rest) := by
  unfold subframe at hm
  rw [List.append_assoc] at hm
  have hlen : (f.addresses ++ [(subFramePayloadLen f).extractLsb' 8 8,
      (subFramePayloadLen f).extractLsb' 0 8]).length = 14 := by
    rw [List.length_append, f.length_addresses]
    rfl
  have h := (holds_append.1 hm).2
  rwa [hlen] at h

theorem payloadSize_subframe : payloadSize m = subFramePayloadLen f := by
  unfold subframe at hm
  rw [List.append_assoc] at hm
  have hread := hm.readAt
  rw [f.length_addresses] at hread
  have h0 : m 12 = (subFramePayloadLen f).extractLsb' 8 8 := congrArg (List.getD · 0 0) hread
  have h1 : m 13 = (subFramePayloadLen f).extractLsb' 0 8 := congrArg (List.getD · 1 0) hread
  unfold payloadSize
  rw [h0, h1]
  exact BitVec.extractLsb'_append_extractLsb'

theorem toNat_payloadSize (hle : (data f).length ≤ 1518) : (payloadSize m).toNat = (data f).length := by
  rw [payloadSize_subframe hm]
  unfold subFramePayloadLen
  rw [BitVec.toNat_ofNat]
  omega

theorem cloned_of_type (hle : (data f).length ≤ 1518) (ht : 1500 < bigEndian f.typeLen) :
    cloned m (payloadSize m) = f.addresses ++ f.typeLen ++ f.body := by
  obtain ⟨e, he, hllc, hlen⟩ := llc_of_type ht
  have hd := holds_data hm
  unfold data at hd
  rw [hllc, List.append_assoc, List.append_assoc] at hd
  obtain ⟨hsnap, htail⟩ := holds_append.1 hd
  obtain ⟨hproto, hrest⟩ := holds_append.1 htail
  have hbody := (holds_append.1 hrest).1
  unfold Holds at hsnap hproto hbody
  rw [hlen] at hsnap hproto hbody
  rw [f.length_typeLen] at hproto hbody
  have h1 : readAt m 14 6 = e := hsnap
  have h2 : readAt m 20 2 = f.typeLen := (readAt_shift m 14 6 2).symm.trans hproto
  have h3 : readAt m 22 f.body.length = f.body :=
    (readAt_shift m 14 8 _).symm.trans ((readAt_shift _ 6 2 _).symm.trans hbody)
  -- the header is removed whichever of the two encapsulations was chosen
  have hconv : convertTo8023 m (payloadSize m) = (f.addresses ++ f.typeLen, true) := by
    unfold convertTo8023
    simp only [h1, h2, read_addresses hm]
    unfold extraLlcSnapEncap at he
    rw [if_pos ht] at he
    split_ifs at he with hspecial
    · cases he
      rw [if_pos (Or.inr rfl), if_neg (fun h => absurd h.2 (by decide))]
    · cases he
      rw [if_pos (Or.inl rfl), if_neg (fun h => hspecial h.1)]
  have hhdr : (f.addresses ++ f.typeLen).length = 14 := by
    rw [List.length_append, f.length_addresses, f.length_typeLen]
  have hsize := toNat_payloadSize hm hle
  have hdata := length_data_of_type ht
  have hcover : (payloadSize m - 8 + 14).toNat = (f.addresses ++ f.typeLen).length + f.body.length := by
    rw [toNat_convertedSize (by omega), hhdr]
    omega
  unfold cloned converted
  simp only [hconv, if_true]
  rw [hcover, readAt_copy_append, hhdr, h3]

theorem length_cloned_of_length (hle : (data f).length ≤ 1518) (ht : ¬ 1500 < bigEndian f.typeLen) :
    (cloned m (payloadSize m)).length < f.bytes.length := by
  have hsize := toNat_payloadSize hm hle
  have hdata := length_data_of_length ht
  have hbytes := f.length_body
  unfold cloned
  split
  · rw [length_readAt, toNat_convertedSize (by omega)]
    omega
  · rw [length_readAt]
    omega

end Subframe

/-! ### The loop -/

theorem announced_append (xs ys : List Event) : announced (xs ++ ys) = announced xs ++ announced ys :=
  List.filterMap_append

theorem announced_events (res : Resources) (n : ℕ) (m : ℕ → Byte) (size : BitVec 16) :
    announced (events res n m size) = if res.clone n then [cloned m size] else [] := by
  unfold events
  rw [announced_append]
  have hreport : ∀ (c : Prop) [Decidable c] (bs : List Byte),
      announced (if c then [.report bs] else []) = [] := by
    intro c _ bs
    split <;> rfl
  rw [hreport, List.nil_append]
  split <;> rfl

theorem length_convertTo8023 (m : ℕ → Byte) (size : BitVec 16) : (convertTo8023 m size).1.length = 14 := by
  unfold convertTo8023
  simp only []
  split_ifs <;> simp

theorem converted_behind (m : ℕ → Byte) (size : BitVec 16) {i : ℕ} (h : 22 ≤ i) : converted m size i = m i := by
  have hlen := length_convertTo8023 m size
  unfold converted
  split
  · unfold copy
    rw [if_neg (by omega)]
  · rfl

theorem length_cloned_le {m : ℕ → Byte} (h : (payloadSize m).toNat ≤ 1518) :
    (cloned m (payloadSize m)).length ≤ 1524 := by
  unfold cloned
  split
  · rw [length_readAt, toNat_convertedSize h]
    omega
  · rw [length_readAt]
    omega

theorem length_announced_le (res : Resources) (n : ℕ) (m : ℕ → Byte) (dataSize : ℕ) :
    ∀ bs ∈ announced (deaggregateAmsduAnnounce res n m dataSize).2, bs.length ≤ 1524 := by
  have hone : ∀ (n : ℕ) (m : ℕ → Byte), (payloadSize m).toNat ≤ 1518 →
      ∀ bs ∈ announced (events res n m (payloadSize m)), bs.length ≤ 1524 := by
    intro n m h bs hbs
    rw [announced_events] at hbs
    split_ifs at hbs
    · rw [List.mem_singleton.1 hbs]
      exact length_cloned_le h
    · cases hbs
  fun_induction deaggregateAmsduAnnounce res n m dataSize with
  | case1 n m dataSize hpos hbad =>
    intro bs hbs
    cases hbs
  | case2 n m dataSize hpos hok hstop => exact hone n m (by omega)
  | case3 n m dataSize hpos hok hgo hmore rest ih =>
    intro bs hbs
    rw [announced_append] at hbs
    rcases List.mem_append.1 hbs with hbs | hbs
    · exact hone n m (by omega) bs hbs
    · exact ih bs hbs
  | case4 n m dataSize hpos hok hgo hlast => exact hone n m (by omega)
  | case5 n m dataSize hpos =>
    intro bs hbs
    cases hbs

theorem body_singleton (f : EthFrame) : body [f] = subframe f := by
  unfold body
  rw [staAmsduFrameTx, staAmsduFrameTx, List.append_nil]

theorem body_cons_cons (f g : EthFrame) (fs : List EthFrame) :
    body (f :: g :: fs) = subframe f ++ padding (subFramePayloadLen f) ++ body (g :: fs) := by
  unfold body
  rw [staAmsduFrameTx, staAmsduFrameTx, staAmsduFrameTx]
  simp only [List.append_assoc]

theorem length_body_pos (f : EthFrame) (fs : List EthFrame) : 14 ≤ (body (f :: fs)).length := by
  unfold body
  rw [staAmsduFrameTx, List.length_append, length_subframe]
  omega

/-- The offset of the subframe that follows `f`. -/
def nextOffset (f : EthFrame) : ℕ := ((data f).length + 17) / 4 * 4

theorem length_padded {f : EthFrame} (h : (data f).length ≤ 1518) :
    (subframe f ++ padding (subFramePayloadLen f)).length = nextOffset f := by
  have hlen : (subFramePayloadLen f).toNat = (data f).length := by
    unfold subFramePayloadLen
    rw [BitVec.toNat_ofNat]
    omega
  unfold padding nextOffset
  rw [List.length_append, length_subframe, List.length_replicate, hlen]
  omega

theorem deaggregate_last (res : Resources) (n : ℕ) {m : ℕ → Byte} {f : EthFrame}
    (hm : Holds m (body [f])) (hle : (data f).length ≤ 1518) :
    announced (deaggregateAmsduAnnounce res n m (body [f]).length).2 =
      if 0 < (data f).length ∧ res.clone n = true then [cloned m (payloadSize m)] else [] := by
  rw [body_singleton] at hm ⊢
  have hm' : Holds m (subframe f ++ []) := by rwa [List.append_nil]
  have hsize := toNat_payloadSize hm' hle
  have hsub := toNat_subFrameSize (m := m) (by omega)
  have hal := toNat_alignedSize (m := m) (by omega)
  have hlen := length_subframe f
  rw [deaggregateAmsduAnnounce]
  by_cases hpos : 0 < (data f).length
  · rw [if_pos (by omega), if_neg (by omega)]
    simp only [hpos, true_and]
    rw [← announced_events]
    by_cases hstop : (alignedSize m).toNat > 1528 ∨ (alignedSize m).toNat < 32
    · rw [if_pos hstop]
    · rw [if_neg hstop, if_neg (by omega)]
  · rw [if_neg (by omega), if_neg (fun h => hpos h.1)]
    rfl

/-- **A subframe with another behind it** is announced, and the loop goes on if its size is within
bounds. -/
theorem deaggregate_next (res : Resources) (n : ℕ) {m : ℕ → Byte} {f g : EthFrame}
    {fs : List EthFrame} (hm : Holds m (body (f :: g :: fs))) (hle : (data f).length ≤ 1518) :
    Holds (fun i => m (nextOffset f + i)) (body (g :: fs)) ∧
    announced (deaggregateAmsduAnnounce res n m (body (f :: g :: fs)).length).2 =
      (if res.clone n then [cloned m (payloadSize m)] else []) ++
        if 32 ≤ nextOffset f ∧ nextOffset f ≤ 1528 then
          announced (deaggregateAmsduAnnounce res (n + 1) (fun i => m (nextOffset f + i))
            (body (g :: fs)).length).2
        else [] := by
  have hpos := length_body_pos g fs
  have hpad := length_padded hle
  rw [body_cons_cons] at hm ⊢
  rw [List.length_append, hpad]
  have hholds := (holds_append.1 hm).2
  rw [hpad] at hholds
  refine ⟨hholds, ?_⟩
  rw [List.append_assoc] at hm
  have hsize := toNat_payloadSize hm hle
  have hsub := toNat_subFrameSize (m := m) (by omega)
  have hal := toNat_alignedSize (m := m) (by omega)
  rw [hsize] at hal hsub
  change (alignedSize m).toNat = nextOffset f at hal
  have hge : (data f).length + 14 ≤ nextOffset f := by
    unfold nextOffset
    omega
  rw [deaggregateAmsduAnnounce, if_pos (by omega), if_neg (by omega), hal, ← announced_events]
  by_cases hstop : nextOffset f > 1528 ∨ nextOffset f < 32
  · rw [if_pos hstop, if_neg (by omega), List.append_nil]
  · have hsame : (fun i => converted m (payloadSize m) (nextOffset f + i)) =
        fun i => m (nextOffset f + i) := by
      funext i
      exact converted_behind m _ (by omega)
    rw [if_neg hstop, if_pos (by omega), if_pos (by omega), hsame, Nat.add_sub_cancel_left, announced_append]

/-! ### Whole bodies -/

def Restored (f : EthFrame) : Prop := f.vlan = false ∧ 1500 < bigEndian f.typeLen

theorem cloned_eq_iff {m : ℕ → Byte} {f : EthFrame} {rest : List Byte}
    (hm : Holds m (subframe f ++ rest)) (hle : (data f).length ≤ 1518) :
    cloned m (payloadSize m) = f.bytes ↔ Restored f := by
  by_cases ht : 1500 < bigEndian f.typeLen
  · rw [cloned_of_type hm hle ht]
    constructor
    · intro heq
      refine ⟨?_, ht⟩
      have hlen := congrArg List.length heq
      have hbody := f.length_body
      rw [List.length_append, List.length_append, f.length_addresses, f.length_typeLen] at hlen
      unfold EthFrame.vlanSize at hbody
      by_contra hv
      rw [if_pos (by simpa using hv)] at hbody
      omega
    · rintro ⟨hv, -⟩
      exact (f.bytes_eq hv).symm
  · constructor
    · intro heq
      have hlt := length_cloned_of_length hm hle ht
      rw [heq] at hlt
      omega
    · rintro ⟨-, h⟩
      exact absurd h ht

section Whole

variable (res : Resources)

theorem length_announced (n : ℕ) {fs : List EthFrame} {m : ℕ → Byte} (hm : Holds m (body fs))
    (hle : ∀ f ∈ fs, (data f).length ≤ 1518) :
    (announced (deaggregateAmsduAnnounce res n m (body fs).length).2).length ≤ fs.length := by
  induction fs generalizing n m with
  | nil =>
    rw [deaggregateAmsduAnnounce]
    exact le_rfl
  | cons f fs ih =>
    cases fs with
    | nil =>
      rw [deaggregate_last res n hm (hle f (by simp))]
      split <;> simp
    | cons g fs =>
      obtain ⟨hrest, heq⟩ := deaggregate_next res n hm (hle f (by simp))
      have hih := ih (n + 1) hrest fun f' hf' => hle f' (by simp [hf'])
      have hone : (if res.clone n then [cloned m (payloadSize m)] else []).length ≤ 1 := by
        split <;> simp
      rw [heq, List.length_append, List.length_cons]
      by_cases hgo : 32 ≤ nextOffset f ∧ nextOffset f ≤ 1528
      · rw [if_pos hgo]
        omega
      · rw [if_neg hgo, List.length_nil]
        omega

/-- What it takes for the frames to come out again, subframe `n` being the first of them. -/
def Accepted (res : Resources) : ℕ → List EthFrame → Prop
  | _, [] => True
  | n, f :: fs => res.clone n = true ∧ Restored f ∧
      (fs ≠ [] → 32 ≤ nextOffset f ∧ nextOffset f ≤ 1528) ∧ Accepted res (n + 1) fs

/-- **What is announced of a body** whose subframes are not too long. -/
theorem announced_body (n : ℕ) {fs : List EthFrame} {m : ℕ → Byte} (hm : Holds m (body fs))
    (hle : ∀ f ∈ fs, (data f).length ≤ 1518) :
    announced (deaggregateAmsduAnnounce res n m (body fs).length).2 = fs.map EthFrame.bytes ↔
      Accepted res n fs := by
  induction fs generalizing n m with
  | nil =>
    rw [deaggregateAmsduAnnounce]
    exact ⟨fun _ => trivial, fun _ => rfl⟩
  | cons f fs ih =>
    have hf : (data f).length ≤ 1518 := hle f (by simp)
    cases fs with
    | nil =>
      have hm' : Holds m (subframe f ++ []) := by
        rwa [List.append_nil, ← body_singleton]
      rw [deaggregate_last res n hm hf, List.map_singleton]
      unfold Accepted
      by_cases hc : res.clone n = true
      · by_cases hr : Restored f
        · have hpos : 0 < (data f).length := by
            rw [length_data_of_type hr.2]
            omega
          rw [if_pos ⟨hpos, hc⟩, (cloned_eq_iff hm' hf).2 hr]
          simp [hc, hr, Accepted]
        · constructor
          · intro heq
            split_ifs at heq with hpos
            exact absurd ((cloned_eq_iff hm' hf).1 (List.singleton_inj.1 heq)) hr
          · rintro ⟨-, h, -⟩
            exact absurd h hr
      · rw [if_neg (fun h => hc h.2)]
        exact ⟨fun h => (by cases h), fun h => absurd h.1 hc⟩
    | cons g fs =>
      have hm' := hm
      rw [body_cons_cons, List.append_assoc] at hm'
      have hlerest : ∀ f' ∈ g :: fs, (data f').length ≤ 1518 := fun f' hf' => hle f' (by simp [hf'])
      obtain ⟨hrest, heq⟩ := deaggregate_next res n hm hf
      have hlen := length_announced res (n + 1) hrest hlerest
      rw [heq, List.map_cons]
      unfold Accepted
      rw [← ih (n + 1) hrest hlerest, ← cloned_eq_iff hm' hf]
      constructor
      · intro h
        -- with fewer clones, or a loop that stopped, there are too few frames
        have hclone : res.clone n = true := by
          by_contra hc
          rw [if_neg hc, List.nil_append] at h
          have := congrArg List.length h
          rw [List.length_cons, List.length_map] at this
          split_ifs at this
          omega
        rw [if_pos hclone] at h
        have hgo : 32 ≤ nextOffset f ∧ nextOffset f ≤ 1528 := by
          by_contra hstop
          rw [if_neg hstop] at h
          have := congrArg List.length h
          simp at this
        rw [if_pos hgo] at h
        obtain ⟨h1, h2⟩ := List.cons.inj h
        exact ⟨hclone, h1, fun _ => hgo, h2⟩
      · rintro ⟨hclone, h1, hgo, h2⟩
        rw [if_pos hclone, if_pos (hgo (by simp)), h1, h2]
        rfl

theorem accepted_iff (n : ℕ) (fs : List EthFrame) :
    Accepted res n fs ↔ (∀ i < fs.length, res.clone (n + i) = true) ∧ (∀ f ∈ fs, Restored f) ∧
      ∀ f ∈ fs.dropLast, 32 ≤ nextOffset f ∧ nextOffset f ≤ 1528 := by
  induction fs generalizing n with
  | nil => simp [Accepted]
  | cons f fs ih =>
    have hclone : (∀ i < (f :: fs).length, res.clone (n + i) = true) ↔
        res.clone n = true ∧ ∀ i < fs.length, res.clone (n + 1 + i) = true := by
      constructor
      · intro h
        refine ⟨h 0 (by simp), fun i hi => ?_⟩
        have := h (i + 1) (by simpa using hi)
        rwa [Nat.add_comm i 1, ← Nat.add_assoc] at this
      · rintro ⟨h0, h⟩ i hi
        cases i with
        | zero => exact h0
        | succ i =>
          have := h i (by simpa using hi)
          rwa [Nat.add_assoc, Nat.add_comm 1 i] at this
    have hlast : (∀ f' ∈ (f :: fs).dropLast, 32 ≤ nextOffset f' ∧ nextOffset f' ≤ 1528) ↔
        (fs ≠ [] → 32 ≤ nextOffset f ∧ nextOffset f ≤ 1528) ∧
          ∀ f' ∈ fs.dropLast, 32 ≤ nextOffset f' ∧ nextOffset f' ≤ 1528 := by
      cases fs with
      | nil => simp
      | cons g fs => simp
    unfold Accepted
    rw [ih, hclone, hlast, List.forall_mem_cons]
    constructor
    · rintro ⟨h1, h2, h3, h4, h5, h6⟩
      exact ⟨⟨h1, h4⟩, ⟨h2, h5⟩, h3, h6⟩
    · rintro ⟨⟨h1, h4⟩, ⟨h2, h5⟩, h3, h6⟩
      exact ⟨h1, h2, h3, h4, h5, h6⟩

/-- The frames that went into the body are announced, in the same order and byte for byte. -/
def RoundTrip (behind : ℕ → Byte) (fs : List EthFrame) : Prop :=
  announced (deaggregateAmsduAnnounce res 0 (copy behind 0 (body fs)) (body fs).length).2 = fs.map EthFrame.bytes

/-- **The round trip of an A-MSDU.** It succeeds exactly if every clone is allocated, every frame has an
EtherType, no VLAN tag and at most 1510 bytes of payload, and every frame but the last has between 7 and
1506. -/
theorem roundTrip_iff (behind : ℕ → Byte) (fs : List EthFrame) :
    RoundTrip res behind fs ↔
      (∀ i < fs.length, res.clone i = true) ∧
      (∀ f ∈ fs, f.vlan = false ∧ 1500 < bigEndian f.typeLen ∧ f.body.length ≤ 1510) ∧
      ∀ f ∈ fs.dropLast, 7 ≤ f.body.length ∧ f.body.length ≤ 1506 := by
  have hoffset : ∀ f : EthFrame, 1500 < bigEndian f.typeLen →
      (32 ≤ nextOffset f ∧ nextOffset f ≤ 1528 ↔ 7 ≤ f.body.length ∧ f.body.length ≤ 1506) := by
    intro f ht
    have hdata := length_data_of_type ht
    unfold nextOffset
    omega
  constructor
  · intro h
    -- nothing longer than 1524 bytes is ever announced, so no length field overflowed
    have hle : ∀ f ∈ fs, f.body.length ≤ 1510 := by
      intro f hf
      have hbytes := f.length_body
      have hmem : f.bytes ∈ fs.map EthFrame.bytes := List.mem_map.2 ⟨f, hf, rfl⟩
      unfold RoundTrip at h
      rw [← h] at hmem
      have := length_announced_le res 0 _ _ _ hmem
      omega
    have hacc := (announced_body res 0 (holds_copy behind (body fs)) fun f hf =>
      (length_data_le f).trans (by have := hle f hf; omega)).1 h
    obtain ⟨hclone, hres, hsize⟩ := (accepted_iff res 0 fs).1 hacc
    refine ⟨fun i hi => ?_, fun f hf => ⟨(hres f hf).1, (hres f hf).2, hle f hf⟩, fun f hf => ?_⟩
    · have := hclone i hi
      rwa [Nat.zero_add] at this
    · exact (hoffset f (hres f (List.dropLast_subset fs hf)).2).1 (hsize f hf)
  · rintro ⟨hclone, hall, hsize⟩
    refine (announced_body res 0 (holds_copy behind (body fs)) fun f hf =>
      (length_data_le f).trans (by have := (hall f hf).2.2; omega)).2 ?_
    refine (accepted_iff res 0 fs).2 ⟨fun i hi => ?_, fun f hf => ⟨(hall f hf).1, (hall f hf).2.1⟩,
      fun f hf => ?_⟩
    · rw [Nat.zero_add]
      exact hclone i hi
    · exact (hoffset f (hall f (List.dropLast_subset fs hf)).2.1).2 (hsize f hf)

end Whole

def sampleFrame (t1 t2 : Byte) (n : ℕ) : EthFrame where
  bytes := List.replicate 12 0x11#8 ++ [t1, t2] ++ List.replicate n 0x42#8
  vlan := false
  length_ge := by simp

/-- A frame with a length field of 20 is announced without its header. -/
theorem not_roundTrip_lengthTyped :
    ¬ RoundTrip ⟨fun _ => true, fun _ => true⟩ (mem [])
      [sampleFrame 0x00#8 0x14#8 20, sampleFrame 0x08#8 0x00#8 20] := by
  intro h
  have hacc := (announced_body _ 0 (holds_copy _ _) (by decide)).1 h
  have ht : 1500 < bigEndian (sampleFrame 0x00#8 0x14#8 20).typeLen := hacc.2.1.2
  revert ht
  decide

end Mt7610u.Data.Amsdu
