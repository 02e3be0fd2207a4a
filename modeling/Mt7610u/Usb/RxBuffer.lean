import Mt7610u.Lib.Bytes

/-! # Parsing a bulk-in buffer

A bulk-in transfer brings a number of records, one behind the other: a length word, the RXINFO, the RXWI, the
MPDU with its padding, and the RXFCE info. `GetPacketFromRxRing` is called again and again on the buffer; it
copies the record at `ReadPosition` into a packet and moves `ReadPosition` behind it, or skips a command
response. -/

namespace Mt7610u.Usb

open Lib

/-! ### One call -/

def rxdmaFieldSize : ℕ := 4

def rxInfoSize : ℕ := 4

/-- `sizeof(RXFCE_INFO)`. -/
def rxFceInfoSize : ℕ := 4

def cmdPacket : ℕ := 1

/-- The values of an `unsigned long`. -/
def ulongSize : ℕ := 2 ^ 64

inductive RxRingId
  | rxRing0
  | rxRing1
  deriving DecidableEq

/-- What the call reads of the chip's capabilities: `RXWISize` and `CmdRspRxRing`. -/
structure ChipCap where
  rxwiSize : ℕ
  cmdRspRxRing : RxRingId

/-- `RX_CONTEXT`: the transfer buffer with what lies behind it in memory, and the number of bytes the
transfer brought. -/
structure RxContext where
  transferBuffer : ℕ → Byte
  bulkInOffset : ℕ
  readable : Bool
  inUse : Bool
  -- an object in memory does not come near the end of the address space
  fits : bulkInOffset + 2 ^ 16 ≤ ulongSize

/-- `info_type` of an `RXFCE_INFO`, its top two bits. -/
def infoType (w : List Byte) : ℕ := (mem w 3).toNat / 64

/-- `pkt_len` of an `RXFCE_INFO`, its low fourteen bits. -/
def pktLen (w : List Byte) : ℕ := ((mem w 0).toNat + (mem w 1).toNat * 2 ^ 8) % 2 ^ 14

/-- `MPDUtotalByteCnt` of an `RXWI`, fourteen bits from bit 16 of its first word. -/
def rxwiMpduByteCnt (w : List Byte) : ℕ := ((mem w 2).toNat + (mem w 3).toNat * 2 ^ 8) % 2 ^ 14

/-- A packet: the bytes copied from behind the RXINFO, and the descriptors in `hw_rx_info`. -/
structure RxPacket where
  data : List Byte
  fceInfo : List Byte
  rxInfo : List Byte
  deriving DecidableEq

/-- What a call leaves: the packet, `*bCmdRspPacket`, `ReadPosition`, and its accesses to the transfer
buffer, each an offset and a number of bytes. -/
structure Answer where
  packet : Option RxPacket
  bCmdRspPacket : Bool
  readPosition : ℕ
  reads : List (ℕ × ℕ)

namespace RxContext

variable (c : RxContext) (pos : ℕ)

/-- `*pData + (*(pData+1)<<8)`. -/
def thisFrameLen : ℕ := (c.transferBuffer pos).toNat + (c.transferBuffer (pos + 1)).toNat * 2 ^ 8

def fceInfo : List Byte := readAt c.transferBuffer (pos + rxdmaFieldSize + c.thisFrameLen pos) rxFceInfoSize

/-- The first word of `*pRxWI`. -/
def rxwiWord : List Byte := readAt c.transferBuffer (pos + rxdmaFieldSize + rxInfoSize) 4

/-- `BulkInOffset - ReadPosition`. -/
def rxBufferLength : ℕ := (c.bulkInOffset + ulongSize - pos) % ulongSize

end RxContext

/-- `goto label_null` after the accesses `reads`. -/
def labelNull (readPosition : ℕ) (reads : List (ℕ × ℕ)) : Answer :=
  { packet := none, bCmdRspPacket := false, readPosition := readPosition, reads := reads }

/-- `GetPacketFromRxRing` on the context at `NextRxBulkInReadIndex`; `alloc` says whether the kernel has a
buffer for the packet. -/
def getPacketFromRxRing (cap : ChipCap) (c : RxContext) (alloc : Bool) (readPosition : ℕ) : Answer :=
  if c.readable = false ∨ c.inUse = true then labelNull readPosition []
  else if c.rxBufferLength readPosition < rxdmaFieldSize * 2 then labelNull readPosition []
  else
    let thisFrameLen := c.thisFrameLen readPosition
    let lengthWord := (readPosition, 2)
    if thisFrameLen = 0 then labelNull readPosition [lengthWord]
    else if thisFrameLen % 4 ≠ 0 then labelNull readPosition [lengthWord]
    else if thisFrameLen + 8 > c.rxBufferLength readPosition then labelNull readPosition [lengthWord]
    else
      let fceInfo := (readPosition + rxdmaFieldSize + thisFrameLen, rxFceInfoSize)
      let rxInfo := (readPosition + rxdmaFieldSize, rxInfoSize)
      let rxwi := readPosition + rxdmaFieldSize + rxInfoSize
      if infoType (c.fceInfo readPosition) = cmdPacket ∧ cap.cmdRspRxRing = .rxRing0 then
        { packet := none
          bCmdRspPacket := true
          readPosition := (readPosition + (rxFceInfoSize * 2 + pktLen (c.fceInfo readPosition))) % ulongSize
          reads := [lengthWord, fceInfo] }
      else if rxwiMpduByteCnt (c.rxwiWord readPosition) > thisFrameLen then
        labelNull readPosition [lengthWord, fceInfo, (rxwi, 4)]
      else if !alloc then labelNull readPosition [lengthWord, fceInfo, (rxwi, 4)]
      else
        { packet := some
            { data := readAt c.transferBuffer rxwi thisFrameLen
              fceInfo := c.fceInfo readPosition
              rxInfo := readAt c.transferBuffer (readPosition + rxdmaFieldSize) rxInfoSize }
          bCmdRspPacket := false
          readPosition := (readPosition + (thisFrameLen + rxdmaFieldSize + rxInfoSize)) % ulongSize
          reads := [lengthWord, fceInfo, (rxwi, 4), (rxwi, thisFrameLen), fceInfo, rxInfo] }

/-! ### The calls on one buffer -/

/-- `STARxDoneInterruptHandle` calls again unless there is neither a packet nor a command response. -/
def Answer.goesOn (a : Answer) : Bool := a.packet.isSome || a.bCmdRspPacket

variable (cap : ChipCap) (c : RxContext) (alloc : ℕ → Bool)

/-- `ReadPosition` at the call number `n`, `none` if the calls have ended before. -/
def callPos : ℕ → Option ℕ
  | 0 => some 0
  | n + 1 =>
    match callPos n with
    | none => none
    | some pos =>
      let a := getPacketFromRxRing cap c (alloc n) pos
      if a.goesOn then some a.readPosition else none

/-- The packets that the first `n` calls return. -/
def returned : ℕ → List RxPacket
  | 0 => []
  | n + 1 =>
    match callPos cap c alloc n with
    | none => returned n
    | some pos => returned n ++ (getPacketFromRxRing cap c (alloc n) pos).packet.toList

/-! ### Well-formed buffers -/

structure DataRecord (cap : ChipCap) where
  -- the upper half of the length word, of which nothing is read
  lengthHigh : List Byte
  rxInfo : List Byte
  rxwi : List Byte
  mpdu : List Byte
  padding : List Byte
  fceInfo : List Byte
  length_lengthHigh : lengthHigh.length = 2
  length_rxInfo : rxInfo.length = rxInfoSize
  length_rxwi : rxwi.length = cap.rxwiSize
  word_le : 4 ≤ cap.rxwiSize
  length_fceInfo : fceInfo.length = rxFceInfoSize
  byteCnt : rxwiMpduByteCnt rxwi = mpdu.length
  aligned : (rxInfo.length + rxwi.length + mpdu.length + padding.length) % 4 = 0
  short : rxInfo.length + rxwi.length + mpdu.length + padding.length < 2 ^ 16
  data : infoType fceInfo ≠ cmdPacket

structure CmdRecord (cap : ChipCap) where
  lengthHigh : List Byte
  payload : List Byte
  fceInfo : List Byte
  length_lengthHigh : lengthHigh.length = 2
  length_fceInfo : fceInfo.length = rxFceInfoSize
  nonempty : payload ≠ []
  aligned : payload.length % 4 = 0
  pktLen : pktLen fceInfo = payload.length
  cmd : infoType fceInfo = cmdPacket
  ring : cap.cmdRspRxRing = .rxRing0

inductive Record (cap : ChipCap)
  | data (d : DataRecord cap)
  | cmd (r : CmdRecord cap)

def le16 (n : ℕ) : List Byte := [BitVec.ofNat 8 n, BitVec.ofNat 8 (n / 2 ^ 8)]

variable {cap}

/-- What the length word counts: everything between it and the RXFCE info. -/
def DataRecord.frame (d : DataRecord cap) : List Byte := d.rxInfo ++ (d.rxwi ++ d.mpdu ++ d.padding)

def Record.bytes : Record cap → List Byte
  | .data d => le16 d.frame.length ++ d.lengthHigh ++ d.frame ++ d.fceInfo
  | .cmd r => le16 r.payload.length ++ r.lengthHigh ++ r.payload ++ r.fceInfo

def Record.packet : Record cap → Option RxPacket
  | .data d => some
      { data := d.rxwi ++ d.mpdu ++ d.padding ++ d.fceInfo
        fceInfo := d.fceInfo
        rxInfo := d.rxInfo }
  | .cmd _ => none

def buffer (rs : List (Record cap)) : List Byte := rs.flatMap Record.bytes

/-! ### What the calls are for -/

variable (cap)

def RxPacket.Whole (p : RxPacket) : Prop := cap.rxwiSize + rxwiMpduByteCnt p.data + rxFceInfoSize ≤ p.data.length

structure Parsed : Prop where
  inside : ∀ n pos, callPos cap c alloc n = some pos → pos ≤ c.bulkInOffset ∧
    (getPacketFromRxRing cap c (alloc n) pos).readPosition ≤ c.bulkInOffset ∧
    ∀ r ∈ (getPacketFromRxRing cap c (alloc n) pos).reads, r.1 + r.2 ≤ c.bulkInOffset
  ends : ∃ n, callPos cap c alloc n = none
  whole : ∀ n pos p, callPos cap c alloc n = some pos →
    (getPacketFromRxRing cap c (alloc n) pos).packet = some p → p.Whole cap
  complete : ∀ rs : List (Record cap), c.bulkInOffset = (buffer rs).length →
    HoldsAt c.transferBuffer 0 (buffer rs) → c.readable = true → c.inUse = false →
    (∀ n, alloc n = true) → ∃ n, callPos cap c alloc n = none ∧ returned cap c alloc n = rs.filterMap Record.packet

/-! ### The condition -/

/-- The length word at `pos` is usable, and the record it announces lies in the buffer. -/
structure Framed (pos : ℕ) : Prop where
  pos_len : c.thisFrameLen pos ≠ 0
  aligned : c.thisFrameLen pos % 4 = 0
  room : pos + c.thisFrameLen pos + 8 ≤ c.bulkInOffset

/-- The record at `pos` is a command response. -/
def IsCmd (pos : ℕ) : Prop := infoType (c.fceInfo pos) = cmdPacket ∧ cap.cmdRspRxRing = .rxRing0

inductive RecordAt : ℕ → Prop
  | first : RecordAt 0
  | data {pos : ℕ} (h : RecordAt pos) (hf : Framed c pos) (hd : ¬ IsCmd cap c pos)
      (hb : rxwiMpduByteCnt (c.rxwiWord pos) ≤ c.thisFrameLen pos) :
      RecordAt (pos + (c.thisFrameLen pos + 8))
  | cmd {pos : ℕ} (h : RecordAt pos) (hf : Framed c pos) (hd : IsCmd cap c pos) :
      RecordAt (pos + (8 + pktLen (c.fceInfo pos)))

/-- A data record whose byte count does not exceed its length has room for RXINFO, RXWI and that many bytes,
and a command response ends inside the buffer. -/
def Sized : Prop :=
  c.readable = true → c.inUse = false → ∀ pos, RecordAt cap c pos → Framed c pos →
    (¬ IsCmd cap c pos → rxwiMpduByteCnt (c.rxwiWord pos) ≤ c.thisFrameLen pos →
      rxInfoSize + cap.rxwiSize + rxwiMpduByteCnt (c.rxwiWord pos) ≤ c.thisFrameLen pos) ∧
    (IsCmd cap c pos → pos + (8 + pktLen (c.fceInfo pos)) ≤ c.bulkInOffset)

/-! ### What one call does -/

variable {cap c} {pos : ℕ}

theorem rxBufferLength_eq (h : pos ≤ c.bulkInOffset) : c.rxBufferLength pos = c.bulkInOffset - pos := by
  have hfits := c.fits
  have hlt : c.bulkInOffset - pos < ulongSize := by omega
  unfold RxContext.rxBufferLength
  rw [Nat.sub_add_comm h, Nat.add_mod_right, Nat.mod_eq_of_lt hlt]

def packetAnswer (c : RxContext) (pos : ℕ) : Answer where
  packet := some
    { data := readAt c.transferBuffer (pos + 8) (c.thisFrameLen pos)
      fceInfo := c.fceInfo pos
      rxInfo := readAt c.transferBuffer (pos + 4) 4 }
  bCmdRspPacket := false
  readPosition := pos + (c.thisFrameLen pos + 8)
  reads := [(pos, 2), (pos + 4 + c.thisFrameLen pos, 4), (pos + 8, 4), (pos + 8, c.thisFrameLen pos),
    (pos + 4 + c.thisFrameLen pos, 4), (pos + 4, 4)]

def cmdAnswer (c : RxContext) (pos : ℕ) : Answer where
  packet := none
  bCmdRspPacket := true
  readPosition := pos + (8 + pktLen (c.fceInfo pos))
  reads := [(pos, 2), (pos + 4 + c.thisFrameLen pos, 4)]

theorem pktLen_lt (w : List Byte) : pktLen w < 2 ^ 14 := Nat.mod_lt _ (by decide)

/-- **One call from inside the buffer.** It ends the loop and moves nothing, or takes a packet, or skips a
command response. -/
theorem getPacketFromRxRing_cases (cap : ChipCap) (al : Bool) (hpos : pos ≤ c.bulkInOffset) :
    (∃ reads, getPacketFromRxRing cap c al pos = labelNull pos reads ∧ ∀ r ∈ reads, r.1 + r.2 ≤ c.bulkInOffset) ∨
    (c.readable = true ∧ c.inUse = false ∧ Framed c pos ∧ IsCmd cap c pos ∧
      getPacketFromRxRing cap c al pos = cmdAnswer c pos) ∨
    (c.readable = true ∧ c.inUse = false ∧ Framed c pos ∧ ¬ IsCmd cap c pos ∧
      rxwiMpduByteCnt (c.rxwiWord pos) ≤ c.thisFrameLen pos ∧
      getPacketFromRxRing cap c al pos = packetAnswer c pos) := by
  have hfits := c.fits
  have hpkt := pktLen_lt (c.fceInfo pos)
  have hdma : rxdmaFieldSize = 4 := rfl
  have hinfo : rxInfoSize = 4 := rfl
  have hfce : rxFceInfoSize = 4 := rfl
  unfold getPacketFromRxRing
  rw [rxBufferLength_eq hpos]
  by_cases hflags : c.readable = false ∨ c.inUse = true
  · rw [if_pos hflags]
    exact Or.inl ⟨[], rfl, by simp⟩
  rw [if_neg hflags]
  rw [not_or, Bool.not_eq_false, Bool.not_eq_true] at hflags
  by_cases hshort : c.bulkInOffset - pos < rxdmaFieldSize * 2
  · rw [if_pos hshort]
    exact Or.inl ⟨[], rfl, by simp⟩
  rw [if_neg hshort]
  by_cases hzero : c.thisFrameLen pos = 0
  · rw [if_pos hzero]
    exact Or.inl ⟨_, rfl, by simp; omega⟩
  rw [if_neg hzero]
  by_cases halign : c.thisFrameLen pos % 4 ≠ 0
  · rw [if_pos halign]
    exact Or.inl ⟨_, rfl, by simp; omega⟩
  rw [if_neg halign]
  by_cases hroom : c.thisFrameLen pos + 8 > c.bulkInOffset - pos
  · rw [if_pos hroom]
    exact Or.inl ⟨_, rfl, by simp; omega⟩
  rw [if_neg hroom]
  have hframed : Framed c pos := ⟨hzero, by omega, by omega⟩
  by_cases hcmd : infoType (c.fceInfo pos) = cmdPacket ∧ cap.cmdRspRxRing = .rxRing0
  · rw [if_pos hcmd]
    refine Or.inr (Or.inl ⟨hflags.1, hflags.2, hframed, hcmd, ?_⟩)
    rw [Nat.mod_eq_of_lt (by omega)]
    rfl
  rw [if_neg hcmd]
  by_cases hbytes : rxwiMpduByteCnt (c.rxwiWord pos) > c.thisFrameLen pos
  · rw [if_pos hbytes]
    exact Or.inl ⟨_, rfl, by simp; omega⟩
  rw [if_neg hbytes]
  cases al with
  | false =>
    exact Or.inl ⟨_, rfl, by simp; omega⟩
  | true =>
    refine Or.inr (Or.inr ⟨hflags.1, hflags.2, hframed, hcmd, Nat.le_of_not_gt hbytes, ?_⟩)
    rw [Nat.mod_eq_of_lt (by omega)]
    rfl

theorem getPacketFromRxRing_of_cmd (al : Bool) (hr : c.readable = true) (hu : c.inUse = false)
    (hf : Framed c pos) (hc : IsCmd cap c pos) : getPacketFromRxRing cap c al pos = cmdAnswer c pos := by
  have hroom := hf.room
  have hfits := c.fits
  have hpkt := pktLen_lt (c.fceInfo pos)
  have hdma : rxdmaFieldSize = 4 := rfl
  have hinfo : rxInfoSize = 4 := rfl
  have hfce : rxFceInfoSize = 4 := rfl
  unfold getPacketFromRxRing
  rw [rxBufferLength_eq (by omega), if_neg (by simp [hr, hu])]
  unfold IsCmd at hc
  rw [if_neg (by omega), if_neg hf.pos_len, if_neg (not_not.2 hf.aligned), if_neg (by omega), if_pos hc]
  rw [Nat.mod_eq_of_lt (by omega)]
  rfl

theorem getPacketFromRxRing_of_data (hr : c.readable = true) (hu : c.inUse = false) (hf : Framed c pos)
    (hc : ¬ IsCmd cap c pos) (hb : rxwiMpduByteCnt (c.rxwiWord pos) ≤ c.thisFrameLen pos) :
    getPacketFromRxRing cap c true pos = packetAnswer c pos := by
  have hroom := hf.room
  have hfits := c.fits
  have hdma : rxdmaFieldSize = 4 := rfl
  have hinfo : rxInfoSize = 4 := rfl
  unfold getPacketFromRxRing
  rw [rxBufferLength_eq (by omega), if_neg (by simp [hr, hu])]
  unfold IsCmd at hc
  rw [if_neg (by omega), if_neg hf.pos_len, if_neg (not_not.2 hf.aligned), if_neg (by omega), if_neg hc,
    if_neg (by omega)]
  rw [Nat.mod_eq_of_lt (by omega)]
  rfl

/-! ### The calls on a well-formed buffer -/

theorem length_le16 (n : ℕ) : (le16 n).length = 2 := rfl

/-- **The layout of a record.** What the code reads of the length word, the RXFCE info and the bytes
between them. -/
theorem layout {high body fce : List Byte} (hhigh : high.length = 2) (hbody : body.length < 2 ^ 16)
    (hfce : fce.length = rxFceInfoSize)
    (h : HoldsAt c.transferBuffer pos (le16 body.length ++ high ++ body ++ fce)) :
    c.thisFrameLen pos = body.length ∧ c.fceInfo pos = fce ∧
      HoldsAt c.transferBuffer (pos + 4) (body ++ fce) := by
  rw [List.append_assoc, holdsAt_append, holdsAt_append] at h
  obtain ⟨⟨hlen, -⟩, hrest⟩ := h
  rw [List.length_append, length_le16, hhigh] at hrest
  have hframe : c.thisFrameLen pos = body.length := by
    have h0 := holdsAt_iff.1 hlen 0 Nat.two_pos
    have h1 := holdsAt_iff.1 hlen 1 Nat.one_lt_two
    unfold RxContext.thisFrameLen
    rw [Nat.add_zero] at h0
    rw [h0, h1]
    have e0 : (mem (le16 body.length) 0).toNat = body.length % 2 ^ 8 := BitVec.toNat_ofNat _ _
    have e1 : (mem (le16 body.length) 1).toNat = body.length / 2 ^ 8 % 2 ^ 8 := BitVec.toNat_ofNat _ _
    rw [e0, e1]
    omega
  refine ⟨hframe, ?_, hrest⟩
  have := (holdsAt_append.1 hrest).2
  unfold HoldsAt at this
  unfold RxContext.fceInfo
  rw [hframe, ← hfce]
  exact this

variable {alloc}

theorem DataRecord.length_frame (d : DataRecord cap) :
    d.frame.length = 4 + cap.rxwiSize + d.mpdu.length + d.padding.length := by
  have h1 := d.length_rxInfo
  have h2 := d.length_rxwi
  have h4 : rxInfoSize = 4 := rfl
  simp only [DataRecord.frame, List.length_append]
  omega

theorem DataRecord.length_bytes (d : DataRecord cap) : (Record.data d).bytes.length = d.frame.length + 8 := by
  have h1 := d.length_lengthHigh
  have h2 := d.length_fceInfo
  have h4 : rxFceInfoSize = 4 := rfl
  simp only [Record.bytes, List.length_append, length_le16]
  omega

theorem CmdRecord.length_bytes (r : CmdRecord cap) : (Record.cmd r).bytes.length = r.payload.length + 8 := by
  have h1 := r.length_lengthHigh
  have h2 := r.length_fceInfo
  have h4 : rxFceInfoSize = 4 := rfl
  simp only [Record.bytes, List.length_append, length_le16]
  omega

theorem layout_data (d : DataRecord cap) (h : HoldsAt c.transferBuffer pos (Record.data d).bytes) :
    c.thisFrameLen pos = d.frame.length ∧ c.fceInfo pos = d.fceInfo ∧
      HoldsAt c.transferBuffer (pos + 4) d.rxInfo ∧
      HoldsAt c.transferBuffer (pos + 8) (d.rxwi ++ d.mpdu ++ d.padding ++ d.fceInfo) ∧
      rxwiMpduByteCnt (c.rxwiWord pos) = d.mpdu.length := by
  have hshort : d.frame.length < 2 ^ 16 := by
    have := d.short
    simp only [DataRecord.frame, List.length_append]
    omega
  have hwi := d.length_rxwi
  have hwo := d.word_le
  obtain ⟨hframe, hfce, hbody⟩ := layout d.length_lengthHigh hshort d.length_fceInfo h
  rw [DataRecord.frame, List.append_assoc, holdsAt_append, d.length_rxInfo] at hbody
  refine ⟨hframe, hfce, hbody.1, hbody.2, ?_⟩
  have hrxwi := (holdsAt_append.1 (holdsAt_append.1 (holdsAt_append.1 hbody.2).1).1).1
  have h2 := holdsAt_iff.1 hrxwi 2 (by omega)
  have h3 := holdsAt_iff.1 hrxwi 3 (by omega)
  rw [← d.byteCnt]
  unfold rxwiMpduByteCnt RxContext.rxwiWord readAt
  rw [mem_read (by decide), mem_read (by decide)]
  rw [← h2, ← h3]
  rfl

theorem getPacketFromRxRing_record (r : Record cap) (hr : c.readable = true) (hu : c.inUse = false)
    (h : HoldsAt c.transferBuffer pos r.bytes) (hroom : pos + r.bytes.length ≤ c.bulkInOffset) :
    (getPacketFromRxRing cap c true pos).packet = r.packet ∧
      (getPacketFromRxRing cap c true pos).goesOn = true ∧
      (getPacketFromRxRing cap c true pos).readPosition = pos + r.bytes.length := by
  cases r with
  | data d =>
    obtain ⟨hframe, hfce, hinfo, hpkt, hcnt⟩ := layout_data d h
    have hlen := d.length_frame
    rw [d.length_bytes] at hroom ⊢
    have hframed : Framed c pos := by
      refine ⟨by omega, ?_, by omega⟩
      have := d.aligned
      rw [hframe]
      simp only [DataRecord.frame, List.length_append]
      omega
    have hdata : ¬ IsCmd cap c pos := by
      intro hc
      unfold IsCmd at hc
      rw [hfce] at hc
      exact d.data hc.1
    have hdatalen : (d.rxwi ++ d.mpdu ++ d.padding ++ d.fceInfo).length = d.frame.length := by
      have h1 := d.length_rxwi
      have h2 := d.length_fceInfo
      have h4 : rxFceInfoSize = 4 := rfl
      simp only [List.length_append]
      omega
    rw [getPacketFromRxRing_of_data hr hu hframed hdata (by omega)]
    refine ⟨?_, rfl, by simp only [packetAnswer, hframe]⟩
    unfold HoldsAt at hpkt hinfo
    rw [hdatalen] at hpkt
    rw [d.length_rxInfo] at hinfo
    simp only [packetAnswer, Record.packet, hframe, hfce, hpkt]
    rw [← hinfo]
    rfl
  | cmd r =>
    have hpkt := r.pktLen
    have hlt := pktLen_lt r.fceInfo
    obtain ⟨hframe, hfce, -⟩ := layout r.length_lengthHigh (by omega) r.length_fceInfo h
    rw [r.length_bytes] at hroom ⊢
    have hframed : Framed c pos := by
      refine ⟨?_, by rw [hframe]; exact r.aligned, by omega⟩
      rw [hframe]
      exact fun h0 => r.nonempty (List.length_eq_zero_iff.1 h0)
    have hcmd : IsCmd cap c pos := by
      unfold IsCmd
      rw [hfce]
      exact ⟨r.cmd, r.ring⟩
    rw [getPacketFromRxRing_of_cmd true hr hu hframed hcmd]
    refine ⟨rfl, rfl, ?_⟩
    simp only [cmdAnswer, hfce, hpkt]
    omega

theorem callPos_succ {n : ℕ} (h : callPos cap c alloc n = some pos) :
    callPos cap c alloc (n + 1) =
      if (getPacketFromRxRing cap c (alloc n) pos).goesOn then
        some (getPacketFromRxRing cap c (alloc n) pos).readPosition else none := by
  simp only [callPos, h]

theorem returned_succ {n : ℕ} (h : callPos cap c alloc n = some pos) :
    returned cap c alloc (n + 1) =
      returned cap c alloc n ++ (getPacketFromRxRing cap c (alloc n) pos).packet.toList := by
  simp only [returned, h]

/-- **The calls on a concatenation of records.** The induction is on the records that are left. -/
theorem calls_buffer (hr : c.readable = true) (hu : c.inUse = false) (halloc : ∀ n, alloc n = true)
    (rs : List (Record cap)) {n : ℕ} (h : HoldsAt c.transferBuffer pos (buffer rs))
    (hoff : c.bulkInOffset = pos + (buffer rs).length) (hpos : callPos cap c alloc n = some pos) :
    ∃ m, callPos cap c alloc m = none ∧
      returned cap c alloc m = returned cap c alloc n ++ rs.filterMap Record.packet := by
  induction rs generalizing pos n with
  | nil =>
    have hnull : getPacketFromRxRing cap c (alloc n) pos = labelNull pos [] := by
      have hend : c.bulkInOffset = pos := by simpa [buffer] using hoff
      unfold getPacketFromRxRing
      rw [rxBufferLength_eq (by omega), if_neg (by simp [hr, hu])]
      rw [if_pos (by rw [hend, Nat.sub_self]; decide)]
    refine ⟨n + 1, ?_, ?_⟩
    · rw [callPos_succ hpos, hnull]
      rfl
    · rw [returned_succ hpos, hnull]
      rfl
  | cons r rs ih =>
    have hbuf : buffer (r :: rs) = r.bytes ++ buffer rs := List.flatMap_cons
    rw [hbuf, holdsAt_append] at h
    rw [hbuf, List.length_append] at hoff
    obtain ⟨hp, hg, hn⟩ := getPacketFromRxRing_record r hr hu h.1 (by omega)
    have hnext : callPos cap c alloc (n + 1) = some (pos + r.bytes.length) := by
      rw [callPos_succ hpos, halloc n, if_pos hg, hn]
    obtain ⟨m, hm, hret⟩ := ih h.2 (by omega) hnext
    refine ⟨m, hm, ?_⟩
    rw [hret, returned_succ hpos, halloc n, hp, List.append_assoc]
    congr 1
    cases r with
    | data d => rfl
    | cmd r => rfl

/-! ### The calls on any buffer -/

theorem byteCnt_packet (h : 4 ≤ c.thisFrameLen pos) :
    rxwiMpduByteCnt (readAt c.transferBuffer (pos + 8) (c.thisFrameLen pos)) =
      rxwiMpduByteCnt (c.rxwiWord pos) := by
  unfold rxwiMpduByteCnt RxContext.rxwiWord readAt
  rw [mem_read (by omega), mem_read (by omega), mem_read (by decide), mem_read (by decide)]
  rfl

theorem Framed.four_le (h : Framed c pos) : 4 ≤ c.thisFrameLen pos := by
  have h1 := h.pos_len
  have h2 := h.aligned
  omega

/-- **Positions under the condition.** Every call is at the start of a record inside the buffer, and each
call has moved on by at least eight bytes. The induction is on the number of calls. -/
theorem callPos_sized (hs : Sized cap c) (n : ℕ) (h : callPos cap c alloc n = some pos) :
    RecordAt cap c pos ∧ pos ≤ c.bulkInOffset ∧ 8 * n ≤ pos := by
  induction n generalizing pos with
  | zero =>
    obtain rfl : 0 = pos := Option.some.inj h
    exact ⟨.first, Nat.zero_le _, le_rfl⟩
  | succ n ih =>
    cases hn : callPos cap c alloc n with
    | none =>
      simp only [callPos, hn] at h
      exact absurd h (by simp)
    | some p =>
      obtain ⟨hrec, hin, hmul⟩ := ih hn
      rw [callPos_succ hn] at h
      rcases getPacketFromRxRing_cases cap (alloc n) hin with
        ⟨reads, ha, -⟩ | ⟨hr, hu, hf, hc, ha⟩ | ⟨hr, hu, hf, hc, hb, ha⟩
      · rw [ha] at h
        exact absurd h (by simp [labelNull, Answer.goesOn])
      · rw [ha] at h
        obtain rfl : p + (8 + pktLen (c.fceInfo p)) = pos := Option.some.inj h
        exact ⟨hrec.cmd hf hc, (hs hr hu p hrec hf).2 hc, by omega⟩
      · rw [ha] at h
        obtain rfl : p + (c.thisFrameLen p + 8) = pos := Option.some.inj h
        have hroom := hf.room
        exact ⟨hrec.data hf hc hb, by omega, by omega⟩

theorem parsed_of_sized (hs : Sized cap c) : Parsed cap c alloc := by
  refine ⟨?_, ?_, ?_, ?_⟩
  · intro n pos hn
    obtain ⟨hrec, hin, -⟩ := callPos_sized hs n hn
    refine ⟨hin, ?_⟩
    rcases getPacketFromRxRing_cases cap (alloc n) hin with
      ⟨reads, ha, hreads⟩ | ⟨hr, hu, hf, hc, ha⟩ | ⟨hr, hu, hf, hc, hb, ha⟩
    · rw [ha]
      exact ⟨hin, hreads⟩
    · rw [ha]
      have hroom := hf.room
      refine ⟨(hs hr hu pos hrec hf).2 hc, ?_⟩
      simp [cmdAnswer]
      omega
    · rw [ha]
      have hroom := hf.room
      have hfour := hf.four_le
      refine ⟨by simp only [packetAnswer]; omega, ?_⟩
      simp [packetAnswer]
      omega
  · refine ⟨c.bulkInOffset + 1, ?_⟩
    cases hn : callPos cap c alloc (c.bulkInOffset + 1) with
    | none => rfl
    | some pos =>
      obtain ⟨-, hin, hmul⟩ := callPos_sized hs _ hn
      omega
  · intro n pos p hn hp
    obtain ⟨hrec, hin, -⟩ := callPos_sized hs n hn
    rcases getPacketFromRxRing_cases cap (alloc n) hin with
      ⟨reads, ha, -⟩ | ⟨hr, hu, hf, hc, ha⟩ | ⟨hr, hu, hf, hc, hb, ha⟩
    · rw [ha] at hp
      exact absurd hp (by simp [labelNull])
    · rw [ha] at hp
      exact absurd hp (by simp [cmdAnswer])
    · rw [ha] at hp
      obtain rfl := Option.some.inj hp
      have hsize := (hs hr hu pos hrec hf).1 hc hb
      have h4 : rxFceInfoSize = rxInfoSize := rfl
      unfold RxPacket.Whole
      rw [byteCnt_packet hf.four_le, length_readAt]
      omega
  · intro rs hoff hholds hr hu halloc
    exact calls_buffer (n := 0) hr hu halloc rs hholds (by omega) rfl

theorem callPos_of_recordAt (hr : c.readable = true) (hu : c.inUse = false)
    (hrec : RecordAt cap c pos) : ∃ n, callPos cap c (fun _ => true) n = some pos := by
  induction hrec with
  | first => exact ⟨0, rfl⟩
  | data h hf hd hb ih =>
    obtain ⟨n, hn⟩ := ih
    refine ⟨n + 1, ?_⟩
    rw [callPos_succ hn, getPacketFromRxRing_of_data hr hu hf hd hb]
    rfl
  | cmd h hf hd ih =>
    obtain ⟨n, hn⟩ := ih
    refine ⟨n + 1, ?_⟩
    rw [callPos_succ hn, getPacketFromRxRing_of_cmd true hr hu hf hd]
    rfl

/-- **Which buffers are parsed safely.** Whatever allocations succeed, the calls stay inside the buffer, end,
return packets that contain what their RXWI says, and return the data records of a well-formed buffer, if
and only if no data record claims a longer MPDU than it has room for and no command response a length beyond
the buffer. -/
theorem parsed_iff (cap : ChipCap) (c : RxContext) : (∀ alloc, Parsed cap c alloc) ↔ Sized cap c := by
  constructor
  · intro hp hr hu pos hrec hf
    have h := hp fun _ => true
    obtain ⟨n, hn⟩ := callPos_of_recordAt hr hu hrec
    constructor
    · intro hc hb
      have hw := h.whole n pos _ hn (by rw [getPacketFromRxRing_of_data hr hu hf hc hb]; rfl)
      have h4 : rxFceInfoSize = rxInfoSize := rfl
      unfold RxPacket.Whole at hw
      rw [byteCnt_packet hf.four_le, length_readAt] at hw
      omega
    · intro hc
      have hi := (h.inside n pos hn).2.1
      rw [getPacketFromRxRing_of_cmd true hr hu hf hc] at hi
      exact hi
  · intro hs alloc
    exact parsed_of_sized hs

def mt76x0Cap : ChipCap := { rxwiSize := 28, cmdRspRxRing := .rxRing1 }

/-- One record of 32 bytes behind the length word; the RXWI says that the MPDU has 32 bytes, but behind
RXINFO and RXWI nothing is left. -/
def overlong : RxContext where
  transferBuffer := mem ([32#8, 0, 0, 0] ++ [0, 0, 0, 0] ++ [0, 0, 32#8, 0] ++ List.replicate 24 0 ++
    [32#8, 0, 0x08#8, 0])
  bulkInOffset := 40
  readable := true
  inUse := false
  fits := by decide

set_option maxRecDepth 1000 in
/-- **A packet shorter than its RXWI says.** -/
theorem not_parsed_overlong : ¬ Parsed mt76x0Cap overlong fun _ => true := by
  intro h
  have hw := h.whole 0 0 _ rfl (by decide :
    (getPacketFromRxRing mt76x0Cap overlong true 0).packet = some
      { data := [0, 0, 32#8, 0] ++ List.replicate 24 0 ++ [32#8, 0, 0x08#8, 0]
        fceInfo := [32#8, 0, 0x08#8, 0]
        rxInfo := [0, 0, 0, 0] })
  revert hw
  unfold RxPacket.Whole
  decide

end Mt7610u.Usb
