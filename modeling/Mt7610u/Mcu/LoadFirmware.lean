import Mt7610u.Lib.Bytes

/-! # Loading the firmware

`andes_usb_loadfw` sends the two parts of the firmware image to the chip, in pieces that fit its buffer. A piece
is rounded up to four octets, and four octets behind it are cleared; what is sent behind those is left from
before. -/

namespace Mt7610u.Mcu.LoadFirmware

open Lib

/-! ### The code -/

/-- `UPLOAD_FW_UNIT`, `USB_END_PADDING`, `FW_INFO_SIZE`, `sizeof(TXINFO_NMAC_CMD)` -/
abbrev uploadFwUnit : ℕ := 14592
abbrev usbEndPadding : ℕ := 4
abbrev fwInfoSize : ℕ := 32
abbrev txInfoSize : ℕ := 4

abbrev sentLenMax : ℕ := uploadFwUnit - txInfoSize - usbEndPadding

/-- What the chip's capabilities have of the firmware. The image is what lies at `FWImageName`, which ends
behind the two parts. -/
structure Firmware where
  loadIv : Bool
  ilmOffset : BitVec 32
  dlmOffset : BitVec 32
  image : ℕ → Byte

namespace Firmware

def word (fw : Firmware) (i : ℕ) : BitVec 32 :=
  fw.image (i + 3) ++ fw.image (i + 2) ++ fw.image (i + 1) ++ fw.image i

def ilmLen (fw : Firmware) : BitVec 32 := fw.word 0

def dlmLen (fw : Firmware) : BitVec 32 := fw.word 4

/-- The first octet of the ILM that is sent; the interrupt vector before it is loaded otherwise. -/
def start (fw : Firmware) : BitVec 32 := if fw.loadIv then 0x40 else 0

def size (fw : Firmware) : ℕ := fwInfoSize + fw.ilmLen.toNat + fw.dlmLen.toNat

end Firmware

/-- `fw_data` -/
abbrev Buffer := ℕ → Byte

/-- `info_type`, `pkt_len` and `d_port`; the other fields of the descriptor are left. -/
def setTxInfo (buf : Buffer) (pktLen : ℕ) : Buffer
  | 0 => BitVec.ofNat 8 pktLen
  | 1 => BitVec.ofNat 8 (pktLen / 256)
  | 3 => (buf 3 &&& 0x07) ||| 0x50
  | i => buf i

def moveMemory (buf : Buffer) (dst : ℕ) (image : ℕ → Byte) (src n : ℕ) : Buffer := fun i =>
  if dst ≤ i ∧ i < dst + n then image (src + (i - dst)) else buf i

def zeroMemory (buf : Buffer) (dst n : ℕ) : Buffer := fun i => if dst ≤ i ∧ i < dst + n then 0 else buf i

def filled (buf : Buffer) (image : ℕ → Byte) (src sentLen : ℕ) : Buffer :=
  zeroMemory (moveMemory (setTxInfo buf sentLen) txInfoSize image src sentLen) (txInfoSize + sentLen)
    usbEndPadding

/-- `while ((sent_len % 4) != 0) sent_len++` -/
def roundUp (sentLen : ℕ) : ℕ := if sentLen % 4 = 0 then sentLen else roundUp (sentLen + 1)
termination_by (4 - sentLen % 4) % 4

structure Transfer where
  fceLow : BitVec 16
  fceHigh : BitVec 16
  dmaLow : BitVec 16
  dmaHigh : BitVec 16
  source : ℕ
  pktLen : ℕ
  length : ℕ
  buf : Buffer

/-- The transfer of `sentLen` octets at `curLen` of a part that lies at `base` of the image. -/
def transfer (fw : Firmware) (base : ℕ) (offset curLen : BitVec 32) (sentLen : ℕ) (buf : Buffer) : Transfer :=
  let address := curLen + offset
  let rounded := BitVec.ofNat 32 (roundUp sentLen)
  { fceLow := (address &&& 0xFFFF).setWidth 16
    fceHigh := ((address &&& 0xFFFF0000) >>> 16).setWidth 16
    dmaLow := ((rounded <<< 16) &&& 0xFFFF).setWidth 16
    dmaHigh := (((rounded <<< 16) &&& 0xFFFF0000) >>> 16).setWidth 16
    source := base + curLen.toNat
    pktLen := sentLen
    length := roundUp sentLen + txInfoSize + usbEndPadding
    buf := filled buf fw.image (base + curLen.toNat) sentLen }

theorem toNat_sub_add {len curLen : BitVec 32} {n : ℕ} (h : n ≤ (len - curLen).toNat) :
    (len - (curLen + BitVec.ofNat 32 n)).toNat = (len - curLen).toNat - n := by
  have hlt := (len - curLen).isLt
  have hn : (BitVec.ofNat 32 n).toNat = n := by
    rw [BitVec.toNat_ofNat]
    exact Nat.mod_eq_of_lt (by omega)
  have heq : len - (curLen + BitVec.ofNat 32 n) = len - curLen - BitVec.ofNat 32 n := by
    rw [BitVec.sub_sub]
  rw [heq, BitVec.toNat_sub_of_le (BitVec.le_def.2 (hn.symm ▸ h)), hn]

/-- `sent_len`, with `left` octets of the part to go. -/
def nextLen (left : ℕ) : ℕ := if sentLenMax ≤ left then sentLenMax else left

theorem nextLen_le (left : ℕ) : nextLen left ≤ left := by
  unfold nextLen
  split_ifs with h
  · exact h
  · exact le_rfl

/-- A loop over one part, from its transfer `i` on: the transfers and the buffer after them. `ok i` tells
whether the requests of that transfer succeed. -/
def load (fw : Firmware) (base : ℕ) (offset len : BitVec 32) (ok : ℕ → Bool) (i : ℕ) (curLen : BitVec 32)
    (buf : Buffer) : Option (List Transfer × Buffer) :=
  let sentLen := nextLen (len - curLen).toNat
  if 0 < sentLen then
    let t := transfer fw base offset curLen sentLen buf
    if ok i then
      (load fw base offset len ok (i + 1) (curLen + BitVec.ofNat 32 sentLen) t.buf).map fun r => (t :: r.1, r.2)
    else none
  else some ([], buf)
termination_by (len - curLen).toNat
decreasing_by
  have hle := nextLen_le (len - curLen).toNat
  have hsub := toNat_sub_add hle
  simp only [sentLen] at *
  omega

structure Upload where
  ilm : List Transfer
  dlm : List Transfer

/-- The loops of `andes_usb_loadfw`. -/
def andesUsbLoadfw (fw : Firmware) (ok : ℕ → Bool) (buf : Buffer) : Option Upload :=
  (load fw fwInfoSize fw.ilmOffset fw.ilmLen ok 0 fw.start buf).bind fun ilm =>
    (load fw (fwInfoSize + fw.ilmLen.toNat) fw.dlmOffset fw.dlmLen ok ilm.1.length 0 ilm.2).map fun dlm =>
      ⟨ilm.1, dlm.1⟩

/-! ### What should arrive -/

namespace Transfer

def address (t : Transfer) : BitVec 32 := t.fceHigh ++ t.fceLow

def sent (t : Transfer) : List (BitVec 32 × Byte) :=
  (List.range t.pktLen).map fun i => (t.address + BitVec.ofNat 32 i, t.buf (txInfoSize + i))

def rounded (t : Transfer) : ℕ := (t.pktLen + 3) / 4 * 4

end Transfer

/-- The octets from `a` to `b` of a part at `base`, with their addresses. -/
def part (image : ℕ → Byte) (base : ℕ) (offset : BitVec 32) (a b : ℕ) : List (BitVec 32 × Byte) :=
  (List.range' a (b - a)).map fun pos => (offset + BitVec.ofNat 32 pos, image (base + pos))

/-- The two parts are sent, each octet once and in order; every transfer fits the buffer, ends with zeros and
takes its octets from the image. -/
structure Uploads (fw : Firmware) (up : Upload) : Prop where
  ilm : up.ilm.flatMap Transfer.sent = part fw.image fwInfoSize fw.ilmOffset fw.start.toNat fw.ilmLen.toNat
  dlm : up.dlm.flatMap Transfer.sent = part fw.image (fwInfoSize + fw.ilmLen.toNat) fw.dlmOffset 0 fw.dlmLen.toNat
  whole : ∀ t ∈ up.ilm ++ up.dlm, t.length = txInfoSize + t.rounded + usbEndPadding ∧
    (t.dmaHigh ++ t.dmaLow).toNat = t.rounded * 2 ^ 16
  fits : ∀ t ∈ up.ilm ++ up.dlm, t.length ≤ uploadFwUnit
  padding : ∀ t ∈ up.ilm ++ up.dlm, ∀ i, txInfoSize + t.pktLen ≤ i → i < t.length → t.buf i = 0
  reads : ∀ t ∈ up.ilm ++ up.dlm, t.source + t.pktLen ≤ fw.size

/-! ### The condition -/

def view (buf : Buffer) (k : ℕ) : Byte := buf (txInfoSize + k)

/-- The same with a piece of the image at `src` in it. -/
def lay (image : ℕ → Byte) (src n : ℕ) (v : ℕ → Byte) (k : ℕ) : Byte :=
  if k < n then image (src + k) else if k < n + usbEndPadding then 0 else v k

/-- What is there before the last, shorter piece of a part of `n` octets at `src`: the last full piece, if there
was one. -/
def behind (image : ℕ → Byte) (src n : ℕ) (v : ℕ → Byte) : ℕ → Byte :=
  if n < sentLenMax then v else lay image (src + (n / sentLenMax - 1) * sentLenMax) sentLenMax v

def after (image : ℕ → Byte) (src n : ℕ) (v : ℕ → Byte) : ℕ → Byte :=
  if n % sentLenMax = 0 then behind image src n v
  else lay image (src + n / sentLenMax * sentLenMax) (n % sentLenMax) (behind image src n v)

def CleanEnd (image : ℕ → Byte) (src n : ℕ) (v : ℕ → Byte) : Prop :=
  ∀ k, n % sentLenMax + usbEndPadding ≤ k → k < (n % sentLenMax + 3) / 4 * 4 + usbEndPadding →
    behind image src n v k = 0

structure Clean (fw : Firmware) (buf : Buffer) : Prop where
  vector : fw.start ≤ fw.ilmLen
  ilm : CleanEnd fw.image (fwInfoSize + fw.start.toNat) (fw.ilmLen.toNat - fw.start.toNat) (view buf)
  dlm : CleanEnd fw.image (fwInfoSize + fw.ilmLen.toNat) fw.dlmLen.toNat
    (after fw.image (fwInfoSize + fw.start.toNat) (fw.ilmLen.toNat - fw.start.toNat) (view buf))

end Mt7610u.Mcu.LoadFirmware
