import Mt7610u.Lib.Bytes

/-! # 802.3 frames and their encapsulation

The frames that the network stack hands to the transmit path, and the LLC/SNAP header that an 802.11
frame carries in front of their payload. -/

namespace Mt7610u.Data

open Lib

def snap8021h : List Byte := [0xaa#8, 0xaa#8, 0x03#8, 0x00#8, 0x00#8, 0x00#8]

def snapBridgeTunnel : List Byte := [0xaa#8, 0xaa#8, 0x03#8, 0x00#8, 0x00#8, 0xf8#8]

/-- The EtherType `IPX`. -/
def ipx : List Byte := [0x81#8, 0x37#8]

/-- The EtherType `APPLE_TALK`. -/
def appleTalk : List Byte := [0x80#8, 0xf3#8]

/-- `EXTRA_LLCSNAP_ENCAP_FROM_PKT_START` and `EXTRA_LLCSNAP_ENCAP_FROM_PKT_OFFSET`: the encapsulation
that a frame with the type or length `t` needs, if any. -/
def extraLlcSnapEncap (t : List Byte) : Option (List Byte) :=
  if bigEndian t > 1500 then
    if t = ipx ∨ t = appleTalk then some snapBridgeTunnel else some snap8021h
  else none

/-- An 802.3 frame at `pSrcBufHeader`, and whether the packet is marked as carrying a VLAN tag. A frame
is at least as long as its headers. -/
structure EthFrame where
  bytes : List Byte
  vlan : Bool
  length_ge : 14 + (if vlan then 4 else 0) ≤ bytes.length

namespace EthFrame

variable (f : EthFrame)

def vlanSize : ℕ := if f.vlan then 4 else 0

def body : List Byte := f.bytes.drop (14 + f.vlanSize)

def outerType : List Byte := (f.bytes.drop 12).take 2

def typeLen : List Byte := (f.bytes.drop (12 + f.vlanSize)).take 2

def addresses : List Byte := f.bytes.take 12

theorem length_addresses : f.addresses.length = 12 := by
  have h := f.length_ge
  unfold addresses
  rw [List.length_take]
  omega

theorem length_typeLen : f.typeLen.length = 2 := by
  have h := f.length_ge
  unfold typeLen vlanSize
  rw [List.length_take, List.length_drop]
  omega

theorem length_body : f.body.length + 14 + f.vlanSize = f.bytes.length := by
  have h := f.length_ge
  unfold body vlanSize
  rw [List.length_drop]
  omega

theorem bytes_eq (h : f.vlan = false) : f.bytes = f.addresses ++ f.typeLen ++ f.body := by
  have hv : f.vlanSize = 0 := by
    unfold vlanSize
    rw [h]
    rfl
  have hsplit : f.bytes.drop 14 = (f.bytes.drop 12).drop 2 := by rw [List.drop_drop]
  unfold addresses typeLen body
  rw [hv, Nat.add_zero, Nat.add_zero, hsplit, List.append_assoc, List.take_append_drop, List.take_append_drop]

end EthFrame

end Mt7610u.Data
