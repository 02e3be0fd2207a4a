import Mt7610u.Mcu.LifeCycle
import Mathlib.Algebra.Ring.Nat

/-! # The firmware and the register reads

The firmware gets the commands whose URBs are at the host controller, and answers each of them once, as late as
it likes: the sender may have given up long ago. `andes_burst_read`, `andes_random_read` and
`andes_rf_random_read` send one command for each part of the result that fits into a response.

A command has a number of four bits, the response repeats it, and this is all that the driver compares. -/

namespace Mt7610u.Mcu

open Lib.DlList Lib.Runs

inductive ReadKind
  | burst
  | random
  | rfRandom
  deriving DecidableEq

abbrev inbandPacketMaxLen : ℕ := 192

abbrev ndisStatusResources : ℤ := 3

namespace ReadKind

/-- How long the responses are together, before the length is cut to 32 bits; a response to a burst read
starts with the offset. -/
def total : ReadKind → ℕ → ℕ
  | .burst, cnt =>
    let offsetNum := cnt / ((inbandPacketMaxLen - 4) / 4)
    if cnt % ((inbandPacketMaxLen - 4) / 4) ≠ 0 then 4 * (offsetNum + 1) + 4 * cnt else 4 * offsetNum + 4 * cnt
  | .random, num | .rfRandom, num => num * 8

theorem total_burst (cnt : ℕ) : ReadKind.burst.total cnt = 4 * ((cnt + 46) / 47) + 4 * cnt := by
  simp only [total, inbandPacketMaxLen]
  split <;> omega

/-- `rsp_len`, `var_len`. -/
def rspLen (kind : ReadKind) (cnt : ℕ) : ℕ := kind.total cnt % 2 ^ 32

def words : ReadKind → ℕ → ℕ
  | .burst, receiveLen => (receiveLen - 4) / 4
  | .random, receiveLen | .rfRandom, receiveLen => receiveLen / 8

end ReadKind

structure Chunk (μ : Type) where
  msg : μ
  curIndex : ℕ
  receiveLen : ℕ

/-- A call of a function that reads registers, with the rounds of its loop, the latest first. `allOnes` tells
that `*data` was set to `0xffffffff`. -/
structure Read (μ : Type) where
  kind : ReadKind
  cnt : ℕ
  curLen : ℕ
  curIndex : ℕ
  ret : ℤ
  allOnes : Bool
  chunks : List (Chunk μ)

namespace Read

variable {μ : Type}

def start (kind : ReadKind) (cnt : ℕ) : Read μ :=
  { kind := kind, cnt := cnt, curLen := 0, curIndex := 0, ret := 0, allOnes := false, chunks := [] }

def rspLen (rd : Read μ) : ℕ := rd.kind.rspLen rd.cnt

def receiveLen (rd : Read μ) : ℕ :=
  if rd.rspLen - rd.curLen > inbandPacketMaxLen then inbandPacketMaxLen else rd.rspLen - rd.curLen

def last (rd : Read μ) : Bool := decide (rd.rspLen ≤ rd.curLen + inbandPacketMaxLen)

/-- The rest of a round, behind `andes_send_cmd_msg`. -/
def sent (rd : Read μ) (ret : ℤ) : Read μ :=
  { rd with
    ret := ret
    allOnes := rd.allOnes || decide (rd.kind = .burst ∧ ret ≠ 0 ∧ rd.cnt = 1)
    curIndex := (rd.curIndex + rd.kind.words rd.receiveLen) % 2 ^ 32
    curLen := (rd.curLen + inbandPacketMaxLen) % 2 ^ 32 }

def resume (rd : Read μ) (ret : ℤ) : Read μ :=
  match rd.chunks with
  | [] => rd
  | _ :: _ => rd.sent ret

/-- The callback for the chunk `c` writes the word `w`. -/
def Covers (rd : Read μ) (c : Chunk μ) (w : ℕ) : Prop :=
  c.curIndex ≤ w ∧ w < c.curIndex + rd.kind.words c.receiveLen

end Read

structure Device (κ μ : Type) where
  drv : Sys κ μ
  received : μ → Bool
  inbox : List (μ × ℕ)
  reading : κ → Option (Read μ)
  returned : List (Read μ)

inductive DeviceOp (κ μ : Type)
  | drv (op : Op κ μ)
  -- the firmware receives a command; it answers one of those it has received, with a payload of that length
  | deliver (m : μ)
  | answer (i : ℕ) (pktLen : ℕ)
  -- one of the three functions is called; a round of its loop, with what `andes_alloc_cmd_msg` returns
  | read (k : κ) (kind : ReadKind) (cnt : ℕ) (data : Bool)
  | round (k : κ) (m : Option μ)

namespace Device

variable {κ μ : Type}

def init (κ μ : Type) : Device κ μ :=
  { drv := Sys.init κ μ
    received := fun _ => false
    inbox := []
    reading := fun _ => none
    returned := [] }

def foreign (d : Device κ μ) : Op κ μ → Bool
  | .receive _ => true
  | .send k _ _ _ => (d.reading k).isSome
  | _ => false

def Outstanding (d : Device κ μ) (z : μ) : Prop :=
  ((d.drv.msg z).urb = .active ∧ d.received z = false) ∨ z ∈ d.inbox.map Prod.fst ∨
    some z ∈ d.drv.rxDoneq.map Response.origin

variable [DecidableEq κ]

def returns (d : Device κ μ) (k : κ) (rd : Read μ) : Device κ μ :=
  { d with reading := Function.update d.reading k none, returned := rd :: d.returned }

variable [DecidableEq μ]

def round (d : Device κ μ) (k : κ) (rd : Read μ) (m : Option μ) : Device κ μ :=
  if rd.curLen < rd.rspLen then
    match m with
    | none => d.returns k { rd with ret := ndisStatusResources }
    | some m =>
      if (d.drv.msg m).allocated = false then
        { d with
          drv := d.drv.send k m true rd.receiveLen
          reading := Function.update d.reading k
            (some { rd with chunks := ⟨m, rd.curIndex, rd.receiveLen⟩ :: rd.chunks }) }
      else d
  else d.returns k rd

def step (d : Device κ μ) : DeviceOp κ μ → Device κ μ
  | .drv op => if d.foreign op then d else { d with drv := d.drv.step op }
  | .deliver m =>
    if (d.drv.msg m).urb = .active ∧ d.received m = false then
      { d with
        received := Function.update d.received m true
        inbox := d.inbox ++ [(m, (d.drv.msg m).seq)] }
    else d
  | .answer i pktLen =>
    match d.inbox[i]? with
    | none => d
    | some (m, seq) =>
      { d with inbox := d.inbox.eraseIdx i, drv := d.drv.step (.receive ⟨seq, pktLen, some m⟩) }
  | .read k kind cnt data =>
    if d.drv.loc k = .idle ∧ d.reading k = none ∧ cnt < 2 ^ 32 then
      if data then { d with reading := Function.update d.reading k (some (Read.start kind cnt)) }
      else { d with returned := { Read.start kind cnt with ret := -1 } :: d.returned }
    else d
  | .round k m =>
    match d.reading k with
    | none => d
    | some rd => if d.drv.loc k = .idle then d.round k (rd.resume (d.drv.ret k)) m else d

end Device

variable {κ μ : Type}

def OwnResponse (s : Sys κ μ) (m : μ) : Prop := ∃ r, (s.msg m).filledBy = some r ∧ r.origin = some m

/-- **Responses belong to their commands.** -/
structure Matched (d : Device κ μ) : Prop where
  -- a command that a response completes, and whose result buffer it fills, is the one that it answers
  answered : ∀ m r, (d.drv.msg m).answeredBy = some r → r.origin = some m
  filled : ∀ m r, (d.drv.msg m).filledBy = some r → r.origin = some m
  -- a read that reports success has all its words from the responses to its commands
  read : ∀ rd ∈ d.returned, rd.ret = ndisStatusSuccess → rd.allOnes = false ∧
    ∀ w < rd.cnt, ∃ c ∈ rd.chunks, rd.Covers c w ∧ OwnResponse d.drv c.msg

def Bh.inHand : Bh μ → Option (μ × Response μ)
  | .responding m r => some (m, r)
  | _ => none

/-- What the matching needs of a step of the driver. A command with a response does not get the number of one
that the firmware can still answer. A response is as long as expected if its command expects data. The URB of a
command that reads registers goes out, and of such a read only the last command runs into its timeout or is
forbidden. -/
def Undisturbed (d : Device κ μ) : Op κ μ → Prop
  | .number k => ∀ m w x, d.drv.loc k = .number m w x → (d.drv.msg x).needRsp = true →
      ∀ z, d.Outstanding z → (d.drv.msg z).seq ≠ nextSeq d.drv.cmdSeq
  | .bhRespond => ∀ p ∈ d.drv.bh.inHand, (d.drv.msg p.1).rspPayloadLen ≠ 0 →
      p.2.pktLen = (d.drv.msg p.1).rspPayloadLen
  | .wake k => ∀ m, d.drv.loc k = .waiting m → (d.drv.msg m).ackDone = true → (d.reading k).isSome →
      (d.drv.msg m).state ≠ .txKickoutFail
  | .expire k => ∀ m, d.drv.loc k = .waiting m → (d.drv.msg m).ackDone = false →
      (d.reading k).all Read.last
  | .check k => ∀ m, d.drv.loc k = .entered m → d.drv.forbidden = true → (d.reading k).all Read.last
  | _ => True

/-- The condition: the driver's steps are timely and do not disturb the matching, and the lengths of a read fit
32 bits. -/
def Regular (d : Device κ μ) : DeviceOp κ μ → Prop
  | .drv op => Timely d.drv op ∧ Undisturbed d op
  | .read _ kind cnt data => data = true → kind.total cnt ≤ 2 ^ 32 - 64
  | _ => True

end Mt7610u.Mcu
