import Mathlib.Algebra.GroupWithZero.Nat
import Mathlib.Tactic.Common

/-! # The channel tables

The channels that a regulatory region or a country has. -/

namespace Mt7610u.Channel

abbrev CHANNEL_DEFAULT_PROP : BitVec 8 := 0x00

abbrev CHANNEL_PASSIVE_SCAN : BitVec 8 := 0x02

abbrev CHANNEL_40M_CAP : BitVec 8 := 0x40

structure ChDesc where
  firstChannel : ℕ
  numOfCh : ℕ
  channelProp : BitVec 8
  deriving DecidableEq, Repr

def Country_Region_ChDesc_2GHZ : List (ℕ × List ChDesc) := [
  (0, [⟨1, 11, CHANNEL_DEFAULT_PROP⟩]),
  (1, [⟨1, 13, CHANNEL_DEFAULT_PROP⟩]),
  (2, [⟨10, 2, CHANNEL_DEFAULT_PROP⟩]),
  (3, [⟨10, 4, CHANNEL_DEFAULT_PROP⟩]),
  (4, [⟨14, 1, CHANNEL_DEFAULT_PROP⟩]),
  (5, [⟨1, 14, CHANNEL_DEFAULT_PROP⟩]),
  (6, [⟨3, 7, CHANNEL_DEFAULT_PROP⟩]),
  (7, [⟨5, 9, CHANNEL_DEFAULT_PROP⟩]),
  (31, [⟨1, 11, CHANNEL_DEFAULT_PROP⟩, ⟨12, 3, CHANNEL_PASSIVE_SCAN⟩]),
  (32, [⟨1, 11, CHANNEL_DEFAULT_PROP⟩, ⟨12, 2, CHANNEL_PASSIVE_SCAN⟩]),
  (33, [⟨1, 14, CHANNEL_DEFAULT_PROP⟩])]

def Country_Region_ChDesc_5GHZ : List (ℕ × List ChDesc) := [
  (0, [⟨36, 8, CHANNEL_DEFAULT_PROP⟩, ⟨149, 5, CHANNEL_DEFAULT_PROP⟩]),
  (1, [⟨36, 8, CHANNEL_DEFAULT_PROP⟩, ⟨100, 11, CHANNEL_DEFAULT_PROP⟩]),
  (2, [⟨36, 8, CHANNEL_DEFAULT_PROP⟩]),
  (3, [⟨52, 4, CHANNEL_DEFAULT_PROP⟩, ⟨149, 4, CHANNEL_DEFAULT_PROP⟩]),
  (4, [⟨149, 5, CHANNEL_DEFAULT_PROP⟩]),
  (5, [⟨149, 4, CHANNEL_DEFAULT_PROP⟩]),
  (6, [⟨36, 4, CHANNEL_DEFAULT_PROP⟩]),
  (7, [⟨36, 8, CHANNEL_DEFAULT_PROP⟩, ⟨100, 11, CHANNEL_DEFAULT_PROP⟩, ⟨149, 7, CHANNEL_DEFAULT_PROP⟩]),
  (8, [⟨52, 4, CHANNEL_DEFAULT_PROP⟩]),
  (9, [⟨36, 8, CHANNEL_DEFAULT_PROP⟩, ⟨100, 5, CHANNEL_DEFAULT_PROP⟩, ⟨132, 3, CHANNEL_DEFAULT_PROP⟩,
    ⟨149, 5, CHANNEL_DEFAULT_PROP⟩]),
  (10, [⟨36, 4, CHANNEL_DEFAULT_PROP⟩, ⟨149, 5, CHANNEL_DEFAULT_PROP⟩]),
  (11, [⟨36, 8, CHANNEL_DEFAULT_PROP⟩, ⟨100, 6, CHANNEL_DEFAULT_PROP⟩, ⟨149, 4, CHANNEL_DEFAULT_PROP⟩]),
  (12, [⟨36, 8, CHANNEL_DEFAULT_PROP⟩, ⟨100, 11, CHANNEL_DEFAULT_PROP⟩]),
  (13, [⟨52, 4, CHANNEL_DEFAULT_PROP⟩, ⟨100, 11, CHANNEL_DEFAULT_PROP⟩, ⟨149, 4, CHANNEL_DEFAULT_PROP⟩]),
  (14, [⟨36, 8, CHANNEL_DEFAULT_PROP⟩, ⟨100, 5, CHANNEL_DEFAULT_PROP⟩, ⟨136, 2, CHANNEL_DEFAULT_PROP⟩,
    ⟨149, 5, CHANNEL_DEFAULT_PROP⟩]),
  (15, [⟨149, 7, CHANNEL_DEFAULT_PROP⟩]),
  (16, [⟨52, 4, CHANNEL_DEFAULT_PROP⟩, ⟨149, 5, CHANNEL_DEFAULT_PROP⟩]),
  (17, [⟨36, 4, CHANNEL_DEFAULT_PROP⟩, ⟨149, 4, CHANNEL_DEFAULT_PROP⟩]),
  (18, [⟨36, 8, CHANNEL_DEFAULT_PROP⟩, ⟨100, 5, CHANNEL_DEFAULT_PROP⟩, ⟨132, 3, CHANNEL_DEFAULT_PROP⟩]),
  (19, [⟨56, 3, CHANNEL_DEFAULT_PROP⟩, ⟨100, 11, CHANNEL_DEFAULT_PROP⟩, ⟨149, 4, CHANNEL_DEFAULT_PROP⟩]),
  (20, [⟨36, 8, CHANNEL_DEFAULT_PROP⟩, ⟨100, 7, CHANNEL_DEFAULT_PROP⟩, ⟨149, 4, CHANNEL_DEFAULT_PROP⟩]),
  (21, [⟨36, 8, CHANNEL_DEFAULT_PROP⟩, ⟨100, 11, CHANNEL_DEFAULT_PROP⟩, ⟨149, 4, CHANNEL_DEFAULT_PROP⟩]),
  (22, [⟨36, 8, CHANNEL_DEFAULT_PROP⟩])]

inductive Geography
  | ODOR
  | IDOR
  | BOTH
  deriving DecidableEq, Repr

inductive RdRegion
  | CE
  | FCC
  | JAP
  | JAP_W53
  | JAP_W56
  | MAX_RD_REGION
  deriving DecidableEq, Repr

structure ChDesp where
  firstChannel : ℕ
  numOfCh : ℕ
  maxTxPwr : ℕ
  geography : Geography
  dfsReq : Bool
  deriving DecidableEq, Repr

structure ChRegion where
  countReg : Char × Char
  dfsType : RdRegion
  pChDesp : List ChDesp
  deriving DecidableEq, Repr

/-- `ChRegion`, every country under the table that it points to. -/
def chRegion : List ChRegion := [
  ⟨('A', 'L'), .CE, [⟨1, 13, 20, .BOTH, false⟩]⟩,
  ⟨('D', 'Z'), .CE, [⟨1, 13, 20, .BOTH, false⟩]⟩,
  ⟨('A', 'R'), .CE, [⟨1, 13, 20, .BOTH, false⟩, ⟨36, 4, 17, .BOTH, false⟩, ⟨52, 4, 20, .BOTH, true⟩,
    ⟨100, 11, 20, .BOTH, true⟩, ⟨149, 5, 30, .BOTH, false⟩]⟩,
  ⟨('A', 'M'), .CE, [⟨1, 13, 20, .BOTH, false⟩, ⟨36, 4, 18, .BOTH, false⟩, ⟨52, 4, 18, .BOTH, true⟩]⟩,
  ⟨('A', 'W'), .CE, [⟨1, 13, 20, .BOTH, false⟩, ⟨36, 4, 20, .BOTH, false⟩, ⟨52, 4, 20, .BOTH, true⟩,
    ⟨100, 11, 27, .BOTH, true⟩]⟩,
  ⟨('A', 'U'), .CE, [⟨1, 13, 20, .BOTH, false⟩, ⟨36, 4, 23, .BOTH, false⟩, ⟨52, 4, 23, .BOTH, true⟩,
    ⟨149, 5, 30, .BOTH, false⟩]⟩,
  ⟨('A', 'T'), .CE, [⟨1, 13, 20, .BOTH, false⟩, ⟨36, 4, 20, .IDOR, false⟩, ⟨52, 4, 20, .IDOR, true⟩,
    ⟨100, 11, 27, .BOTH, true⟩]⟩,
  ⟨('A', 'Z'), .CE, [⟨1, 13, 20, .BOTH, false⟩, ⟨36, 4, 18, .BOTH, false⟩, ⟨52, 4, 18, .BOTH, true⟩]⟩,
  ⟨('B', 'H'), .CE, [⟨1, 13, 20, .BOTH, false⟩, ⟨36, 4, 20, .BOTH, false⟩, ⟨52, 4, 20, .BOTH, true⟩,
    ⟨149, 5, 20, .BOTH, false⟩]⟩,
  ⟨('B', 'D'), .CE, [⟨1, 13, 20, .BOTH, false⟩]⟩,
  ⟨('B', 'B'), .CE, [⟨1, 13, 20, .BOTH, false⟩, ⟨36, 4, 23, .BOTH, false⟩, ⟨52, 4, 23, .BOTH, true⟩,
    ⟨149, 5, 30, .BOTH, false⟩]⟩,
  ⟨('B', 'Y'), .CE, [⟨1, 13, 20, .BOTH, false⟩, ⟨36, 4, 20, .BOTH, false⟩, ⟨52, 4, 20, .BOTH, true⟩,
    ⟨100, 11, 27, .BOTH, true⟩]⟩,
  ⟨('B', 'E'), .CE, [⟨1, 13, 20, .BOTH, false⟩, ⟨36, 4, 20, .IDOR, false⟩, ⟨52, 4, 20, .IDOR, true⟩,
    ⟨100, 11, 27, .BOTH, true⟩]⟩,
  ⟨('B', 'Z'), .CE, [⟨1, 13, 30, .BOTH, false⟩, ⟨149, 5, 30, .BOTH, false⟩]⟩,
  ⟨('B', 'O'), .CE, [⟨1, 13, 30, .BOTH, false⟩, ⟨149, 5, 30, .BOTH, false⟩]⟩,
  ⟨('B', 'A'), .CE, [⟨1, 13, 20, .BOTH, false⟩, ⟨36, 4, 20, .BOTH, false⟩, ⟨52, 4, 20, .BOTH, true⟩,
    ⟨100, 11, 27, .BOTH, true⟩]⟩,
  ⟨('B', 'R'), .CE, [⟨1, 13, 20, .BOTH, false⟩, ⟨36, 4, 17, .BOTH, false⟩, ⟨52, 4, 20, .BOTH, true⟩,
    ⟨100, 11, 20, .BOTH, true⟩, ⟨149, 5, 30, .BOTH, false⟩]⟩,
  ⟨('B', 'N'), .CE, [⟨1, 13, 20, .BOTH, false⟩, ⟨36, 4, 20, .BOTH, false⟩, ⟨52, 4, 20, .BOTH, true⟩,
    ⟨149, 5, 30, .BOTH, false⟩]⟩,
  ⟨('B', 'G'), .CE, [⟨1, 13, 20, .BOTH, false⟩, ⟨36, 4, 23, .BOTH, false⟩, ⟨52, 2, 23, .BOTH, true⟩,
    ⟨100, 11, 30, .BOTH, true⟩]⟩,
  ⟨('K', 'H'), .CE, [⟨1, 13, 20, .BOTH, false⟩, ⟨36, 4, 20, .BOTH, false⟩, ⟨52, 4, 20, .BOTH, true⟩,
    ⟨100, 11, 27, .BOTH, true⟩]⟩,
  ⟨('C', 'A'), .FCC, [⟨1, 11, 27, .BOTH, false⟩, ⟨36, 4, 17, .IDOR, false⟩, ⟨52, 4, 20, .BOTH, true⟩,
    ⟨100, 11, 20, .BOTH, true⟩, ⟨149, 5, 30, .BOTH, false⟩]⟩,
  ⟨('C', 'L'), .CE, [⟨1, 13, 20, .BOTH, false⟩, ⟨36, 4, 20, .BOTH, false⟩, ⟨52, 4, 20, .BOTH, true⟩,
    ⟨149, 5, 20, .BOTH, false⟩]⟩,
  ⟨('C', 'N'), .CE, [⟨1, 13, 20, .BOTH, false⟩, ⟨149, 5, 30, .BOTH, false⟩]⟩,
  ⟨('C', 'O'), .CE, [⟨1, 11, 27, .BOTH, false⟩, ⟨36, 4, 17, .BOTH, false⟩, ⟨52, 4, 23, .BOTH, true⟩,
    ⟨149, 5, 30, .BOTH, false⟩]⟩,
  ⟨('C', 'R'), .CE, [⟨1, 13, 20, .BOTH, false⟩, ⟨36, 4, 17, .BOTH, false⟩, ⟨52, 4, 23, .BOTH, true⟩,
    ⟨149, 5, 30, .BOTH, false⟩]⟩,
  ⟨('H', 'R'), .CE, [⟨1, 13, 20, .BOTH, false⟩, ⟨36, 4, 20, .BOTH, false⟩, ⟨52, 4, 20, .BOTH, true⟩,
    ⟨100, 11, 27, .BOTH, true⟩]⟩,
  ⟨('C', 'Y'), .CE, [⟨1, 13, 20, .BOTH, false⟩, ⟨36, 4, 20, .IDOR, false⟩, ⟨52, 4, 20, .IDOR, true⟩,
    ⟨100, 11, 27, .BOTH, true⟩]⟩,
  ⟨('C', 'Z'), .CE, [⟨1, 13, 20, .BOTH, false⟩, ⟨36, 4, 23, .IDOR, false⟩, ⟨52, 4, 20, .IDOR, true⟩,
    ⟨100, 11, 27, .BOTH, true⟩]⟩,
  ⟨('D', 'K'), .CE, [⟨1, 13, 20, .BOTH, false⟩, ⟨36, 4, 20, .IDOR, false⟩, ⟨52, 4, 20, .BOTH, true⟩,
    ⟨100, 11, 27, .BOTH, true⟩]⟩,
  ⟨('D', 'O'), .CE, [⟨1, 11, 27, .BOTH, false⟩, ⟨36, 4, 17, .BOTH, false⟩, ⟨52, 4, 23, .BOTH, true⟩,
    ⟨149, 5, 30, .BOTH, false⟩]⟩,
  ⟨('E', 'C'), .CE, [⟨1, 13, 20, .BOTH, false⟩, ⟨36, 4, 17, .BOTH, false⟩, ⟨52, 4, 23, .BOTH, true⟩,
    ⟨149, 5, 30, .BOTH, false⟩]⟩,
  ⟨('E', 'G'), .CE, [⟨1, 13, 20, .BOTH, false⟩, ⟨36, 4, 20, .BOTH, false⟩, ⟨52, 4, 20, .BOTH, true⟩]⟩,
  ⟨('S', 'V'), .CE, [⟨1, 13, 20, .BOTH, false⟩, ⟨36, 4, 17, .BOTH, false⟩, ⟨52, 4, 23, .BOTH, true⟩,
    ⟨149, 5, 30, .BOTH, false⟩]⟩,
  ⟨('E', 'E'), .CE, [⟨1, 13, 20, .BOTH, false⟩, ⟨36, 4, 20, .IDOR, false⟩, ⟨52, 4, 20, .IDOR, true⟩,
    ⟨100, 11, 27, .BOTH, true⟩]⟩,
  ⟨('F', 'I'), .CE, [⟨1, 13, 20, .BOTH, false⟩, ⟨36, 4, 20, .BOTH, false⟩, ⟨52, 4, 20, .BOTH, true⟩,
    ⟨100, 11, 27, .BOTH, true⟩]⟩,
  ⟨('F', 'R'), .CE, [⟨1, 13, 20, .BOTH, false⟩, ⟨36, 4, 20, .BOTH, false⟩, ⟨52, 4, 20, .BOTH, true⟩,
    ⟨100, 11, 27, .BOTH, true⟩]⟩,
  ⟨('G', 'E'), .CE, [⟨1, 13, 20, .BOTH, false⟩, ⟨36, 4, 18, .BOTH, false⟩, ⟨52, 4, 18, .BOTH, true⟩]⟩,
  ⟨('D', 'E'), .CE, [⟨1, 13, 20, .BOTH, false⟩, ⟨36, 4, 20, .IDOR, false⟩, ⟨52, 4, 20, .IDOR, true⟩,
    ⟨100, 11, 27, .BOTH, true⟩]⟩,
  ⟨('G', 'R'), .CE, [⟨1, 13, 20, .BOTH, false⟩, ⟨36, 4, 20, .BOTH, false⟩, ⟨52, 4, 20, .BOTH, true⟩,
    ⟨100, 11, 27, .BOTH, true⟩]⟩,
  ⟨('G', 'L'), .CE, [⟨1, 13, 20, .BOTH, false⟩, ⟨36, 4, 20, .BOTH, false⟩, ⟨52, 4, 20, .BOTH, true⟩,
    ⟨100, 11, 27, .BOTH, true⟩]⟩,
  ⟨('G', 'D'), .CE, [⟨1, 11, 27, .BOTH, false⟩, ⟨36, 4, 17, .BOTH, false⟩, ⟨52, 4, 20, .BOTH, true⟩,
    ⟨100, 11, 20, .BOTH, true⟩, ⟨149, 5, 30, .BOTH, false⟩]⟩,
  ⟨('G', 'U'), .CE, [⟨1, 11, 27, .BOTH, false⟩, ⟨36, 4, 17, .BOTH, false⟩, ⟨52, 4, 23, .BOTH, true⟩,
    ⟨149, 5, 30, .BOTH, false⟩]⟩,
  ⟨('G', 'T'), .CE, [⟨1, 11, 27, .BOTH, false⟩, ⟨36, 4, 17, .BOTH, false⟩, ⟨52, 4, 23, .BOTH, true⟩,
    ⟨149, 5, 30, .BOTH, false⟩]⟩,
  ⟨('H', 'T'), .CE, [⟨1, 13, 20, .BOTH, false⟩, ⟨36, 4, 20, .BOTH, false⟩, ⟨52, 4, 20, .BOTH, true⟩,
    ⟨100, 11, 27, .BOTH, true⟩]⟩,
  ⟨('H', 'N'), .CE, [⟨1, 13, 20, .BOTH, false⟩, ⟨36, 4, 17, .BOTH, false⟩, ⟨52, 4, 20, .BOTH, true⟩,
    ⟨100, 11, 20, .BOTH, true⟩, ⟨149, 5, 30, .BOTH, false⟩]⟩,
  ⟨('H', 'K'), .CE, [⟨1, 13, 20, .BOTH, false⟩, ⟨36, 4, 17, .BOTH, false⟩, ⟨52, 4, 20, .BOTH, true⟩,
    ⟨100, 11, 20, .BOTH, true⟩, ⟨149, 5, 30, .BOTH, false⟩]⟩,
  ⟨('H', 'U'), .CE, [⟨1, 13, 20, .BOTH, false⟩, ⟨36, 4, 20, .BOTH, false⟩, ⟨52, 4, 20, .BOTH, true⟩,
    ⟨100, 11, 27, .BOTH, true⟩]⟩,
  ⟨('I', 'S'), .CE, [⟨1, 13, 20, .BOTH, false⟩, ⟨36, 4, 20, .BOTH, false⟩, ⟨52, 4, 20, .BOTH, true⟩,
    ⟨100, 11, 27, .BOTH, true⟩]⟩,
  ⟨('I', 'N'), .CE, [⟨1, 13, 20, .BOTH, false⟩, ⟨36, 4, 20, .BOTH, false⟩, ⟨52, 4, 20, .BOTH, true⟩,
    ⟨149, 5, 20, .BOTH, false⟩]⟩,
  ⟨('I', 'D'), .CE, [⟨1, 13, 20, .BOTH, false⟩]⟩,
  ⟨('I', 'R'), .CE, [⟨1, 13, 20, .BOTH, false⟩, ⟨149, 5, 30, .BOTH, false⟩]⟩,
  ⟨('I', 'E'), .CE, [⟨1, 13, 20, .BOTH, false⟩, ⟨36, 4, 20, .BOTH, false⟩, ⟨52, 4, 20, .BOTH, true⟩,
    ⟨100, 11, 27, .BOTH, true⟩]⟩,
  ⟨('I', 'L'), .CE, [⟨1, 13, 20, .BOTH, false⟩, ⟨36, 4, 23, .IDOR, false⟩, ⟨52, 4, 23, .IDOR, true⟩]⟩,
  ⟨('I', 'T'), .CE, [⟨1, 13, 20, .BOTH, false⟩, ⟨36, 4, 20, .BOTH, false⟩, ⟨52, 4, 20, .BOTH, true⟩,
    ⟨100, 11, 27, .BOTH, true⟩]⟩,
  ⟨('J', 'M'), .CE, [⟨1, 13, 20, .BOTH, false⟩, ⟨36, 4, 17, .BOTH, false⟩, ⟨52, 4, 20, .BOTH, true⟩,
    ⟨100, 11, 20, .BOTH, true⟩, ⟨149, 5, 30, .BOTH, false⟩]⟩,
  ⟨('J', 'P'), .JAP, [⟨1, 14, 20, .BOTH, false⟩, ⟨36, 4, 20, .IDOR, false⟩, ⟨52, 4, 20, .IDOR, true⟩,
    ⟨100, 11, 23, .BOTH, true⟩]⟩,
  ⟨('J', 'O'), .CE, [⟨1, 13, 20, .BOTH, false⟩, ⟨36, 4, 18, .BOTH, false⟩]⟩,
  ⟨('K', 'Z'), .CE, [⟨1, 13, 20, .BOTH, false⟩]⟩,
  ⟨('K', 'E'), .CE, [⟨1, 13, 20, .BOTH, false⟩, ⟨149, 5, 30, .BOTH, false⟩]⟩,
  ⟨('K', 'P'), .CE, [⟨1, 13, 20, .BOTH, false⟩, ⟨36, 4, 20, .BOTH, true⟩, ⟨36, 8, 20, .BOTH, false⟩,
    ⟨100, 7, 30, .BOTH, true⟩, ⟨149, 4, 30, .BOTH, false⟩]⟩,
  ⟨('K', 'R'), .CE, [⟨1, 13, 20, .BOTH, false⟩, ⟨36, 4, 20, .BOTH, false⟩, ⟨52, 4, 20, .BOTH, true⟩,
    ⟨100, 7, 30, .BOTH, true⟩, ⟨149, 4, 30, .BOTH, false⟩]⟩,
  ⟨('K', 'W'), .CE, [⟨1, 13, 20, .BOTH, false⟩, ⟨36, 4, 20, .BOTH, false⟩, ⟨52, 4, 20, .BOTH, true⟩]⟩,
  ⟨('L', 'V'), .CE, [⟨1, 13, 20, .BOTH, false⟩, ⟨36, 4, 20, .IDOR, false⟩, ⟨52, 4, 20, .IDOR, true⟩,
    ⟨100, 11, 27, .BOTH, true⟩]⟩,
  ⟨('L', 'B'), .CE, [⟨1, 13, 20, .BOTH, false⟩, ⟨149, 5, 30, .BOTH, false⟩]⟩,
  ⟨('L', 'I'), .CE, [⟨1, 13, 20, .BOTH, false⟩, ⟨36, 4, 20, .BOTH, false⟩, ⟨52, 4, 20, .BOTH, true⟩,
    ⟨100, 11, 27, .BOTH, true⟩]⟩,
  ⟨('L', 'T'), .CE, [⟨1, 13, 20, .BOTH, false⟩, ⟨36, 4, 20, .BOTH, false⟩, ⟨52, 4, 20, .BOTH, true⟩,
    ⟨100, 11, 27, .BOTH, true⟩]⟩,
  ⟨('L', 'U'), .CE, [⟨1, 13, 20, .BOTH, false⟩, ⟨36, 4, 20, .BOTH, false⟩, ⟨52, 4, 20, .BOTH, true⟩,
    ⟨100, 11, 27, .BOTH, true⟩]⟩,
  ⟨('M', 'O'), .CE, [⟨1, 13, 20, .BOTH, false⟩, ⟨36, 4, 23, .BOTH, false⟩, ⟨52, 4, 23, .BOTH, true⟩,
    ⟨149, 5, 30, .BOTH, false⟩]⟩,
  ⟨('M', 'K'), .CE, [⟨1, 13, 20, .BOTH, false⟩, ⟨36, 4, 20, .BOTH, false⟩, ⟨52, 4, 20, .BOTH, true⟩,
    ⟨100, 11, 27, .BOTH, true⟩]⟩,
  ⟨('M', 'Y'), .CE, [⟨1, 13, 20, .BOTH, false⟩, ⟨52, 4, 30, .BOTH, true⟩, ⟨149, 5, 30, .BOTH, false⟩]⟩,
  ⟨('M', 'T'), .CE, [⟨1, 13, 20, .BOTH, false⟩, ⟨36, 4, 20, .IDOR, false⟩, ⟨52, 4, 20, .IDOR, true⟩,
    ⟨100, 11, 27, .BOTH, true⟩]⟩,
  ⟨('M', 'X'), .CE, [⟨1, 11, 27, .BOTH, false⟩, ⟨36, 4, 17, .BOTH, false⟩, ⟨52, 4, 23, .BOTH, true⟩,
    ⟨149, 5, 30, .BOTH, false⟩]⟩,
  ⟨('M', 'C'), .CE, [⟨1, 13, 20, .BOTH, false⟩, ⟨36, 4, 18, .BOTH, false⟩, ⟨52, 4, 18, .BOTH, true⟩]⟩,
  ⟨('M', 'A'), .CE, [⟨1, 13, 20, .BOTH, false⟩]⟩,
  ⟨('N', 'P'), .CE, [⟨1, 13, 20, .BOTH, false⟩, ⟨149, 5, 30, .BOTH, false⟩]⟩,
  ⟨('N', 'L'), .CE, [⟨1, 13, 20, .BOTH, false⟩, ⟨36, 4, 20, .IDOR, false⟩, ⟨52, 4, 20, .IDOR, true⟩,
    ⟨100, 11, 27, .BOTH, true⟩]⟩,
  ⟨('A', 'N'), .CE, [⟨1, 13, 20, .BOTH, false⟩, ⟨36, 4, 20, .BOTH, false⟩, ⟨52, 4, 20, .BOTH, true⟩,
    ⟨100, 11, 27, .BOTH, true⟩]⟩,
  ⟨('N', 'Z'), .CE, [⟨1, 13, 30, .BOTH, false⟩, ⟨36, 4, 23, .BOTH, false⟩, ⟨52, 4, 23, .BOTH, true⟩,
    ⟨149, 5, 30, .BOTH, false⟩]⟩,
  ⟨('N', 'O'), .CE, [⟨1, 13, 20, .BOTH, false⟩, ⟨36, 4, 20, .BOTH, false⟩, ⟨52, 4, 20, .BOTH, true⟩,
    ⟨100, 11, 27, .BOTH, true⟩]⟩,
  ⟨('O', 'M'), .CE, [⟨1, 13, 20, .BOTH, false⟩, ⟨36, 4, 17, .BOTH, false⟩, ⟨52, 4, 20, .BOTH, true⟩,
    ⟨100, 11, 20, .BOTH, true⟩, ⟨149, 5, 30, .BOTH, false⟩]⟩,
  ⟨('P', 'K'), .CE, [⟨1, 13, 20, .BOTH, false⟩, ⟨149, 5, 30, .BOTH, false⟩]⟩,
  ⟨('P', 'A'), .CE, [⟨1, 11, 27, .BOTH, false⟩, ⟨36, 4, 17, .BOTH, false⟩, ⟨52, 4, 23, .BOTH, true⟩,
    ⟨149, 5, 30, .BOTH, false⟩]⟩,
  ⟨('P', 'G'), .CE, [⟨1, 13, 20, .BOTH, false⟩, ⟨36, 4, 17, .BOTH, false⟩, ⟨52, 4, 23, .BOTH, true⟩,
    ⟨149, 5, 30, .BOTH, false⟩]⟩,
  ⟨('P', 'E'), .CE, [⟨1, 13, 20, .BOTH, false⟩, ⟨149, 5, 30, .BOTH, false⟩]⟩,
  ⟨('P', 'H'), .CE, [⟨1, 13, 20, .BOTH, false⟩, ⟨149, 5, 30, .BOTH, false⟩]⟩,
  ⟨('P', 'L'), .CE, [⟨1, 13, 20, .BOTH, false⟩, ⟨36, 4, 20, .BOTH, false⟩, ⟨52, 4, 20, .BOTH, true⟩,
    ⟨100, 11, 27, .BOTH, true⟩]⟩,
  ⟨('P', 'T'), .CE, [⟨1, 13, 20, .BOTH, false⟩, ⟨36, 4, 20, .BOTH, false⟩, ⟨52, 4, 20, .BOTH, true⟩,
    ⟨100, 11, 27, .BOTH, true⟩]⟩,
  ⟨('P', 'R'), .CE, [⟨1, 11, 27, .BOTH, false⟩, ⟨36, 4, 17, .BOTH, false⟩, ⟨52, 4, 23, .BOTH, true⟩,
    ⟨149, 5, 30, .BOTH, false⟩]⟩,
  ⟨('Q', 'A'), .CE, [⟨1, 13, 20, .BOTH, false⟩, ⟨149, 5, 30, .BOTH, false⟩]⟩,
  ⟨('R', 'O'), .CE, [⟨1, 13, 20, .BOTH, false⟩, ⟨36, 4, 20, .BOTH, false⟩, ⟨52, 4, 20, .BOTH, true⟩,
    ⟨100, 11, 27, .BOTH, true⟩]⟩,
  ⟨('R', 'U'), .CE, [⟨1, 13, 20, .BOTH, false⟩, ⟨149, 5, 30, .BOTH, false⟩]⟩,
  ⟨('B', 'L'), .CE, [⟨1, 13, 20, .BOTH, false⟩, ⟨36, 4, 18, .BOTH, false⟩, ⟨52, 4, 18, .BOTH, true⟩]⟩,
  ⟨('S', 'A'), .CE, [⟨1, 13, 20, .BOTH, false⟩, ⟨36, 4, 23, .BOTH, false⟩, ⟨52, 4, 23, .BOTH, true⟩,
    ⟨149, 5, 30, .BOTH, false⟩]⟩,
  ⟨('S', 'G'), .CE, [⟨1, 13, 20, .BOTH, false⟩, ⟨36, 4, 20, .BOTH, false⟩, ⟨52, 4, 20, .BOTH, true⟩,
    ⟨149, 5, 20, .BOTH, false⟩]⟩,
  ⟨('S', 'K'), .CE, [⟨1, 13, 20, .BOTH, false⟩, ⟨36, 4, 20, .IDOR, false⟩, ⟨52, 4, 20, .IDOR, true⟩,
    ⟨100, 11, 27, .BOTH, true⟩]⟩,
  ⟨('S', 'I'), .CE, [⟨1, 13, 20, .BOTH, false⟩, ⟨36, 4, 20, .BOTH, false⟩, ⟨52, 4, 20, .BOTH, true⟩,
    ⟨100, 11, 27, .BOTH, true⟩]⟩,
  ⟨('Z', 'A'), .CE, [⟨1, 13, 20, .BOTH, false⟩, ⟨36, 4, 17, .BOTH, false⟩, ⟨52, 4, 20, .BOTH, true⟩,
    ⟨100, 11, 20, .BOTH, true⟩, ⟨149, 5, 30, .BOTH, false⟩]⟩,
  ⟨('E', 'S'), .CE, [⟨1, 13, 20, .BOTH, false⟩, ⟨36, 4, 20, .BOTH, false⟩, ⟨52, 4, 20, .BOTH, true⟩,
    ⟨100, 11, 27, .BOTH, true⟩]⟩,
  ⟨('L', 'K'), .CE, [⟨1, 13, 20, .BOTH, false⟩, ⟨36, 4, 17, .BOTH, false⟩, ⟨52, 4, 20, .BOTH, true⟩,
    ⟨100, 11, 20, .BOTH, true⟩, ⟨149, 5, 30, .BOTH, false⟩]⟩,
  ⟨('S', 'E'), .CE, [⟨1, 13, 20, .BOTH, false⟩, ⟨36, 4, 20, .BOTH, false⟩, ⟨52, 4, 20, .BOTH, true⟩,
    ⟨100, 11, 27, .BOTH, true⟩]⟩,
  ⟨('C', 'H'), .CE, [⟨1, 13, 20, .BOTH, false⟩, ⟨36, 4, 20, .IDOR, false⟩, ⟨52, 4, 20, .IDOR, true⟩,
    ⟨100, 11, 27, .BOTH, true⟩]⟩,
  ⟨('S', 'Y'), .CE, [⟨1, 13, 20, .BOTH, false⟩]⟩,
  ⟨('T', 'W'), .FCC, [⟨1, 11, 27, .BOTH, false⟩, ⟨56, 3, 17, .IDOR, true⟩, ⟨149, 4, 30, .BOTH, false⟩]⟩,
  ⟨('T', 'H'), .CE, [⟨1, 13, 20, .BOTH, false⟩, ⟨36, 4, 17, .BOTH, false⟩, ⟨52, 4, 20, .BOTH, true⟩,
    ⟨100, 11, 20, .BOTH, true⟩, ⟨149, 5, 30, .BOTH, false⟩]⟩,
  ⟨('T', 'T'), .CE, [⟨1, 13, 20, .BOTH, false⟩, ⟨36, 4, 17, .BOTH, false⟩, ⟨52, 4, 20, .BOTH, true⟩,
    ⟨100, 11, 20, .BOTH, true⟩, ⟨149, 5, 30, .BOTH, false⟩]⟩,
  ⟨('T', 'N'), .CE, [⟨1, 13, 20, .BOTH, false⟩, ⟨36, 4, 20, .BOTH, false⟩, ⟨52, 4, 20, .BOTH, true⟩]⟩,
  ⟨('T', 'R'), .CE, [⟨1, 13, 20, .BOTH, false⟩, ⟨36, 4, 20, .BOTH, false⟩, ⟨52, 4, 20, .BOTH, true⟩]⟩,
  ⟨('U', 'A'), .CE, [⟨1, 13, 20, .BOTH, false⟩]⟩,
  ⟨('A', 'E'), .CE, [⟨1, 13, 20, .BOTH, false⟩, ⟨36, 4, 20, .BOTH, false⟩, ⟨52, 4, 20, .BOTH, true⟩,
    ⟨100, 11, 27, .BOTH, true⟩]⟩,
  ⟨('G', 'B'), .CE, [⟨1, 13, 20, .BOTH, false⟩, ⟨36, 4, 20, .IDOR, false⟩, ⟨52, 4, 20, .IDOR, true⟩,
    ⟨100, 11, 27, .BOTH, true⟩]⟩,
  ⟨('U', 'S'), .FCC, [⟨1, 11, 27, .BOTH, false⟩, ⟨36, 4, 17, .IDOR, false⟩, ⟨52, 4, 20, .BOTH, true⟩,
    ⟨100, 5, 20, .BOTH, true⟩, ⟨132, 3, 20, .BOTH, true⟩, ⟨149, 5, 30, .BOTH, false⟩]⟩,
  ⟨('U', 'Y'), .CE, [⟨1, 13, 20, .BOTH, false⟩, ⟨36, 4, 17, .BOTH, false⟩, ⟨52, 4, 20, .BOTH, true⟩,
    ⟨100, 11, 20, .BOTH, true⟩, ⟨149, 5, 30, .BOTH, false⟩]⟩,
  ⟨('U', 'Z'), .CE, [⟨1, 11, 27, .BOTH, false⟩, ⟨36, 4, 17, .BOTH, false⟩, ⟨52, 4, 20, .BOTH, true⟩,
    ⟨100, 11, 20, .BOTH, true⟩, ⟨149, 5, 30, .BOTH, false⟩]⟩,
  ⟨('V', 'E'), .CE, [⟨1, 13, 20, .BOTH, false⟩, ⟨149, 4, 23, .BOTH, false⟩]⟩,
  ⟨('V', 'N'), .CE, [⟨1, 13, 20, .BOTH, false⟩, ⟨36, 4, 20, .BOTH, false⟩, ⟨52, 4, 20, .BOTH, true⟩]⟩,
  ⟨('Y', 'E'), .CE, [⟨1, 13, 20, .BOTH, false⟩]⟩,
  ⟨('Z', 'W'), .CE, [⟨1, 13, 20, .BOTH, false⟩]⟩,
  ⟨('E', 'U'), .CE, [⟨1, 13, 20, .BOTH, false⟩, ⟨36, 4, 17, .BOTH, false⟩]⟩,
  ⟨('N', 'A'), .FCC, [⟨1, 11, 27, .BOTH, false⟩, ⟨36, 4, 17, .IDOR, false⟩, ⟨149, 5, 30, .BOTH, false⟩]⟩,
  ⟨('W', 'O'), .CE, [⟨1, 13, 20, .BOTH, false⟩, ⟨36, 4, 17, .BOTH, false⟩, ⟨149, 5, 22, .BOTH, false⟩]⟩]

end Mt7610u.Channel
