import Mt7610u.Lib.Outcome
import Mathlib.Data.List.Basic

/-! # Rate tables

The tables of `rate_ctrl/ra_ctrl.c` that a one- or two-stream station uses, row by row as the source lists
them, and the macros that read them. A legacy table has rows of five octets, a group table (`ADAPT_RATE_TABLE`)
rows of ten; octets 0 and 1 in front of the rows are the number of rows and the initial row. -/

namespace Mt7610u.RateCtrl

/-! ### Rows -/

/-- `MODE_CCK` … `MODE_VHT` -/
def modeCCK : ℕ := 0
def modeOFDM : ℕ := 1
def modeHTMix : ℕ := 2
def modeHTGreenfield : ℕ := 3
def modeVHT : ℕ := 4

def mcsAuto : ℕ := 33

/-- A row of a rate table: `RTMP_RA_GRP_TB`, the first five octets of which are `RTMP_RA_LEGACY_TB`. -/
structure RateRow where
  itemNo : ℕ
  modeByte : ℕ
  currMCS : ℕ
  trainUp : ℕ
  trainDown : ℕ
  downMcs : ℕ
  upMcs3 : ℕ
  upMcs2 : ℕ
  upMcs1 : ℕ
  dataRate : ℕ
deriving DecidableEq, Repr

namespace RateRow

def stbc (row : RateRow) : Bool := row.modeByte % 2 == 1

/-- Bit 1: `GI_400` instead of `GI_800`. -/
def shortGI (row : RateRow) : Bool := row.modeByte / 2 % 2 == 1

def mode (row : RateRow) : ℕ := row.modeByte / 16 % 8

def legacy (itemNo modeByte currMCS trainUp trainDown : ℕ) : RateRow :=
  ⟨itemNo, modeByte, currMCS, trainUp, trainDown, 0, 0, 0, 0, 0⟩

end RateRow

open RateRow (legacy)
open Lib.Outcome

/-! ### Tables -/

/-- The tables by name; the code compares them by address. -/
inductive RateTable
  | rateSwitchTable11B
  | rateSwitchTable11BG
  | rateSwitchTable11G
  | rateSwitchTable11N1S
  | rateSwitchTable11N2S
  | rateSwitchTable11BGN1S
  | rateSwitchTable11BGN2S
  | rateSwitchTable11N1SForABand
  | rateSwitchTable11N2SForABand
  | rateSwitchTable11BGN2SForABand
  | rateSwitchTableAdapt11N1S
  | rateSwitchTableAdapt11N2S
  | rateTableVht1S
  | rateTableVht1SMcs7
  | rateTableVht2S
deriving DecidableEq, Repr

namespace RateTable

/-- `RATE_TABLE_SIZE`: octet 0 -/
def size : RateTable → ℕ
  | rateSwitchTable11B => 0x04
  | rateSwitchTable11BG => 0x0a
  | rateSwitchTable11G => 0x08
  | rateSwitchTable11N1S => 0x0c
  | rateSwitchTable11N2S => 0x0e
  | rateSwitchTable11BGN1S => 0x0c
  | rateSwitchTable11BGN2S => 0x0e
  | rateSwitchTable11N1SForABand => 0x09
  | rateSwitchTable11N2SForABand => 0x0b
  | rateSwitchTable11BGN2SForABand => 0x0b
  | rateSwitchTableAdapt11N1S => 12
  | rateSwitchTableAdapt11N2S => 22
  | rateTableVht1S => 14
  | rateTableVht1SMcs7 => 11
  | rateTableVht2S => 19

/-- `RATE_TABLE_INIT_INDEX`: octet 1 -/
def initIndex : RateTable → ℕ
  | rateSwitchTable11B => 0x03
  | rateSwitchTable11BG => 0x00
  | rateSwitchTable11G => 0x00
  | rateSwitchTable11N1S => 0x0a
  | rateSwitchTable11N2S => 0x0c
  | rateSwitchTable11BGN1S => 0x0a
  | rateSwitchTable11BGN2S => 0x0c
  | rateSwitchTable11N1SForABand => 0x07
  | rateSwitchTable11N2SForABand => 0x09
  | rateSwitchTable11BGN2SForABand => 0x09
  | rateSwitchTableAdapt11N1S => 7
  | rateSwitchTableAdapt11N2S => 15
  | rateTableVht1S => 12
  | rateTableVht1SMcs7 => 9
  | rateTableVht2S => 17

def adapt : RateTable → Bool
  | rateSwitchTableAdapt11N1S => true
  | rateSwitchTableAdapt11N2S => true
  | rateTableVht1S => true
  | rateTableVht1SMcs7 => true
  | rateTableVht2S => true
  | _ => false

def rows : RateTable → List RateRow
  | rateSwitchTable11B =>
    [legacy 0x00 0x00 0 40 101,
     legacy 0x01 0x00 1 40 50,
     legacy 0x02 0x00 2 35 45,
     legacy 0x03 0x00 3 20 45]
  | rateSwitchTable11BG =>
    [legacy 0x00 0x00 0 40 101,
     legacy 0x01 0x00 1 40 50,
     legacy 0x02 0x00 2 35 45,
     legacy 0x03 0x00 3 20 45,
     legacy 0x04 0x10 2 20 35,
     legacy 0x05 0x10 3 16 35,
     legacy 0x06 0x10 4 10 25,
     legacy 0x07 0x10 5 16 25,
     legacy 0x08 0x10 6 10 25,
     legacy 0x09 0x10 7 10 13]
  | rateSwitchTable11G =>
    [legacy 0x00 0x10 0 20 101,
     legacy 0x01 0x10 1 20 35,
     legacy 0x02 0x10 2 20 35,
     legacy 0x03 0x10 3 16 35,
     legacy 0x04 0x10 4 10 25,
     legacy 0x05 0x10 5 16 25,
     legacy 0x06 0x10 6 10 25,
     legacy 0x07 0x10 7 10 13]
  | rateSwitchTable11N1S =>
    [legacy 0x00 0x00 0 40 101,
     legacy 0x01 0x00 1 40 50,
     legacy 0x02 0x00 2 25 45,
     legacy 0x03 0x21 0 20 35,
     legacy 0x04 0x21 1 20 35,
     legacy 0x05 0x21 2 20 35,
     legacy 0x06 0x21 3 15 35,
     legacy 0x07 0x21 4 15 30,
     legacy 0x08 0x21 5 10 25,
     legacy 0x09 0x21 6 8 14,
     legacy 0x0a 0x21 7 8 14,
     legacy 0x0b 0x23 7 8 14]
  | rateSwitchTable11N2S =>
    [legacy 0x00 0x00 0 40 101,
     legacy 0x01 0x00 1 40 50,
     legacy 0x02 0x00 2 25 45,
     legacy 0x03 0x21 0 20 35,
     legacy 0x04 0x21 1 20 35,
     legacy 0x05 0x21 2 20 35,
     legacy 0x06 0x21 3 15 35,
     legacy 0x07 0x21 4 15 30,
     legacy 0x08 0x20 11 15 30,
     legacy 0x09 0x20 12 15 30,
     legacy 0x0a 0x20 13 8 20,
     legacy 0x0b 0x20 14 8 20,
     legacy 0x0c 0x20 15 8 25,
     legacy 0x0d 0x22 15 8 15]
  | rateSwitchTable11BGN1S =>
    [legacy 0x00 0x00 0 40 101,
     legacy 0x01 0x00 1 40 50,
     legacy 0x02 0x00 2 25 45,
     legacy 0x03 0x21 0 20 35,
     legacy 0x04 0x21 1 20 35,
     legacy 0x05 0x21 2 20 35,
     legacy 0x06 0x21 3 15 35,
     legacy 0x07 0x21 4 15 30,
     legacy 0x08 0x21 5 10 25,
     legacy 0x09 0x21 6 8 14,
     legacy 0x0a 0x21 7 8 14,
     legacy 0x0b 0x23 7 8 14]
  | rateSwitchTable11BGN2S =>
    [legacy 0x00 0x00 0 40 101,
     legacy 0x01 0x00 1 40 50,
     legacy 0x02 0x00 2 25 45,
     legacy 0x03 0x21 0 20 35,
     legacy 0x04 0x21 1 20 35,
     legacy 0x05 0x21 2 20 35,
     legacy 0x06 0x21 3 15 35,
     legacy 0x07 0x21 4 15 30,
     legacy 0x08 0x20 11 15 30,
     legacy 0x09 0x20 12 15 22,
     legacy 0x0a 0x20 13 8 20,
     legacy 0x0b 0x20 14 8 20,
     legacy 0x0c 0x20 15 8 20,
     legacy 0x0d 0x22 15 8 15]
  | rateSwitchTable11N1SForABand =>
    [legacy 0x00 0x21 0 30 101,
     legacy 0x01 0x21 1 20 50,
     legacy 0x02 0x21 2 20 50,
     legacy 0x03 0x21 3 15 50,
     legacy 0x04 0x21 4 15 30,
     legacy 0x05 0x21 5 10 25,
     legacy 0x06 0x21 6 8 14,
     legacy 0x07 0x21 7 8 14,
     legacy 0x08 0x23 7 8 14]
  | rateSwitchTable11N2SForABand =>
    [legacy 0x00 0x21 0 30 101,
     legacy 0x01 0x21 1 20 50,
     legacy 0x02 0x21 2 20 50,
     legacy 0x03 0x21 3 15 50,
     legacy 0x04 0x21 4 15 30,
     legacy 0x05 0x21 5 15 30,
     legacy 0x06 0x20 12 15 30,
     legacy 0x07 0x20 13 8 20,
     legacy 0x08 0x20 14 8 20,
     legacy 0x09 0x20 15 8 25,
     legacy 0x0a 0x22 15 8 25]
  | rateSwitchTable11BGN2SForABand =>
    [legacy 0x00 0x21 0 30 101,
     legacy 0x01 0x21 1 20 50,
     legacy 0x02 0x21 2 20 50,
     legacy 0x03 0x21 3 15 50,
     legacy 0x04 0x21 4 15 30,
     legacy 0x05 0x21 5 15 30,
     legacy 0x06 0x20 12 15 30,
     legacy 0x07 0x20 13 8 20,
     legacy 0x08 0x20 14 8 20,
     legacy 0x09 0x20 15 8 25,
     legacy 0x0a 0x22 15 8 25]
  | rateSwitchTableAdapt11N1S =>
    [⟨0, 0x21, 0, 30, 50, 11, 1, 8, 1, 7⟩,
     ⟨1, 0x21, 1, 20, 50, 0, 16, 9, 2, 13⟩,
     ⟨2, 0x21, 2, 20, 50, 1, 17, 9, 3, 20⟩,
     ⟨3, 0x21, 3, 15, 50, 2, 17, 10, 4, 26⟩,
     ⟨4, 0x21, 4, 15, 30, 3, 18, 11, 5, 39⟩,
     ⟨5, 0x21, 5, 10, 25, 4, 18, 12, 6, 52⟩,
     ⟨6, 0x21, 6, 8, 14, 5, 19, 12, 7, 59⟩,
     ⟨7, 0x21, 7, 8, 14, 6, 19, 12, 8, 65⟩,
     ⟨8, 0x23, 7, 8, 14, 7, 19, 12, 8, 72⟩,
     ⟨9, 0x00, 0, 40, 101, 9, 9, 9, 10, 1⟩,
     ⟨10, 0x00, 1, 40, 50, 9, 10, 10, 11, 2⟩,
     ⟨11, 0x21, 32, 30, 50, 10, 0, 8, 0, 7⟩]
  | rateSwitchTableAdapt11N2S =>
    [⟨0, 0x21, 0, 30, 50, 21, 1, 8, 1, 7⟩,
     ⟨1, 0x21, 1, 20, 50, 0, 16, 9, 2, 13⟩,
     ⟨2, 0x21, 2, 20, 50, 1, 17, 9, 3, 20⟩,
     ⟨3, 0x21, 3, 15, 50, 2, 17, 10, 4, 26⟩,
     ⟨4, 0x21, 4, 15, 30, 3, 18, 11, 5, 39⟩,
     ⟨5, 0x21, 5, 10, 25, 4, 18, 12, 6, 52⟩,
     ⟨6, 0x21, 6, 8, 14, 5, 19, 12, 7, 59⟩,
     ⟨7, 0x21, 7, 8, 14, 6, 19, 12, 7, 65⟩,
     ⟨8, 0x20, 8, 30, 50, 0, 16, 9, 2, 13⟩,
     ⟨9, 0x20, 9, 20, 50, 8, 17, 10, 4, 26⟩,
     ⟨10, 0x20, 10, 20, 40, 9, 18, 11, 5, 39⟩,
     ⟨11, 0x20, 11, 15, 30, 10, 18, 12, 6, 52⟩,
     ⟨12, 0x20, 12, 15, 30, 11, 20, 13, 12, 78⟩,
     ⟨13, 0x20, 13, 8, 20, 12, 20, 14, 13, 104⟩,
     ⟨14, 0x20, 14, 8, 18, 13, 21, 15, 14, 117⟩,
     ⟨15, 0x20, 15, 8, 25, 14, 21, 16, 15, 130⟩,
     ⟨16, 0x22, 15, 8, 25, 15, 21, 16, 16, 144⟩,
     ⟨17, 0, 0, 0, 0, 0, 0, 0, 0, 0⟩,
     ⟨18, 0, 0, 0, 0, 0, 0, 0, 0, 0⟩,
     ⟨19, 0x00, 0, 40, 101, 19, 19, 19, 20, 1⟩,
     ⟨20, 0x00, 1, 40, 50, 19, 20, 20, 21, 2⟩,
     ⟨21, 0x21, 32, 30, 50, 20, 0, 8, 0, 7⟩]
  | rateTableVht1S =>
    [⟨0, 0x10, 0, 30, 101, 0, 0, 0, 1, 1⟩,
     ⟨1, 0x45, 0, 30, 50, 0, 0, 0, 2, 1⟩,
     ⟨2, 0x49, 0, 30, 50, 1, 0, 0, 3, 1⟩,
     ⟨3, 0x49, 1, 20, 50, 2, 0, 0, 4, 1⟩,
     ⟨4, 0x49, 2, 20, 50, 3, 0, 0, 5, 1⟩,
     ⟨5, 0x49, 3, 15, 50, 4, 0, 0, 6, 1⟩,
     ⟨6, 0x49, 4, 15, 30, 5, 0, 0, 7, 1⟩,
     ⟨7, 0x49, 5, 10, 25, 6, 0, 0, 8, 1⟩,
     ⟨8, 0x49, 6, 8, 14, 7, 0, 0, 9, 1⟩,
     ⟨9, 0x49, 7, 8, 14, 8, 0, 0, 10, 1⟩,
     ⟨10, 0x4B, 7, 8, 14, 9, 0, 0, 11, 1⟩,
     ⟨11, 0x49, 8, 8, 14, 10, 0, 0, 12, 1⟩,
     ⟨12, 0x49, 9, 8, 14, 11, 0, 0, 13, 1⟩,
     ⟨13, 0x4A, 9, 8, 14, 12, 0, 0, 13, 1⟩]
  | rateTableVht1SMcs7 =>
    [⟨0, 0x10, 0, 30, 101, 0, 0, 0, 1, 1⟩,
     ⟨1, 0x45, 0, 30, 50, 0, 0, 0, 2, 1⟩,
     ⟨2, 0x49, 0, 30, 50, 1, 0, 0, 3, 1⟩,
     ⟨3, 0x49, 1, 20, 50, 2, 0, 0, 4, 1⟩,
     ⟨4, 0x49, 2, 20, 50, 3, 0, 0, 5, 1⟩,
     ⟨5, 0x49, 3, 15, 50, 4, 0, 0, 6, 1⟩,
     ⟨6, 0x49, 4, 15, 30, 5, 0, 0, 7, 1⟩,
     ⟨7, 0x49, 5, 10, 25, 6, 0, 0, 8, 1⟩,
     ⟨8, 0x49, 6, 8, 14, 7, 0, 0, 9, 1⟩,
     ⟨9, 0x49, 7, 8, 14, 8, 0, 0, 10, 1⟩,
     ⟨10, 0x4B, 7, 8, 14, 9, 0, 0, 10, 1⟩]
  | rateTableVht2S =>
    [⟨0, 0x10, 0, 30, 101, 0, 0, 1, 1, 1⟩,
     ⟨1, 0x45, 0, 30, 50, 0, 0, 2, 2, 1⟩,
     ⟨2, 0x49, 0, 30, 50, 1, 0, 10, 3, 1⟩,
     ⟨3, 0x49, 1, 20, 50, 2, 0, 11, 4, 1⟩,
     ⟨4, 0x49, 2, 20, 50, 3, 0, 11, 5, 1⟩,
     ⟨5, 0x49, 3, 15, 50, 4, 0, 12, 6, 1⟩,
     ⟨6, 0x49, 4, 15, 30, 5, 0, 13, 7, 1⟩,
     ⟨7, 0x49, 5, 10, 25, 6, 0, 14, 8, 1⟩,
     ⟨8, 0x49, 6, 8, 14, 7, 0, 14, 9, 1⟩,
     ⟨9, 0x49, 7, 8, 14, 8, 0, 14, 9, 1⟩,
     ⟨10, 0x48, 0, 30, 50, 2, 0, 11, 4, 2⟩,
     ⟨11, 0x48, 1, 20, 50, 10, 0, 12, 6, 2⟩,
     ⟨12, 0x48, 2, 20, 50, 11, 0, 13, 7, 2⟩,
     ⟨13, 0x48, 3, 15, 30, 12, 0, 14, 8, 2⟩,
     ⟨14, 0x48, 4, 15, 30, 13, 0, 15, 14, 2⟩,
     ⟨15, 0x48, 5, 8, 20, 14, 0, 16, 15, 2⟩,
     ⟨16, 0x48, 6, 8, 18, 15, 0, 17, 16, 2⟩,
     ⟨17, 0x48, 7, 8, 25, 16, 0, 18, 17, 2⟩,
     ⟨18, 0x4A, 7, 8, 25, 17, 0, 18, 18, 2⟩]

theorem rows_length (t : RateTable) : t.rows.length = t.size := by cases t <;> rfl

theorem initIndex_lt (t : RateTable) : t.initIndex < t.size := by cases t <;> decide

theorem one_lt_size (t : RateTable) : 1 < t.size := by cases t <;> decide

end RateTable

/-! ### Reading a table -/

inductive Fault
  /-- `MlmeSelectTxRateTable` has left the pointer as it was. -/
  | noTable
  /-- A row behind the table. -/
  | row (t : RateTable) (idx : ℕ)
  /-- An element of `TxQuality` or `PER` for a rate that the table does not have. -/
  | quality (t : RateTable) (idx : ℕ)
  /-- The search for a down rate does not end. -/
  | endless
deriving DecidableEq, Repr

namespace RateTable

/-- `PTX_RA_LEGACY_ENTRY`, `PTX_RA_GRP_ENTRY` -/
def entry (t : RateTable) (idx : ℕ) : Except Fault RateRow :=
  match t.rows[idx]? with
  | some row => .ok row
  | none => .error (.row t idx)

/-- An element of `TxQuality` or `PER` is used for the rate `idx` of the table. -/
def access (t : RateTable) (idx : ℕ) : Except Fault Unit :=
  if idx < t.size then .ok () else .error (.quality t idx)

variable {t : RateTable} {idx : ℕ} {row : RateRow}

theorem getElem?_rows (h : idx < t.size) : ∃ row, t.rows[idx]? = some row :=
  ⟨t.rows.get ⟨idx, t.rows_length ▸ h⟩, List.getElem?_eq_getElem _⟩

theorem lt_size (h : t.rows[idx]? = some row) : idx < t.size := by
  rw [← t.rows_length]
  exact (List.getElem?_eq_some_iff.1 h).1

theorem entry_of_some (h : t.rows[idx]? = some row) : t.entry idx = .ok row := by
  rw [entry, h]

theorem entry_yields (h : idx < t.size) : Yields (t.entry idx) fun row => t.rows[idx]? = some row := by
  obtain ⟨row, hrow⟩ := getElem?_rows h
  exact ⟨row, entry_of_some hrow, hrow⟩

theorem access_yields (h : idx < t.size) : Yields (t.access idx) fun _ => True := ⟨(), if_pos h, trivial⟩

end RateTable

end Mt7610u.RateCtrl
