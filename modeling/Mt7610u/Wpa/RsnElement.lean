import Mt7610u.Lib.Fields
import Mt7610u.Lib.Outcome

/-! # The suites of an RSN or WPA element (`WPA_ExtractSuiteFromRSNIE` of `common/cmm_wpa.c`)

The element is a row of fields of which those at the end may be missing; the function walks over them with the
length that remains. It reads through `readOctet`, which stops at an octet that is not the element's. -/

namespace Mt7610u.Wpa.Rsn

open Lib Lib.Fields Lib.Outcome

/-! ### The code -/

/-- `GROUP_SUITE`, `PAIRWISE_SUITE`, `AKM_SUITE`, `RSN_CAP_INFO`, `PMKID_LIST` -/
inductive SuiteType
  | group
  | pairwise
  | akm
  | rsnCap
  | pmkid
deriving DecidableEq, Repr

/-- `IE_RSN` and `IE_WPA` -/
def ieRsn : Byte := 48#8
def ieWpa : Byte := 221#8

/-- `LEN_OUI_SUITE`, `LEN_PMKID` -/
def lenOuiSuite : ℕ := 4
def lenPmkid : ℕ := 16

/-- What the function leaves in `*count`, and where the pointer that it returns points to in the element. -/
structure Suite where
  count : ℕ
  ptr : Option ℕ
deriving DecidableEq, Repr

/-- `out`: no suite. -/
def Suite.out : Suite := ⟨0, none⟩

def readOctet (rsnie : List Byte) (i : ℕ) : Except ℕ Byte :=
  match rsnie[i]? with
  | some b => .ok b
  | none => .error i

/-- A `UINT16` of the element, low octet first. -/
def readUint16 (rsnie : List Byte) (i : ℕ) : Except ℕ ℕ := do
  let low ← readOctet rsnie i
  let high ← readOctet rsnie (i + 1)
  return low.toNat + 256 * high.toNat

/-- `*count = cnt; return`; `*count` is a `UINT8`. -/
def found (cnt ptr : ℕ) : Suite := ⟨cnt % 256, some ptr⟩

def extractPmkid (rsnie : List Byte) (type : SuiteType) (pBuf len : ℕ) : Except ℕ Suite :=
  if len < 2 then return .out
  else do
    let pCount ← readUint16 rsnie pBuf
    if 0 < pCount then
      if len < 2 + lenPmkid * pCount then return .out
      else if type = .pmkid then return found pCount (pBuf + 2)
      else return .out
    else if type = .pmkid then return ⟨pCount % 256, none⟩
    else return .out

def extractCap (rsnie : List Byte) (type : SuiteType) (pBuf len : ℕ) : Except ℕ Suite :=
  if len < 2 then return .out
  else if type = .rsnCap then return found 1 pBuf
  else extractPmkid rsnie type (pBuf + 2) (len - 2)

/-- From the AKM suites on; a `RSNIE_AUTH` has 6 octets. -/
def extractAkm (rsnie : List Byte) (eid : Byte) (type : SuiteType) (pBuf len : ℕ) : Except ℕ Suite :=
  if len < 6 then return .out
  else do
    let aCnt ← readUint16 rsnie pBuf
    let offset := 6 + lenOuiSuite * aCnt - lenOuiSuite
    if len < offset then return .out
    else if type = .akm then return found aCnt (pBuf + 2)
    -- for WPA1 the remaining is ignored
    else if eid = ieWpa then return .out
    else extractCap rsnie type (pBuf + offset) (len - offset)

/-- From the beginning of an element with a header of `header` octets in front of the group suite: a `RSNIE` has
6 and a `RSNIE2` has 2, and both have 10 octets behind it. The offset for a count of 0 is computed modulo the
size of a pointer, and so is four octets less than the structure. -/
def extractSuites (rsnie : List Byte) (eid : Byte) (type : SuiteType) (header len : ℕ) : Except ℕ Suite :=
  if len < header + 10 then return .out
  else do
    let uCnt ← readUint16 rsnie (2 + header + 4)
    let offset := header + 10 + lenOuiSuite * uCnt - lenOuiSuite
    if len < offset then return .out
    else if type = .group then return found 1 (2 + header)
    else if type = .pairwise then return found uCnt (2 + header + 6)
    else extractAkm rsnie eid type (2 + offset) (len - offset)

/-- `WPA_ExtractSuiteFromRSNIE`. `len` is an `INT`, computed from the `UINT` length. -/
def wpaExtractSuiteFromRsnie (rsnie : List Byte) (type : SuiteType) : Except ℕ Suite :=
  let len : ℤ := ((rsnie.length : ℤ) - 2).bmod (2 ^ 32)
  if len ≤ 0 then return .out
  else do
    let octets ← readOctet rsnie 1
    if (octets.toNat : ℤ) ≠ len then return .out
    else do
      let eid ← readOctet rsnie 0
      if eid = ieWpa then extractSuites rsnie eid type 6 octets.toNat
      else if eid = ieRsn then extractSuites rsnie eid type 2 octets.toNat
      else return .out

/-! ### The grammar -/

def rsnFields : List Field := [.fixed 2, .fixed 4, .counted 4, .counted 4, .fixed 2, .counted 16]

def wpaFields : List Field := [.fixed 6, .fixed 4, .counted 4, .counted 4]

def SuiteType.index : SuiteType → ℕ
  | group => 1
  | pairwise => 2
  | akm => 3
  | rsnCap => 4
  | pmkid => 5

/-- The field by the grammar: an identifier, the number of octets that follow, and the fields. -/
def referenceField (rsnie : List Byte) (type : SuiteType) : Option Place :=
  if (rsnie.getD 1 0).toNat + 2 = rsnie.length then
    if rsnie.getD 0 0 = ieWpa then locate rsnie 2 wpaFields type.index
    else if rsnie.getD 0 0 = ieRsn then locate rsnie 2 rsnFields type.index
    else none
  else none

/-- What the function makes of the field; an empty PMKID list is no list. -/
def answer (type : SuiteType) : Option Place → Suite
  | some p => if type = .pmkid ∧ p.count = 0 then .out else ⟨p.count, some p.start⟩
  | none => .out

/-- The code asks for more than the field: the pairwise suites have to be complete, and there has to be room for
one pairwise suite, and for one AKM suite behind them if a field from there on is wanted. -/
def HasRoom (rsnie : List Byte) (type : SuiteType) : Prop :=
  (if rsnie.getD 0 0 = ieWpa then 18 else 14) ≤ rsnie.length ∧
    ∃ p ∈ referenceField rsnie .pairwise, type ≠ .group → type ≠ .pairwise → p.stop + 6 ≤ rsnie.length

instance {rsnie : List Byte} {type : SuiteType} : Decidable (HasRoom rsnie type) :=
  inferInstanceAs (Decidable (_ ∧ _))

/-! ### The walk -/

variable {rsnie : List Byte} {type : SuiteType} {eid : Byte} {pBuf len : ℕ}

theorem readOctet_of_lt {i : ℕ} (h : i < rsnie.length) : readOctet rsnie i = .ok (rsnie.getD i 0) := by
  rw [readOctet, List.getElem?_eq_getElem h, List.getD_eq_getElem _ _ h]

theorem readUint16_of_lt {i : ℕ} (h : i + 1 < rsnie.length) : readUint16 rsnie i = .ok (word rsnie i) := by
  rw [readUint16, readOctet_of_lt (by omega), readOctet_of_lt h]
  rfl

theorem answer_some {p : Place} (h : type = .pmkid → p.count ≠ 0) :
    answer type (some p) = ⟨p.count, some p.start⟩ :=
  if_neg fun hempty => h hempty.1 hempty.2

section walk

variable (hlen : pBuf + len = rsnie.length) (hshort : rsnie.length ≤ 257)
include hlen hshort

theorem extractPmkid_eq (htype : type = .pmkid) :
    extractPmkid rsnie type pBuf len = .ok (answer type (locate rsnie pBuf [.counted 16] 0)) := by
  subst htype
  unfold extractPmkid
  rw [locate_zero, Field.locate_counted]
  by_cases h2 : len < 2
  · rw [if_pos h2, if_neg (by omega)]
    rfl
  · rw [if_neg h2, readUint16_of_lt (by omega)]
    change (if 0 < word rsnie pBuf then _ else _) = _
    by_cases hpos : 0 < word rsnie pBuf
    · rw [if_pos hpos]
      by_cases hlong : len < 2 + lenPmkid * word rsnie pBuf
      · rw [if_pos hlong, if_neg (by unfold lenPmkid at hlong; omega)]
        rfl
      · have hfits : pBuf + 2 + 16 * word rsnie pBuf ≤ rsnie.length := by
          unfold lenPmkid at hlong
          omega
        rw [if_neg hlong, if_pos rfl, if_pos hfits, found, Nat.mod_eq_of_lt (by omega),
          answer_some fun _ => hpos.ne']
        rfl
    · have hzero : word rsnie pBuf = 0 := by omega
      rw [if_neg hpos, if_pos rfl, hzero, if_pos (by omega)]
      rfl

theorem extractCap_eq (htype : type = .rsnCap ∨ type = .pmkid) :
    extractCap rsnie type pBuf len =
      .ok (answer type (locate rsnie pBuf [.fixed 2, .counted 16] (type.index - 4))) := by
  unfold extractCap
  by_cases h2 : len < 2
  · have hnone : (Field.fixed 2).locate rsnie pBuf = none := if_neg (by omega)
    rw [if_pos h2]
    rcases htype with rfl | rfl
    · rw [show SuiteType.index .rsnCap - 4 = 0 from rfl, locate, hnone]
      rfl
    · rw [show SuiteType.index .pmkid - 4 = 0 + 1 from rfl, locate_succ_of_none hnone]
      rfl
  · have hsome : (Field.fixed 2).locate rsnie pBuf = some ⟨1, pBuf, 2⟩ := if_pos (by omega)
    rw [if_neg h2]
    rcases htype with rfl | rfl
    · rw [if_pos rfl, show SuiteType.index .rsnCap - 4 = 0 from rfl, locate, hsome]
      rfl
    · rw [if_neg (by decide), show SuiteType.index .pmkid - 4 = 0 + 1 from rfl, locate_succ hsome]
      exact extractPmkid_eq (by omega) hshort rfl

def fieldsBehind (eid : Byte) : List Field := if eid = ieWpa then [] else [.fixed 2, .counted 16]

theorem extractAkm_eq (htype : type ≠ .group ∧ type ≠ .pairwise) :
    extractAkm rsnie eid type pBuf len = .ok (if 6 ≤ len then
      answer type (locate rsnie pBuf (.counted 4 :: fieldsBehind eid) (type.index - 3)) else .out) := by
  unfold extractAkm lenOuiSuite
  by_cases h6 : len < 6
  · rw [if_pos h6, if_neg (by omega)]
    rfl
  · rw [if_neg h6, if_pos (by omega), readUint16_of_lt (by omega)]
    change (if len < 6 + 4 * word rsnie pBuf - 4 then _ else _) = _
    by_cases hlong : len < 6 + 4 * word rsnie pBuf - 4
    · have hnone : (Field.counted 4).locate rsnie pBuf = none := if_neg (by omega)
      rw [if_pos hlong]
      cases type with
      | group => exact absurd rfl htype.1
      | pairwise => exact absurd rfl htype.2
      | akm =>
        rw [show SuiteType.index .akm - 3 = 0 from rfl, locate_zero, hnone]
        rfl
      | rsnCap =>
        rw [show SuiteType.index .rsnCap - 3 = 0 + 1 from rfl, locate_succ_of_none hnone]
        rfl
      | pmkid =>
        rw [show SuiteType.index .pmkid - 3 = 1 + 1 from rfl, locate_succ_of_none hnone]
        rfl
    · have hsome : (Field.counted 4).locate rsnie pBuf = some ⟨word rsnie pBuf, pBuf + 2, 4⟩ :=
        if_pos (by omega)
      have hstop : Place.stop ⟨word rsnie pBuf, pBuf + 2, 4⟩ = pBuf + (6 + 4 * word rsnie pBuf - 4) := by
        simp only [Place.stop]
        omega
      rw [if_neg hlong]
      by_cases hakm : type = .akm
      · subst hakm
        rw [if_pos rfl, show SuiteType.index .akm - 3 = 0 from rfl, locate_zero, hsome, found,
          Nat.mod_eq_of_lt (by omega), answer_some fun h => by cases h]
        rfl
      · have hindex : type.index - 3 = (type.index - 4) + 1 := by
          cases type <;> first
            | rfl
            | exact absurd rfl hakm
            | exact absurd rfl htype.1
            | exact absurd rfl htype.2
        have hlate : type = .rsnCap ∨ type = .pmkid := by
          cases type <;> simp_all
        rw [if_neg hakm, hindex, locate_succ hsome, hstop]
        unfold fieldsBehind
        by_cases hwpa : eid = ieWpa
        · rw [if_pos hwpa, if_pos hwpa, locate_nil]
          rfl
        · rw [if_neg hwpa, if_neg hwpa]
          exact extractCap_eq (by omega) hshort hlate

end walk

theorem extractSuites_eq {header : ℕ} (hlen : 2 + len = rsnie.length) (hshort : rsnie.length ≤ 257) :
    extractSuites rsnie eid type header len = .ok (if header + 10 ≤ len then
      match (Field.counted 4).locate rsnie (2 + header + 4) with
      | some p =>
        if type ≠ .group → type ≠ .pairwise → p.stop + 6 ≤ rsnie.length then
          answer type (locate rsnie 2 (.fixed header :: .fixed 4 :: .counted 4 :: .counted 4 :: fieldsBehind eid)
            type.index)
        else .out
      | none => .out
      else .out) := by
  unfold extractSuites lenOuiSuite
  by_cases hroom : len < header + 10
  · rw [if_pos hroom, if_neg (by omega)]
    rfl
  · rw [if_neg hroom, if_pos (by omega), readUint16_of_lt (by omega)]
    obtain ⟨cnt, hcnt⟩ : ∃ cnt, cnt = word rsnie (2 + header + 4) := ⟨_, rfl⟩
    rw [Field.locate_counted, ← hcnt]
    change (if len < header + 10 + 4 * cnt - 4 then _ else _) = _
    by_cases hlong : len < header + 10 + 4 * cnt - 4
    · rw [if_pos hlong, if_neg (by omega)]
      rfl
    · have hversion : (Field.fixed header).locate rsnie 2 = some ⟨1, 2, header⟩ := if_pos (by omega)
      have hgroup : (Field.fixed 4).locate rsnie (2 + header) = some ⟨1, 2 + header, 4⟩ := if_pos (by omega)
      have hpair : (Field.counted 4).locate rsnie (2 + header + 4) = some ⟨cnt, 2 + header + 6, 4⟩ := by
        rw [Field.locate_counted, ← hcnt, if_pos (by omega)]
      rw [if_neg hlong, if_pos (show 2 + header + 4 + 2 + 4 * cnt ≤ rsnie.length by omega)]
      simp only
      have h1 : Place.stop ⟨1, 2, header⟩ = 2 + header := by simp [Place.stop]
      have h2 : Place.stop ⟨1, 2 + header, 4⟩ = 2 + header + 4 := by simp [Place.stop]
      have h3 : Place.stop ⟨cnt, 2 + header + 6, 4⟩ = 2 + (header + 10 + 4 * cnt - 4) := by
        simp only [Place.stop]
        omega
      by_cases hg : type = .group
      · subst hg
        rw [if_pos rfl, if_pos fun h => absurd rfl h, show SuiteType.index .group = 0 + 1 from rfl,
          locate_succ hversion, h1, locate_zero, hgroup, answer_some fun h => by cases h]
        rfl
      · by_cases hp : type = .pairwise
        · subst hp
          rw [if_neg (by decide), if_pos rfl, if_pos fun _ h => absurd rfl h,
            show SuiteType.index .pairwise = 0 + 1 + 1 from rfl, locate_succ hversion, h1, locate_succ hgroup, h2,
            locate_zero, hpair, answer_some (fun h => by cases h), found, Nat.mod_eq_of_lt (show cnt < 256 by omega)]
          rfl
        · obtain ⟨i, hi⟩ : ∃ i, type.index = i + 1 + 1 + 1 := by
            cases type <;> first
              | exact ⟨_, rfl⟩
              | exact absurd rfl hg
              | exact absurd rfl hp
          have hroom' : 6 ≤ len - (header + 10 + 4 * cnt - 4) ↔ (type ≠ .group → type ≠ .pairwise →
              2 + (header + 10 + 4 * cnt - 4) + 6 ≤ rsnie.length) :=
            ⟨fun _ _ _ => by omega, fun h => by
              have := h hg hp
              omega⟩
          rw [if_neg hg, if_neg hp, extractAkm_eq (by omega) hshort ⟨hg, hp⟩, hi, locate_succ hversion, h1,
            locate_succ hgroup, h2, locate_succ hpair, h3, if_congr hroom' rfl rfl]
          rfl

/-! ### The function -/

theorem HasRoom.shape (h : HasRoom rsnie type) : (rsnie.getD 1 0).toNat + 2 = rsnie.length := by
  obtain ⟨-, p, hp, -⟩ := h
  by_contra hne
  rw [referenceField, if_neg hne] at hp
  cases hp

theorem extractSuites_arm {header : ℕ} (hlen : 2 + len = rsnie.length) (hshort : rsnie.length ≤ 257)
    (hheader : (if rsnie.getD 0 0 = ieWpa then 18 else 14) = header + 12)
    (href : ∀ type, referenceField rsnie type =
      locate rsnie 2 (.fixed header :: .fixed 4 :: .counted 4 :: .counted 4 :: fieldsBehind eid) type.index) :
    extractSuites rsnie eid type header len =
      .ok (if HasRoom rsnie type then answer type (referenceField rsnie type) else .out) := by
  have hiff : HasRoom rsnie type ↔ header + 12 ≤ rsnie.length ∧ ∃ p ∈ referenceField rsnie .pairwise,
      type ≠ .group → type ≠ .pairwise → p.stop + 6 ≤ rsnie.length := by
    unfold HasRoom
    rw [hheader]
  rw [extractSuites_eq hlen hshort, ← href, if_congr hiff rfl rfl]
  by_cases hroom : header + 10 ≤ len
  · have hversion : (Field.fixed header).locate rsnie 2 = some ⟨1, 2, header⟩ := if_pos (by omega)
    have hgroup : (Field.fixed 4).locate rsnie (2 + header) = some ⟨1, 2 + header, 4⟩ := if_pos (by omega)
    have hpair : referenceField rsnie .pairwise = (Field.counted 4).locate rsnie (2 + header + 4) := by
      have h1 : Place.stop ⟨1, 2, header⟩ = 2 + header := by simp [Place.stop]
      have h2 : Place.stop ⟨1, 2 + header, 4⟩ = 2 + header + 4 := by simp [Place.stop]
      rw [href, show SuiteType.index .pairwise = 0 + 1 + 1 from rfl, locate_succ hversion, h1, locate_succ hgroup,
        h2, locate_zero]
    rw [if_pos hroom]
    simp only [hpair]
    cases (Field.counted 4).locate rsnie (2 + header + 4) with
    | none =>
      rw [if_neg]
      rintro ⟨-, p, hp, -⟩
      cases hp
    | some p =>
      refine congrArg _ (if_congr ?_ rfl rfl)
      constructor
      · exact fun hbehind => ⟨by omega, p, rfl, hbehind⟩
      · rintro ⟨-, q, hq, hbehind⟩
        obtain rfl := Option.some.inj hq
        exact hbehind
  · rw [if_neg hroom, if_neg fun h => hroom (by omega)]

theorem length_of_bmod {n octets : ℕ} (hn : n < 2 ^ 32) (hoctets : octets < 256)
    (hpos : 0 < ((n : ℤ) - 2).bmod (2 ^ 32)) (heq : (octets : ℤ) = ((n : ℤ) - 2).bmod (2 ^ 32)) :
    octets + 2 = n ∧ 2 < n := by
  have hmod := Int.bmod_emod (x := (n : ℤ) - 2) (m := 2 ^ 32)
  omega

theorem bmod_of_length {n : ℕ} (hn : n ≤ 257) : ((n : ℤ) - 2).bmod (2 ^ 32) = (n : ℤ) - 2 :=
  Int.bmod_eq_of_le (by omega) (by omega)

/-- **What the function returns.** No octet outside is read, and the field of the grammar is found if the element
has the room that the code asks for. -/
theorem extract_eq (rsnie : List Byte) (type : SuiteType) (h : rsnie.length < 2 ^ 32) :
    wpaExtractSuiteFromRsnie rsnie type =
      .ok (if HasRoom rsnie type then answer type (referenceField rsnie type) else .out) := by
  unfold wpaExtractSuiteFromRsnie
  extract_lets len
  by_cases hshape : (rsnie.getD 1 0).toNat + 2 = rsnie.length ∧ 2 < rsnie.length
  · obtain ⟨hoctets, htwo⟩ := hshape
    have hshort : rsnie.length ≤ 257 := by
      have := (rsnie.getD 1 0).isLt
      omega
    have hlen : len = (rsnie.length : ℤ) - 2 := bmod_of_length hshort
    rw [if_neg (by omega), readOctet_of_lt (by omega)]
    change (if ((rsnie.getD 1 0).toNat : ℤ) ≠ len then _ else _) = _
    rw [if_neg (not_not.2 (by omega)), readOctet_of_lt (by omega)]
    change (if rsnie.getD 0 0 = ieWpa then _ else if rsnie.getD 0 0 = ieRsn then _ else _) = _
    have href : ∀ type, referenceField rsnie type =
        if rsnie.getD 0 0 = ieWpa then locate rsnie 2 wpaFields type.index
        else if rsnie.getD 0 0 = ieRsn then locate rsnie 2 rsnFields type.index else none :=
      fun type => if_pos hoctets
    have hsum : 2 + (rsnie.getD 1 0).toNat = rsnie.length := by omega
    by_cases hwpa : rsnie.getD 0 0 = ieWpa
    · rw [if_pos hwpa]
      refine extractSuites_arm hsum hshort (if_pos hwpa) fun type => ?_
      rw [href, if_pos hwpa, fieldsBehind, if_pos hwpa]
      rfl
    · rw [if_neg hwpa]
      by_cases hrsn : rsnie.getD 0 0 = ieRsn
      · rw [if_pos hrsn]
        refine extractSuites_arm hsum hshort (if_neg hwpa) fun type => ?_
        rw [href, if_neg hwpa, if_pos hrsn, fieldsBehind, if_neg hwpa]
        rfl
      · have hno : ¬HasRoom rsnie type := by
          rintro ⟨-, p, hp, -⟩
          rw [href, if_neg hwpa, if_neg hrsn] at hp
          cases hp
        rw [if_neg hrsn, if_neg hno]
        rfl
  · have hno : ¬HasRoom rsnie type := by
      intro hroom
      refine hshape ⟨hroom.shape, ?_⟩
      have := hroom.1
      split at this <;> omega
    rw [if_neg hno]
    by_cases hpos : len ≤ 0
    · rw [if_pos hpos]
      rfl
    · have hne : ((rsnie.getD 1 0).toNat : ℤ) ≠ len := fun heq =>
        hshape (length_of_bmod h (rsnie.getD 1 0).isLt (not_le.1 hpos) heq)
      have htwo : 1 < rsnie.length := by
        have hmod := Int.bmod_emod (x := (rsnie.length : ℤ) - 2) (m := 2 ^ 32)
        have hlen : len = ((rsnie.length : ℤ) - 2).bmod (2 ^ 32) := rfl
        by_contra hsmall
        have := bmod_of_length (n := rsnie.length) (by omega)
        omega
      rw [if_neg hpos, readOctet_of_lt htwo]
      change (if ((rsnie.getD 1 0).toNat : ℤ) ≠ len then _ else _) = _
      rw [if_pos hne]
      rfl

theorem answer_inside {count ptr : ℕ} (h : answer type (referenceField rsnie type) = ⟨count, some ptr⟩) :
    2 ≤ ptr ∧ ∃ p ∈ referenceField rsnie type, p.count = count ∧ p.start = ptr ∧ ptr + p.size * count ≤ rsnie.length := by
  unfold answer at h
  cases hfield : referenceField rsnie type with
  | none =>
    rw [hfield] at h
    cases h
  | some p =>
    rw [hfield] at h
    simp only at h
    split at h
    · cases h
    · obtain ⟨rfl, hptr⟩ := (Suite.mk.injEq ..).mp h
      obtain rfl := Option.some.inj hptr
      have hin : 2 ≤ p.start ∧ p.stop ≤ rsnie.length := by
        unfold referenceField at hfield
        split_ifs at hfield
        · exact locate_le hfield
        · exact locate_le hfield
      exact ⟨hin.1, p, rfl, rfl, rfl, hin.2⟩

/-- **Extraction.** For every string and every type the function reads inside the element only. It returns the
field of the grammar where the element has room for a pairwise suite (and for an AKM suite, for the fields from
there on) and its pairwise suites are complete, and nothing otherwise; an empty PMKID list is nothing. Entries
that are returned lie in the element. -/
theorem extract_reference (rsnie : List Byte) (type : SuiteType) (h : rsnie.length < 2 ^ 32) :
    Yields (wpaExtractSuiteFromRsnie rsnie type) fun out =>
      out = (if HasRoom rsnie type then answer type (referenceField rsnie type) else .out) ∧
      (out.ptr = none → out.count = 0) ∧
      ∀ ptr, out.ptr = some ptr → 2 ≤ ptr ∧ ∃ p ∈ referenceField rsnie type,
        p.count = out.count ∧ p.start = ptr ∧ ptr + p.size * out.count ≤ rsnie.length := by
  refine ⟨_, extract_eq rsnie type h, rfl, ?_, ?_⟩
  · split
    · unfold answer
      split
      · split
        · exact fun _ => rfl
        · exact fun hnone => by cases hnone
      · exact fun _ => rfl
    · exact fun _ => rfl
  · intro ptr hptr
    split at hptr
    · next hroom =>
      rw [if_pos hroom]
      exact answer_inside (congrArg (Suite.mk _) hptr)
    · cases hptr

def fullElement : List Byte :=
  [48, 38, 1, 0, 0, 15, 172, 4, 1, 0, 0, 15, 172, 4, 1, 0, 0, 15, 172, 2, 0, 0, 1, 0] ++ List.replicate 16 7

theorem extract_reference_full : ∃ out, wpaExtractSuiteFromRsnie fullElement .pmkid = .ok out ∧
    out = if HasRoom fullElement .pmkid then answer .pmkid (referenceField fullElement .pmkid) else .out :=
  (extract_reference fullElement .pmkid (by decide)).imp fun _ h => ⟨h.1, h.2.1⟩

/-- An element that ends behind the group suite has one, but it is not returned. -/
theorem not_reference :
    wpaExtractSuiteFromRsnie [48, 6, 1, 0, 0, 15, 172, 2] .group = .ok ⟨0, none⟩ ∧
      referenceField [48, 6, 1, 0, 0, 15, 172, 2] .group = some ⟨1, 4, 4⟩ :=
  ⟨rfl, rfl⟩

end Mt7610u.Wpa.Rsn
