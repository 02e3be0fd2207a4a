import Mt7610u.Lib.Chain
import Mt7610u.Lib.Runs
import Mathlib.Data.Finset.Card

/-! # The MAC table

The table of peers: 32 slots, and 256 buckets of slots chained through `pNext`. In infrastructure mode the
AP has the fixed slot 1, which an association response enters by a path of its own. -/

namespace Mt7610u.Mgmt

open Lib Lib.Chain Lib.Runs

def maxLenOfMacTable : ℕ := 32

/-- `BSSID_WCID`: in infrastructure mode, the slot of the AP. -/
def bssidWcid : ℕ := 1

inductive EntryType
  | none
  | client
  | wds
  | apcli
  | mesh
  | dls
  | tdls
  deriving DecidableEq

inductive BssType
  | adhoc
  | infra
  deriving DecidableEq

/-- `MAC_TABLE_ENTRY`, with the fields by which the table is searched. -/
structure MacTableEntry where
  entryType : EntryType
  addr : BitVec 48
  aid : ℕ
  pNext : Option ℕ

/-- An entry after `NdisZeroMemory`. -/
def zeroEntry : MacTableEntry where
  entryType := .none
  addr := 0#48
  aid := 0
  pNext := none

/-- `MAC_TABLE`: a pointer to an entry is the number of its slot. -/
structure MacTable where
  hash : BitVec 8 → Option ℕ
  content : ℕ → MacTableEntry
  size : BitVec 16

/-- `MAC_ADDR_HASH_INDEX`: the exclusive or of the six bytes, below `HASH_TABLE_SIZE`. -/
def macAddrHashIndex (addr : BitVec 48) : BitVec 8 :=
  (addr.extractLsb' 0 8 ^^^ addr.extractLsb' 8 8 ^^^ addr.extractLsb' 16 8 ^^^ addr.extractLsb' 24 8 ^^^
    addr.extractLsb' 32 8 ^^^ addr.extractLsb' 40 8) &&& 0xff#8

def rateFirstOfdmRate : ℕ := 4

/-- `dot11_2_ra_rate`. -/
def dot11ToRaRate (maxSupportedRateIn500Kbps : ℕ) : ℕ :=
  match maxSupportedRateIn500Kbps with
  | 108 => 11
  | 96 => 10
  | 72 => 9
  | 48 => 8
  | 36 => 7
  | 24 => 6
  | 18 => 5
  | 12 => 4
  | 22 => 3
  | 11 => 2
  | 4 => 1
  | 2 => 0
  | _ => 3

def wmodeG : BitVec 8 := 0x04#8

/-- `WMODE_HT_ONLY`: no mode but `WMODE_GN`, `WMODE_AN` and `WMODE_AC`. -/
def wmodeHtOnly (phyMode : BitVec 8) : Bool := phyMode &&& ~~~0x38#8 == 0#8

/-- What a successful association or reassociation response is processed with: the BSSID of the
association that it replaces (`CommonCfg.Bssid`), its own (`MlmeAux.Bssid`), and what decides whether the
entry is set up. -/
structure AssocRsp where
  commonBssid : BitVec 48
  bssid : BitVec 48
  bssType : BssType
  phyMode : BitVec 8
  maxSupportedRateIn500Kbps : ℕ
  htCapabilityLen : ℕ

/-- The checks of `StaAddMacTableEntry` on the rates and the HT capability. -/
def AssocRsp.acceptable (r : AssocRsp) : Bool :=
  !(r.phyMode == wmodeG && decide (dot11ToRaRate r.maxSupportedRateIn500Kbps < rateFirstOfdmRate)) &&
    !(wmodeHtOnly r.phyMode && r.htCapabilityLen == 0)

namespace MacTable

def init : MacTable where
  hash := fun _ => none
  content := fun _ => zeroEntry
  size := 0#16

/-- `pNext` of a slot. -/
def next (t : MacTable) (k : ℕ) : Option ℕ := (t.content k).pNext

def isEntryNone (t : MacTable) (k : ℕ) : Bool := decide ((t.content k).entryType = .none)

/-- The slot `k` with the entry `e`. -/
def setEntry (t : MacTable) (k : ℕ) (e : MacTableEntry) : MacTable :=
  { t with content := Function.update t.content k e }

/-- Assigning `pNext` of a slot. -/
def setNext (t : MacTable) (k : ℕ) (p : Option ℕ) : MacTable := t.setEntry k { t.content k with pNext := p }

def macTableLookup (t : MacTable) (addr : BitVec 48) : Option (Option ℕ) :=
  walk t.next (fun k => t.isEntryNone k || (t.content k).addr == addr) maxLenOfMacTable
    (t.hash (macAddrHashIndex addr))

def addToHash (t : MacTable) (b : BitVec 8) (k : ℕ) : Option MacTable :=
  match t.hash b with
  | none => some { t with hash := Function.update t.hash b (some k) }
  | some a =>
    match walk t.next (fun c => (t.next c).isNone) maxLenOfMacTable (some a) with
    | some (some c) => some (t.setNext c (some k))
    | _ => none

def vacancy (t : MacTable) (bssType : BssType) : Option ℕ :=
  let firstWcid := if bssType = .infra then 2 else 1
  (List.range' firstWcid (maxLenOfMacTable - firstWcid)).find? t.isEntryNone

def macTableInsertEntry (t : MacTable) (addr : BitVec 48) (bssType : BssType) :
    Option (MacTable × Option ℕ) :=
  if maxLenOfMacTable ≤ t.size.toNat then some (t, none)
  else
    match t.vacancy bssType with
    | none => some (t, none)
    | some i =>
      let t' := { t.setEntry i { zeroEntry with entryType := .client, addr := addr, aid := i } with
        size := t.size + 1 }
      (t'.addToHash (macAddrHashIndex addr) i).map fun t'' => (t'', some i)

/-- The hash list update of `MacTableDeleteEntry`. A slot that is not in the bucket leaves it as it is. -/
def removeFromHash (t : MacTable) (b : BitVec 8) (k : ℕ) : Option MacTable :=
  match walk (stepPred t.next) (fun x => decide (x.2 = k)) maxLenOfMacTable
    ((t.hash b).map fun a => (none, a)) with
  | none => none
  | some none => some t
  | some (some (none, _)) => some { t with hash := Function.update t.hash b (t.next k) }
  | some (some (some c, _)) => some (t.setNext c (t.next k))

/-- Invalidating an entry. `pNext` keeps its value. -/
def invalidate (t : MacTable) (k : ℕ) : MacTable :=
  { t.setEntry k { t.content k with addr := 0#48, entryType := .none } with size := t.size - 1 }

def macTableDeleteEntry (t : MacTable) (wcid : ℕ) (addr : BitVec 48) : Option (MacTable × Bool) :=
  if maxLenOfMacTable ≤ wcid then some (t, false)
  else if t.isEntryNone wcid then some (t, true)
  else if (t.content wcid).addr = addr then
    (t.removeFromHash (macAddrHashIndex addr) wcid).map fun t' => (t'.invalidate wcid, true)
  else some (t, true)

def macTableReset (t : MacTable) : Option MacTable :=
  (List.range' 1 (maxLenOfMacTable - 1)).foldlM
    (fun t i => (t.macTableDeleteEntry i (t.content i).addr).map Prod.fst) t

/-- `StaAddMacTableEntry` on the slot `k`. The slot is added to the hash table as it is. -/
def staAddMacTableEntry (t : MacTable) (k : ℕ) (r : AssocRsp) : Option (MacTable × Bool) :=
  if !r.acceptable then some (t, false)
  else if r.bssType = .infra then
    (t.addToHash (macAddrHashIndex r.bssid) k).map fun t' =>
      ({ t'.setEntry k { t'.content k with addr := r.bssid, aid := bssidWcid, entryType := .client } with
        size := t'.size + 1 }, true)
  else some (t, true)

/-- What `PeerAssocRspAction` and `PeerReassocRspAction` do with the table. -/
def peerAssocRsp (t : MacTable) (r : AssocRsp) : Option MacTable :=
  (t.macTableLookup r.commonBssid).bind fun
    | none => (t.staAddMacTableEntry bssidWcid r).map Prod.fst
    | some k => (t.macTableDeleteEntry (t.content k).aid (t.content k).addr).bind fun x =>
      (x.1.staAddMacTableEntry bssidWcid r).map Prod.fst

/-- The clean-up of `LinkDown`: every client is deleted by its `Aid`, and the slot of the AP is zeroed. -/
def linkDown (t : MacTable) : Option MacTable :=
  ((List.range' 1 (maxLenOfMacTable - 1)).foldlM
    (fun t i =>
      if (t.content i).entryType = .client then
        (t.macTableDeleteEntry (t.content i).aid (t.content i).addr).map Prod.fst
      else some t) t).map fun t' => t'.setEntry bssidWcid zeroEntry

inductive Op
  | insert (addr : BitVec 48) (bssType : BssType)
  | delete (wcid : ℕ) (addr : BitVec 48)
  | reset
  | assocRsp (r : AssocRsp)
  | linkDown

/-- One operation; `none` once a loop over a chain has not ended. -/
def step (s : Option MacTable) (op : Op) : Option MacTable :=
  s.bind fun t =>
    match op with
    | .insert addr bssType => (t.macTableInsertEntry addr bssType).map Prod.fst
    | .delete wcid addr => (t.macTableDeleteEntry wcid addr).map Prod.fst
    | .reset => t.macTableReset
    | .assocRsp r => t.peerAssocRsp r
    | .linkDown => t.linkDown

/-! ### Consistency -/

/-- The slot `k` holds an entry. -/
def Present (t : MacTable) (k : ℕ) : Prop := k < maxLenOfMacTable ∧ (t.content k).entryType ≠ .none

instance (t : MacTable) (k : ℕ) : Decidable (t.Present k) := inferInstanceAs (Decidable (_ ∧ _))

/-- **Consistency.** -/
structure Consistent (t : MacTable) : Prop where
  chain : ∀ b, ∃ l, Linked t.next (t.hash b) l ∧ l.Nodup ∧
    ∀ k, k ∈ l ↔ t.Present k ∧ macAddrHashIndex (t.content k).addr = b
  lookup : ∀ addr, ∃ r, t.macTableLookup addr = some r ∧ ∀ k, r = some k ↔ t.Present k ∧ (t.content k).addr = addr
  size_eq : t.size.toNat = ((Finset.range maxLenOfMacTable).filter t.Present).card
  addr_inj : ∀ i j, t.Present i → t.Present j → (t.content i).addr = (t.content j).addr → i = j
  aid_eq : ∀ k, t.Present k → (t.content k).aid = k

/-! ### The table as a partial function -/

/-- The address in slot `k`, if the slot holds an entry. -/
def key (t : MacTable) (k : ℕ) : Option (BitVec 48) :=
  if t.Present k then some (t.content k).addr else none

/-- The bucket that each slot of `key` belongs to. -/
def bucketOf (key : ℕ → Option (BitVec 48)) : ℕ → Option (BitVec 8) := Option.map macAddrHashIndex ∘ key

def entries (key : ℕ → Option (BitVec 48)) : Finset ℕ :=
  (Finset.range maxLenOfMacTable).filter fun k => (key k).isSome

structure Inv (t : MacTable) : Prop where
  bucketed : Bucketed t.hash t.next (bucketOf t.key)
  client : ∀ k, t.Present k → (t.content k).entryType = .client
  aid_eq : ∀ k, t.Present k → (t.content k).aid = k
  key_inj : ∀ i j a, t.key i = some a → t.key j = some a → i = j
  size_eq : t.size.toNat = (entries t.key).card

variable {t t' : MacTable} {k : ℕ} {addr : BitVec 48}

theorem key_eq_some : t.key k = some addr ↔ t.Present k ∧ (t.content k).addr = addr := by
  unfold key
  by_cases h : t.Present k
  · rw [if_pos h]
    simp [h]
  · rw [if_neg h]
    simp [h]

theorem key_eq_none : t.key k = none ↔ ¬ t.Present k := by
  unfold key
  by_cases h : t.Present k
  · rw [if_pos h]
    simp [h]
  · rw [if_neg h]
    simp [h]

theorem lt_of_key (h : t.key k = some addr) : k < maxLenOfMacTable := (key_eq_some.1 h).1.1

theorem bucketOf_eq_some {b : BitVec 8} :
    bucketOf t.key k = some b ↔ t.Present k ∧ macAddrHashIndex (t.content k).addr = b := by
  unfold bucketOf
  rw [Function.comp_apply, Option.map_eq_some_iff]
  constructor
  · rintro ⟨a, ha, rfl⟩
    obtain ⟨hp, rfl⟩ := key_eq_some.1 ha
    exact ⟨hp, rfl⟩
  · rintro ⟨hp, rfl⟩
    exact ⟨_, key_eq_some.2 ⟨hp, rfl⟩, rfl⟩

theorem bucketOf_update (key : ℕ → Option (BitVec 48)) (k : ℕ) (v : Option (BitVec 48)) :
    bucketOf (Function.update key k v) = Function.update (bucketOf key) k (v.map macAddrHashIndex) :=
  Function.comp_update _ _ _ _

theorem length_le {l : List ℕ} {p : Option ℕ} (h : Linked t.next p l)
    (hlt : ∀ k ∈ l, k < maxLenOfMacTable) : l.length ≤ maxLenOfMacTable := by
  have hsub : l ⊆ List.range maxLenOfMacTable := fun k hk => List.mem_range.2 (hlt k hk)
  have := (h.nodup.subperm hsub).length_le
  rwa [List.length_range] at this

/-! ### Lookups -/

theorem Inv.lookup (h : t.Inv) (addr : BitVec 48) :
    ∃ r, t.macTableLookup addr = some r ∧ ∀ k, r = some k ↔ t.Present k ∧ (t.content k).addr = addr := by
  obtain ⟨l, hl, hmem⟩ := h.bucketed (macAddrHashIndex addr)
  have hpres : ∀ k ∈ l, t.Present k := fun k hk => (bucketOf_eq_some.1 ((hmem k).1 hk)).1
  refine ⟨_, walk_eq_find hl (length_le hl fun k hk => (hpres k hk).1), fun k => ?_⟩
  constructor
  · intro hf
    have hk := hpres k (List.mem_of_find?_eq_some hf)
    have hstop := List.find?_some hf
    simp only [isEntryNone, hk.2, decide_false, Bool.false_or, beq_iff_eq] at hstop
    exact ⟨hk, hstop⟩
  · rintro ⟨hk, rfl⟩
    have hkl : k ∈ l := (hmem k).2 (bucketOf_eq_some.2 ⟨hk, rfl⟩)
    have hsome : (l.find? fun j => t.isEntryNone j || (t.content j).addr == (t.content k).addr).isSome :=
      List.find?_isSome.2 ⟨k, hkl, by simp⟩
    obtain ⟨j, hj⟩ := Option.isSome_iff_exists.1 hsome
    have hjp := hpres j (List.mem_of_find?_eq_some hj)
    have hjs := List.find?_some hj
    simp only [isEntryNone, hjp.2, decide_false, Bool.false_or, beq_iff_eq] at hjs
    rw [hj, h.key_inj j k _ (key_eq_some.2 ⟨hjp, hjs⟩) (key_eq_some.2 ⟨hk, rfl⟩)]

theorem Inv.consistent (h : t.Inv) : t.Consistent where
  chain := by
    intro b
    obtain ⟨l, hl, hmem⟩ := h.bucketed b
    exact ⟨l, hl, hl.nodup, fun k => (hmem k).trans bucketOf_eq_some⟩
  lookup := h.lookup
  size_eq := by
    rw [h.size_eq]
    unfold entries
    refine congrArg Finset.card (Finset.filter_congr fun k _ => ?_)
    rw [Option.isSome_iff_ne_none, ne_eq, key_eq_none, not_not]
  addr_inj := fun i j hi hj he => h.key_inj i j _ (key_eq_some.2 ⟨hi, he⟩) (key_eq_some.2 ⟨hj, rfl⟩)
  aid_eq := h.aid_eq

theorem inv_init : init.Inv where
  bucketed := fun _ => ⟨[], rfl, fun _ => by simp [bucketOf, key, Present, init, zeroEntry]⟩
  client := fun _ h => absurd rfl h.2
  aid_eq := fun _ h => absurd rfl h.2
  key_inj := fun _ _ _ h => absurd rfl (key_eq_some.1 h).1.2
  size_eq := by decide

/-! ### Entering and leaving the hash table -/

@[simp] theorem content_setEntry_self (e : MacTableEntry) : (t.setEntry k e).content k = e := by
  show Function.update t.content k e k = e
  rw [Function.update_self]

theorem content_setEntry_of_ne (e : MacTableEntry) {i : ℕ} (h : i ≠ k) :
    (t.setEntry k e).content i = t.content i := by
  show Function.update t.content k e i = t.content i
  rw [Function.update_of_ne h]

@[simp] theorem content_setNext (p : Option ℕ) (i : ℕ) :
    (t.setNext k p).content i = { t.content i with pNext := (t.setNext k p).next i } := by
  unfold next setNext
  by_cases hi : i = k
  · subst hi
    simp
  · rw [content_setEntry_of_ne _ hi]

theorem next_setNext (p : Option ℕ) : (t.setNext k p).next = Function.update t.next k p := by
  funext i
  unfold next setNext setEntry
  by_cases hi : i = k
  · subst hi
    simp
  · simp [Function.update_of_ne hi]

structure SameEntries (t t' : MacTable) : Prop where
  content_eq : ∀ i, t'.content i = { t.content i with pNext := t'.next i }
  size_eq : t'.size = t.size

theorem SameEntries.refl (t : MacTable) (hash : BitVec 8 → Option ℕ) :
    SameEntries t { t with hash := hash } := ⟨fun _ => rfl, rfl⟩

theorem SameEntries.setNext (t : MacTable) (k : ℕ) (p : Option ℕ) : SameEntries t (t.setNext k p) :=
  ⟨content_setNext p, rfl⟩

theorem present_congr {i : ℕ} (h : (t'.content i).entryType = (t.content i).entryType) :
    t'.Present i ↔ t.Present i := by
  unfold Present
  rw [h]

theorem key_congr {i : ℕ} (h : t'.content i = { t.content i with pNext := t'.next i }) :
    t'.key i = t.key i := by
  have hpres : t'.Present i ↔ t.Present i := present_congr (by rw [h])
  have haddr : (t'.content i).addr = (t.content i).addr := by rw [h]
  refine Option.ext fun a => ?_
  rw [key_eq_some, key_eq_some, hpres, haddr]

variable {bucket : ℕ → Option (BitVec 8)} {b : BitVec 8}

theorem addToHash_spec (h : Bucketed t.hash t.next bucket)
    (hlt : ∀ i b, bucket i = some b → i < maxLenOfMacTable) (hnext : t.next k = none) (hk : bucket k = none) :
    ∃ t', t.addToHash b k = some t' ∧ Bucketed t'.hash t'.next (Function.update bucket k (some b)) ∧
      SameEntries t t' := by
  obtain ⟨l, hl, hmem⟩ := h b
  unfold addToHash
  cases hb : t.hash b with
  | none => exact ⟨_, rfl, h.snoc_nil hb hnext hk, SameEntries.refl t _⟩
  | some a =>
    rcases List.eq_nil_or_concat l with rfl | ⟨l, c, rfl⟩
    · exact absurd (hb.symm.trans hl) (by simp)
    · have hlen := length_le hl fun i hi => hlt i b ((hmem i).1 hi)
      rw [List.concat_eq_append] at hl hlen
      have hwalk := walk_last hl hlen
      rw [hb] at hwalk
      show ∃ t', (match walk t.next (fun c => (t.next c).isNone) maxLenOfMacTable (some a) with
        | some (some c) => some (t.setNext c (some k))
        | _ => none) = some t' ∧ _
      rw [hwalk]
      refine ⟨t.setNext c (some k), rfl, ?_, SameEntries.setNext t c (some k)⟩
      rw [next_setNext]
      exact h.snoc_last hl hnext hk

/-- **A linked slot leaves its bucket.** No slot gets a link that had none. -/
theorem removeFromHash_spec (h : Bucketed t.hash t.next bucket)
    (hlt : ∀ i b, bucket i = some b → i < maxLenOfMacTable) (hk : bucket k = some b) :
    ∃ t', t.removeFromHash b k = some t' ∧ Bucketed t'.hash t'.next (Function.update bucket k none) ∧
      SameEntries t t' ∧ ∀ i, t.next i = none → t'.next i = none := by
  obtain ⟨l, hl, hmem⟩ := h b
  obtain ⟨l₁, l₂, rfl⟩ := List.append_of_mem ((hmem k).2 hk)
  have hlen := length_le hl fun i hi => hlt i b ((hmem i).1 hi)
  have hwalk := walk_pred (q := none) hl
    (show l₁.length < maxLenOfMacTable by
      simp only [List.length_append, List.length_cons] at hlen
      omega)
  unfold removeFromHash
  rw [hwalk]
  rcases List.eq_nil_or_concat l₁ with rfl | ⟨l₁, c, rfl⟩
  · exact ⟨_, rfl, h.unlink_head hl.1 hk, SameEntries.refl t _, fun _ hi => hi⟩
  · rw [List.concat_eq_append, List.append_assoc] at hl
    simp only [List.concat_eq_append, List.getLast?_append, List.getLast?_singleton, Option.some_or]
    refine ⟨t.setNext c (t.next k), rfl, ?_, SameEntries.setNext t c (t.next k), fun i hi => ?_⟩
    · rw [next_setNext]
      exact h.unlink_pred hl
    · -- the predecessor had a link
      have hic : i ≠ c := by
        rintro rfl
        have := hl.drop
        rw [hi] at this
        exact absurd this.1 (by simp)
      rw [next_setNext, Function.update_of_ne hic]
      exact hi

/-! ### Entries coming and going -/

theorem entries_insert {key : ℕ → Option (BitVec 48)} (hk : k < maxLenOfMacTable) :
    entries (Function.update key k (some addr)) = insert k (entries key) := by
  ext i
  unfold entries
  by_cases hi : i = k
  · subst hi
    simp [hk]
  · simp [hi]

theorem entries_erase {key : ℕ → Option (BitVec 48)} :
    entries (Function.update key k none) = (entries key).erase k := by
  ext i
  unfold entries
  by_cases hi : i = k
  · subst hi
    simp
  · simp [hi]

theorem card_entries_le (key : ℕ → Option (BitVec 48)) : (entries key).card ≤ maxLenOfMacTable := by
  have := Finset.card_filter_le (Finset.range maxLenOfMacTable) fun k => ((key k).isSome = true)
  rwa [Finset.card_range] at this

/-- Outside slot `k` the tables differ in their links only. -/
def SameBut (k : ℕ) (t t' : MacTable) : Prop := ∀ i, i ≠ k → t'.content i = { t.content i with pNext := t'.next i }

theorem SameBut.key_eq (h : SameBut k t t') (v : Option (BitVec 48)) (hk : t'.key k = v) :
    t'.key = Function.update t.key k v := by
  funext i
  by_cases hi : i = k
  · subst hi
    rw [Function.update_self, hk]
  · rw [Function.update_of_ne hi, key_congr (h i hi)]

theorem Inv.enter (h : t.Inv) (hk : k < maxLenOfMacTable) (hvac : t.key k = none)
    (hnew : ∀ i, t.key i ≠ some addr) (hsame : SameBut k t t')
    (hself : t'.content k = { zeroEntry with
      entryType := .client, addr := addr, aid := k, pNext := t'.next k })
    (hsize : t'.size = t.size + 1)
    (hb : Bucketed t'.hash t'.next
      (Function.update (bucketOf t.key) k (some (macAddrHashIndex addr)))) :
    t'.Inv ∧ t'.key = Function.update t.key k (some addr) := by
  have hpk : t'.Present k := ⟨hk, by rw [hself]; simp⟩
  have hkey : t'.key = Function.update t.key k (some addr) := hsame.key_eq _ (key_eq_some.2 ⟨hpk, by rw [hself]⟩)
  have hp : ∀ i, i ≠ k → t'.Present i → t.Present i := fun i hi => (present_congr (by rw [hsame i hi])).1
  refine ⟨⟨?_, ?_, ?_, ?_, ?_⟩, hkey⟩
  · rw [hkey, bucketOf_update]
    exact hb
  · intro i hi
    by_cases hik : i = k
    · rw [hik, hself]
    · rw [hsame i hik]
      exact h.client i (hp i hik hi)
  · intro i hi
    by_cases hik : i = k
    · rw [hik, hself]
    · rw [hsame i hik]
      exact h.aid_eq i (hp i hik hi)
  · intro i j a hi hj
    rw [hkey] at hi hj
    by_cases hik : i = k <;> by_cases hjk : j = k
    · rw [hik, hjk]
    · rw [hik, Function.update_self] at hi
      rw [Function.update_of_ne hjk, ← hi] at hj
      exact absurd hj (hnew j)
    · rw [hjk, Function.update_self] at hj
      rw [Function.update_of_ne hik, ← hj] at hi
      exact absurd hi (hnew i)
    · rw [Function.update_of_ne hik] at hi
      rw [Function.update_of_ne hjk] at hj
      exact h.key_inj i j a hi hj
  · have hnot : k ∉ entries t.key := by
      unfold entries
      simp [hvac]
    have hcard : (entries t'.key).card = (entries t.key).card + 1 := by
      rw [hkey, entries_insert hk, Finset.card_insert_of_notMem hnot]
    have hle := card_entries_le t'.key
    have hone : (1 : BitVec 16).toNat = 1 := rfl
    unfold maxLenOfMacTable at hle
    rw [hsize, BitVec.toNat_add, h.size_eq, hone]
    omega

theorem Inv.leave (h : t.Inv) (hk : t.Present k) (hsame : SameBut k t t')
    (hself : (t'.content k).entryType = .none) (hsize : t'.size = t.size - 1)
    (hb : Bucketed t'.hash t'.next (Function.update (bucketOf t.key) k none)) :
    t'.Inv ∧ t'.key = Function.update t.key k none := by
  have hpk : ¬ t'.Present k := fun hc => hc.2 hself
  have hkey : t'.key = Function.update t.key k none := hsame.key_eq _ (key_eq_none.2 hpk)
  have hne : ∀ i, t'.Present i → i ≠ k := fun i hi he => hpk (he ▸ hi)
  have hp : ∀ i, t'.Present i → t.Present i :=
    fun i hi => (present_congr (by rw [hsame i (hne i hi)])).1 hi
  have hsub : ∀ i a, t'.key i = some a → t.key i = some a := by
    intro i a hi
    have hik := hne i (key_eq_some.1 hi).1
    rwa [hkey, Function.update_of_ne hik] at hi
  refine ⟨⟨?_, ?_, ?_, ?_, ?_⟩, hkey⟩
  · rw [hkey, bucketOf_update]
    exact hb
  · intro i hi
    rw [hsame i (hne i hi)]
    exact h.client i (hp i hi)
  · intro i hi
    rw [hsame i (hne i hi)]
    exact h.aid_eq i (hp i hi)
  · intro i j a hi hj
    exact h.key_inj i j a (hsub i a hi) (hsub j a hj)
  · have hmem : k ∈ entries t.key := by
      unfold entries
      simp [hk.1, key_eq_some.2 ⟨hk, rfl⟩]
    have hcard : (entries t'.key).card = (entries t.key).card - 1 := by
      rw [hkey, entries_erase, Finset.card_erase_of_mem hmem]
    have hpos := Finset.card_pos.2 ⟨k, hmem⟩
    have hle := card_entries_le t.key
    have hone : (1 : BitVec 16).toNat = 1 := rfl
    unfold maxLenOfMacTable at hle
    rw [hsize, BitVec.toNat_sub, h.size_eq, hone, hcard]
    omega

theorem Inv.lt_of_bucketOf {i : ℕ} {b : BitVec 8} (h : bucketOf t.key i = some b) :
    i < maxLenOfMacTable := (bucketOf_eq_some.1 h).1.1

theorem bucketOf_eq_none (h : t.key k = none) : bucketOf t.key k = none := by
  unfold bucketOf
  rw [Function.comp_apply, h]
  rfl

theorem next_setEntry (e : MacTableEntry) : (t.setEntry k e).next = Function.update t.next k e.pNext := by
  funext i
  unfold next setEntry
  by_cases hi : i = k
  · subst hi
    simp
  · simp [Function.update_of_ne hi]

/-! ### The operations -/

theorem vacancy_spec {bssType : BssType} (h : t.vacancy bssType = some k) :
    k < maxLenOfMacTable ∧ t.key k = none := by
  unfold vacancy at h
  have hmem := List.mem_of_find?_eq_some h
  have hnone := List.find?_some h
  unfold isEntryNone at hnone
  rw [List.mem_range'_1] at hmem
  have hlt : k < maxLenOfMacTable := by
    split at hmem <;> unfold maxLenOfMacTable at hmem ⊢ <;> omega
  refine ⟨hlt, key_eq_none.2 ?_⟩
  rintro ⟨_, hk⟩
  exact hk (of_decide_eq_true hnone)

/-- **Insertion** of an address that is not in the table, if there is a vacancy for it. -/
theorem Inv.insert {bssType : BssType} (h : t.Inv) (hnew : t.vacancy bssType ≠ none → ∀ i, t.key i ≠ some addr) :
    ∃ t' r, t.macTableInsertEntry addr bssType = some (t', r) ∧ t'.Inv ∧
      t'.key = match r with
        | none => t.key
        | some k => Function.update t.key k (some addr) := by
  unfold macTableInsertEntry
  by_cases hfull : maxLenOfMacTable ≤ t.size.toNat
  · rw [if_pos hfull]
    exact ⟨t, none, rfl, h, rfl⟩
  rw [if_neg hfull]
  cases hv : t.vacancy bssType with
  | none => exact ⟨t, none, rfl, h, rfl⟩
  | some k =>
    obtain ⟨hk, hvac⟩ := vacancy_spec hv
    have hnone := bucketOf_eq_none hvac
    have hnew' := hnew (by rw [hv]; simp)
    let e : MacTableEntry := { zeroEntry with entryType := .client, addr := addr, aid := k }
    let t₁ : MacTable := { t.setEntry k e with size := t.size + 1 }
    have hnext : t₁.next = Function.update t.next k none := next_setEntry e
    have hb₁ : Bucketed t₁.hash t₁.next (bucketOf t.key) := by
      rw [hnext]
      exact h.bucketed.update_next hnone none
    obtain ⟨t', ht', hb', hsame⟩ := addToHash_spec (b := macAddrHashIndex addr) hb₁
      (fun i b => Inv.lt_of_bucketOf) (by rw [hnext, Function.update_self]) hnone
    have hself : t₁.content k = e := content_setEntry_self e
    have hother : SameBut k t t' := by
      intro i hi
      have hi' : t₁.content i = t.content i := content_setEntry_of_ne e hi
      rw [hsame.content_eq i, hi']
    obtain ⟨hinv, hkey⟩ := h.enter hk hvac hnew' hother (by rw [hsame.content_eq k, hself]) hsame.size_eq hb'
    exact ⟨t', some k, congrArg (Option.map fun t'' => (t'', some k)) ht', hinv, hkey⟩

/-- **Deletion** takes away the entry in the slot if it has the address, and nothing otherwise. -/
theorem Inv.delete (h : t.Inv) (wcid : ℕ) (addr : BitVec 48) :
    ∃ t', t.macTableDeleteEntry wcid addr = some (t', decide (wcid < maxLenOfMacTable)) ∧ t'.Inv ∧
      t'.key = (if t.key wcid = some addr then Function.update t.key wcid none else t.key) ∧
      ∀ i, t.next i = none → t'.next i = none := by
  unfold macTableDeleteEntry
  by_cases hlt : maxLenOfMacTable ≤ wcid
  · have hne : ¬ t.key wcid = some addr := fun hc => absurd (lt_of_key hc) (by omega)
    rw [if_pos hlt, if_neg hne, decide_eq_false (by omega)]
    exact ⟨t, rfl, h, rfl, fun _ hi => hi⟩
  rw [if_neg hlt, decide_eq_true (by omega)]
  by_cases hnone : t.isEntryNone wcid = true
  · have hne : ¬ t.key wcid = some addr :=
      fun hc => (key_eq_some.1 hc).1.2 (of_decide_eq_true hnone)
    rw [if_pos hnone, if_neg hne]
    exact ⟨t, rfl, h, rfl, fun _ hi => hi⟩
  rw [if_neg hnone]
  have hp : t.Present wcid := ⟨by omega, fun hc => hnone (decide_eq_true hc)⟩
  by_cases ha : (t.content wcid).addr = addr
  · rw [if_pos ha, if_pos (key_eq_some.2 ⟨hp, ha⟩)]
    obtain ⟨t₁, ht₁, hb, hsame, hmono⟩ := removeFromHash_spec h.bucketed
      (fun i b => Inv.lt_of_bucketOf) (bucketOf_eq_some.2 ⟨hp, congrArg macAddrHashIndex ha⟩)
    have hnext : (t₁.invalidate wcid).next = t₁.next := by
      refine (next_setEntry _).trans ?_
      exact Function.update_eq_self wcid t₁.next
    have hother : SameBut wcid t (t₁.invalidate wcid) := by
      intro i hi
      have hi' : (t₁.invalidate wcid).content i = t₁.content i := content_setEntry_of_ne _ hi
      rw [hi', hnext, hsame.content_eq i]
    have hself : ((t₁.invalidate wcid).content wcid).entryType = .none := by
      unfold invalidate
      simp
    have hsize : (t₁.invalidate wcid).size = t.size - 1 := by
      unfold invalidate
      rw [← hsame.size_eq]
    obtain ⟨hinv, hkey⟩ := h.leave hp hother hself hsize (by rw [hnext]; exact hb)
    exact ⟨_, by rw [ht₁]; rfl, hinv, hkey, fun i hi => by rw [hnext]; exact hmono i hi⟩
  · rw [if_neg ha, if_neg fun hc => ha (key_eq_some.1 hc).2]
    exact ⟨t, rfl, h, rfl, fun _ hi => hi⟩

/-- `f` takes away the entry of the slot it is given. -/
def Clears (f : MacTable → ℕ → Option MacTable) : Prop :=
  ∀ t k, t.Inv → k < maxLenOfMacTable → ∃ t', f t k = some t' ∧ t'.Inv ∧ t'.key = Function.update t.key k none

theorem clears_delete : Clears fun t i => (t.macTableDeleteEntry i (t.content i).addr).map Prod.fst := by
  intro t k h hk
  obtain ⟨t', ht', hinv, hkey, -⟩ := h.delete k (t.content k).addr
  refine ⟨t', congrArg (Option.map Prod.fst) ht', hinv, ?_⟩
  by_cases hp : t.Present k
  · rw [hkey, if_pos (key_eq_some.2 ⟨hp, rfl⟩)]
  · rw [hkey, if_neg fun hc => hp (key_eq_some.1 hc).1, ← key_eq_none.2 hp, Function.update_eq_self]

theorem clears_client : Clears fun t i =>
    if (t.content i).entryType = .client then
      (t.macTableDeleteEntry (t.content i).aid (t.content i).addr).map Prod.fst else some t := by
  intro t k h hk
  by_cases hc : (t.content k).entryType = .client
  · have hp : t.Present k := ⟨hk, by rw [hc]; simp⟩
    show ∃ t', (if (t.content k).entryType = .client then
      (t.macTableDeleteEntry (t.content k).aid (t.content k).addr).map Prod.fst else some t) = some t' ∧ _
    rw [if_pos hc, h.aid_eq k hp]
    exact clears_delete t k h hk
  · have hp : ¬ t.Present k := fun hp => hc (h.client k hp)
    exact ⟨t, if_neg hc, h, by rw [← key_eq_none.2 hp, Function.update_eq_self]⟩

theorem Clears.foldlM {f : MacTable → ℕ → Option MacTable} (hf : Clears f) (l : List ℕ)
    (hl : ∀ k ∈ l, k < maxLenOfMacTable) (t : MacTable) (h : t.Inv) :
    ∃ t', l.foldlM f t = some t' ∧ t'.Inv ∧ (∀ k ∈ l, t'.key k = none) ∧
      ∀ k, t.key k = none → t'.key k = none := by
  induction l generalizing t with
  | nil => exact ⟨t, rfl, h, by simp, fun _ hk => hk⟩
  | cons i l ih =>
    obtain ⟨t₁, ht₁, hinv₁, hkey₁⟩ := hf t i h (hl i List.mem_cons_self)
    obtain ⟨t', ht', hinv', hgone, hmono⟩ := ih (fun k hk => hl k (List.mem_cons_of_mem i hk)) t₁ hinv₁
    have hmono₁ : ∀ k, t.key k = none → t₁.key k = none := by
      intro k hk
      rw [hkey₁]
      by_cases hki : k = i
      · rw [hki, Function.update_self]
      · rw [Function.update_of_ne hki, hk]
    refine ⟨t', ?_, hinv', ?_, fun k hk => hmono k (hmono₁ k hk)⟩
    · rw [List.foldlM_cons, ht₁]
      exact ht'
    · intro k hk
      rcases List.mem_cons.1 hk with rfl | hk
      · exact hmono k (by rw [hkey₁, Function.update_self])
      · exact hgone k hk

theorem lt_of_mem_slots (k : ℕ) (h : k ∈ List.range' 1 (maxLenOfMacTable - 1)) : k < maxLenOfMacTable := by
  rw [List.mem_range'_1] at h
  unfold maxLenOfMacTable at h ⊢
  omega

theorem Inv.reset (h : t.Inv) : ∃ t', t.macTableReset = some t' ∧ t'.Inv := by
  obtain ⟨t', ht', hinv, -⟩ := clears_delete.foldlM _ lt_of_mem_slots t h
  exact ⟨t', ht', hinv⟩

theorem Inv.zero (h : t.Inv) (hk : t.key k = none) : (t.setEntry k zeroEntry).Inv := by
  have hother : SameBut k t (t.setEntry k zeroEntry) := by
    intro i hi
    rw [next_setEntry, Function.update_of_ne hi, content_setEntry_of_ne _ hi]
    rfl
  have hpk : ¬ (t.setEntry k zeroEntry).Present k := by
    rintro ⟨_, hc⟩
    exact hc (by rw [content_setEntry_self]; rfl)
  have hkey : (t.setEntry k zeroEntry).key = t.key := by
    rw [hother.key_eq none (key_eq_none.2 hpk), ← hk, Function.update_eq_self]
  have hcont : ∀ i, (t.setEntry k zeroEntry).Present i → (t.setEntry k zeroEntry).content i = t.content i :=
    fun i hi => content_setEntry_of_ne _ (fun he => hpk (he ▸ hi))
  have hp : ∀ i, (t.setEntry k zeroEntry).Present i → t.Present i := by
    intro i hi
    have hc := hcont i hi
    exact ⟨hi.1, by rw [← hc]; exact hi.2⟩
  refine ⟨?_, ?_, ?_, ?_, ?_⟩
  · rw [hkey, next_setEntry]
    exact h.bucketed.update_next (bucketOf_eq_none hk) _
  · intro i hi
    rw [hcont i hi]
    exact h.client i (hp i hi)
  · intro i hi
    rw [hcont i hi]
    exact h.aid_eq i (hp i hi)
  · rw [hkey]
    exact h.key_inj
  · rw [hkey]
    exact h.size_eq

theorem Inv.linkDown (h : t.Inv) : ∃ t', t.linkDown = some t' ∧ t'.Inv := by
  obtain ⟨t₁, ht₁, hinv, hgone, -⟩ := clears_client.foldlM _ lt_of_mem_slots t h
  have hap : t₁.key bssidWcid = none := hgone bssidWcid (by decide)
  refine ⟨t₁.setEntry bssidWcid zeroEntry, ?_, hinv.zero hap⟩
  unfold MacTable.linkDown
  rw [ht₁]
  rfl

theorem Inv.staAdd {r : AssocRsp} (h : t.Inv)
    (hok : r.acceptable = true → r.bssType = .infra →
      t.key bssidWcid = none ∧ t.next bssidWcid = none ∧ ∀ i, t.key i ≠ some r.bssid) :
    ∃ t', (t.staAddMacTableEntry bssidWcid r).map Prod.fst = some t' ∧ t'.Inv := by
  unfold staAddMacTableEntry
  by_cases hacc : r.acceptable = true
  swap
  · rw [if_pos (by simpa using hacc)]
    exact ⟨t, rfl, h⟩
  rw [if_neg (by simpa using hacc)]
  by_cases hinf : r.bssType = .infra
  swap
  · rw [if_neg hinf]
    exact ⟨t, rfl, h⟩
  rw [if_pos hinf]
  obtain ⟨hvac, hnext, hnew⟩ := hok hacc hinf
  obtain ⟨t₁, ht₁, hb, hsame⟩ := addToHash_spec (b := macAddrHashIndex r.bssid) h.bucketed
    (fun i b => Inv.lt_of_bucketOf) hnext (bucketOf_eq_none hvac)
  let e : MacTableEntry :=
    { t₁.content bssidWcid with addr := r.bssid, aid := bssidWcid, entryType := .client }
  let t' : MacTable := { t₁.setEntry bssidWcid e with size := t₁.size + 1 }
  have hnext' : t'.next = t₁.next := (next_setEntry e).trans (Function.update_eq_self _ t₁.next)
  have hother : SameBut bssidWcid t t' := by
    intro i hi
    have hi' : t'.content i = t₁.content i := content_setEntry_of_ne e hi
    rw [hi', hnext', hsame.content_eq i]
  have hself : t'.content bssidWcid = e := content_setEntry_self (t := t₁) (k := bssidWcid) e
  obtain ⟨hinv, -⟩ := h.enter (by decide) hvac hnew hother (by rw [hself, hnext']; rfl)
    (congrArg (· + 1) hsame.size_eq) (by rw [hnext']; exact hb)
  exact ⟨t', by rw [ht₁]; rfl, hinv⟩

/-- The slot of the AP is free for a response: it holds nothing but the association that is replaced, it
has no link, and no other entry has the new BSSID. -/
def Fresh (t : MacTable) (r : AssocRsp) : Prop :=
  r.acceptable = true → r.bssType = .infra → t.next bssidWcid = none ∧
    ∀ i < maxLenOfMacTable, t.Present i →
      (t.content i).addr = r.commonBssid ∨ i ≠ bssidWcid ∧ (t.content i).addr ≠ r.bssid

theorem Inv.peerAssocRsp {r : AssocRsp} (h : t.Inv) (hfresh : t.Fresh r) :
    ∃ t', t.peerAssocRsp r = some t' ∧ t'.Inv := by
  obtain ⟨f, hf, hfound⟩ := h.lookup r.commonBssid
  unfold MacTable.peerAssocRsp
  rw [hf]
  cases f with
  | none =>
    refine h.staAdd fun hacc hinf => ?_
    obtain ⟨hnext, hother⟩ := hfresh hacc hinf
    have hold : ∀ i, t.Present i → i ≠ bssidWcid ∧ (t.content i).addr ≠ r.bssid := by
      intro i hi
      refine (hother i hi.1 hi).resolve_left fun hc => ?_
      exact absurd ((hfound i).2 ⟨hi, hc⟩) (by simp)
    refine ⟨key_eq_none.2 fun hp => (hold _ hp).1 rfl, hnext, fun i hi => ?_⟩
    obtain ⟨hp, ha⟩ := key_eq_some.1 hi
    exact (hold i hp).2 ha
  | some k =>
    obtain ⟨hp, hk⟩ := (hfound k).1 rfl
    obtain ⟨t₁, ht₁, hinv₁, hkey₁, hmono⟩ := h.delete (t.content k).aid (t.content k).addr
    rw [h.aid_eq k hp, if_pos (key_eq_some.2 ⟨hp, rfl⟩)] at hkey₁
    have hadd := hinv₁.staAdd (r := r) fun hacc hinf => ?_
    · obtain ⟨t', ht', hinv'⟩ := hadd
      refine ⟨t', ?_, hinv'⟩
      show (t.macTableDeleteEntry (t.content k).aid (t.content k).addr).bind (fun x =>
        (x.1.staAddMacTableEntry bssidWcid r).map Prod.fst) = some t'
      rw [ht₁]
      exact ht'
    · obtain ⟨hnext, hother⟩ := hfresh hacc hinf
      -- what is left after the deletion is neither in the slot of the AP nor of the new BSSID
      have hold : ∀ i a, t₁.key i = some a → i ≠ bssidWcid ∧ a ≠ r.bssid := by
        intro i a hi
        rw [hkey₁] at hi
        by_cases hik : i = k
        · rw [hik, Function.update_self] at hi
          exact absurd hi (by simp)
        · rw [Function.update_of_ne hik] at hi
          obtain ⟨hpi, rfl⟩ := key_eq_some.1 hi
          refine (hother i hpi.1 hpi).resolve_left fun hc => hik ?_
          exact h.key_inj i k _ hi (key_eq_some.2 ⟨hp, hk.trans hc.symm⟩)
      refine ⟨?_, hmono _ hnext, fun i hi => (hold i _ hi).2 rfl⟩
      cases hap : t₁.key bssidWcid with
      | none => rfl
      | some a => exact absurd rfl (hold _ a hap).1

/-! ### Runs -/

/-- An address is inserted only once, and a response finds the slot of the AP free. -/
def Allowed : Option MacTable → Op → Prop
  | some t, .insert addr bssType =>
    t.vacancy bssType ≠ none → ∀ i < maxLenOfMacTable, t.Present i → (t.content i).addr ≠ addr
  | some t, .assocRsp r => t.Fresh r
  | _, _ => True

instance (t : MacTable) (r : AssocRsp) : Decidable (t.Fresh r) := by
  unfold Fresh
  infer_instance

instance (s : Option MacTable) (op : Op) : Decidable (Allowed s op) := by
  unfold Allowed
  split <;> infer_instance

theorem Inv.step (h : t.Inv) (op : Op) (hok : Allowed (some t) op) :
    ∃ t', MacTable.step (some t) op = some t' ∧ t'.Inv := by
  cases op with
  | insert addr bssType =>
    obtain ⟨t', r, ht', hinv, -⟩ := h.insert fun hv i hi => by
      obtain ⟨hp, ha⟩ := key_eq_some.1 hi
      exact hok hv i hp.1 hp ha
    exact ⟨t', congrArg (Option.map Prod.fst) ht', hinv⟩
  | delete wcid addr =>
    obtain ⟨t', ht', hinv, -⟩ := h.delete wcid addr
    exact ⟨t', congrArg (Option.map Prod.fst) ht', hinv⟩
  | reset => exact h.reset
  | assocRsp r => exact h.peerAssocRsp hok
  | linkDown => exact h.linkDown

/-- **Consistency in every run** in which no address is inserted twice and every response finds the slot
of the AP free. -/
theorem consistent_of_allowed (ops : List Op) (h : Along step Allowed (some init) ops) :
    ∃ t, run step (some init) ops = some t ∧ t.Consistent := by
  have hinv : ∃ t, run step (some init) ops = some t ∧ t.Inv := by
    refine run_invariant (I := fun s => ∃ t, s = some t ∧ t.Inv) ?_ ops _ ⟨init, rfl, inv_init⟩ h
    rintro s op ⟨t, rfl, ht⟩ hok
    exact ht.step op hok
  obtain ⟨t, ht, hinv⟩ := hinv
  exact ⟨t, ht, hinv.consistent⟩

def sampleAp : BitVec 48 := 0x0000000000a1#48
def sampleSta : BitVec 48 := 0x00000000a100#48
def otherSta : BitVec 48 := 0x000000a10000#48

def sampleRsp (commonBssid : BitVec 48) : AssocRsp where
  commonBssid := commonBssid
  bssid := sampleAp
  bssType := .infra
  phyMode := 0x06#8
  maxSupportedRateIn500Kbps := 108
  htCapabilityLen := 0

/-- Two stations in one bucket, a deletion that does not match, a link that goes down, and the AP in the
same bucket associating twice. -/
def sampleRun : List Op :=
  [.insert sampleSta .adhoc, .insert otherSta .adhoc, .delete 2 sampleSta, .delete 1 sampleSta, .linkDown,
    .assocRsp (sampleRsp 0#48), .insert sampleSta .infra, .delete 2 sampleSta,
    .assocRsp (sampleRsp sampleAp), .reset, .assocRsp (sampleRsp sampleAp)]

theorem consistent_sampleRun : ∃ t, run step (some init) sampleRun = some t ∧ t.Consistent :=
  consistent_of_allowed sampleRun (by decide)

/-- A station comes into the bucket behind the AP, and the AP answers a reassociation: its slot leaves the
bucket with the link to the station, and enters it again behind the station. -/
def staleRun : List Op := [.assocRsp (sampleRsp 0#48), .insert sampleSta .infra, .assocRsp (sampleRsp sampleAp)]

/-- The AP answers again before `CommonCfg.Bssid` has been set: its slot enters the bucket twice. -/
def repeatedRun : List Op := [.assocRsp (sampleRsp 0#48), .assocRsp (sampleRsp 0#48)]

def linksAfter (ops : List Op) : Option (Option ℕ × Option ℕ × Option ℕ) :=
  (run step (some init) ops).map fun t => (t.hash (macAddrHashIndex sampleAp), t.next 1, t.next 2)

theorem linksAfter_staleRun : linksAfter staleRun = some (some 2, some 2, some 1) := by decide

theorem linksAfter_repeatedRun : linksAfter repeatedRun = some (some 1, some 1, none) := by decide

theorem links_of_linksAfter {ops : List Op} {x : Option ℕ × Option ℕ × Option ℕ}
    (h : linksAfter ops = some x) (ht : run step (some init) ops = some t) :
    t.hash (macAddrHashIndex sampleAp) = x.1 ∧ t.next 1 = x.2.1 ∧ t.next 2 = x.2.2 := by
  unfold linksAfter at h
  rw [ht] at h
  obtain rfl := Option.some.inj h
  exact ⟨rfl, rfl, rfl⟩

/-- **A cycle.** After either run the bucket of the AP does not end. -/
theorem not_consistent_staleRun :
    ¬ (∃ t, run step (some init) staleRun = some t ∧ t.Consistent) ∧
      ¬ ∃ t, run step (some init) repeatedRun = some t ∧ t.Consistent := by
  constructor
  · rintro ⟨t, ht, hc⟩
    obtain ⟨hhead, h1, h2⟩ := links_of_linksAfter linksAfter_staleRun ht
    obtain ⟨l, hl, -⟩ := hc.chain (macAddrHashIndex sampleAp)
    rw [hhead] at hl
    have hcycle : Leads t.next (some 2) [2, 1] (some 2) := ⟨rfl, h2, h1⟩
    exact not_linked_of_cycle hcycle hl
  · rintro ⟨t, ht, hc⟩
    obtain ⟨hhead, h1, -⟩ := links_of_linksAfter linksAfter_repeatedRun ht
    obtain ⟨l, hl, -⟩ := hc.chain (macAddrHashIndex sampleAp)
    rw [hhead] at hl
    have hcycle : Leads t.next (some 1) [1] (some 1) := ⟨rfl, h1⟩
    exact not_linked_of_cycle hcycle hl

end MacTable

end Mt7610u.Mgmt
