import Mathlib.Data.Fintype.Card
import Mt7610u.Lib.Bytes
import Mt7610u.Lib.Chain
import Mt7610u.Lib.Runs

/-! # The tables of measurement and TPC requests (`common/spectrum.c`)

A request that was sent is kept under its dialog token until the report arrives. A slot whose request is too
old is used again for another one. -/

namespace Mt7610u.Mgmt

open Lib Lib.Chain Lib.Runs

/-! ### The code -/

/-- `MAX_MEASURE_REQ_TAB_SIZE` and `MAX_TPC_REQ_TAB_SIZE`. -/
def maxReqTabSize : ℕ := 32

/-- A slot of `Content`. -/
abbrev ReqSlot := Fin maxReqTabSize

/-- `MEASURE_REQ_ENTRY` and `TPC_REQ_ENTRY`. The clock has `w` bits. -/
structure ReqEntry (w : ℕ) where
  pNext : Option ReqSlot
  lastTime : BitVec w
  valid : Bool
  dialogToken : Byte

/-- `MEASURE_REQ_TAB` and `TPC_REQ_TAB`. -/
structure ReqTab (w : ℕ) where
  size : BitVec 8
  hash : Byte → Option ReqSlot
  content : ReqSlot → ReqEntry w

inductive ReqKind
  | measure
  | tpc
deriving DecidableEq

/-- `MQ_REQ_AGE_OUT` and `TPC_REQ_AGE_OUT`. -/
def ReqKind.ageOut : ReqKind → ℕ
  | .measure => 500
  | .tpc => 500

/-- `MQ_DIALOGTOKEN_HASH_INDEX` and `TPC_DIALOGTOKEN_HASH_INDEX`. -/
def ReqKind.hashIndex : ReqKind → Byte → Byte
  | .measure, dialogToken => dialogToken &&& BitVec.ofNat 8 (maxReqTabSize - 1)
  | .tpc, dialogToken => dialogToken &&& BitVec.ofNat 8 (maxReqTabSize - 1)

def rtmpTimeAfter {w : ℕ} (a b : BitVec w) : Bool := (b - a).slt 0

variable {w : ℕ}

/-- A slot after `NdisZeroMemory`. -/
def zeroReqEntry : ReqEntry w := ⟨none, 0, false, 0⟩

namespace ReqTab

/-- The table as `MeasureReqTabInit` and `TpcReqTabInit` leave it. -/
def init : ReqTab w := ⟨0, fun _ => none, fun _ => zeroReqEntry⟩

/-- `pNext` of a slot. -/
def next (t : ReqTab w) (k : ReqSlot) : Option ReqSlot := (t.content k).pNext

/-- The slot `k` with the entry `e`. -/
def setEntry (t : ReqTab w) (k : ReqSlot) (e : ReqEntry w) : ReqTab w :=
  { t with content := Function.update t.content k e }

/-- Assigning `pNext` of a slot. -/
def setNext (t : ReqTab w) (k : ReqSlot) (p : Option ReqSlot) : ReqTab w :=
  t.setEntry k { t.content k with pNext := p }

/-- The request in slot `k` is too old at the time `now`. -/
def agedOut (t : ReqTab w) (kind : ReqKind) (now : BitVec w) (k : ReqSlot) : Bool :=
  rtmpTimeAfter now ((t.content k).lastTime + BitVec.ofNat w kind.ageOut)

/-- The walk along the chain of the token; `none` if it does not end. -/
def lookUp (t : ReqTab w) (kind : ReqKind) (dialogToken : Byte) : Option (Option ReqSlot) :=
  walk t.next (fun k => (t.content k).dialogToken == dialogToken) maxReqTabSize
    (t.hash (kind.hashIndex dialogToken))

def unlink (t : ReqTab w) (kind : ReqKind) (k : ReqSlot) : Option (ReqTab w) :=
  let hashIdx := kind.hashIndex (t.content k).dialogToken
  match t.hash hashIdx with
  | none => none
  | some a =>
    match walk (stepPred t.next) (fun x => decide (x.2 = k)) maxReqTabSize (some (none, a)) with
    | none => none
    | some none => some t
    | some (some (none, _)) => some { t with hash := Function.update t.hash hashIdx (t.next k) }
    | some (some (some c, _)) => some (t.setNext c (t.next k))

def release (t : ReqTab w) (kind : ReqKind) (k : ReqSlot) : Option (ReqTab w) :=
  (t.unlink kind k).map fun t => { t.setEntry k zeroReqEntry with size := t.size - 1 }

def addToHash (t : ReqTab w) (hashIdx : Byte) (k : ReqSlot) : Option (ReqTab w) :=
  match t.hash hashIdx with
  | none => some { t with hash := Function.update t.hash hashIdx (some k) }
  | some a =>
    match walk t.next (fun c => (t.next c).isNone) maxReqTabSize (some a) with
    | some (some c) => some (t.setNext c (some k))
    | _ => none

def vacancy (t : ReqTab w) (kind : ReqKind) (now : ReqSlot → BitVec w) : Option ReqSlot :=
  (List.finRange maxReqTabSize).find? fun k =>
    ((t.content k).valid && t.agedOut kind (now k) k) || !(t.content k).valid

def insertNew (t : ReqTab w) (kind : ReqKind) (dialogToken : Byte) (now : ReqSlot → BitVec w)
    (stamp : BitVec w) : Option (ReqTab w × Option ReqSlot) :=
  match t.vacancy kind now with
  | none => some (t, none)
  | some k =>
    (if (t.content k).valid then t.release kind k else some t).bind fun t =>
      let e := { t.content k with lastTime := stamp, valid := true, dialogToken := dialogToken }
      (({ t.setEntry k e with size := t.size + 1 }).addToHash (kind.hashIndex dialogToken) k).map
        fun t => (t, some k)

end ReqTab

/-- `MeasureReqTabInit` and `TpcReqTabInit`: there is no table if there is no memory for it. -/
def reqTabInit (alloc : Bool) : Option (ReqTab w) := if alloc then some ReqTab.init else none

/-- `MeasureReqLookUp` and `TpcReqLookUp`. -/
def reqLookUp (kind : ReqKind) (pTab : Option (ReqTab w)) (dialogToken : Byte) : Option (Option ReqSlot) :=
  match pTab with
  | none => some none
  | some t => t.lookUp kind dialogToken

/-- `MeasureReqInsert` and `TpcReqInsert`, with the readings of the clock: the table and the entry returned. -/
def reqInsert (kind : ReqKind) (pTab : Option (ReqTab w)) (dialogToken : Byte) (now : ReqSlot → BitVec w)
    (stamp : BitVec w) : Option (Option (ReqTab w) × Option ReqSlot) :=
  match pTab with
  | none => some (none, none)
  | some t =>
    match t.lookUp kind dialogToken with
    | none => none
    | some (some k) => some (some t, some k)
    | some none => (t.insertNew kind dialogToken now stamp).map fun x => (some x.1, x.2)

/-- `MeasureReqDelete` and `TpcReqDelete`. -/
def reqDelete (kind : ReqKind) (pTab : Option (ReqTab w)) (dialogToken : Byte) : Option (Option (ReqTab w)) :=
  match pTab with
  | none => some none
  | some t =>
    if t.size = 0 then some (some t)
    else
      match t.lookUp kind dialogToken with
      | none => none
      | some none => some (some t)
      | some (some k) => (t.release kind k).map some

inductive ReqCall (w : ℕ)
  | lookUp (kind : ReqKind) (dialogToken : Byte)
  | insert (kind : ReqKind) (dialogToken : Byte) (now : ReqSlot → BitVec w) (stamp : BitVec w)
  | delete (kind : ReqKind) (dialogToken : Byte)

abbrev ReqTabs (w : ℕ) := ReqKind → Option (ReqTab w)

/-- One call; `none` once a loop has not ended or a pointer to nothing was read through. -/
def reqStep (s : Option (ReqTabs w)) (c : ReqCall w) : Option (ReqTabs w) :=
  s.bind fun tabs =>
    match c with
    | .lookUp kind dialogToken => (reqLookUp kind (tabs kind) dialogToken).map fun _ => tabs
    | .insert kind dialogToken now stamp =>
      (reqInsert kind (tabs kind) dialogToken now stamp).map fun x => Function.update tabs kind x.1
    | .delete kind dialogToken =>
      (reqDelete kind (tabs kind) dialogToken).map fun x => Function.update tabs kind x

def reqTabsInit (alloc : ReqKind → Bool) : ReqTabs w := fun kind => reqTabInit (alloc kind)

/-! ### The table as a partial function -/

namespace ReqTab

/-- The token in slot `k`, if the slot is in use. -/
def key (t : ReqTab w) (k : ReqSlot) : Option Byte :=
  if (t.content k).valid then some (t.content k).dialogToken else none

/-- The chain that each slot of `key` belongs to. -/
def bucketOf (kind : ReqKind) (key : ReqSlot → Option Byte) : ReqSlot → Option Byte :=
  Option.map kind.hashIndex ∘ key

def used (key : ReqSlot → Option Byte) : Finset ReqSlot := Finset.univ.filter fun k => (key k).isSome

/-- **Consistency.** -/
structure Consistent (kind : ReqKind) (t : ReqTab w) : Prop where
  chain : ∀ b, ∃ l, Linked t.next (t.hash b) l ∧ l.Nodup ∧
    ∀ k, k ∈ l ↔ (t.content k).valid = true ∧ kind.hashIndex (t.content k).dialogToken = b
  token_inj : ∀ i j, (t.content i).valid = true → (t.content j).valid = true →
    (t.content i).dialogToken = (t.content j).dialogToken → i = j
  size_eq : t.size.toNat = (Finset.univ.filter fun k => (t.content k).valid = true).card

structure Inv (kind : ReqKind) (t : ReqTab w) : Prop where
  bucketed : Bucketed t.hash t.next (bucketOf kind t.key)
  idle : ∀ k, t.key k = none → t.next k = none
  key_inj : ∀ i j a, t.key i = some a → t.key j = some a → i = j
  size_eq : t.size.toNat = (used t.key).card

variable {kind : ReqKind} {t t' : ReqTab w} {k : ReqSlot} {dialogToken : Byte}

theorem key_eq_some :
    t.key k = some dialogToken ↔ (t.content k).valid = true ∧ (t.content k).dialogToken = dialogToken := by
  unfold key
  split_ifs with h
  · simp [h]
  · simp [h]

theorem key_eq_none : t.key k = none ↔ (t.content k).valid = false := by
  unfold key
  split_ifs with h
  · simp [h]
  · simp [h]

theorem bucketOf_eq_some {b : Byte} :
    bucketOf kind t.key k = some b ↔
      (t.content k).valid = true ∧ kind.hashIndex (t.content k).dialogToken = b := by
  unfold bucketOf
  rw [Function.comp_apply, Option.map_eq_some_iff]
  constructor
  · rintro ⟨a, ha, rfl⟩
    obtain ⟨hv, rfl⟩ := key_eq_some.1 ha
    exact ⟨hv, rfl⟩
  · rintro ⟨hv, rfl⟩
    exact ⟨_, key_eq_some.2 ⟨hv, rfl⟩, rfl⟩

theorem bucketOf_update (key : ReqSlot → Option Byte) (k : ReqSlot) (v : Option Byte) :
    bucketOf kind (Function.update key k v) = Function.update (bucketOf kind key) k (v.map kind.hashIndex) :=
  Function.comp_update _ _ _ _

theorem length_chain_le {p : Option ReqSlot} {l : List ReqSlot} (h : Linked t.next p l) :
    l.length ≤ maxReqTabSize := by
  have := h.nodup.length_le_card
  rwa [Fintype.card_fin] at this

theorem card_used_le (key : ReqSlot → Option Byte) : (used key).card ≤ maxReqTabSize := by
  have := Finset.card_le_univ (used key)
  rwa [Fintype.card_fin] at this

theorem mem_used {key : ReqSlot → Option Byte} : k ∈ used key ↔ key k ≠ none := by
  unfold used
  simp [Option.isSome_iff_ne_none]

theorem used_insert (key : ReqSlot → Option Byte) :
    used (Function.update key k (some dialogToken)) = insert k (used key) := by
  ext i
  by_cases hi : i = k
  · subst hi
    simp [mem_used]
  · simp [mem_used, hi]

theorem used_erase (key : ReqSlot → Option Byte) : used (Function.update key k none) = (used key).erase k := by
  ext i
  by_cases hi : i = k
  · subst hi
    simp [mem_used]
  · simp [mem_used, hi]

theorem Inv.consistent (h : t.Inv kind) : t.Consistent kind where
  chain := by
    intro b
    obtain ⟨l, hl, hmem⟩ := h.bucketed b
    exact ⟨l, hl, hl.nodup, fun k => (hmem k).trans bucketOf_eq_some⟩
  token_inj := fun i j hi hj he => h.key_inj i j _ (key_eq_some.2 ⟨hi, he⟩) (key_eq_some.2 ⟨hj, rfl⟩)
  size_eq := by
    rw [h.size_eq]
    refine congrArg Finset.card (Finset.filter_congr fun k _ => ?_)
    rw [Option.isSome_iff_ne_none, ne_eq, key_eq_none]
    simp

theorem inv_init : (init : ReqTab w).Inv kind where
  bucketed := fun _ => ⟨[], rfl, fun _ => by simp [bucketOf, key, init, zeroReqEntry]⟩
  idle := fun _ _ => rfl
  key_inj := fun _ _ _ h => absurd (key_eq_some.1 h).1 (by simp [init, zeroReqEntry])
  size_eq := by
    have hnone : ∀ k, (init : ReqTab w).key k = none := fun k => key_eq_none.2 rfl
    show (0 : BitVec 8).toNat = (used init.key).card
    simp [used, hnone]

/-! ### Lookups -/

theorem Inv.lookUp (h : t.Inv kind) (dialogToken : Byte) :
    ∃ r, t.lookUp kind dialogToken = some r ∧ ∀ k, r = some k ↔ t.key k = some dialogToken := by
  obtain ⟨l, hl, hmem⟩ := h.bucketed (kind.hashIndex dialogToken)
  have hkey : ∀ k ∈ l, ∀ a, (t.content k).dialogToken = a → t.key k = some a :=
    fun k hk a ha => key_eq_some.2 ⟨(bucketOf_eq_some.1 ((hmem k).1 hk)).1, ha⟩
  refine ⟨_, walk_eq_find hl (length_chain_le hl), fun k => ?_⟩
  constructor
  · intro hf
    exact hkey k (List.mem_of_find?_eq_some hf) _ (by simpa using List.find?_some hf)
  · intro hk
    obtain ⟨hv, rfl⟩ := key_eq_some.1 hk
    have hkl : k ∈ l := (hmem k).2 (bucketOf_eq_some.2 ⟨hv, rfl⟩)
    obtain ⟨j, hj⟩ := Option.isSome_iff_exists.1
      (List.find?_isSome (p := fun j => (t.content j).dialogToken == (t.content k).dialogToken).2
        ⟨k, hkl, by simp⟩)
    have hjk := hkey j (List.mem_of_find?_eq_some hj) _ (by simpa using List.find?_some hj)
    rw [hj, h.key_inj j k _ hjk hk]

/-! ### Entering and leaving a chain -/

structure SameEntries (t t' : ReqTab w) : Prop where
  content_eq : ∀ i, t'.content i = { t.content i with pNext := t'.next i }
  size_eq : t'.size = t.size

theorem next_setEntry (e : ReqEntry w) : (t.setEntry k e).next = Function.update t.next k e.pNext :=
  Function.comp_update ReqEntry.pNext t.content k e

theorem SameEntries.setHash (t : ReqTab w) (hash : Byte → Option ReqSlot) :
    SameEntries t { t with hash := hash } := ⟨fun _ => rfl, rfl⟩

theorem SameEntries.setNext (t : ReqTab w) (k : ReqSlot) (p : Option ReqSlot) : SameEntries t (t.setNext k p) := by
  refine ⟨fun i => ?_, rfl⟩
  unfold next ReqTab.setNext setEntry
  by_cases hi : i = k
  · subst hi
    simp
  · simp [Function.update_of_ne hi]

theorem SameEntries.key_eq (h : SameEntries t t') : t'.key = t.key := by
  funext i
  unfold key
  rw [h.content_eq i]

theorem addToHash_spec {bucket : ReqSlot → Option Byte} {b : Byte} (h : Bucketed t.hash t.next bucket)
    (hnext : t.next k = none) (hk : bucket k = none) :
    ∃ t', t.addToHash b k = some t' ∧ Bucketed t'.hash t'.next (Function.update bucket k (some b)) ∧
      SameEntries t t' ∧ ∀ i, bucket i = none → t'.next i = t.next i := by
  obtain ⟨l, hl, hmem⟩ := h b
  cases hb : t.hash b with
  | none =>
    refine ⟨{ t with hash := Function.update t.hash b (some k) }, ?_, h.snoc_nil hb hnext hk,
      SameEntries.setHash t _, fun _ _ => rfl⟩
    unfold addToHash
    rw [hb]
  | some a =>
    rcases List.eq_nil_or_concat l with rfl | ⟨l, c, rfl⟩
    · exact absurd (hb.symm.trans hl) (by simp)
    · have hlen := length_chain_le hl
      rw [List.concat_eq_append] at hl hlen hmem
      have hwalk := walk_last hl hlen
      rw [hb] at hwalk
      refine ⟨t.setNext c (some k), ?_, ?_, SameEntries.setNext t c (some k), fun i hi => ?_⟩
      · unfold addToHash
        rw [hb]
        dsimp only
        rw [hwalk]
      · rw [ReqTab.setNext, next_setEntry]
        exact h.snoc_last hl hnext hk
      · have hic : i ≠ c := by
          rintro rfl
          rw [(hmem i).1 (by simp)] at hi
          exact absurd hi (by simp)
        rw [ReqTab.setNext, next_setEntry, Function.update_of_ne hic]

theorem unlink_spec (h : Bucketed t.hash t.next (bucketOf kind t.key)) (hk : (t.content k).valid = true) :
    ∃ t', t.unlink kind k = some t' ∧
      Bucketed t'.hash t'.next (Function.update (bucketOf kind t.key) k none) ∧ SameEntries t t' ∧
      ∀ i, t.key i = none → t'.next i = t.next i := by
  have hbucket : bucketOf kind t.key k = some (kind.hashIndex (t.content k).dialogToken) :=
    bucketOf_eq_some.2 ⟨hk, rfl⟩
  obtain ⟨l, hl, hmem⟩ := h (kind.hashIndex (t.content k).dialogToken)
  obtain ⟨l₁, l₂, rfl⟩ := List.append_of_mem ((hmem k).2 hbucket)
  have hlen := length_chain_le hl
  rw [List.length_append, List.length_cons] at hlen
  have hwalk := walk_pred (q := none) hl (show l₁.length < maxReqTabSize by omega)
  unfold unlink
  dsimp only
  cases hb : t.hash (kind.hashIndex (t.content k).dialogToken) with
  | none =>
    rw [hb] at hl
    cases l₁ with
    | nil => exact absurd hl.1 (by simp)
    | cons b l₁ => exact absurd hl.1 (by simp)
  | some a =>
    rw [hb] at hwalk
    dsimp only
    rw [Option.map_some] at hwalk
    rw [hwalk]
    rcases List.eq_nil_or_concat l₁ with rfl | ⟨l₁, c, rfl⟩
    · exact ⟨_, rfl, h.unlink_head hl.1 hbucket, SameEntries.setHash t _, fun _ _ => rfl⟩
    · rw [List.concat_eq_append, List.append_assoc] at hl hmem
      simp only [List.concat_eq_append, List.getLast?_append, List.getLast?_singleton, Option.some_or]
      refine ⟨t.setNext c (t.next k), rfl, ?_, SameEntries.setNext t c (t.next k), fun i hi => ?_⟩
      · rw [ReqTab.setNext, next_setEntry]
        exact h.unlink_pred hl
      · have hic : i ≠ c := by
          rintro rfl
          have hv := (bucketOf_eq_some.1 ((hmem i).1 (by simp))).1
          rw [key_eq_none.1 hi] at hv
          exact absurd hv (by simp)
        rw [ReqTab.setNext, next_setEntry, Function.update_of_ne hic]

/-! ### Entries coming and going -/

theorem key_setEntry (e : ReqEntry w) :
    (t.setEntry k e).key = Function.update t.key k (if e.valid then some e.dialogToken else none) :=
  Function.comp_update (fun e : ReqEntry w => if e.valid then some e.dialogToken else none) t.content k e

theorem Inv.release (h : t.Inv kind) (hk : (t.content k).valid = true) :
    ∃ t', t.release kind k = some t' ∧ t'.Inv kind ∧ t'.key = Function.update t.key k none := by
  obtain ⟨t₁, ht₁, hb, hsame, hidle⟩ := unlink_spec h.bucketed hk
  have hkey : (t₁.setEntry k zeroReqEntry).key = Function.update t.key k none := by
    rw [key_setEntry, hsame.key_eq]
    rfl
  have hnext : (t₁.setEntry k zeroReqEntry).next = Function.update t₁.next k none := next_setEntry _
  have hsub : ∀ i a, Function.update t.key k none i = some a → t.key i = some a := by
    intro i a hi
    have hik : i ≠ k := by
      rintro rfl
      rw [Function.update_self] at hi
      exact absurd hi (by simp)
    rwa [Function.update_of_ne hik] at hi
  refine ⟨{ t₁.setEntry k zeroReqEntry with size := t₁.size - 1 }, ?_, ⟨?_, ?_, ?_, ?_⟩, hkey⟩
  · unfold ReqTab.release
    rw [ht₁]
    rfl
  · show Bucketed t₁.hash (t₁.setEntry k zeroReqEntry).next (bucketOf kind (t₁.setEntry k zeroReqEntry).key)
    rw [hkey, hnext, bucketOf_update]
    exact hb.update_next (by rw [Function.update_self]) none
  · intro i hi
    show (t₁.setEntry k zeroReqEntry).next i = none
    rw [hnext]
    by_cases hik : i = k
    · subst hik
      exact Function.update_self _ _ _
    · have hi' : Function.update t.key k none i = none := by
        rw [← hkey]
        exact hi
      rw [Function.update_of_ne hik] at hi' ⊢
      rw [hidle i hi']
      exact h.idle i hi'
  · intro i j a hi hj
    exact h.key_inj i j a (hsub i a (hkey ▸ hi)) (hsub j a (hkey ▸ hj))
  · have hmem : k ∈ used t.key := mem_used.2 (by simp [key_eq_none, hk])
    have hpos := Finset.card_pos.2 ⟨k, hmem⟩
    have hle := card_used_le t.key
    have hone : (1 : BitVec 8).toNat = 1 := rfl
    unfold maxReqTabSize at hle
    show (t₁.size - 1).toNat = (used (t₁.setEntry k zeroReqEntry).key).card
    rw [hkey, used_erase, Finset.card_erase_of_mem hmem, hsame.size_eq, BitVec.toNat_sub, h.size_eq, hone]
    omega

/-- **A slot that is taken.** It was not in use and its token is new. -/
theorem Inv.enter (h : t.Inv kind) (hvac : t.key k = none) (hnew : ∀ i, t.key i ≠ some dialogToken)
    (stamp : BitVec w) :
    let e : ReqEntry w := { t.content k with lastTime := stamp, valid := true, dialogToken := dialogToken }
    ∃ t', ({ t.setEntry k e with size := t.size + 1 } : ReqTab w).addToHash (kind.hashIndex dialogToken) k =
        some t' ∧ t'.Inv kind ∧ t'.key = Function.update t.key k (some dialogToken) := by
  intro e
  have hbucket : bucketOf kind t.key k = none := by
    unfold bucketOf
    rw [Function.comp_apply, hvac]
    rfl
  have hnext : (t.setEntry k e).next = t.next := by
    rw [next_setEntry]
    exact Function.update_eq_self k t.next
  have hkey₁ : (t.setEntry k e).key = Function.update t.key k (some dialogToken) := key_setEntry e
  obtain ⟨t', ht', hb, hsame, hidle⟩ :=
    addToHash_spec (t := { t.setEntry k e with size := t.size + 1 }) (b := kind.hashIndex dialogToken) (k := k)
      (show Bucketed t.hash (t.setEntry k e).next (bucketOf kind t.key) by rw [hnext]; exact h.bucketed)
      (show (t.setEntry k e).next k = none by rw [hnext]; exact h.idle k hvac) hbucket
  have hkey : t'.key = Function.update t.key k (some dialogToken) := hsame.key_eq.trans hkey₁
  refine ⟨t', ht', ⟨?_, ?_, ?_, ?_⟩, hkey⟩
  · rw [hkey, bucketOf_update]
    exact hb
  · intro i hi
    have hik : i ≠ k := by
      rintro rfl
      rw [hkey, Function.update_self] at hi
      exact absurd hi (by simp)
    rw [hkey, Function.update_of_ne hik] at hi
    have hnone : bucketOf kind t.key i = none := by
      unfold bucketOf
      rw [Function.comp_apply, hi]
      rfl
    rw [hidle i hnone]
    show (t.setEntry k e).next i = none
    rw [hnext]
    exact h.idle i hi
  · intro i j a hi hj
    rw [hkey] at hi hj
    by_cases hik : i = k <;> by_cases hjk : j = k
    · rw [hik, hjk]
    · rw [hik, Function.update_self] at hi
      rw [Function.update_of_ne hjk, ← hi] at hj
      exact absurd hj (hnew j)
    · rw [hjk, Function.update_self] at hj
      rw [Function.update_of_ne hik, ← hj] at hi
      exact absurd hi (hnew i)
    · rw [Function.update_of_ne hik] at hi
      rw [Function.update_of_ne hjk] at hj
      exact h.key_inj i j a hi hj
  · have hnot : k ∉ used t.key := fun hc => mem_used.1 hc hvac
    have hle := card_used_le t'.key
    have hone : (1 : BitVec 8).toNat = 1 := rfl
    have hcard : (used t'.key).card = (used t.key).card + 1 := by
      rw [hkey, used_insert, Finset.card_insert_of_notMem hnot]
    unfold maxReqTabSize at hle
    rw [hsame.size_eq, hcard]
    show (t.size + 1).toNat = (used t.key).card + 1
    rw [BitVec.toNat_add, h.size_eq, hone]
    omega

/-! ### The operations -/

theorem vacancy_eq_none {now : ReqSlot → BitVec w} :
    t.vacancy kind now = none ↔ ∀ k, (t.content k).valid = true ∧ t.agedOut kind (now k) k = false := by
  unfold vacancy
  rw [List.find?_eq_none]
  refine ⟨fun h k => ?_, fun h k _ => ?_⟩
  · have hk := h k (List.mem_finRange k)
    simp only [Bool.or_eq_true, Bool.and_eq_true, Bool.not_eq_true'] at hk
    push Not at hk
    have hv : (t.content k).valid = true := by simpa using hk.2
    exact ⟨hv, by simpa using hk.1 hv⟩
  · obtain ⟨hv, ha⟩ := h k
    simp [hv, ha]

theorem agedOut_of_vacancy {now : ReqSlot → BitVec w} (h : t.vacancy kind now = some k)
    (hk : (t.content k).valid = true) : t.agedOut kind (now k) k = true := by
  have hfind := List.find?_some h
  simpa [hk] using hfind

theorem Inv.insertNew (h : t.Inv kind) (hnew : ∀ i, t.key i ≠ some dialogToken) (now : ReqSlot → BitVec w)
    (stamp : BitVec w) :
    ∃ t', t.insertNew kind dialogToken now stamp = some (t', t.vacancy kind now) ∧ t'.Inv kind ∧
      t'.key = match t.vacancy kind now with
        | none => t.key
        | some k => Function.update t.key k (some dialogToken) := by
  unfold ReqTab.insertNew
  cases hv : t.vacancy kind now with
  | none => exact ⟨t, rfl, h, rfl⟩
  | some k =>
    dsimp only
    cases hvalid : (t.content k).valid with
    | false =>
      obtain ⟨t', ht', hinv, hkey⟩ := h.enter (key_eq_none.2 hvalid) hnew stamp
      refine ⟨t', ?_, hinv, hkey⟩
      rw [if_neg Bool.false_ne_true, Option.bind_some, ht']
      rfl
    | true =>
      obtain ⟨t₁, ht₁, hinv₁, hkey₁⟩ := h.release hvalid
      have hnew₁ : ∀ i, t₁.key i ≠ some dialogToken := by
        intro i
        rw [hkey₁]
        by_cases hik : i = k
        · subst hik
          rw [Function.update_self]
          simp
        · rw [Function.update_of_ne hik]
          exact hnew i
      obtain ⟨t', ht', hinv, hkey⟩ := hinv₁.enter (k := k) (by rw [hkey₁, Function.update_self]) hnew₁ stamp
      refine ⟨t', ?_, hinv, ?_⟩
      · rw [if_pos rfl, ht₁, Option.bind_some, ht']
        rfl
      · rw [hkey, hkey₁, Function.update_idem]

def Has (t : ReqTab w) (dialogToken : Byte) : Prop := ∃ k, t.key k = some dialogToken

def GivesWay (t : ReqTab w) (kind : ReqKind) (now : ReqSlot → BitVec w) (dialogToken : Byte) : Prop :=
  ∃ k, t.vacancy kind now = some k ∧ t.key k = some dialogToken

theorem has_update {key : ReqSlot → Option Byte} (hinj : ∀ i j a, key i = some a → key j = some a → i = j)
    {token : Byte} {v : Option Byte} :
    (∃ i, Function.update key k v i = some token) ↔
      v = some token ∨ (∃ i, key i = some token) ∧ ¬key k = some token := by
  constructor
  · rintro ⟨i, hi⟩
    by_cases hik : i = k
    · subst hik
      rw [Function.update_self] at hi
      exact Or.inl hi
    · rw [Function.update_of_ne hik] at hi
      exact Or.inr ⟨⟨i, hi⟩, fun hk => hik (hinj i k token hi hk)⟩
  · rintro (rfl | ⟨⟨i, hi⟩, hk⟩)
    · exact ⟨k, Function.update_self _ _ _⟩
    · refine ⟨i, ?_⟩
      have hik : i ≠ k := by
        rintro rfl
        exact hk hi
      rw [Function.update_of_ne hik]
      exact hi

end ReqTab

open ReqTab

section Calls

variable {kind : ReqKind} {t : ReqTab w}

theorem reqLookUp_spec (h : t.Inv kind) (dialogToken : Byte) :
    ∃ r, reqLookUp kind (some t) dialogToken = some r ∧ (r ≠ none ↔ t.Has dialogToken) := by
  obtain ⟨r, hr, hmem⟩ := h.lookUp dialogToken
  refine ⟨r, hr, ?_⟩
  rw [Option.ne_none_iff_exists']
  exact exists_congr hmem

/-- **Insertions.** They are refused if all slots are in use and none is too old. -/
theorem reqInsert_spec (h : t.Inv kind) (new : Byte) (now : ReqSlot → BitVec w) (stamp : BitVec w) :
    ∃ t' r, reqInsert kind (some t) new now stamp = some (some t', r) ∧ t'.Inv kind ∧
      (r = none ↔ ¬t.Has new ∧ ∀ k, (t.content k).valid = true ∧ t.agedOut kind (now k) k = false) ∧
      ∀ token, t'.Has token ↔
        (token = new ∧ r ≠ none) ∨ t.Has token ∧ ¬(¬t.Has new ∧ t.GivesWay kind now token) := by
  obtain ⟨r, hr, hmem⟩ := h.lookUp new
  unfold reqInsert
  dsimp only
  rw [hr]
  cases r with
  | some k =>
    have hhas : t.Has new := ⟨k, (hmem k).1 rfl⟩
    refine ⟨t, some k, rfl, h, by simp [hhas], fun token => ?_⟩
    constructor
    · intro htok
      exact Or.inr ⟨htok, fun hc => hc.1 hhas⟩
    · rintro (⟨rfl, -⟩ | ⟨htok, -⟩)
      · exact hhas
      · exact htok
  | none =>
    have hnew : ∀ i, t.key i ≠ some new := fun i hi => absurd ((hmem i).2 hi) (by simp)
    have hhas : ¬t.Has new := fun ⟨i, hi⟩ => hnew i hi
    obtain ⟨t', ht', hinv, hkey⟩ := h.insertNew hnew now stamp
    refine ⟨t', t.vacancy kind now, by rw [ht']; rfl, hinv, ?_, fun token => ?_⟩
    · rw [vacancy_eq_none]
      simp [hhas]
    · unfold Has GivesWay
      rw [hkey]
      cases hv : t.vacancy kind now with
      | none => simp
      | some k =>
        dsimp only
        rw [has_update h.key_inj]
        simp only [Option.some.injEq, ne_eq, reduceCtorEq, not_false_eq_true, and_true, exists_eq_left']
        refine or_congr eq_comm (and_congr Iff.rfl (not_congr ?_))
        exact ⟨fun hk => ⟨hhas, hk⟩, fun hk => hk.2⟩

theorem reqDelete_spec (h : t.Inv kind) (old : Byte) :
    ∃ t', reqDelete kind (some t) old = some (some t') ∧ t'.Inv kind ∧
      ∀ token, t'.Has token ↔ t.Has token ∧ token ≠ old := by
  obtain ⟨r, hr, hmem⟩ := h.lookUp old
  unfold reqDelete
  dsimp only
  by_cases hsize : t.size = 0
  · have hempty : ∀ k, t.key k = none := by
      have hcard : (used t.key).card = 0 := by
        rw [← h.size_eq, hsize]
        rfl
      intro k
      by_contra hk
      rw [Finset.card_eq_zero] at hcard
      exact absurd (mem_used.2 hk) (by simp [hcard])
    rw [if_pos hsize]
    refine ⟨t, rfl, h, fun token => ?_⟩
    unfold Has
    simp [hempty]
  · rw [if_neg hsize, hr]
    cases r with
    | none =>
      refine ⟨t, rfl, h, fun token => ⟨fun htok => ⟨htok, ?_⟩, fun htok => htok.1⟩⟩
      rintro rfl
      obtain ⟨k, hk⟩ := htok
      exact absurd ((hmem k).2 hk) (by simp)
    | some k =>
      have hk := (hmem k).1 rfl
      obtain ⟨t', ht', hinv, hkey⟩ := h.release (key_eq_some.1 hk).1
      refine ⟨t', congrArg (Option.map some) ht', hinv, fun token => ?_⟩
      unfold Has
      rw [hkey, has_update h.key_inj, hk]
      simp [eq_comm]

end Calls

/-! ### Runs -/

def TabsInv (s : Option (ReqTabs w)) : Prop := ∃ tabs, s = some tabs ∧ ∀ kind t, tabs kind = some t → t.Inv kind

def Found (kind : ReqKind) (dialogToken : Byte) (s : Option (ReqTabs w)) : Prop :=
  ∃ tabs k, s = some tabs ∧ reqLookUp kind (tabs kind) dialogToken = some (some k)

def Inserts (kind : ReqKind) (dialogToken : Byte) (s : Option (ReqTabs w)) (c : ReqCall w) : Prop :=
  ∃ now stamp tabs pTab k, c = .insert kind dialogToken now stamp ∧ s = some tabs ∧
    reqInsert kind (tabs kind) dialogToken now stamp = some (pTab, some k)

def Recycles (kind : ReqKind) (dialogToken : Byte) (s : Option (ReqTabs w)) (c : ReqCall w) : Prop :=
  ∃ new now stamp tabs t k, c = .insert kind new now stamp ∧ s = some tabs ∧ tabs kind = some t ∧
    t.lookUp kind new = some none ∧ t.vacancy kind now = some k ∧ t.agedOut kind (now k) k = true ∧
    (t.content k).valid = true ∧ (t.content k).dialogToken = dialogToken

def Removes (kind : ReqKind) (dialogToken : Byte) (s : Option (ReqTabs w)) (c : ReqCall w) : Prop :=
  c = .delete kind dialogToken ∨ Recycles kind dialogToken s c

section Step

variable {kind : ReqKind} {token : Byte} {tabs : ReqTabs w} {t : ReqTab w}

theorem found_iff (h : ∀ kind t, tabs kind = some t → t.Inv kind) :
    Found kind token (some tabs) ↔ ∃ t, tabs kind = some t ∧ t.Has token := by
  unfold Found
  cases ht : tabs kind with
  | none =>
    refine iff_of_false ?_ (by simp)
    rintro ⟨_, k, ⟨⟩, hk⟩
    rw [ht] at hk
    exact absurd hk (by simp [reqLookUp])
  | some t =>
    obtain ⟨r, hr, hhas⟩ := reqLookUp_spec (h kind t ht) token
    constructor
    · rintro ⟨_, k, ⟨⟩, hk⟩
      rw [ht, hr] at hk
      exact ⟨t, rfl, hhas.1 (by rw [Option.some.inj hk]; simp)⟩
    · rintro ⟨_, ⟨⟩, hk⟩
      obtain ⟨k, rfl⟩ := Option.ne_none_iff_exists'.1 (hhas.2 hk)
      exact ⟨tabs, k, rfl, by rw [ht, hr]⟩

theorem recycles_iff (h : t.Inv kind) (ht : tabs kind = some t) (new : Byte) (now : ReqSlot → BitVec w)
    (stamp : BitVec w) :
    Recycles kind token (some tabs) (.insert kind new now stamp) ↔ ¬t.Has new ∧ t.GivesWay kind now token := by
  obtain ⟨r, hr, hmem⟩ := h.lookUp new
  have hhas : t.lookUp kind new = some none ↔ ¬t.Has new := by
    rw [hr]
    cases r with
    | none => exact iff_of_true rfl fun ⟨k, hk⟩ => absurd ((hmem k).2 hk) (by simp)
    | some k => exact iff_of_false (by simp) (not_not.2 ⟨k, (hmem k).1 rfl⟩)
  constructor
  · rintro ⟨new', now', stamp', tabs', t', k, hc, hs, ht', hlook, hvac, -, hv, hk⟩
    obtain ⟨-, rfl, rfl, -⟩ := ReqCall.insert.inj hc
    obtain rfl := Option.some.inj hs
    obtain rfl := Option.some.inj (ht.symm.trans ht')
    exact ⟨hhas.1 hlook, k, hvac, key_eq_some.2 ⟨hv, hk⟩⟩
  · rintro ⟨hnew, k, hvac, hk⟩
    obtain ⟨hv, hk⟩ := key_eq_some.1 hk
    exact ⟨new, now, stamp, tabs, t, k, rfl, rfl, ht, hhas.2 hnew, hvac, agedOut_of_vacancy hvac hv, hv, hk⟩

theorem tabsInv_update (h : ∀ kind t, tabs kind = some t → t.Inv kind) {pTab : Option (ReqTab w)}
    (hinv : ∀ t, pTab = some t → t.Inv kind) :
    ∀ kind' t, Function.update tabs kind pTab kind' = some t → t.Inv kind' := by
  intro kind' t ht
  by_cases hk : kind' = kind
  · subst hk
    rw [Function.update_self] at ht
    exact hinv t ht
  · rw [Function.update_of_ne hk] at ht
    exact h kind' t ht

theorem found_update_self {pTab : Option (ReqTab w)} :
    (∃ t, Function.update tabs kind pTab kind = some t ∧ t.Has token) ↔ ∃ t, pTab = some t ∧ t.Has token := by
  rw [Function.update_self]

theorem found_update_of_ne {kind' : ReqKind} {pTab : Option (ReqTab w)} (hk : kind ≠ kind') :
    (∃ t, Function.update tabs kind' pTab kind = some t ∧ t.Has token) ↔
      ∃ t, tabs kind = some t ∧ t.Has token := by
  rw [Function.update_of_ne hk]

theorem step_lookUp (h : ∀ kind t, tabs kind = some t → t.Inv kind) (kind' : ReqKind) (dialogToken : Byte) :
    reqStep (some tabs) (.lookUp kind' dialogToken) = some tabs := by
  cases ht : tabs kind' with
  | none => simp [reqStep, ht, reqLookUp]
  | some t =>
    obtain ⟨r, hr, -⟩ := reqLookUp_spec (h kind' t ht) dialogToken
    simp [reqStep, ht, hr]

variable (kind token) in
theorem step_insert (h : ∀ kind t, tabs kind = some t → t.Inv kind) (kind' : ReqKind) (new : Byte)
    (now : ReqSlot → BitVec w) (stamp : BitVec w) :
    ∃ tabs', reqStep (some tabs) (.insert kind' new now stamp) = some tabs' ∧
      (∀ kind t, tabs' kind = some t → t.Inv kind) ∧ (∀ kind, (tabs' kind).isSome = (tabs kind).isSome) ∧
      ((∃ t, tabs' kind = some t ∧ t.Has token) ↔
        Inserts kind token (some tabs) (.insert kind' new now stamp) ∨
          (∃ t, tabs kind = some t ∧ t.Has token) ∧
            ¬Recycles kind token (some tabs) (.insert kind' new now stamp)) := by
  have hother : kind ≠ kind' → ¬Inserts kind token (some tabs) (.insert kind' new now stamp) ∧
      ¬Recycles kind token (some tabs) (.insert kind' new now stamp) := by
    intro hk
    constructor
    · rintro ⟨_, _, _, _, _, hc, -⟩
      exact hk (ReqCall.insert.inj hc).1.symm
    · rintro ⟨_, _, _, _, _, _, hc, -⟩
      exact hk (ReqCall.insert.inj hc).1.symm
  cases ht : tabs kind' with
  | none =>
    refine ⟨tabs, ?_, h, fun _ => rfl, ?_⟩
    · have hsame : Function.update tabs kind' none = tabs := by
        rw [← ht, Function.update_eq_self]
      simp only [reqStep, ht, reqInsert, Option.bind_some, Option.map_some, hsame]
    · by_cases hk : kind = kind'
      · subst hk
        rw [ht]
        simp [Inserts, ht, reqInsert]
      · simp [hother hk]
  | some t =>
    obtain ⟨t', r, hr, hinv, -, hhas⟩ := reqInsert_spec (h kind' t ht) new now stamp
    refine ⟨Function.update tabs kind' (some t'), ?_, ?_, ?_, ?_⟩
    · simp only [reqStep, ht, hr, Option.bind_some, Option.map_some]
    · refine tabsInv_update h ?_
      rintro _ ⟨⟩
      exact hinv
    · intro k
      by_cases hk : k = kind'
      · subst hk
        rw [Function.update_self, ht]
        rfl
      · rw [Function.update_of_ne hk]
    · by_cases hk : kind = kind'
      · subst hk
        rw [found_update_self, recycles_iff (h kind t ht) ht]
        have hins : Inserts kind token (some tabs) (.insert kind new now stamp) ↔ token = new ∧ r ≠ none := by
          constructor
          · rintro ⟨_, _, _, pTab, k, hc, ⟨⟩, hk⟩
            obtain ⟨-, rfl, rfl, rfl⟩ := ReqCall.insert.inj hc
            rw [ht, hr] at hk
            rw [(Prod.mk.inj (Option.some.inj hk)).2]
            exact ⟨rfl, by simp⟩
          · rintro ⟨rfl, hne⟩
            obtain ⟨k, rfl⟩ := Option.ne_none_iff_exists'.1 hne
            exact ⟨now, stamp, tabs, some t', k, rfl, rfl, by rw [ht, hr]⟩
        rw [hins]
        simpa [ht] using hhas token
      · rw [found_update_of_ne hk]
        simp [hother hk]

variable (kind token) in
theorem step_delete (h : ∀ kind t, tabs kind = some t → t.Inv kind) (kind' : ReqKind) (old : Byte) :
    ∃ tabs', reqStep (some tabs) (.delete kind' old) = some tabs' ∧
      (∀ kind t, tabs' kind = some t → t.Inv kind) ∧ (∀ kind, (tabs' kind).isSome = (tabs kind).isSome) ∧
      ((∃ t, tabs' kind = some t ∧ t.Has token) ↔
        (∃ t, tabs kind = some t ∧ t.Has token) ∧ ¬(kind' = kind ∧ old = token)) := by
  cases ht : tabs kind' with
  | none =>
    refine ⟨tabs, ?_, h, fun _ => rfl, ?_⟩
    · have hsame : Function.update tabs kind' none = tabs := by
        rw [← ht, Function.update_eq_self]
      simp only [reqStep, ht, reqDelete, Option.bind_some, Option.map_some, hsame]
    · by_cases hk : kind' = kind
      · subst hk
        simp [ht]
      · simp [hk]
  | some t =>
    obtain ⟨t', hr, hinv, hhas⟩ := reqDelete_spec (h kind' t ht) old
    refine ⟨Function.update tabs kind' (some t'), ?_, ?_, ?_, ?_⟩
    · simp only [reqStep, ht, hr, Option.bind_some, Option.map_some]
    · refine tabsInv_update h ?_
      rintro _ ⟨⟩
      exact hinv
    · intro k
      by_cases hk : k = kind'
      · subst hk
        rw [Function.update_self, ht]
        rfl
      · rw [Function.update_of_ne hk]
    · by_cases hk : kind = kind'
      · subst hk
        rw [found_update_self]
        simpa [ht, eq_comm] using hhas token
      · rw [found_update_of_ne hk]
        simp [Ne.symm hk]

end Step

/-- **One call.** The tables stay in order, and a token is found afterwards if the call inserted it or did not
take it away. -/
theorem reqStep_spec (kind : ReqKind) (token : Byte) (s : Option (ReqTabs w)) (c : ReqCall w) (h : TabsInv s) :
    TabsInv (reqStep s c) ∧ (∀ tabs tabs', s = some tabs → reqStep s c = some tabs' →
        ∀ kind, (tabs' kind).isSome = (tabs kind).isSome) ∧
      (Found kind token (reqStep s c) ↔
        Inserts kind token s c ∨ Found kind token s ∧ ¬Removes kind token s c) := by
  obtain ⟨tabs, rfl, hinv⟩ := h
  cases c with
  | lookUp kind' dialogToken =>
    rw [step_lookUp hinv]
    refine ⟨⟨tabs, rfl, hinv⟩, ?_, ?_⟩
    · rintro _ _ ⟨⟩ ⟨⟩ _
      rfl
    · have hins : ¬Inserts kind token (some tabs) (.lookUp kind' dialogToken) := by
        rintro ⟨_, _, _, _, _, ⟨⟩, -⟩
      have hrem : ¬Removes kind token (some tabs) (.lookUp kind' dialogToken) := by
        rintro (⟨⟨⟩⟩ | ⟨_, _, _, _, _, _, ⟨⟩, -⟩)
      simp [hins, hrem]
  | insert kind' new now stamp =>
    obtain ⟨tabs', hstep, hinv', hsome, hhas⟩ := step_insert kind token hinv kind' new now stamp
    rw [hstep, found_iff hinv', found_iff hinv, hhas]
    refine ⟨⟨tabs', rfl, hinv'⟩, ?_, ?_⟩
    · rintro _ _ ⟨⟩ ⟨⟩
      exact hsome
    · unfold Removes
      simp
  | delete kind' old =>
    obtain ⟨tabs', hstep, hinv', hsome, hhas⟩ := step_delete kind token hinv kind' old
    rw [hstep, found_iff hinv', found_iff hinv, hhas]
    refine ⟨⟨tabs', rfl, hinv'⟩, ?_, ?_⟩
    · rintro _ _ ⟨⟩ ⟨⟩
      exact hsome
    · have hins : ¬Inserts kind token (some tabs) (.delete kind' old) := by
        rintro ⟨_, _, _, _, _, ⟨⟩, -⟩
      have hrec : ¬Recycles kind token (some tabs) (.delete kind' old) := by
        rintro ⟨_, _, _, _, _, _, ⟨⟩, -⟩
      simp [hins, Removes, hrec]

theorem tabsInv_init (alloc : ReqKind → Bool) : TabsInv (some (reqTabsInit alloc : ReqTabs w)) := by
  refine ⟨_, rfl, fun kind t ht => ?_⟩
  unfold reqTabsInit reqTabInit at ht
  split_ifs at ht
  obtain rfl := Option.some.inj ht
  exact inv_init

theorem not_found_init (alloc : ReqKind → Bool) (kind : ReqKind) (token : Byte) :
    ¬Found kind token (some (reqTabsInit alloc : ReqTabs w)) := by
  rintro ⟨_, k, ⟨⟩, hk⟩
  unfold reqTabsInit reqTabInit at hk
  split_ifs at hk
  · exact absurd hk (by simp [reqLookUp, ReqTab.lookUp, ReqTab.init, walk])
  · exact absurd hk (by simp [reqLookUp])

/-- The token was inserted, and since then neither deleted nor, as too old, recycled. -/
def Pending (kind : ReqKind) (token : Byte) (s : Option (ReqTabs w)) (calls : List (ReqCall w)) : Prop :=
  ∃ pre c post, calls = pre ++ c :: post ∧ Inserts kind token (run reqStep s pre) c ∧
    Along reqStep (fun s c => ¬Removes kind token s c) (run reqStep s (pre ++ [c])) post

theorem isSome_run (tabs : ReqTabs w) (h : TabsInv (some tabs)) (calls : List (ReqCall w)) :
    ∃ tabs', run reqStep (some tabs) calls = some tabs' ∧ (∀ kind t, tabs' kind = some t → t.Inv kind) ∧
      ∀ kind, (tabs' kind).isSome = (tabs kind).isSome := by
  induction calls generalizing tabs with
  | nil =>
    obtain ⟨_, ⟨⟩, hinv⟩ := h
    exact ⟨tabs, rfl, hinv, fun _ => rfl⟩
  | cons c calls ih =>
    obtain ⟨hinv, hsome, -⟩ := reqStep_spec .measure 0 (some tabs) c h
    obtain ⟨tabs₁, h₁, -⟩ := id hinv
    rw [h₁] at hinv
    obtain ⟨tabs', h', hinv', hsome'⟩ := ih tabs₁ hinv
    refine ⟨tabs', ?_, hinv', fun kind => (hsome' kind).trans (hsome tabs tabs₁ rfl h₁ kind)⟩
    rw [run_cons, h₁, h']

/-- **The request tables.** After every run of lookups, insertions and deletions, with any tokens and any
readings of the clock, no loop has failed to end; each chain of a table is acyclic and has the slots in use whose
token hashes to it, tokens are different and the counter is right. A lookup finds the tokens that were inserted
and since then neither deleted nor recycled as too old; and an insertion is refused exactly if the token is not
there, all slots are in use and none was too old when it was looked at. -/
theorem reqTabs_consistent (alloc : ReqKind → Bool) (calls : List (ReqCall w)) :
    ∃ tabs, run reqStep (some (reqTabsInit alloc)) calls = some tabs ∧
      ∀ kind, (tabs kind).isSome = alloc kind ∧ ∀ t, tabs kind = some t →
        t.Consistent kind ∧
        (∀ token, ∃ r, reqLookUp kind (some t) token = some r ∧
          (r ≠ none ↔ Pending kind token (some (reqTabsInit alloc)) calls)) ∧
        ∀ token now stamp, ∃ t' r, reqInsert kind (some t) token now stamp = some (some t', r) ∧
          (r = none ↔ reqLookUp kind (some t) token = some none ∧
            ∀ k, (t.content k).valid = true ∧ t.agedOut kind (now k) k = false) := by
  obtain ⟨tabs, hrun, hinv, hsome⟩ := isSome_run _ (tabsInv_init alloc) calls
  refine ⟨tabs, hrun, fun kind => ⟨?_, fun t ht => ⟨(hinv kind t ht).consistent, ?_, ?_⟩⟩⟩
  · rw [hsome]
    unfold reqTabsInit reqTabInit
    cases alloc kind <;> rfl
  · intro token
    obtain ⟨r, hr, hhas⟩ := reqLookUp_spec (hinv kind t ht) token
    refine ⟨r, hr, hhas.trans ?_⟩
    have hsince := run_since_iff (I := TabsInv) (Q := Found kind token)
      (fun s c h => (reqStep_spec kind token s c h).1) (fun s c h => (reqStep_spec kind token s c h).2.2)
      calls _ (tabsInv_init alloc) (not_found_init alloc kind token)
    rw [hrun, found_iff hinv] at hsince
    have hself : (∃ t', tabs kind = some t' ∧ t'.Has token) ↔ t.Has token := by simp [ht]
    exact hself.symm.trans hsince
  · intro token now stamp
    obtain ⟨t', r, hr, -, hnone, -⟩ := reqInsert_spec (hinv kind t ht) token now stamp
    obtain ⟨r', hr', hhas⟩ := reqLookUp_spec (hinv kind t ht) token
    refine ⟨t', r, hr, hnone.trans (and_congr ?_ Iff.rfl)⟩
    rw [hr', ← hhas]
    simp

/-- A lookup at the time `now` finds the requests that are not yet too old. -/
def LookUpFresh (kind : ReqKind) (calls : List (ReqCall w)) (now : BitVec w) : Prop :=
  ∀ tabs t token, run reqStep (some (reqTabsInit fun _ => true)) calls = some tabs → tabs kind = some t →
    ∀ k, reqLookUp kind (some t) token = some (some k) → t.agedOut kind now k = false

/-- The age of a request plays no part in a lookup. -/
theorem not_lookUpFresh : ¬LookUpFresh .measure [.insert .measure 1#8 (fun _ => 0#32) 0#32] 501#32 := by
  intro h
  have := h _ _ 1#8 rfl rfl ⟨0, by decide⟩ (by decide)
  exact absurd this (by decide)

end Mt7610u.Mgmt
