import Mt7610u.Lib.Chain

/-! # The list header (`include/link_list.h`)

The entries carry the links; the header keeps the two ends and an 8-bit count. -/

namespace Mt7610u.Task

open Lib.Chain

/-- `LIST_HEADER`, with `pNext` of the entries. -/
structure ListHeader (α : Type*) where
  pNext : α → Option α
  pHead : Option α
  pTail : Option α
  size : BitVec 8

variable {α : Type*} [DecidableEq α]

def initList (pNext : α → Option α) : ListHeader α := ⟨pNext, none, none, 0⟩

def insertTailList (s : ListHeader α) (pEntry : α) : ListHeader α :=
  let pNext := Function.update s.pNext pEntry none
  match s.pTail with
  | some pTail => ⟨Function.update pNext pTail (some pEntry), s.pHead, some pEntry, s.size + 1⟩
  | none => ⟨pNext, some pEntry, some pEntry, s.size + 1⟩

/-- Both `removeHeadList` and `delEntryList` take the first entry out so. -/
def dropHead (s : ListHeader α) (pEntry : α) : ListHeader α :=
  { s with
    pHead := s.pNext pEntry
    pTail := if s.pNext pEntry = none then none else s.pTail
    size := s.size - 1 }

/-- `removeHeadList`, with the entry it returns. -/
def removeHeadList (s : ListHeader α) : Option α × ListHeader α :=
  match s.pHead with
  | none => (none, s)
  | some pEntry => (some pEntry, dropHead s pEntry)

/-- `delEntryList`, with the entry it returns; `none` where its loop has not ended after `fuel` turns. -/
def delEntryList (fuel : ℕ) (s : ListHeader α) (pEntry : α) : Option (Option α × ListHeader α) :=
  match s.pHead with
  | none => some (none, s)
  | some pHead =>
    if pEntry = pHead then some (some pHead, dropHead s pHead)
    else
      match walk (stepPred s.pNext) (fun x => decide (x.2 = pEntry)) fuel
          ((s.pNext pHead).map fun pCurEntry => (some pHead, pCurEntry)) with
      | none => none
      | some none => some (none, s)
      | some (some (pPrvEntry, pCurEntry)) =>
        some (some pCurEntry,
          { s with
            pNext := unlinkNext s.pNext pPrvEntry pCurEntry
            pTail := if some pEntry = s.pTail then pPrvEntry else s.pTail
            size := s.size - 1 })

inductive Call (α : Type*)
  | insert (pEntry : α)
  | removeHead
  | delete (pEntry : α)
  deriving DecidableEq

def call (fuel : ℕ) (s : ListHeader α) : Call α → Option (Option α × ListHeader α)
  | .insert pEntry => some (none, insertTailList s pEntry)
  | .removeHead => some (removeHeadList s)
  | .delete pEntry => delEntryList fuel s pEntry

def calls (fuel : ℕ) : ListHeader α → List (Call α) → Option (List (Option α) × ListHeader α)
  | s, [] => some ([], s)
  | s, c :: cs =>
    match call fuel s c with
    | none => none
    | some (r, s') => (calls fuel s' cs).map fun out => (r :: out.1, out.2)

/-! ### What the list is for -/

def entriesAfter (l : List α) : Call α → List α
  | .insert pEntry => l ++ [pEntry]
  | .removeHead => l.tail
  | .delete pEntry => l.erase pEntry

def returned (l : List α) : Call α → Option α
  | .insert _ => none
  | .removeHead => l.head?
  | .delete pEntry => if pEntry ∈ l then some pEntry else none

def returns : List α → List (Call α) → List (Option α)
  | _, [] => []
  | l, c :: cs => returned l c :: returns (entriesAfter l c) cs

/-- The header and the links show the entries `l`; the size is the length modulo 256. -/
structure Shows (s : ListHeader α) (l : List α) : Prop where
  queued : Queued s.pNext s.pHead s.pTail l
  size : s.size = BitVec.ofNat 8 l.length

variable {s : ListHeader α} {l : List α}

theorem ofNat_pred {n : ℕ} : BitVec.ofNat 8 (n + 1) - 1 = BitVec.ofNat 8 n := by
  rw [BitVec.ofNat_add]
  exact BitVec.add_sub_cancel _ _

theorem Shows.insert (h : Shows s l) {a : α} (ha : a ∉ l) : Shows (insertTailList s a) (l ++ [a]) := by
  have hq := h.queued.snoc ha
  have hsize : s.size + 1 = BitVec.ofNat 8 (l ++ [a]).length := by
    rw [h.size, List.length_append, List.length_singleton, BitVec.ofNat_add]
    rfl
  rcases List.eq_nil_or_concat l with rfl | ⟨l', c, rfl⟩
  · have ht : s.pTail = none := h.queued.2
    rw [if_pos (h.queued.head_eq_none.2 rfl), ht] at hq
    rw [insertTailList, ht]
    exact ⟨hq, hsize⟩
  · have ht : s.pTail = some c := by rw [h.queued.2, List.concat_eq_append, List.getLast?_concat]
    have hh : s.pHead ≠ none := fun hn => by simpa using h.queued.head_eq_none.1 hn
    rw [if_neg hh, ht] at hq
    rw [insertTailList, ht]
    exact ⟨hq, hsize⟩

omit [DecidableEq α] in
/-- The first entry is the last one exactly if no link leaves it. -/
theorem Queued.next_eq_none {next : α → Option α} {a : α} {t : Option α}
    (hq : Queued next (some a) t (a :: l)) : next a = none ↔ some a = t := by
  obtain ⟨hl, ht⟩ := hq
  rcases List.eq_nil_or_concat l with rfl | ⟨l', c, rfl⟩
  · exact ⟨fun _ => ht.symm, fun _ => linked_nil.1 hl.2⟩
  · rw [List.concat_eq_append] at hl ht
    have hac : a ≠ c := fun he => (List.nodup_cons.1 hl.nodup).1 (by simp [he])
    have htc : t = some c := by rw [ht, ← List.cons_append, List.getLast?_concat]
    refine ⟨fun hn => ?_, fun he => absurd (Option.some.inj (he.trans htc)) hac⟩
    have hrest : Linked next (next a) (l' ++ [c]) := hl.2
    rw [hn] at hrest
    exact absurd (hrest.unique (linked_nil.2 rfl)) (by simp)

theorem Shows.dropHead {a : α} (h : Shows s (a :: l)) : Shows (dropHead s a) l := by
  have hq := h.queued
  rw [hq.1.1] at hq
  obtain ⟨l', hl', hpop⟩ := hq.pop
  obtain rfl := (List.cons.inj hl').2
  refine ⟨?_, ?_⟩
  · simp only [Task.dropHead, Queued.next_eq_none hq]
    exact hpop
  · simp only [Task.dropHead, h.size, List.length_cons, ofNat_pred]

theorem Shows.removeHead (h : Shows s l) : (removeHeadList s).1 = l.head? ∧ Shows (removeHeadList s).2 l.tail := by
  cases l with
  | nil =>
    rw [removeHeadList, linked_nil.1 h.queued.1]
    exact ⟨rfl, h⟩
  | cons a l =>
    rw [removeHeadList, h.queued.1.1]
    exact ⟨rfl, h.dropHead⟩

/-- Behind the first entry the loop finds the entry with its predecessor, or that it is not there. -/
theorem Shows.delete (h : Shows s l) (a : α) {fuel : ℕ} (hfuel : l.length ≤ fuel) :
    ∃ s', delEntryList fuel s a = some (if a ∈ l then some a else none, s') ∧ Shows s' (l.erase a) := by
  cases l with
  | nil =>
    rw [delEntryList, linked_nil.1 h.queued.1]
    exact ⟨s, rfl, h⟩
  | cons b l =>
    rw [delEntryList, h.queued.1.1]
    by_cases hab : a = b
    · subst hab
      refine ⟨Task.dropHead s a, ?_, ?_⟩
      · simp
      · rw [List.erase_cons_head]
        exact h.dropHead
    have hrest := h.queued.1.2
    rw [List.length_cons] at hfuel
    simp only [if_neg hab]
    by_cases hmem : a ∈ l
    · have herase := List.length_erase_of_mem (List.mem_cons_of_mem b hmem)
      have hsize : s.size - 1 = BitVec.ofNat 8 ((b :: l).erase a).length := by
        rw [h.size, herase, List.length_cons, Nat.add_sub_cancel, ofNat_pred]
      rw [if_pos (List.mem_cons_of_mem b hmem)]
      obtain ⟨l₁, l₂, rfl, ha⟩ := List.eq_append_cons_of_mem hmem
      have hlist : (b :: (l₁ ++ a :: l₂)).erase a = b :: l₁ ++ l₂ := by
        rw [List.erase_cons_tail (by simpa using Ne.symm hab), List.erase_append_right _ ha,
          List.erase_cons_head, List.cons_append]
      have hq := Queued.unlink (show Queued s.pNext s.pHead s.pTail (b :: l₁ ++ a :: l₂) from h.queued)
      rw [h.queued.1.1, if_neg (by simpa using hab), List.getLast?_cons] at hq
      have hprv : l₁.getLast?.or (some b) = some (l₁.getLast?.getD b) := by
        cases l₁.getLast? with
        | none => rfl
        | some c => rfl
      rw [List.length_append, List.length_cons] at hfuel
      rw [walk_pred hrest (by omega), hprv]
      refine ⟨_, rfl, ?_, hsize⟩
      rw [hlist]
      exact hq
    · have hnone : ∀ c ∈ l, decide (c = a) = false := by
        intro c hc
        rw [decide_eq_false_iff_not]
        rintro rfl
        exact hmem hc
      have hmem' : a ∉ b :: l := by simp [hab, hmem]
      rw [walk_pred_none (fun c => decide (c = a)) hrest (by omega) hnone, if_neg hmem']
      exact ⟨s, rfl, by rwa [List.erase_of_not_mem hmem']⟩

theorem Shows.call (h : Shows s l) (c : Call α) (hnd : (entriesAfter l c).Nodup) {fuel : ℕ}
    (hfuel : l.length ≤ fuel) : ∃ s', call fuel s c = some (returned l c, s') ∧ Shows s' (entriesAfter l c) := by
  cases c with
  | insert a =>
    refine ⟨_, rfl, h.insert fun ha => ?_⟩
    exact (List.nodup_append.1 hnd).2.2 a ha a (List.mem_singleton_self a) rfl
  | removeHead =>
    obtain ⟨hret, hs⟩ := h.removeHead
    exact ⟨_, congrArg some (Prod.ext hret rfl), hs⟩
  | delete a => exact h.delete a hfuel

theorem length_entriesAfter_le (l : List α) (c : Call α) : (entriesAfter l c).length ≤ l.length + 1 := by
  cases c with
  | insert a => simp [entriesAfter]
  | removeHead => simp only [entriesAfter, List.length_tail]; omega
  | delete a => exact Nat.le_succ_of_le List.length_erase_le

theorem Shows.calls (cs : List (Call α)) (h : Shows s l)
    (hnd : ∀ k ≤ cs.length, ((cs.take k).foldl entriesAfter l).Nodup) {fuel : ℕ}
    (hfuel : l.length + cs.length ≤ fuel) :
    ∃ s', calls fuel s cs = some (returns l cs, s') ∧ Shows s' (cs.foldl entriesAfter l) := by
  induction cs generalizing s l with
  | nil => exact ⟨s, rfl, h⟩
  | cons c cs ih =>
    rw [List.length_cons] at hfuel
    obtain ⟨s₁, hcall, h₁⟩ := h.call c (hnd 1 (by simp)) (show l.length ≤ fuel by omega)
    have hlen := length_entriesAfter_le l c
    obtain ⟨s₂, hcalls, h₂⟩ := ih h₁ (fun k hk => hnd (k + 1) (by simpa using hk)) (by omega)
    refine ⟨s₂, ?_, h₂⟩
    rw [Task.calls, hcall]
    simp only [hcalls, Option.map_some, returns]

def entries (cs : List (Call α)) : List α := cs.foldl entriesAfter []

/-- **The list is right after the calls**: they return what they should, the links lead from `pHead` along
the entries and end (so they make no cycle), `pTail` is the last entry and `size` the length. -/
def Right (pNext : α → Option α) (cs : List (Call α)) : Prop :=
  ∃ fuel s, calls fuel (initList pNext) cs = some (returns [] cs, s) ∧ (entries cs).Nodup ∧
    Linked s.pNext s.pHead (entries cs) ∧ s.pTail = (entries cs).getLast? ∧
    s.size.toNat = (entries cs).length

/-- **The list is right after every call of a run, exactly if** no entry is inserted that is in the list
already and there are never more than 255. -/
theorem right_iff (pNext : α → Option α) (cs : List (Call α)) :
    (∀ k ≤ cs.length, Right pNext (cs.take k)) ↔
      ∀ k ≤ cs.length, (entries (cs.take k)).Nodup ∧ (entries (cs.take k)).length ≤ 255 := by
  constructor
  · intro h k hk
    obtain ⟨fuel, s, -, hnd, -, -, hsize⟩ := h k hk
    exact ⟨hnd, by have := s.size.isLt; omega⟩
  · intro h k hk
    have hinit : Shows (initList pNext) [] := ⟨⟨rfl, rfl⟩, rfl⟩
    have hprev : ∀ j ≤ (cs.take k).length, (((cs.take k).take j).foldl entriesAfter []).Nodup := by
      intro j hj
      rw [List.take_take]
      exact (h _ (by omega)).1
    obtain ⟨s, hcalls, hs⟩ := hinit.calls (cs.take k) hprev (Nat.le_refl _)
    have hlen := (h k hk).2
    refine ⟨_, s, hcalls, (h k hk).1, hs.queued.1, hs.queued.2, ?_⟩
    rw [hs.size, BitVec.toNat_ofNat]
    exact Nat.mod_eq_of_lt (by simpa [entries] using Nat.lt_succ_of_le hlen)

/-- The 256th entry takes the size back to zero. -/
theorem not_right_full : ¬ Right (fun _ => none) ((List.range 256).map Call.insert) := by
  rintro ⟨fuel, s, -, -, -, -, hsize⟩
  have hlen : ∀ (xs l : List ℕ), ((xs.map Call.insert).foldl entriesAfter l).length = l.length + xs.length := by
    intro xs
    induction xs with
    | nil => exact fun l => rfl
    | cons x xs ih =>
      intro l
      rw [List.map_cons, List.foldl_cons, ih, entriesAfter, List.length_append, List.length_cons]
      simp only [List.length_nil, List.length_cons]
      omega
  have hlt := s.size.isLt
  rw [hsize, entries, hlen, List.length_range] at hlt
  exact absurd hlt (by decide)

end Mt7610u.Task
