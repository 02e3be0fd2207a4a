import Mt7610u.Efuse.Registers

/-! # The eFuse as a store of logical blocks

A store has numbered blocks of eight words, and an entry for each block that says which logical block it holds.
Bits are only ever set. -/

namespace Mt7610u.Efuse

open Mt7610u.Lib

/-! ### Entries -/

def setFirstClearByte (e : Byte) : List ℕ → Byte
  | [] => e
  | i :: is => if e >>> i &&& 1#8 = 0 then e ||| 1#8 <<< i else setFirstClearByte e is

def spoiled (e : Byte) : Byte := setFirstClearByte e [0, 1, 2, 3, 4, 5, 6]

theorem setWidth_entryCode : ∀ L : BitVec 6, (entryCode L).setWidth 6 = L := by decide

theorem entryCode_ne_zero : ∀ L : BitVec 6, entryCode L ≠ 0 := by decide

theorem entryCode_inj {L L' : BitVec 6} (h : entryCode L = entryCode L') : L = L' := by
  rw [← setWidth_entryCode L, h, setWidth_entryCode]

theorem setFirstClearByte_entryCode : ∀ L : BitVec 6,
    setFirstClearByte (entryCode L) [0, 1, 2, 3, 4, 5, 6, 7] = spoiled (entryCode L) := by decide

theorem or_spoiled : ∀ L : BitVec 6, entryCode L ||| spoiled (entryCode L) = spoiled (entryCode L) := by
  decide

theorem spoiled_ne_zero : ∀ L : BitVec 6, spoiled (entryCode L) ≠ 0 := by decide

theorem spoiled_last : spoiled (entryCode 63) = entryCode 63 := by decide

theorem spoiled_invalid : ∀ L : BitVec 6, L ≠ 63 →
    spoiled (entryCode L) ≠ entryCode ((spoiled (entryCode L)).setWidth 6) := by decide

theorem spoiled_ne {L : BitVec 6} (hL : L ≠ 63) (L' : BitVec 6) : spoiled (entryCode L) ≠ entryCode L' := by
  intro h
  refine spoiled_invalid L hL ?_
  rw [h, setWidth_entryCode]

/-! ### The store -/

structure Store where
  entry : ℕ → Byte
  block : ℕ → Fin 8 → BitVec 16

namespace Store

def served (n : ℕ) (s : Store) (L : BitVec 6) : Option ℕ := (List.range n).find? fun k => s.entry k = entryCode L

def read (n : ℕ) (s : Store) (L : BitVec 6) (i : Fin 8) : BitVec 16 :=
  match s.served n L with
  | none => 0xffff
  | some k => s.block k i

def free (n : ℕ) (s : Store) : List ℕ := (List.range n).reverse.filter fun k => s.entry k = 0

def AtMostOne (n : ℕ) (s : Store) : Prop :=
  ∀ L : BitVec 6, ∀ j < n, ∀ k < n, s.entry j = entryCode L → s.entry k = entryCode L → j = k

def burn (s : Store) (k : ℕ) (p : Fin 8) (v : BitVec 16) : Store :=
  { s with block := Function.update s.block k (Function.update (s.block k) p (s.block k p ||| v)) }

def fill (s : Store) (k : ℕ) (b : Fin 8 → BitVec 16) : Store :=
  { s with block := Function.update s.block k fun i => s.block k i ||| b i }

def mark (s : Store) (k : ℕ) (L : BitVec 6) : Store :=
  { s with entry := Function.update s.entry k (s.entry k ||| entryCode L) }

def spoil (s : Store) (k : ℕ) : Store := { s with entry := Function.update s.entry k (spoiled (s.entry k)) }

def rounds (n : ℕ) (L : BitVec 6) (p : Fin 8) (v : BitVec 16) (b : Fin 8 → BitVec 16) :
    ℕ → Bool → ℕ → Store → Bool × Store
  | 0, _, _, s => (true, s)
  | r + 1, first, k, s =>
    let s := (if first then s.burn k p v else s.fill k b).mark k L
    if ∀ i, s.block k i = b i then (true, s)
    else
      match (s.free n).head? with
      | none => (false, s)
      | some new => rounds n L p v b r false new (s.spoil k)

/-- A logical write of `v` as word `w` of block `L`, whose first round sets bits of word `p`. -/
def write (n : ℕ) (s : Store) (L : BitVec 6) (w p : Fin 8) (v : BitVec 16) : Bool × Store :=
  match (s.served n L).or (s.free n).head? with
  | none => (false, s)
  | some k => rounds n L p v (Function.update (s.block k) w v) 2 true k s

/-- What a write should do: it succeeds and only the word has changed, or it fails and nothing has. -/
structure Keeps (n : ℕ) (s : Store) (L : BitVec 6) (w : Fin 8) (v : BitVec 16) (r : Bool × Store) : Prop where
  written : r.1 = true → r.2.read n L w = v
  kept : r.1 = true → ∀ L' i, (L', i) ≠ (L, w) → s.served n L' ≠ none → r.2.read n L' i = s.read n L' i
  once : r.1 = true → r.2.AtMostOne n
  failed : r.1 = false → ∀ L' i, r.2.read n L' i = s.read n L' i

/-- The block `d` can be burnt to `b`. -/
def Covers (d b : Fin 8 → BitVec 16) : Prop := ∀ i, d i ||| b i = b i

instance (d b : Fin 8 → BitVec 16) : Decidable (Covers d b) := inferInstanceAs (Decidable (∀ i, d i ||| b i = b i))

/-- **When a write does what it should.** With `k` the block that is tried first, the write is well if

* there is no such block,
* the first round gives the block that is wanted,
* no other block is free, and what the first round burnt cannot be seen,
* the next free block can be burnt to what is wanted, and the entry of the first one can be spoiled,
* the next free block cannot, none is left, and what the second round burnt cannot be seen,
* the next free block cannot, a third one is left, and the logical block is to read as erased. -/
def WritesWell (n : ℕ) (s : Store) (L : BitVec 6) (w p : Fin 8) (v : BitVec 16) : Prop :=
  match (s.served n L).or (s.free n).head? with
  | none => True
  | some k =>
    let wanted := Function.update (s.block k) w v
    let burnt := Function.update (s.block k) p (s.block k p ||| v)
    (∀ i, burnt i = wanted i) ∨
    match (s.free n).erase k with
    | [] => ∀ i, burnt i = s.read n L i
    | k₁ :: rest =>
      if Covers (s.block k₁) wanted then L ≠ 63
      else if rest = [] then
        ∀ i, (if L = 63 ∧ k < k₁ then burnt i else s.block k₁ i ||| wanted i) = s.read n L i
      else L ≠ 63 ∧ v = 0xffff ∧ (s.served n L ≠ none → ∀ i, i ≠ w → s.read n L i = 0xffff)

/-! ### Blocks by their entries -/

variable {n : ℕ} {s s' : Store} {L : BitVec 6} {k : ℕ}

theorem served_eq_some : s.served n L = some k ↔ k < n ∧ s.entry k = entryCode L ∧ ∀ j < k, s.entry j ≠ entryCode L := by
  unfold served
  rw [List.find?_range_eq_some]
  simp [and_left_comm]

theorem served_eq_none : s.served n L = none ↔ ∀ j < n, s.entry j ≠ entryCode L := by
  unfold served
  simp [List.find?_eq_none]

theorem mem_free : k ∈ s.free n ↔ k < n ∧ s.entry k = 0 := by
  unfold free
  simp

theorem pairwise_free : (s.free n).Pairwise (· > ·) := by
  unfold free
  refine List.Pairwise.filter _ ?_
  rw [List.pairwise_reverse]
  exact List.pairwise_lt_range

def Sole (n : ℕ) (s : Store) (L : BitVec 6) (k : ℕ) : Prop := k < n ∧ ∀ j < n, s.entry j = entryCode L ↔ j = k

theorem Sole.served (h : Sole n s L k) : s.served n L = some k :=
  served_eq_some.2 ⟨h.1, (h.2 k h.1).2 rfl, fun j hj he => absurd ((h.2 j (hj.trans h.1)).1 he) hj.ne⟩

theorem Sole.read (h : Sole n s L k) (i : Fin 8) : s.read n L i = s.block k i := by
  unfold Store.read
  rw [h.served]

theorem read_of_none (h : ∀ j < n, s.entry j ≠ entryCode L) (i : Fin 8) : s.read n L i = 0xffff := by
  unfold Store.read
  rw [served_eq_none.2 h]

theorem AtMostOne.sole (h : s.AtMostOne n) (hk : s.served n L = some k) : Sole n s L k := by
  obtain ⟨hkn, he, -⟩ := served_eq_some.1 hk
  refine ⟨hkn, fun j hj => ⟨fun hej => h L j hj k hkn hej he, ?_⟩⟩
  rintro rfl
  exact he

/-! ### The other logical blocks -/

structure Aside (L : BitVec 6) (s s' : Store) : Prop where
  entry : ∀ L', L' ≠ L → ∀ j, s'.entry j = entryCode L' ↔ s.entry j = entryCode L'
  block : ∀ L', L' ≠ L → ∀ j, s.entry j = entryCode L' → s'.block j = s.block j

theorem Aside.refl (L : BitVec 6) (s : Store) : Aside L s s := ⟨fun _ _ _ => Iff.rfl, fun _ _ _ _ => rfl⟩

theorem Aside.trans {s'' : Store} (h : Aside L s s') (h' : Aside L s' s'') : Aside L s s'' where
  entry L' hL j := (h'.entry L' hL j).trans (h.entry L' hL j)
  block L' hL j he := (h'.block L' hL j ((h.entry L' hL j).2 he)).trans (h.block L' hL j he)

def Own (s : Store) (L : BitVec 6) (k : ℕ) : Prop := s.entry k = 0 ∨ s.entry k = entryCode L

theorem Own.ne {L' : BitVec 6} {j : ℕ} (h : Own s L k) (hL : L' ≠ L) (he : s.entry j = entryCode L') : j ≠ k := by
  rintro rfl
  rcases h with h | h
  · exact entryCode_ne_zero L' (he.symm.trans h)
  · exact hL (entryCode_inj (he.symm.trans h))

theorem Own.aside_block {b : Fin 8 → BitVec 16} (h : Own s L k) :
    Aside L s { s with block := Function.update s.block k b } :=
  ⟨fun _ _ _ => Iff.rfl, fun _ hL _ he => Function.update_of_ne (h.ne hL he) _ _⟩

theorem Own.or_entryCode (h : Own s L k) : s.entry k ||| entryCode L = entryCode L := by
  rcases h with h | h
  · rw [h]
    exact BitVec.zero_or
  · rw [h, BitVec.or_self]

theorem Own.aside_entry {e : Byte} (h : Own s L k) (he : ∀ L', L' ≠ L → e ≠ entryCode L') :
    Aside L s { s with entry := Function.update s.entry k e } := by
  refine ⟨fun L' hL j => ?_, fun _ _ _ _ => rfl⟩
  by_cases hj : j = k
  · subst hj
    dsimp only
    rw [Function.update_self]
    exact iff_of_false (he L' hL) fun h' => h.ne hL h' rfl
  · dsimp only
    rw [Function.update_of_ne hj]

theorem Own.aside_mark (h : Own s L k) : Aside L s (s.mark k L) := by
  unfold mark
  refine h.aside_entry fun L' hL => ?_
  rw [h.or_entryCode]
  exact fun h' => hL (entryCode_inj h').symm

theorem spoiled_ne_of_ne {L' : BitVec 6} (hL : L' ≠ L) : spoiled (entryCode L) ≠ entryCode L' := by
  by_cases h63 : L = 63
  · subst h63
    rw [spoiled_last]
    exact fun h => hL (entryCode_inj h).symm
  · exact spoiled_ne h63 L'

theorem aside_spoil (h : s.entry k = entryCode L) : Aside L s (s.spoil k) := by
  unfold spoil
  refine Own.aside_entry (Or.inr h) fun L' hL => ?_
  rw [h]
  exact spoiled_ne_of_ne hL

theorem entry_mark (h : Own s L k) : (s.mark k L).entry = Function.update s.entry k (entryCode L) := by
  unfold mark
  rw [h.or_entryCode]

theorem rounds_aside {p : Fin 8} {v : BitVec 16} {b : Fin 8 → BitVec 16} (r : ℕ) {first : Bool} (h : Own s L k) :
    Aside L s (rounds n L p v b r first k s).2 := by
  induction r generalizing first k s with
  | zero => exact Aside.refl L s
  | succ r ih =>
    unfold rounds
    dsimp only
    generalize hs₁ : (if first then s.burn k p v else s.fill k b) = s₁
    have hentry : s₁.entry = s.entry := by
      rw [← hs₁]
      split_ifs <;> rfl
    have haside : Aside L s s₁ := by
      rw [← hs₁]
      split_ifs
      · exact h.aside_block
      · exact h.aside_block
    have hown : Own s₁ L k := by
      unfold Own
      rw [hentry]
      exact h
    have hmarked := haside.trans hown.aside_mark
    have hcode : (s₁.mark k L).entry k = entryCode L := by
      rw [entry_mark hown, Function.update_self]
    split_ifs
    · exact hmarked
    · cases hfree : ((s₁.mark k L).free n).head? with
      | none => exact hmarked
      | some new =>
        have hnew := (mem_free.1 (List.mem_of_head? hfree)).2
        have hne : new ≠ k := by
          rintro rfl
          exact entryCode_ne_zero L (hcode.symm.trans hnew)
        refine hmarked.trans ((aside_spoil hcode).trans (ih (Or.inl ?_)))
        exact (Function.update_of_ne hne _ _).trans hnew

theorem Aside.read {L' : BitVec 6} (h : Aside L s s') (hL : L' ≠ L) : s'.served n L' = s.served n L' ∧
    ∀ i, s'.read n L' i = s.read n L' i := by
  have hserved : s'.served n L' = s.served n L' := by
    unfold served
    simp only [h.entry L' hL]
  refine ⟨hserved, fun i => ?_⟩
  unfold Store.read
  rw [hserved]
  cases hk : s.served n L' with
  | none => rfl
  | some k => exact congrFun (h.block L' hL k (served_eq_some.1 hk).2.1) i

structure KeepsBlock (n : ℕ) (s : Store) (L : BitVec 6) (w : Fin 8) (v : BitVec 16) (r : Bool × Store) : Prop where
  written : r.1 = true → r.2.read n L w = v
  kept : r.1 = true → s.served n L ≠ none → ∀ i, i ≠ w → r.2.read n L i = s.read n L i
  once : r.1 = true → ∀ j < n, ∀ k < n, r.2.entry j = entryCode L → r.2.entry k = entryCode L → j = k
  failed : r.1 = false → ∀ i, r.2.read n L i = s.read n L i

theorem keeps_iff_keepsBlock {w : Fin 8} {v : BitVec 16} {r : Bool × Store} (honce : s.AtMostOne n)
    (h : Aside L s r.2) : Keeps n s L w v r ↔ KeepsBlock n s L w v r := by
  constructor
  · intro hk
    refine ⟨hk.written, fun hr hm i hi => hk.kept hr L i ?_ hm, fun hr => hk.once hr L, fun hr => hk.failed hr L⟩
    intro he
    exact hi (Prod.mk.inj he).2
  · intro hk
    refine ⟨hk.written, fun hr L' i hne hm => ?_, fun hr L' j hj k hkn hej hek => ?_, fun hr L' i => ?_⟩
    · by_cases hL : L' = L
      · subst hL
        refine hk.kept hr hm i ?_
        rintro rfl
        exact hne rfl
      · exact (h.read hL).2 i
    · by_cases hL : L' = L
      · subst hL
        exact hk.once hr j hj k hkn hej hek
      · exact honce L' j hj k hkn ((h.entry L' hL j).1 hej) ((h.entry L' hL k).1 hek)
    · by_cases hL : L' = L
      · subst hL
        exact hk.failed hr i
      · exact (h.read hL).2 i

/-! ### The two rounds -/

theorem free_mark (h : Own s L k) : (s.mark k L).free n = (s.free n).erase k := by
  have hnodup : (s.free n).Nodup := (pairwise_free).imp fun h => h.ne'
  rw [hnodup.erase_eq_filter]
  unfold free
  rw [List.filter_filter, entry_mark h]
  refine List.filter_congr fun j _ => ?_
  by_cases hj : j = k
  · subst hj
    have hne : entryCode L ≠ 0#8 := entryCode_ne_zero L
    simp [hne]
  · simp [hj]

theorem free_spoil (h : s.entry k = entryCode L) : (s.spoil k).free n = s.free n := by
  unfold free spoil
  dsimp only
  refine List.filter_congr fun j _ => ?_
  by_cases hj : j = k
  · subst hj
    have hne : entryCode L ≠ 0#8 := entryCode_ne_zero L
    have hspoiled : spoiled (entryCode L) ≠ 0#8 := spoiled_ne_zero L
    simp [h, hne, hspoiled]
  · simp [hj]

theorem sole_mark (hown : Own s L k) (hkn : k < n) (hs : ∀ j < n, s.entry j = entryCode L → j = k) :
    Sole n (s.mark k L) L k := by
  refine ⟨hkn, fun j hj => ?_⟩
  rw [entry_mark hown]
  by_cases hjk : j = k
  · subst hjk
    simp
  · rw [Function.update_of_ne hjk]
    exact ⟨fun he => hs j hj he, fun he => absurd he hjk⟩

theorem not_entry_spoil (hL : L ≠ 63) (h : Sole n s L k) : ∀ j < n, (s.spoil k).entry j ≠ entryCode L := by
  intro j hj
  unfold spoil
  dsimp only
  by_cases hjk : j = k
  · subst hjk
    rw [Function.update_self, (h.2 j hj).2 rfl]
    exact spoiled_ne hL L
  · rw [Function.update_of_ne hjk]
    exact fun he => hjk ((h.2 j hj).1 he)

theorem spoil_last (h : s.entry k = entryCode 63) : s.spoil k = s := by
  unfold spoil
  rw [h, spoiled_last, ← h, Function.update_eq_self]

def second (s : Store) (L : BitVec 6) (k k₁ : ℕ) (b : Fin 8 → BitVec 16) : Store :=
  ((s.spoil k).fill k₁ b).mark k₁ L

section Second

variable {k₁ : ℕ} {b : Fin 8 → BitVec 16}

theorem own_second (hk₁ : s.entry k₁ = 0) (hk : s.entry k = entryCode L) : Own ((s.spoil k).fill k₁ b) L k₁ := by
  have hne : k₁ ≠ k := by
    rintro rfl
    exact entryCode_ne_zero L (hk.symm.trans hk₁)
  exact Or.inl ((Function.update_of_ne hne _ _).trans hk₁)

theorem block_second (hne : k₁ ≠ k) :
    (s.second L k k₁ b).block k₁ = (fun i => s.block k₁ i ||| b i) ∧ (s.second L k k₁ b).block k = s.block k :=
  ⟨Function.update_self _ _ _, Function.update_of_ne hne.symm _ _⟩

theorem free_second {rest : List ℕ} (hfree : s.free n = k₁ :: rest) (hk : s.entry k = entryCode L) :
    (s.second L k k₁ b).free n = rest := by
  have hk₁ : s.entry k₁ = 0 := (mem_free.1 (hfree ▸ List.mem_cons_self)).2
  have hsame : ((s.spoil k).fill k₁ b).free n = s.free n := free_spoil hk
  unfold second
  rw [free_mark (own_second hk₁ hk), hsame, hfree, List.erase_cons_head]

theorem sole_second (hL : L ≠ 63) (h : Sole n s L k) (hk₁ : s.entry k₁ = 0) (hk₁n : k₁ < n) :
    Sole n (s.second L k k₁ b) L k₁ := by
  refine sole_mark (own_second hk₁ ((h.2 k h.1).2 rfl)) hk₁n fun j hj he => ?_
  exact absurd he (not_entry_spoil hL h j hj)

theorem entry_second_last (h : Sole n s 63 k) (hk₁ : s.entry k₁ = 0) :
    ∀ j < n, (s.second 63 k k₁ b).entry j = entryCode 63 ↔ j = k ∨ j = k₁ := by
  have hk := (h.2 k h.1).2 rfl
  intro j hj
  have hentry := entry_mark (own_second (b := b) hk₁ hk)
  have hsame : ((s.spoil k).fill k₁ b).entry = s.entry := by
    rw [spoil_last hk]
    rfl
  unfold second
  rw [hentry, hsame]
  by_cases hj₁ : j = k₁
  · subst hj₁
    simp
  · rw [Function.update_of_ne hj₁, h.2 j hj]
    simp [hj₁]

theorem read_second_last (h : Sole n s 63 k) (hk₁ : s.entry k₁ = 0) (hk₁n : k₁ < n) (i : Fin 8) :
    (s.second 63 k k₁ b).read n 63 i = if k < k₁ then s.block k i else s.block k₁ i ||| b i := by
  have hentry := entry_second_last (b := b) h hk₁
  have hne : k₁ ≠ k := by
    rintro rfl
    exact entryCode_ne_zero 63 (((h.2 k₁ h.1).2 rfl).symm.trans hk₁)
  have hblock := block_second (s := s) (L := 63) (b := b) hne
  unfold Store.read
  split_ifs with hlt
  · have hserved : (s.second 63 k k₁ b).served n 63 = some k := by
      refine served_eq_some.2 ⟨h.1, (hentry k h.1).2 (Or.inl rfl), fun j hj he => ?_⟩
      rcases (hentry j (hj.trans h.1)).1 he with rfl | rfl
      · exact lt_irrefl _ hj
      · exact lt_asymm hj hlt
    rw [hserved]
    exact congrFun hblock.2 i
  · have hserved : (s.second 63 k k₁ b).served n 63 = some k₁ := by
      refine served_eq_some.2 ⟨hk₁n, (hentry k₁ hk₁n).2 (Or.inr rfl), fun j hj he => ?_⟩
      rcases (hentry j (hj.trans hk₁n)).1 he with rfl | rfl
      · exact hlt hj
      · exact lt_irrefl _ hj
    rw [hserved]
    exact congrFun hblock.1 i

end Second

theorem write_eq {w p : Fin 8} {v : BitVec 16} (hk : (s.served n L).or (s.free n).head? = some k) (hown : Own s L k) :
    s.write n L w p v =
      let b := Function.update (s.block k) w v
      let s₁ := (s.burn k p v).mark k L
      if ∀ i, s₁.block k i = b i then (true, s₁)
      else match (s.free n).erase k with
        | [] => (false, s₁)
        | k₁ :: rest =>
          if Covers (s.block k₁) b then (true, s₁.second L k k₁ b)
          else if rest = [] then (false, s₁.second L k k₁ b) else (true, (s₁.second L k k₁ b).spoil k₁) := by
  have hown' : Own (s.burn k p v) L k := hown
  have hfree : ((s.burn k p v).mark k L).free n = (s.free n).erase k := free_mark hown'
  have hcode : ((s.burn k p v).mark k L).entry k = entryCode L := by
    rw [entry_mark hown', Function.update_self]
  unfold write
  rw [hk]
  dsimp only
  unfold rounds
  dsimp only
  rw [if_pos rfl]
  generalize hs₁ : (s.burn k p v).mark k L = s₁ at hfree hcode ⊢
  split_ifs with hgood
  · rfl
  · rw [hfree]
    cases herase : (s.free n).erase k with
    | nil => rfl
    | cons k₁ rest =>
      rw [herase] at hfree
      have hk₁ : s₁.entry k₁ = 0 := (mem_free.1 (hfree ▸ List.mem_cons_self)).2
      have hne : k₁ ≠ k := by
        rintro rfl
        exact entryCode_ne_zero L (hcode.symm.trans hk₁)
      have hblock : s₁.block k₁ = s.block k₁ := by
        rw [← hs₁]
        exact Function.update_of_ne hne _ _
      have hsecond : ((s₁.spoil k).fill k₁ (Function.update (s.block k) w v)).mark k₁ L =
          s₁.second L k k₁ (Function.update (s.block k) w v) := rfl
      simp only [List.head?_cons]
      unfold rounds
      dsimp only
      rw [if_neg Bool.false_ne_true, hsecond, (block_second hne).1, free_second hfree hcode, hblock]
      by_cases hcov : Covers (s.block k₁) (Function.update (s.block k) w v)
      · exact (if_pos hcov).trans (if_pos hcov).symm
      · refine (if_neg hcov).trans (Eq.trans ?_ (if_neg hcov).symm)
        cases rest with
        | nil => rfl
        | cons k₂ rest => rfl

theorem own_of_tried (hk : (s.served n L).or (s.free n).head? = some k) : Own s L k ∧ k < n := by
  cases hs : s.served n L with
  | none =>
    rw [hs, Option.none_or] at hk
    have := mem_free.1 (List.mem_of_head? hk)
    exact ⟨Or.inl this.2, this.1⟩
  | some j =>
    rw [hs, Option.some_or] at hk
    obtain rfl := Option.some.inj hk
    have := served_eq_some.1 hs
    exact ⟨Or.inr this.2.1, this.1⟩

theorem AtMostOne.tried (honce : s.AtMostOne n) (hk : (s.served n L).or (s.free n).head? = some k) :
    ∀ j < n, s.entry j = entryCode L → j = k := by
  intro j hj he
  cases hs : s.served n L with
  | none => exact absurd he (served_eq_none.1 hs j hj)
  | some i =>
    rw [hs, Option.some_or] at hk
    obtain rfl := Option.some.inj hk
    exact ((honce.sole hs).2 j hj).1 he

theorem read_tried (hk : (s.served n L).or (s.free n).head? = some k) (hm : s.served n L ≠ none) (i : Fin 8) :
    s.read n L i = s.block k i := by
  obtain ⟨j, hj⟩ := Option.ne_none_iff_exists'.1 hm
  rw [hj, Option.some_or] at hk
  obtain rfl := Option.some.inj hk
  unfold Store.read
  rw [hj]

theorem keepsBlock_of_sole {w : Fin 8} {v : BitVec 16} {j : ℕ}
    (hk : (s.served n L).or (s.free n).head? = some k) (h : Sole n s' L j)
    (hblock : ∀ i, s'.block j i = Function.update (s.block k) w v i) : KeepsBlock n s L w v (true, s') where
  written _ := by
    rw [h.read, hblock, Function.update_self]
  kept _ hm i hi := by
    rw [h.read, hblock, Function.update_of_ne hi, read_tried hk hm]
  once _ a ha c hc hea hec := ((h.2 a ha).1 hea).trans ((h.2 c hc).1 hec).symm
  failed h := absurd h (by simp)

theorem keepsBlock_false {w : Fin 8} {v : BitVec 16} :
    KeepsBlock n s L w v (false, s') ↔ ∀ i, s'.read n L i = s.read n L i :=
  ⟨fun h => h.failed rfl, fun h => ⟨fun h => absurd h (by simp), fun h => absurd h (by simp),
    fun h => absurd h (by simp), fun _ => h⟩⟩

theorem not_keepsBlock_of_two {w : Fin 8} {v : BitVec 16} {i j : ℕ} (hi : i < n) (hj : j < n)
    (hne : i ≠ j) (hei : s'.entry i = entryCode L) (hej : s'.entry j = entryCode L) :
    ¬KeepsBlock n s L w v (true, s') :=
  fun h => hne (h.once rfl i hi j hj hei hej)

/-- **A write does what it should exactly when `WritesWell` says so.** -/
theorem keeps_write_iff (honce : s.AtMostOne n) (L : BitVec 6) (w p : Fin 8) (v : BitVec 16) :
    Keeps n s L w v (s.write n L w p v) ↔ s.WritesWell n L w p v := by
  have haside : Aside L s (s.write n L w p v).2 := by
    unfold write
    cases hk : (s.served n L).or (s.free n).head? with
    | none => exact Aside.refl L s
    | some k => exact rounds_aside 2 (own_of_tried hk).1
  rw [keeps_iff_keepsBlock honce haside]
  unfold WritesWell
  cases hk : (s.served n L).or (s.free n).head? with
  | none =>
    have hwrite : s.write n L w p v = (false, s) := by
      unfold write
      rw [hk]
    rw [hwrite, keepsBlock_false]
    exact iff_of_true (fun _ => rfl) trivial
  | some k =>
    obtain ⟨hown, hkn⟩ := own_of_tried hk
    have hown' : Own (s.burn k p v) L k := hown
    have hsole : Sole n ((s.burn k p v).mark k L) L k := sole_mark hown' hkn (honce.tried hk)
    have hburnt : ((s.burn k p v).mark k L).block k = Function.update (s.block k) p (s.block k p ||| v) :=
      Function.update_self _ _ _
    have hfree : ((s.burn k p v).mark k L).free n = (s.free n).erase k := free_mark hown'
    rw [write_eq hk hown]
    dsimp only
    generalize hs₁ : (s.burn k p v).mark k L = s₁ at hsole hburnt hfree ⊢
    rw [hburnt]
    by_cases hgood : ∀ i, Function.update (s.block k) p (s.block k p ||| v) i = Function.update (s.block k) w v i
    · -- the first round does it
      rw [if_pos hgood]
      refine iff_of_true (keepsBlock_of_sole hk hsole fun i => ?_) (Or.inl hgood)
      rw [hburnt, hgood]
    · rw [if_neg hgood, or_iff_right hgood]
      cases herase : (s.free n).erase k with
      | nil =>
        rw [keepsBlock_false]
        refine forall_congr' fun i => ?_
        rw [hsole.read, hburnt]
      | cons k₁ rest =>
        rw [herase] at hfree
        obtain ⟨hk₁n, hk₁⟩ := mem_free.1 (hfree ▸ List.mem_cons_self : k₁ ∈ s₁.free n)
        have hcode : s₁.entry k = entryCode L := (hsole.2 k hkn).2 rfl
        have hne : k₁ ≠ k := by
          rintro rfl
          exact entryCode_ne_zero L (hcode.symm.trans hk₁)
        have hblock₁ : s₁.block k₁ = s.block k₁ := by
          rw [← hs₁]
          exact Function.update_of_ne hne _ _
        have hblock : (s₁.second L k k₁ (Function.update (s.block k) w v)).block k₁ =
            fun i => s.block k₁ i ||| Function.update (s.block k) w v i := by
          rw [(block_second hne).1, hblock₁]
        dsimp only
        by_cases hcov : Covers (s.block k₁) (Function.update (s.block k) w v)
        · rw [if_pos hcov, if_pos hcov]
          by_cases hL : L = 63
          · subst hL
            have hentry := entry_second_last (b := Function.update (s.block k) w v) hsole hk₁
            refine iff_of_false (not_keepsBlock_of_two hkn hk₁n hne.symm ((hentry k hkn).2 (Or.inl rfl))
              ((hentry k₁ hk₁n).2 (Or.inr rfl))) fun h => h rfl
          · refine iff_of_true (keepsBlock_of_sole hk (sole_second hL hsole hk₁ hk₁n) fun i => ?_) hL
            rw [hblock]
            exact hcov i
        · rw [if_neg hcov, if_neg hcov]
          by_cases hrest : rest = []
          · rw [if_pos hrest, if_pos hrest, keepsBlock_false]
            refine forall_congr' fun i => ?_
            by_cases hL : L = 63
            · subst hL
              rw [read_second_last hsole hk₁ hk₁n, hburnt, hblock₁]
              simp
            · rw [(sole_second hL hsole hk₁ hk₁n).read, hblock, if_neg fun h => hL h.1]
          · rw [if_neg hrest, if_neg hrest]
            by_cases hL : L = 63
            · subst hL
              have hentry := entry_second_last (b := Function.update (s.block k) w v) hsole hk₁
              have hkept : (s₁.second 63 k k₁ (Function.update (s.block k) w v)).spoil k₁ = _ :=
                spoil_last ((hentry k₁ hk₁n).2 (Or.inr rfl))
              rw [hkept]
              refine iff_of_false (not_keepsBlock_of_two hkn hk₁n hne.symm ((hentry k hkn).2 (Or.inl rfl))
                ((hentry k₁ hk₁n).2 (Or.inr rfl))) fun h => h.1 rfl
            · have hnone := not_entry_spoil hL
                (sole_second (b := Function.update (s.block k) w v) hL hsole hk₁ hk₁n)
              constructor
              · intro h
                refine ⟨hL, ?_, fun hm i hi => ?_⟩
                · exact (h.written rfl).symm.trans (read_of_none hnone w)
                · exact (h.kept rfl hm i hi).symm.trans (read_of_none hnone i)
              · rintro ⟨-, hv, hold⟩
                refine ⟨fun _ => (read_of_none hnone w).trans hv.symm, fun _ hm i hi => ?_, fun _ a ha c hc hea => ?_,
                  fun h => absurd h (by simp)⟩
                · exact (read_of_none hnone i).trans (hold hm i hi).symm
                · exact absurd hea (hnone a ha)

end Store

end Mt7610u.Efuse
