import Mathlib.Data.List.Chain
import Mathlib.Data.List.Nodup
import Mathlib.Data.Sum.Basic

/-! # Circular doubly linked lists

Several lists share one set of nodes. A list `i` is entered through a head, `Sum.inl i`, which belongs to it
for good; an item `Sum.inr m` is linked in one list or in none. A node does not know which list it is in: to
take it out, only its neighbours are asked. -/

namespace Mt7610u.Lib.DlList

variable {α ι μ : Type*}

/-- The links of every node; `none` is a null pointer. -/
structure Links (α : Type*) where
  next : α → Option α
  prev : α → Option α

namespace Links

variable [DecidableEq α]

/-- `x` stands between `a` and `b`. -/
def join (L : Links α) (a x b : α) : Links α :=
  { next := Function.update (Function.update L.next x (some b)) a (some x)
    prev := Function.update (Function.update L.prev x (some a)) b (some x) }

/-- `b` stands behind `a`, and `x` nowhere. -/
def close (L : Links α) (a x b : α) : Links α :=
  { next := Function.update (Function.update L.next a (some b)) x none
    prev := Function.update (Function.update L.prev b (some a)) x none }

/-- `item` enters behind `a`. -/
def add (L : Links α) (a item : α) : Option (Links α) := (L.next a).map fun b => L.join a item b

/-- `item` enters before `h`, which is behind the last item when `h` is a head. -/
def addTail (L : Links α) (h item : α) : Option (Links α) := (L.prev h).bind fun a => L.add a item

/-- `item` leaves, whatever it is linked to. -/
def del (L : Links α) (item : α) : Option (Links α) :=
  (L.next item).bind fun b => (L.prev item).map fun a => L.close a item b

omit [DecidableEq α] in
def around (L : Links α) (a : α) : List α := (L.next a).toList ++ (L.prev a).toList

end Links

/-- The items met from a node on until the head `i` comes, in at most `n` rounds. -/
def Links.walk [DecidableEq ι] (L : Links (ι ⊕ μ)) (i : ι) : ℕ → Option (ι ⊕ μ) → Option (List μ)
  | _, none => none
  | _, some (.inl j) => if j = i then some [] else none
  | 0, some (.inr _) => none
  | n + 1, some (.inr m) => (L.walk i n (L.next (.inr m))).map (m :: ·)

/-- A loop over the items of the list `i`. -/
def Links.members [DecidableEq ι] (L : Links (ι ⊕ μ)) (i : ι) (n : ℕ) : Option (List μ) :=
  L.walk i n (L.next (.inl i))

def Links.empty : Links (ι ⊕ μ) :=
  { next := fun a => a.elim (fun i => some (.inl i)) fun _ => none
    prev := fun a => a.elim (fun i => some (.inl i)) fun _ => none }

/-! ### Consecutive nodes -/

/-- The nodes of `l` are linked one behind the other, both ways. -/
def Consec (L : Links α) (l : List α) : Prop := l.IsChain fun a b => L.next a = some b ∧ L.prev b = some a

variable {L L' : Links α}

theorem Consec.congr {l : List α} (h : Consec L l) (hnext : ∀ a ∈ l.dropLast, L'.next a = L.next a)
    (hprev : ∀ b ∈ l.tail, L'.prev b = L.prev b) : Consec L' l := by
  induction l with
  | nil => exact List.IsChain.nil
  | cons a l ih =>
    cases l with
    | nil => exact List.IsChain.singleton a
    | cons b l =>
      obtain ⟨⟨hn, hp⟩, hl⟩ := List.isChain_cons_cons.1 h
      refine List.isChain_cons_cons.2 ⟨⟨?_, ?_⟩, ih hl ?_ ?_⟩
      · rw [hnext a (by simp), hn]
      · rw [hprev b (by simp), hp]
      · intro c hc
        exact hnext c (by simp only [List.dropLast_cons_cons, List.mem_cons]; exact Or.inr hc)
      · intro c hc
        exact hprev c (List.mem_cons_of_mem b hc)

theorem consec_append {l₁ l₂ : List α} {a b : α} (ha : l₁.getLast? = some a) (hb : l₂.head? = some b) :
    Consec L (l₁ ++ l₂) ↔ Consec L l₁ ∧ Consec L l₂ ∧ L.next a = some b ∧ L.prev b = some a := by
  unfold Consec
  rw [List.isChain_append, ha, hb]
  simp

theorem Consec.next_mem {l : List α} (h : Consec L l) {a : α} (ha : a ∈ l.dropLast) :
    ∃ b ∈ l, L.next a = some b := by
  induction l with
  | nil => exact absurd ha List.not_mem_nil
  | cons c l ih =>
    cases l with
    | nil => exact absurd ha List.not_mem_nil
    | cons b l =>
      obtain ⟨⟨hn, -⟩, hl⟩ := List.isChain_cons_cons.1 h
      rw [List.dropLast_cons_cons, List.mem_cons] at ha
      rcases ha with rfl | ha
      · exact ⟨b, by simp, hn⟩
      · obtain ⟨b', hb', hnext⟩ := ih hl ha
        exact ⟨b', List.mem_cons_of_mem c hb', hnext⟩

theorem Consec.prev_mem {l : List α} (h : Consec L l) {b : α} (hb : b ∈ l.tail) : ∃ a ∈ l, L.prev b = some a := by
  induction l with
  | nil => exact absurd hb List.not_mem_nil
  | cons c l ih =>
    cases l with
    | nil => exact absurd hb List.not_mem_nil
    | cons d l =>
      obtain ⟨⟨-, hp⟩, hl⟩ := List.isChain_cons_cons.1 h
      rw [List.tail_cons, List.mem_cons] at hb
      rcases hb with rfl | hb
      · exact ⟨c, by simp, hp⟩
      · obtain ⟨a, ha, hprev⟩ := ih hl hb
        exact ⟨a, List.mem_cons_of_mem c ha, hprev⟩

/-! ### The lists -/

/-- The list `i` with the items `l`, from its head round to its head. -/
def cycle (i : ι) (l : List μ) : List (ι ⊕ μ) := (.inl i :: l.map .inr) ++ [.inl i]

/-- The links are those of the lists `c`. -/
structure Rings (L : Links (ι ⊕ μ)) (c : ι → List μ) : Prop where
  ring : ∀ i, Consec L (cycle i (c i))
  nodup : ∀ i, (c i).Nodup
  apart : ∀ i j m, m ∈ c i → m ∈ c j → i = j
  out : ∀ m, (∀ i, m ∉ c i) → L.next (.inr m) = none ∧ L.prev (.inr m) = none

theorem rings_empty : Rings (Links.empty : Links (ι ⊕ μ)) fun _ => [] where
  ring _ := List.isChain_cons_cons.2 ⟨⟨rfl, rfl⟩, List.IsChain.singleton _⟩
  nodup _ := List.nodup_nil
  apart _ _ _ h := absurd h List.not_mem_nil
  out _ _ := ⟨rfl, rfl⟩

/-- The nodes of the list `i` up to the items `p`. -/
def before (i : ι) (p : List μ) : List (ι ⊕ μ) := .inl i :: p.map .inr

/-- The nodes of the list `i` from the items `q` on. -/
def after (i : ι) (q : List μ) : List (ι ⊕ μ) := q.map .inr ++ [.inl i]

theorem cycle_append (i : ι) (p q : List μ) : cycle i (p ++ q) = before i p ++ after i q := by
  simp [cycle, before, after]

theorem exists_last (i : ι) (p : List μ) : ∃ a, (before i p).dropLast ++ [a] = before i p :=
  ⟨_, List.dropLast_append_getLast (by simp [before])⟩

theorem exists_first (i : ι) (q : List μ) : ∃ b, b :: (after i q).tail = after i q :=
  ⟨_, List.cons_head_tail (by simp [after])⟩

theorem nodup_before {p : List μ} (i : ι) (h : p.Nodup) : (before i p).Nodup := by
  have hmap : (p.map (Sum.inr : μ → ι ⊕ μ)).Nodup := h.map Sum.inr_injective
  exact List.nodup_cons.2 ⟨by simp, hmap⟩

theorem nodup_after {q : List μ} (i : ι) (h : q.Nodup) : (after i q).Nodup := by
  have hmap : (q.map (Sum.inr : μ → ι ⊕ μ)).Nodup := h.map Sum.inr_injective
  exact List.nodup_append.2 ⟨hmap, List.nodup_singleton _, by simp⟩

/-- A list whose halves meet at `a` and `b`: its halves do not depend on what comes behind `a` and `x`, nor
on what is before `b` and `x`. -/
theorem halves_congr {L L' : Links (ι ⊕ μ)} {i : ι} {p q : List μ} {a b x : ι ⊕ μ}
    (hnd : (p ++ q).Nodup) (ha : (before i p).dropLast ++ [a] = before i p)
    (hb : b :: (after i q).tail = after i q) (hx : x ∉ cycle i (p ++ q))
    (hnext : ∀ n, n ≠ a → n ≠ x → L'.next n = L.next n)
    (hprev : ∀ n, n ≠ b → n ≠ x → L'.prev n = L.prev n) (hp : Consec L (before i p))
    (hq : Consec L (after i q)) : Consec L' (before i p) ∧ Consec L' (after i q) := by
  obtain ⟨hndp, hndq, hdisj⟩ := List.nodup_append.1 hnd
  rw [cycle_append, List.mem_append, not_or] at hx
  have hamem : a ∈ before i p := by rw [← ha]; simp
  have hbmem : b ∈ after i q := by rw [← hb]; simp
  -- every node is followed once and preceded once on the way round
  have ha₁ : a ∉ (before i p).dropLast := by
    have := nodup_before i hndp
    rw [← ha] at this
    exact fun hm => (List.nodup_append.1 this).2.2 a hm a (by simp) rfl
  have hb₂ : b ∉ (after i q).tail := by
    have := nodup_after i hndq
    rw [← hb] at this
    exact (List.nodup_cons.1 this).1
  have ha₂ : a ∉ (after i q).dropLast := by
    intro hm
    simp only [after, List.dropLast_concat, List.mem_map] at hm
    obtain ⟨m, hmq, rfl⟩ := hm
    have hmp : m ∈ p := by simpa [before] using hamem
    exact hdisj m hmp m hmq rfl
  have hb₁ : b ∉ (before i p).tail := by
    intro hm
    simp only [before, List.tail_cons, List.mem_map] at hm
    obtain ⟨m, hmp, rfl⟩ := hm
    have hmq : m ∈ q := by simpa [after] using hbmem
    exact hdisj m hmp m hmq rfl
  constructor
  · refine hp.congr (fun n hn => hnext n ?_ ?_) fun n hn => hprev n ?_ ?_
    · exact fun he => ha₁ (he ▸ hn)
    · exact fun he => hx.1 (he ▸ List.dropLast_subset _ hn)
    · exact fun he => hb₁ (he ▸ hn)
    · exact fun he => hx.1 (he ▸ List.mem_of_mem_tail hn)
  · refine hq.congr (fun n hn => hnext n ?_ ?_) fun n hn => hprev n ?_ ?_
    · exact fun he => ha₂ (he ▸ hn)
    · exact fun he => hx.2 (he ▸ List.dropLast_subset _ hn)
    · exact fun he => hb₂ (he ▸ hn)
    · exact fun he => hx.2 (he ▸ List.mem_of_mem_tail hn)

theorem Rings.other {L L' : Links (ι ⊕ μ)} {c : ι → List μ} {i j : ι} {x : ι ⊕ μ} (h : Rings L c)
    (hij : j ≠ i) (hx : x ∉ cycle j (c j))
    (heq : ∀ n, n ∉ cycle i (c i) → n ≠ x → L'.next n = L.next n ∧ L'.prev n = L.prev n) :
    Consec L' (cycle j (c j)) := by
  have hout : ∀ n ∈ cycle j (c j), n ∉ cycle i (c i) ∧ n ≠ x := by
    intro n hn
    refine ⟨?_, fun he => hx (he ▸ hn)⟩
    intro hn'
    simp only [cycle, List.cons_append, List.mem_cons, List.mem_append, List.mem_map,
      List.not_mem_nil, or_false] at hn hn'
    rcases hn with rfl | ⟨m, hm, rfl⟩ | rfl <;> rcases hn' with hn' | ⟨m', hm', hn'⟩ | hn'
    · exact hij (Sum.inl.inj hn')
    · exact absurd hn' (by simp)
    · exact hij (Sum.inl.inj hn')
    · exact absurd hn' (by simp)
    · exact hij (h.apart j i m hm (Sum.inr.inj hn' ▸ hm'))
    · exact absurd hn' (by simp)
    · exact hij (Sum.inl.inj hn')
    · exact absurd hn' (by simp)
    · exact hij (Sum.inl.inj hn')
  refine (h.ring j).congr (fun n hn => ?_) fun n hn => ?_
  · have := hout n (List.dropLast_subset _ hn)
    exact (heq n this.1 this.2).1
  · have := hout n (List.mem_of_mem_tail hn)
    exact (heq n this.1 this.2).2

variable {K K' : Links (ι ⊕ μ)} {c : ι → List μ} {i : ι} {m : μ}

theorem mem_cycle_inr {l : List μ} : (.inr m : ι ⊕ μ) ∈ cycle i l ↔ m ∈ l := by simp [cycle]

theorem mem_cycle_left {p q : List μ} {a : ι ⊕ μ} (ha : (before i p).dropLast ++ [a] = before i p) :
    a ∈ cycle i (p ++ q) := by
  rw [cycle_append, List.mem_append, ← ha]
  simp

theorem mem_cycle_right {p q : List μ} {b : ι ⊕ μ} (hb : b :: (after i q).tail = after i q) :
    b ∈ cycle i (p ++ q) := by
  rw [cycle_append, List.mem_append, ← hb]
  simp

theorem Rings.meet {p q : List μ} {a b : ι ⊕ μ} (h : Rings K c) (hc : c i = p ++ q)
    (ha : (before i p).dropLast ++ [a] = before i p) (hb : b :: (after i q).tail = after i q) :
    K.next a = some b ∧ K.prev b = some a := by
  have hlast : (before i p).getLast? = some a := by rw [← ha, List.getLast?_concat]
  have hhead : (after i q).head? = some b := by rw [← hb, List.head?_cons]
  have hcyc := h.ring i
  rw [hc, cycle_append] at hcyc
  exact ((consec_append hlast hhead).1 hcyc).2.2

theorem Rings.change [DecidableEq ι] {l : List μ} (h : Rings K c) (hi : Consec K' (cycle i l)) (hl : l.Nodup)
    (hapart : ∀ j, j ≠ i → ∀ m ∈ l, m ∉ c j) (hother : ∀ j, j ≠ i → Consec K' (cycle j (c j)))
    (hout : ∀ m, m ∉ l → (∀ j, j ≠ i → m ∉ c j) → K'.next (.inr m) = none ∧ K'.prev (.inr m) = none) :
    Rings K' (Function.update c i l) where
  ring j := by
    by_cases hj : j = i
    · subst hj
      rw [Function.update_self]
      exact hi
    · rw [Function.update_of_ne hj]
      exact hother j hj
  nodup j := by
    by_cases hj : j = i
    · subst hj
      rw [Function.update_self]
      exact hl
    · rw [Function.update_of_ne hj]
      exact h.nodup j
  apart j j' m hm hm' := by
    by_cases hj : j = i <;> by_cases hj' : j' = i
    · rw [hj, hj']
    · subst hj
      rw [Function.update_self] at hm
      rw [Function.update_of_ne hj'] at hm'
      exact absurd hm' (hapart j' hj' m hm)
    · subst hj'
      rw [Function.update_self] at hm'
      rw [Function.update_of_ne hj] at hm
      exact absurd hm (hapart j hj m hm')
    · rw [Function.update_of_ne hj] at hm
      rw [Function.update_of_ne hj'] at hm'
      exact h.apart j j' m hm hm'
  out m hm := by
    refine hout m ?_ fun j hj => ?_
    · simpa using hm i
    · have := hm j
      rwa [Function.update_of_ne hj] at this

variable [DecidableEq ι] [DecidableEq μ]

/-- **An item enters a list between two of its nodes.** -/
theorem Rings.insert {p q : List μ} {a b : ι ⊕ μ} (h : Rings K c) (hc : c i = p ++ q)
    (ha : (before i p).dropLast ++ [a] = before i p) (hb : b :: (after i q).tail = after i q)
    (hm : ∀ j, m ∉ c j) : Rings (K.join a (.inr m) b) (Function.update c i (p ++ m :: q)) := by
  have hlast : (before i p).getLast? = some a := by rw [← ha, List.getLast?_concat]
  have hhead : (after i q).head? = some b := by rw [← hb, List.head?_cons]
  have hcyc := h.ring i
  have hnd := h.nodup i
  have hmi := hm i
  rw [hc] at hcyc hnd hmi
  have hmem : (.inr m : ι ⊕ μ) ∉ cycle i (p ++ q) := fun he => hmi (mem_cycle_inr.1 he)
  have ham : a ≠ .inr m := fun he => hmem (he ▸ mem_cycle_left ha)
  have hbm : b ≠ .inr m := fun he => hmem (he ▸ mem_cycle_right hb)
  have hnext : ∀ n, n ≠ a → n ≠ .inr m → (K.join a (.inr m) b).next n = K.next n := by
    intro n h1 h2
    simp only [Links.join, Function.update_of_ne h1, Function.update_of_ne h2]
  have hprev : ∀ n, n ≠ b → n ≠ .inr m → (K.join a (.inr m) b).prev n = K.prev n := by
    intro n h1 h2
    simp only [Links.join, Function.update_of_ne h1, Function.update_of_ne h2]
  refine h.change ?_ ?_ ?_ ?_ ?_
  · rw [cycle_append] at hcyc ⊢
    obtain ⟨hp, hq, -⟩ := (consec_append hlast hhead).1 hcyc
    obtain ⟨hp', hq'⟩ := halves_congr hnd ha hb hmem hnext hprev hp hq
    have hsplit : after i (m :: q) = [.inr m] ++ after i q := rfl
    rw [hsplit]
    refine (consec_append (b := .inr m) hlast rfl).2
      ⟨hp', (consec_append (a := .inr m) rfl hhead).2 ⟨?_, hq', ?_, ?_⟩, ?_, ?_⟩
    · exact List.IsChain.singleton _
    · simp only [Links.join, Function.update_of_ne ham.symm, Function.update_self]
    · simp only [Links.join, Function.update_self]
    · simp only [Links.join, Function.update_self]
    · simp only [Links.join, Function.update_of_ne hbm.symm, Function.update_self]
  · exact (List.nodup_middle).2 (List.nodup_cons.2 ⟨hmi, hnd⟩)
  · intro j hj m' hm'
    rcases List.mem_cons.1 (List.perm_middle.mem_iff.1 hm') with rfl | hm'
    · exact hm j
    · exact fun hmj => hj (h.apart j i m' hmj (hc ▸ hm'))
  · intro j hj
    refine h.other (x := .inr m) hj (fun he => hm j (mem_cycle_inr.1 he)) fun n hn hnm => ⟨?_, ?_⟩
    · exact hnext n (fun he => hn (he ▸ hc ▸ mem_cycle_left ha)) hnm
    · exact hprev n (fun he => hn (he ▸ hc ▸ mem_cycle_right hb)) hnm
  · intro m' hm' hj
    have hnot := mt List.perm_middle.mem_iff.2 hm'
    rw [List.mem_cons, not_or] at hnot
    have hni : m' ∉ c i := hc ▸ hnot.2
    have hmem' : (.inr m' : ι ⊕ μ) ∉ cycle i (p ++ q) := fun he => hnot.2 (mem_cycle_inr.1 he)
    have hne : (.inr m' : ι ⊕ μ) ≠ .inr m := fun he => hnot.1 (Sum.inr.inj he)
    have hold := h.out m' fun j => by
      by_cases hji : j = i
      · exact hji ▸ hni
      · exact hj j hji
    rw [hnext (.inr m') (fun he => hmem' (he ▸ mem_cycle_left ha)) hne,
      hprev (.inr m') (fun he => hmem' (he ▸ mem_cycle_right hb)) hne]
    exact hold

/-- **An item leaves its list.** -/
theorem Rings.remove {p q : List μ} {a b : ι ⊕ μ} (h : Rings K c) (hc : c i = p ++ m :: q)
    (ha : (before i p).dropLast ++ [a] = before i p) (hb : b :: (after i q).tail = after i q) :
    Rings (K.close a (.inr m) b) (Function.update c i (p ++ q)) := by
  have hlast : (before i p).getLast? = some a := by rw [← ha, List.getLast?_concat]
  have hhead : (after i q).head? = some b := by rw [← hb, List.head?_cons]
  have hcyc := h.ring i
  have hnd := h.nodup i
  rw [hc] at hcyc hnd
  obtain ⟨hmi, hnd⟩ := List.nodup_cons.1 (List.nodup_middle.1 hnd)
  have hmem : (.inr m : ι ⊕ μ) ∉ cycle i (p ++ q) := fun he => hmi (mem_cycle_inr.1 he)
  have ham : a ≠ .inr m := fun he => hmem (he ▸ mem_cycle_left ha)
  have hbm : b ≠ .inr m := fun he => hmem (he ▸ mem_cycle_right hb)
  have hmc : m ∈ c i := by rw [hc]; simp
  have hsub : ∀ n, n ∈ cycle i (p ++ q) → n ∈ cycle i (c i) := by
    intro n hn
    rw [hc]
    simp only [cycle, List.map_append, List.map_cons, List.cons_append, List.mem_cons, List.mem_append]
      at hn ⊢
    tauto
  have hnext : ∀ n, n ≠ a → n ≠ .inr m → (K.close a (.inr m) b).next n = K.next n := by
    intro n h1 h2
    simp only [Links.close, Function.update_of_ne h2, Function.update_of_ne h1]
  have hprev : ∀ n, n ≠ b → n ≠ .inr m → (K.close a (.inr m) b).prev n = K.prev n := by
    intro n h1 h2
    simp only [Links.close, Function.update_of_ne h2, Function.update_of_ne h1]
  refine h.change ?_ hnd ?_ ?_ ?_
  · rw [cycle_append] at hcyc ⊢
    have hsplit : after i (m :: q) = [.inr m] ++ after i q := rfl
    rw [hsplit] at hcyc
    obtain ⟨hp, hmq, -⟩ := (consec_append (b := .inr m) hlast rfl).1 hcyc
    obtain ⟨-, hq, -⟩ := (consec_append (a := .inr m) rfl hhead).1 hmq
    obtain ⟨hp', hq'⟩ := halves_congr hnd ha hb hmem hnext hprev hp hq
    refine (consec_append hlast hhead).2 ⟨hp', hq', ?_, ?_⟩
    · simp only [Links.close, Function.update_of_ne ham, Function.update_self]
    · simp only [Links.close, Function.update_of_ne hbm, Function.update_self]
  · intro j hj m' hm' hmj
    have hm'' : m' ∈ c i := by
      rw [hc]
      exact List.perm_middle.mem_iff.2 (List.mem_cons_of_mem m hm')
    exact hj (h.apart j i m' hmj hm'')
  · intro j hj
    have hmj : m ∉ c j := fun hmj => hj (h.apart j i m hmj hmc)
    refine h.other (x := .inr m) hj (fun he => hmj (mem_cycle_inr.1 he)) fun n hn hnm => ⟨?_, ?_⟩
    · exact hnext n (fun he => hn (he ▸ hsub a (mem_cycle_left ha))) hnm
    · exact hprev n (fun he => hn (he ▸ hsub b (mem_cycle_right hb))) hnm
  · intro m' hm' hj
    by_cases hmm : m' = m
    · subst hmm
      simp only [Links.close, Function.update_self, and_self]
    · have hmem' : (.inr m' : ι ⊕ μ) ∉ cycle i (p ++ q) := fun he => hm' (mem_cycle_inr.1 he)
      have hne : (.inr m' : ι ⊕ μ) ≠ .inr m := fun he => hmm (Sum.inr.inj he)
      have hold := h.out m' fun j => by
        by_cases hji : j = i
        · subst hji
          rw [hc]
          exact fun he => (List.mem_cons.1 (List.perm_middle.mem_iff.1 he)).elim hmm hm'
        · exact hj j hji
      rw [hnext (.inr m') (fun he => hmem' (he ▸ mem_cycle_left ha)) hne,
        hprev (.inr m') (fun he => hmem' (he ▸ mem_cycle_right hb)) hne]
      exact hold

/-! ### The operations -/

theorem Rings.addTail (h : Rings K c) (i : ι) (hm : ∀ j, m ∉ c j) :
    ∃ K', K.addTail (.inl i) (.inr m) = some K' ∧ Rings K' (Function.update c i (c i ++ [m])) := by
  obtain ⟨a, ha⟩ := exists_last i (c i)
  have hb : (.inl i : ι ⊕ μ) :: (after i ([] : List μ)).tail = after i [] := rfl
  have hc : c i = c i ++ [] := (List.append_nil _).symm
  obtain ⟨hnext, hprev⟩ := h.meet hc ha hb
  refine ⟨_, ?_, h.insert hc ha hb hm⟩
  rw [Links.addTail, hprev, Option.bind_some, Links.add, hnext, Option.map_some]

theorem Rings.del (h : Rings K c) (hm : m ∈ c i) :
    ∃ K', K.del (.inr m) = some K' ∧ Rings K' (Function.update c i ((c i).erase m)) := by
  obtain ⟨p, q, hc⟩ := List.append_of_mem hm
  have hmp : m ∉ p := by
    have hnd := h.nodup i
    rw [hc] at hnd
    exact fun hp => (List.nodup_append.1 hnd).2.2 m hp m List.mem_cons_self rfl
  have herase : (c i).erase m = p ++ q := by
    rw [hc, List.erase_append_right _ hmp, List.erase_cons_head]
  obtain ⟨a, ha⟩ := exists_last i p
  obtain ⟨b, hb⟩ := exists_first i q
  have hprev := (h.meet hc ha (b := .inr m) rfl).2
  have hc' : c i = (p ++ [m]) ++ q := by rw [hc, List.append_assoc]; rfl
  have hlast : (before i (p ++ [m])).dropLast ++ [.inr m] = before i (p ++ [m]) := by
    have hsplit : before i (p ++ [m]) = before i p ++ [.inr m] := by simp [before]
    rw [hsplit, List.dropLast_concat]
  have hnext := (h.meet hc' hlast hb).1
  refine ⟨_, ?_, herase ▸ h.remove hc ha hb⟩
  rw [Links.del, hnext, Option.bind_some, hprev, Option.map_some]

/-! ### What is found in a list -/

omit [DecidableEq ι] [DecidableEq μ] in
theorem Rings.around_mem {n n' : ι ⊕ μ} (h : Rings K c) (hn : n ∈ before i (c i)) (hn' : n' ∈ K.around n) :
    n' ∈ before i (c i) := by
  have hcyc : cycle i (c i) = before i (c i) ++ [.inl i] := rfl
  have hsame : ∀ x, x ∈ cycle i (c i) ↔ x ∈ before i (c i) := by
    intro x
    rw [hcyc, List.mem_append, List.mem_singleton, or_iff_left_iff_imp]
    rintro rfl
    exact List.mem_cons_self
  have hd : n ∈ (cycle i (c i)).dropLast := by rw [hcyc, List.dropLast_concat]; exact hn
  have ht : n ∈ (cycle i (c i)).tail := by
    simp only [cycle, before, List.cons_append, List.tail_cons, List.mem_cons, List.mem_append,
      List.mem_map, List.not_mem_nil, or_false] at hn ⊢
    exact hn.symm
  obtain ⟨b, hb, hnext⟩ := (h.ring i).next_mem hd
  obtain ⟨a, ha, hprev⟩ := (h.ring i).prev_mem ht
  simp only [Links.around, hnext, hprev, Option.toList_some, List.cons_append, List.nil_append,
    List.mem_cons, List.not_mem_nil, or_false] at hn'
  rcases hn' with rfl | rfl
  · exact (hsame _).1 hb
  · exact (hsame _).1 ha

omit [DecidableEq ι] [DecidableEq μ] in
theorem Rings.first (h : Rings K c) (i : ι) : K.next (.inl i) = (after i (c i)).head? := by
  obtain ⟨b, hb⟩ := exists_first i (c i)
  rw [(h.meet (p := []) rfl rfl hb).1, ← hb, List.head?_cons]

omit [DecidableEq μ] in
/-- **A loop over a list sees its items.** -/
theorem Rings.members (h : Rings K c) {n : ℕ} (hn : (c i).length ≤ n) : K.members i n = some (c i) := by
  have hwalk : ∀ q p n, c i = p ++ q → q.length ≤ n → K.walk i n (after i q).head? = some q := by
    intro q
    induction q with
    | nil =>
      intro p n hc hn
      cases n <;> simp [after, Links.walk]
    | cons m q ih =>
      intro p n hc hn
      obtain ⟨n, rfl⟩ : ∃ n', n = n' + 1 := ⟨n - 1, by simp only [List.length_cons] at hn; omega⟩
      have hc' : c i = (p ++ [m]) ++ q := by rw [hc, List.append_assoc]; rfl
      have hlast : (before i (p ++ [m])).dropLast ++ [.inr m] = before i (p ++ [m]) := by
        have hsplit : before i (p ++ [m]) = before i p ++ [.inr m] := by simp [before]
        rw [hsplit, List.dropLast_concat]
      obtain ⟨b, hb⟩ := exists_first i q
      have hnext := (h.meet hc' hlast hb).1
      have hhead : (after i q).head? = some b := by rw [← hb, List.head?_cons]
      have hfirst : (after i (m :: q)).head? = some (.inr m) := rfl
      have hrest := ih (p ++ [m]) n hc' (by simp only [List.length_cons] at hn; omega)
      rw [hhead] at hrest
      rw [hfirst, Links.walk, hnext, hrest, Option.map_some]
  rw [Links.members, h.first]
  exact hwalk (c i) [] n rfl hn

end Mt7610u.Lib.DlList
