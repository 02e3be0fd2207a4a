import Mathlib.Data.Fintype.Card

/-! # Directories: a table of records and the slots that point into it

A table indexed by `ι` holds records, some of them live, each with an owner in `S`; every owner has
one slot, which holds the index of its live record or `null`. -/

namespace Mt7610u.Lib.Directory

variable {ι S : Type*}

/-- A slot that is not `null` holds a live record of its owner, and a live record is in the slot of
its owner. -/
structure Consistent (null : ι) (live : ι → Prop) (owner : ι → S) (slot : S → ι) : Prop where
  slot_live : ∀ s, slot s ≠ null → live (slot s) ∧ owner (slot s) = s
  live_slot : ∀ i, live i → i ≠ null ∧ slot (owner i) = i

namespace Consistent

variable {null : ι} {live : ι → Prop} {owner : ι → S} {slot : S → ι}

/-- **One slot for each live record.** -/
theorem existsUnique_slot (h : Consistent null live owner slot) {i : ι} (hi : live i) : ∃! s, slot s = i := by
  obtain ⟨hn, hs⟩ := h.live_slot i hi
  refine ⟨owner i, hs, fun s hs' => ?_⟩
  have := (h.slot_live s (by rw [hs']; exact hn)).2
  rw [hs'] at this
  exact this.symm

theorem congr {live' : ι → Prop} {owner' : ι → S} (h : Consistent null live owner slot)
    (hl : ∀ i, live' i ↔ live i) (ho : ∀ i, live i → owner' i = owner i) : Consistent null live' owner' slot := by
  refine ⟨fun s hs => ?_, fun i hi => ?_⟩
  · obtain ⟨h1, h2⟩ := h.slot_live s hs
    exact ⟨(hl _).mpr h1, by rw [ho _ h1, h2]⟩
  · obtain ⟨h1, h2⟩ := h.live_slot i ((hl i).mp hi)
    exact ⟨h1, by rw [ho i ((hl i).mp hi), h2]⟩

variable [DecidableEq S]

/-- **Taking a record into use** for an owner that has none. -/
theorem insert [DecidableEq ι] (h : Consistent null live owner slot) {i : ι} {s : S} (hi : i ≠ null)
    (hd : ¬ live i) (hs : slot s = null) :
    Consistent null (fun j => j = i ∨ live j) (Function.update owner i s)
      (Function.update slot s i) := by
  refine ⟨fun t ht => ?_, fun j hj => ?_⟩
  · by_cases hts : t = s
    · subst hts
      simp
    · rw [Function.update_of_ne hts] at ht ⊢
      obtain ⟨h1, h2⟩ := h.slot_live t ht
      have hne : slot t ≠ i := fun hc => hd (hc ▸ h1)
      exact ⟨Or.inr h1, by rw [Function.update_of_ne hne, h2]⟩
  · by_cases hji : j = i
    · subst hji
      exact ⟨hi, by simp⟩
    · have hl : live j := hj.resolve_left hji
      obtain ⟨h1, h2⟩ := h.live_slot j hl
      have hne : owner j ≠ s := fun hc => h1 (by rw [← h2, hc, hs])
      exact ⟨h1, by rw [Function.update_of_ne hji, Function.update_of_ne hne, h2]⟩

/-- **Giving a record back.** -/
theorem remove (h : Consistent null live owner slot) {i : ι} (hi : live i) :
    Consistent null (fun j => j ≠ i ∧ live j) owner (Function.update slot (owner i) null) := by
  refine ⟨fun t ht => ?_, fun j hj => ?_⟩
  · by_cases hts : t = owner i
    · subst hts
      simp at ht
    · rw [Function.update_of_ne hts] at ht ⊢
      obtain ⟨h1, h2⟩ := h.slot_live t ht
      exact ⟨⟨fun hc => hts (by rw [← h2, hc]), h1⟩, h2⟩
  · obtain ⟨h1, h2⟩ := h.live_slot j hj.2
    have hne : owner j ≠ owner i := by
      intro hc
      have := (h.live_slot i hi).2
      rw [← hc, h2] at this
      exact hj.1 this
    exact ⟨h1, by rw [Function.update_of_ne hne, h2]⟩

end Consistent

/-! ### One record changes -/

section Change

variable {live live' : ι → Prop} {i : ι}

theorem taken_iff (he : ∀ j ≠ i, (live' j ↔ live j)) (hi : live' i) (j : ι) : live' j ↔ j = i ∨ live j := by
  by_cases hj : j = i
  · subst hj
    simp [hi]
  · simp [hj, he j hj]

theorem returned_iff (he : ∀ j ≠ i, (live' j ↔ live j)) (hi : ¬ live' i) (j : ι) : live' j ↔ j ≠ i ∧ live j := by
  by_cases hj : j = i
  · subst hj
    simp [hi]
  · simp [hj, he j hj]

variable [Fintype ι] [DecidableEq ι] [DecidablePred live] [DecidablePred live']

theorem card_taken (hl : ∀ j, live' j ↔ j = i ∨ live j) (hd : ¬ live i) :
    (Finset.univ.filter live').card = (Finset.univ.filter live).card + 1 := by
  have hf : Finset.univ.filter live' = insert i (Finset.univ.filter live) := by
    ext j
    simp [hl]
  rw [hf, Finset.card_insert_of_notMem (by simpa using hd)]

theorem card_returned (hl : ∀ j, live' j ↔ j ≠ i ∧ live j) (hi : live i) :
    (Finset.univ.filter live').card = (Finset.univ.filter live).card - 1 := by
  have hf : Finset.univ.filter live' = (Finset.univ.filter live).erase i := by
    ext j
    simp [hl]
  rw [hf, Finset.card_erase_of_mem (by simpa using hi)]

end Change

/-! ### Free records -/

/-- **A free record exists** while fewer records are live than there are indices besides `null`. -/
theorem exists_free [Fintype ι] [DecidableEq ι] (null : ι) {live : ι → Prop} [DecidablePred live]
    (hc : (Finset.univ.filter live).card + 1 < Fintype.card ι) : ∃ i, i ≠ null ∧ ¬ live i := by
  by_contra hno
  push Not at hno
  have hsub : Finset.univ.erase null ⊆ Finset.univ.filter live := by
    intro i hi
    simpa using hno i (Finset.ne_of_mem_erase hi)
  have := Finset.card_le_card hsub
  rw [Finset.card_erase_of_mem (Finset.mem_univ _), Finset.card_univ] at this
  omega

/-- **A search finds a free record** in any list of all indices. -/
theorem find_free [Fintype ι] [DecidableEq ι] {null : ι} {live free : ι → Prop} [DecidablePred live]
    [DecidablePred free] (hf : ∀ i, free i ↔ ¬ live i)
    (hc : (Finset.univ.filter live).card + 1 < Fintype.card ι) {l : List ι} (hl : ∀ i, i ∈ l) :
    ∃ i, (l.find? fun i => i ≠ null ∧ free i) = some i ∧ i ≠ null ∧ ¬ live i := by
  obtain ⟨i, hi, hd⟩ := exists_free null hc
  have hsome : (l.find? fun i => i ≠ null ∧ free i).isSome := by
    rw [List.find?_isSome]
    exact ⟨i, hl i, decide_eq_true ⟨hi, (hf i).mpr hd⟩⟩
  obtain ⟨j, hj⟩ := Option.isSome_iff_exists.mp hsome
  have hp := List.find?_some hj
  rw [decide_eq_true_eq] at hp
  exact ⟨j, hj, hp.1, (hf j).mp hp.2⟩

end Mt7610u.Lib.Directory
