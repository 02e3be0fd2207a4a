import Mt7610u.Usb.Layout

/-! # Where the cursors stand

The packets that wait in the ring lie in one of three ways. The write position is ahead of both bulk-out
cursors; or it has returned to the start of the ring and they have not; or `ENextBulkOutPosition` has
returned as well, while the URB that ended the round is still under way. -/

namespace Mt7610u.Usb

open Lib

section Placement

variable (v : ℕ → Byte) (nb en cw todo : ℕ) (busy : Bool)

/-- The write position is ahead: the packets lie between `en` and `cw`. `todo` is the number of bytes that
a writer in its work is going to add. Behind 116926 a packet ends the round. -/
structure Ahead (pend : List Packet) : Prop where
  holds : HoldsAt v en (waiting false pend)
  reach : en + size pend = cw
  le_en : nb ≤ en
  le_limit : cw ≤ 116934
  idle_le_limit : busy = false → cw ≤ 116926
  first : en = 0 ∧ cw = 0 ∧ busy = false ∨ en = 8 ∧ cw + todo ≤ 116926 ∧ (busy = false → 8 < cw) ∨ 24 ≤ en

/-- The write position has returned: `xs` end the round, `ys` are at the start of the ring. -/
structure Wrapped (xs ys : List Packet) : Prop where
  ne_nil : xs ≠ []
  holds : HoldsAt v en (waiting true xs)
  holds_start : HoldsAt v 8 (waiting false ys)
  reach : 8 + size ys = cw
  le_en : nb ≤ en
  far : 24 ≤ en
  end_le : en + size xs ≤ 120940
  room : ys = [] ∧ busy = false ∧ todo = 0 ∨ cw + todo + 16 ≤ nb
  lap : cw + todo ≤ 116926

/-- `ENextBulkOutPosition` has returned too; the URB of the last round is still to be read from `nb`. -/
structure Returned (pend : List Packet) : Prop where
  holds : HoldsAt v en (waiting false pend)
  reach : en + size pend = cw
  far : 8 ≤ en
  room : cw + todo + 8 ≤ nb
  nb_le : nb ≤ 120940
  lap : cw + todo ≤ 116926

/-- The packets `pend` wait in the ring. -/
def Placed (pend : List Packet) : Prop :=
  Ahead v nb en cw todo busy pend ∨
    (∃ xs ys, pend = xs ++ ys ∧ Wrapped v nb en cw todo busy xs ys) ∨ Returned v nb en cw todo pend

end Placement

section Steps

variable {v : ℕ → Byte} {nb en cw todo : ℕ} {busy : Bool} {pend : List Packet}

theorem placed_init (v : ℕ → Byte) : Placed v 0 0 0 0 false [] := by
  refine Or.inl ⟨holdsAt_nil v 0, rfl, le_rfl, by omega, fun _ => by omega, Or.inl ⟨rfl, rfl, rfl⟩⟩

theorem Placed.ne_of_ne_nil (h : Placed v nb en cw todo busy pend) (hfit : ∀ p ∈ pend, p.Fits)
    (hne : pend ≠ []) : en ≠ cw ∧ en ≠ cw + 8 := by
  have hsize := size_pos hfit hne
  rcases h with h | ⟨xs, ys, -, h⟩ | h
  · have := h.reach
    omega
  · have h1 := h.le_en
    have h2 := h.far
    have h3 := h.reach
    rcases h.room with ⟨rfl, -⟩ | hroom
    · rw [size_nil] at h3
      omega
    · omega
  · have := h.reach
    omega

theorem Placed.eq_of_nil (h : Placed v nb en cw todo busy []) : en = cw := by
  rcases h with h | ⟨xs, ys, hnil, h⟩ | h
  · exact h.reach
  · rw [eq_comm, List.append_eq_nil_iff] at hnil
    exact absurd hnil.1 h.ne_nil
  · exact h.reach

theorem Placed.nil_of_eq (h : Placed v nb en cw todo busy pend) (hfit : ∀ p ∈ pend, p.Fits)
    (heq : en = cw) : pend = [] := by
  by_contra hne
  exact (h.ne_of_ne_nil hfit hne).1 heq

theorem Placed.free (h : Placed v nb en cw todo true pend) (htodo : todo ≤ 4006) :
    cw + todo + 8 ≤ 122880 ∧ (cw < nb → cw + todo + 8 ≤ nb) := by
  rcases h with h | ⟨xs, ys, -, h⟩ | h
  · have h1 := h.reach
    have h2 := h.le_en
    have h3 := h.le_limit
    omega
  · have h1 := h.le_en
    have h2 := h.end_le
    rcases h.room with ⟨-, hb, -⟩ | hroom
    · exact absurd hb (by decide)
    · omega
  · have h1 := h.room
    have h2 := h.nb_le
    omega

theorem Placed.apart (h : Placed v nb en cw todo true pend) (hfit : ∀ p ∈ pend, p.Fits) {pos n : ℕ}
    (hpos : cw + 8 ≤ pos ∨ cw ≤ pos ∧ en ≠ cw) (hend : pos + n ≤ cw + todo + 8) : en + 8 ≤ pos ∨ pos + n ≤ en := by
  rcases h with h | ⟨xs, ys, -, h⟩ | h
  · have h1 := h.reach
    by_cases hnil : pend = []
    · rw [hnil, size_nil] at h1
      omega
    · have := size_pos hfit hnil
      omega
  · have h1 := h.le_en
    rcases h.room with ⟨-, hb, -⟩ | hroom
    · exact absurd hb (by decide)
    · omega
  · have h1 := h.reach
    by_cases hnil : pend = []
    · rw [hnil, size_nil] at h1
      omega
    · have := size_pos hfit hnil
      omega

/-- With a writer in its work, either the write position is behind the URB under way, or nothing of what
waits or is being sent is behind it. -/
theorem Placed.behind_or_ahead (h : Placed v nb en cw todo true pend) (hfit : ∀ p ∈ pend, p.Fits) :
    8 ≤ cw ∧ cw + todo + 8 ≤ nb ∨ nb ≤ cw ∧ en ≤ cw ∧ (en ≠ cw → en + 24 ≤ cw) := by
  rcases h with h | ⟨xs, ys, -, h⟩ | h
  · have h1 := h.reach
    have h2 := h.le_en
    refine Or.inr ⟨by omega, by omega, fun hne => ?_⟩
    by_cases hnil : pend = []
    · rw [hnil, size_nil] at h1
      exact absurd h1 hne
    · have := size_pos hfit hnil
      omega
  · have h1 := h.reach
    rcases h.room with ⟨-, hb, -⟩ | hroom
    · exact absurd hb (by decide)
    · exact Or.inl (by omega)
  · have h1 := h.reach
    have h2 := h.far
    have h3 := h.room
    exact Or.inl (by omega)

theorem Placed.granted (h : Placed v nb en cw todo busy pend) (hfit : ∀ p ∈ pend, p.Fits)
    (hne : pend ≠ []) {n : ℕ} (hn : 2048 ≤ n) (h1 : cw < nb → cw + n ≤ nb) (h2 : cw = 8 → n ≤ nb) :
    (cw < en → cw + n ≤ en) ∧ (cw = 8 → n ≤ en) := by
  have hsize := size_pos hfit hne
  rcases h with h | ⟨xs, ys, -, h⟩ | h
  · have h3 := h.reach
    have h4 := h.first
    omega
  · have h3 := h.reach
    have h4 := h.le_en
    rcases h.room with ⟨rfl, -, -⟩ | hroom
    · rw [size_nil] at h3
      have h5 := h2 (by omega)
      omega
    · have h5 := h1 (by omega)
      omega
  · have h3 := h.reach
    have h4 := h.far
    omega

theorem Placed.store (h : Placed v nb en cw todo true pend) {pos : ℕ} {bs : List Byte}
    (hpos : cw ≤ pos) (hend : pos + bs.length ≤ cw + todo + 8) :
    Placed (copy v pos bs) nb en cw todo true pend := by
  rcases h with h | ⟨xs, ys, hpend, h⟩ | h
  · refine Or.inl ⟨h.holds.copy (Or.inl ?_), h.reach, h.le_en, h.le_limit, h.idle_le_limit, h.first⟩
    rw [length_waiting]
    have := h.reach
    omega
  · have hroom : cw + todo + 16 ≤ nb := by
      rcases h.room with ⟨-, hb, -⟩ | hroom
      · exact absurd hb (by decide)
      · exact hroom
    have h1 := h.le_en
    have h2 := h.reach
    refine Or.inr (Or.inl ⟨xs, ys, hpend, h.ne_nil, h.holds.copy (Or.inr (by omega)),
      h.holds_start.copy (Or.inl ?_), h2, h1, h.far, h.end_le, h.room, h.lap⟩)
    rw [length_waiting]
    omega
  · refine Or.inr (Or.inr ⟨h.holds.copy (Or.inl ?_), h.reach, h.far, h.room, h.nb_le, h.lap⟩)
    rw [length_waiting]
    have := h.reach
    omega

/-- **A writer begins.** `RtmpUSBCanDoWrite` and `RTUSBFreeDescRequest` have admitted it, and it does not
end a second round before the first one has been sent. -/
theorem Placed.reserve (h : Placed v nb en cw 0 false pend) (hfit : ∀ p ∈ pend, p.Fits) {len req : ℕ}
    (hlen : len ≤ 4006) (hreq : len + 16 ≤ req + 2048) (hgrant : cw < nb → cw + req + 2048 ≤ nb)
    (hc2 : cw = 8 → 2048 ≤ nb) (hc4 : en = 8 → cw + 7912 ≤ 120832)
    (hlap : cw < nb → (if en = cw then cw + 8 else cw) + len ≤ 116926) :
    Placed v nb (if en = cw then en + 8 else en) (if en = cw then cw + 8 else cw) len true pend := by
  by_cases heq : en = cw
  · -- the ring is empty; the cursors are moved by eight bytes
    have hnil := h.nil_of_eq hfit heq
    subst hnil heq
    rw [if_pos rfl] at hlap ⊢
    rcases h with h | ⟨xs, ys, hpend, h⟩ | h
    · have h1 := h.le_en
      have h2 := h.idle_le_limit rfl
      refine Or.inl ⟨holdsAt_nil v _, rfl, by omega, by omega, fun hb => absurd hb (by decide), ?_⟩
      rcases h.first with ⟨h0, -, -⟩ | ⟨h8, -, hb⟩ | h24
      · exact Or.inr (Or.inl ⟨by omega, by omega, fun hb => absurd hb (by decide)⟩)
      · exact absurd (hb rfl) (by omega)
      · exact Or.inr (Or.inr (by omega))
    · rw [eq_comm, List.append_eq_nil_iff] at hpend
      exact absurd hpend.1 h.ne_nil
    · have h1 := h.room
      have h2 := h.far
      have h3 := hgrant (by omega)
      have h4 := hlap (by omega)
      exact Or.inr (Or.inr ⟨holdsAt_nil v _, rfl, by omega, by omega, h.nb_le, by omega⟩)
  · rw [if_neg heq] at hlap ⊢
    rw [if_neg heq]
    rcases h with h | ⟨xs, ys, hpend, h⟩ | h
    · have h1 := h.idle_le_limit rfl
      refine Or.inl ⟨h.holds, h.reach, h.le_en, h.le_limit, fun hb => absurd hb (by decide), ?_⟩
      rcases h.first with ⟨h0, h0', -⟩ | ⟨h8, -, hb⟩ | h24
      · exact absurd (h0.trans h0'.symm) heq
      · have h2 := hc4 h8
        exact Or.inr (Or.inl ⟨h8, by omega, fun hb => absurd hb (by decide)⟩)
      · exact Or.inr (Or.inr h24)
    · have hlt : cw < nb := by
        rcases h.room with ⟨rfl, -⟩ | hroom
        · have h1 := h.reach
          rw [size_nil] at h1
          have h2 := hc2 (by omega)
          omega
        · omega
      have h1 := hgrant hlt
      have h2 := hlap hlt
      exact Or.inr (Or.inl ⟨xs, ys, hpend, h.ne_nil, h.holds, h.holds_start, h.reach, h.le_en, h.far,
        h.end_le, Or.inr (by omega), h2⟩)
    · have hlt : cw < nb := by
        have := h.room
        omega
      have h1 := hgrant hlt
      have h2 := hlap hlt
      exact Or.inr (Or.inr ⟨h.holds, h.reach, h.far, by omega, h.nb_le, h2⟩)

/-- **A writer finishes.** Its packets are behind those that wait; the last of them ends the round if
there is no room for another aggregate behind it. -/
theorem Placed.finish {ps : List Packet} (h : Placed v nb en cw (size ps) true pend) (hne : ps ≠ [])
    (hfit : ∀ p ∈ ps, p.Fits) (hlen : size ps ≤ 4006)
    (hps : HoldsAt v cw (waiting (decide (120832 < cw + size ps + 3906)) ps)) :
    Placed v nb en (if 120832 < cw + size ps + 3906 then 8 else cw + size ps) 0 false (pend ++ ps) := by
  have hsize := size_pos hfit hne
  rcases h with h | ⟨xs, ys, hpend, h⟩ | h
  · have h1 := h.reach
    have h2 := h.le_limit
    have hall : ∀ b, HoldsAt v cw (waiting b ps) → HoldsAt v en (waiting b (pend ++ ps)) := by
      intro b hb
      rw [waiting_append b pend hne, holdsAt_append, length_waiting, h1]
      exact ⟨h.holds, hb⟩
    by_cases hlast : 120832 < cw + size ps + 3906
    · -- the round ends here; the ring is not at its first start, where `RtmpUSBCanDoWrite` kept the room
      rw [if_pos hlast]
      rw [decide_eq_true hlast] at hps
      have h24 : 24 ≤ en := by
        rcases h.first with ⟨-, -, hb⟩ | ⟨-, hle, -⟩ | h24
        · exact absurd hb (by decide)
        · omega
        · exact h24
      refine Or.inr (Or.inl ⟨pend ++ ps, [], by simp, by simp [hne], hall true hps, holdsAt_nil v 8, rfl,
        h.le_en, h24, ?_, Or.inl ⟨rfl, rfl, rfl⟩, by omega⟩)
      rw [size_append]
      omega
    · rw [if_neg hlast]
      rw [decide_eq_false hlast] at hps
      refine Or.inl ⟨hall false hps, by rw [size_append]; omega, h.le_en, by omega, fun _ => by omega, ?_⟩
      rcases h.first with ⟨-, -, hb⟩ | ⟨h8, hle, -⟩ | h24
      · exact absurd hb (by decide)
      · exact Or.inr (Or.inl ⟨h8, by omega, fun _ => by omega⟩)
      · exact Or.inr (Or.inr h24)
  · have hroom : cw + size ps + 16 ≤ nb := by
      rcases h.room with ⟨-, hb, -⟩ | hroom
      · exact absurd hb (by decide)
      · exact hroom
    have h1 := h.reach
    have h2 := h.lap
    rw [if_neg (by omega)]
    rw [decide_eq_false (by omega)] at hps
    refine Or.inr (Or.inl ⟨xs, ys ++ ps, by rw [hpend, List.append_assoc], h.ne_nil, h.holds, ?_,
      by rw [size_append]; omega, h.le_en, h.far, h.end_le, Or.inr (by omega), by omega⟩)
    rw [waiting_append_false, holdsAt_append, length_waiting, h1]
    exact ⟨h.holds_start, hps⟩
  · have h1 := h.reach
    have h2 := h.lap
    have h3 := h.room
    rw [if_neg (by omega)]
    rw [decide_eq_false (by omega)] at hps
    refine Or.inr (Or.inr ⟨?_, by rw [size_append]; omega, h.far, by omega, h.nb_le, by omega⟩)
    rw [waiting_append_false, holdsAt_append, length_waiting, h1]
    exact ⟨h.holds, hps⟩

/-- `ENextBulkOutPosition` after `taken` was taken; `last` when that ended the round. -/
def bulkEnd (en : ℕ) (last : Bool) (taken : List Packet) : ℕ := if last then 8 else en + size taken

theorem bulkEnd_false (en : ℕ) (taken : List Packet) : bulkEnd en false taken = en + size taken := rfl

def bulkKeep (en cw : ℕ) (busy last : Bool) (taken : List Packet) : Bool :=
  !last && (busy || decide (bulkEnd en last taken ≠ cw))

def bulkReach (en cw : ℕ) (busy last : Bool) (taken : List Packet) : ℕ :=
  en + size taken + if bulkKeep en cw busy last taken then 0 else 8

/-- Packets are taken from the front of those between `en` and `cw`. What is left lies behind them and is
not touched, nor is what a writer has behind `cw`. -/
theorem straight_build (busy : Bool) {taken rest : List Packet} (hfit : ∀ p ∈ rest, p.Fits)
    (hreach : en + size (taken ++ rest) = cw) (hh : HoldsAt v en (waiting false (taken ++ rest))) :
    (busy = true → bulkReach en cw busy false taken ≤ cw) ∧
      ∀ v', SameOutside en (bulkReach en cw busy false taken) v v' →
        HoldsAt v' (en + size taken) (waiting false rest) := by
  rw [size_append] at hreach
  rw [waiting_append_false, holdsAt_append, length_waiting] at hh
  constructor
  · intro hb
    unfold bulkReach bulkKeep
    rw [hb]
    simp only [Bool.not_false, Bool.true_or, Bool.and_self, if_true]
    omega
  · intro v' hv
    by_cases hnil : rest = []
    · subst hnil
      exact holdsAt_nil v' _
    · have hsize := size_pos hfit hnil
      have hkeep : bulkKeep en cw busy false taken = true := by
        unfold bulkKeep
        rw [bulkEnd_false, decide_eq_true (by omega)]
        simp
      refine HoldsAt.sameOutside hh.2 hv (Or.inr ?_)
      unfold bulkReach
      rw [hkeep, if_pos rfl, Nat.add_zero]

/-- **Bulk-out.** The packets in front of the loop are `ps`; whatever it takes of them, the others are
still placed. -/
theorem Placed.build (h : Placed v nb en cw todo busy pend) (hfit : ∀ p ∈ pend, p.Fits) (hne : pend ≠ []) :
    ∃ ps tail lastRnd, pend = ps ++ tail ∧ ps ≠ [] ∧ HoldsAt v en (waiting lastRnd ps) ∧
      size ps ≤ 120940 ∧
      (lastRnd = false ∧ en + size ps = cw ∨ lastRnd = true ∧ cw < en ∧ ps ≠ []) ∧
      ∀ taken rest, ps = taken ++ rest → taken ≠ [] →
        (busy = true → cw + todo ≤ en ∨ bulkReach en cw busy (lastRnd && rest.isEmpty) taken ≤ cw) ∧
        ∀ v', SameOutside en (bulkReach en cw busy (lastRnd && rest.isEmpty) taken) v v' →
          Placed v' en (bulkEnd en (lastRnd && rest.isEmpty) taken) cw todo busy (rest ++ tail) := by
  rcases h with h | ⟨xs, ys, rfl, h⟩ | h
  · have h1 := h.reach
    have h2 := h.le_limit
    refine ⟨pend, [], false, by simp, hne, h.holds, by omega, Or.inl ⟨rfl, h1⟩, ?_⟩
    rintro taken rest rfl htaken
    have htake := size_pos (fun p hp => hfit p (List.mem_append_left rest hp)) htaken
    have hb := straight_build busy (fun p hp => hfit p (List.mem_append_right taken hp)) h1 h.holds
    refine ⟨fun hbusy => Or.inr (hb.1 hbusy), fun v' hv => Or.inl ?_⟩
    rw [size_append] at h1
    have hfirst := h.first
    rw [Bool.false_and, bulkEnd_false, List.append_nil]
    exact ⟨hb.2 v' hv, by omega, by omega, h2, h.idle_le_limit, Or.inr (Or.inr (by omega))⟩
  · have h1 := h.reach
    have h2 := h.le_en
    have h3 := h.far
    have h4 := h.end_le
    -- in either case the write position and what is written there are below `en`
    have hroom : ys = [] ∧ busy = false ∧ todo = 0 ∨ cw + todo + 16 ≤ en := by
      rcases h.room with hroom | hroom
      · exact Or.inl hroom
      · exact Or.inr (by omega)
    have hcw : cw + 16 ≤ en := by
      rcases hroom with ⟨rfl, -⟩ | hroom
      · rw [size_nil] at h1
        omega
      · omega
    refine ⟨xs, ys, true, rfl, h.ne_nil, h.holds, by omega, Or.inr ⟨rfl, by omega, h.ne_nil⟩, ?_⟩
    rintro taken rest rfl htaken
    refine ⟨fun hbusy => Or.inl ?_, fun v' hv => ?_⟩
    · rcases hroom with ⟨-, hb, -⟩ | hroom
      · rw [hbusy] at hb
        exact absurd hb (by decide)
      · omega
    have hstart : HoldsAt v' 8 (waiting false ys) := by
      refine HoldsAt.sameOutside h.holds_start hv (Or.inl ?_)
      rw [length_waiting]
      omega
    by_cases hnil : rest = []
    · -- the round has been taken to its end
      subst hnil
      refine Or.inr (Or.inr ⟨hstart, h1, le_rfl, ?_, by omega, h.lap⟩)
      rcases hroom with ⟨-, -, rfl⟩ | hroom
      · omega
      · omega
    · have hrest := size_pos (fun p hp => hfit p (by simp [hp])) hnil
      have hlast : (true && rest.isEmpty) = false := by simp [hnil]
      have hkeep : bulkKeep en cw busy false taken = true := by
        unfold bulkKeep
        rw [bulkEnd_false, decide_eq_true (by omega)]
        simp
      rw [hlast] at hv
      rw [hlast, bulkEnd_false]
      have hx := h.holds
      rw [waiting_append true taken hnil, holdsAt_append, length_waiting] at hx
      rw [size_append] at h4
      refine Or.inr (Or.inl ⟨rest, ys, rfl, hnil, HoldsAt.sameOutside hx.2 hv (Or.inr ?_), hstart, h1, ?_, ?_,
        ?_, hroom, h.lap⟩)
      · unfold bulkReach
        rw [hkeep, if_pos rfl, Nat.add_zero]
      · omega
      · omega
      · omega
  · have h1 := h.reach
    have h2 := h.lap
    have h3 := h.far
    refine ⟨pend, [], false, by simp, hne, h.holds, by omega, Or.inl ⟨rfl, h1⟩, ?_⟩
    rintro taken rest rfl htaken
    have htake := size_pos (fun p hp => hfit p (List.mem_append_left rest hp)) htaken
    have hb := straight_build busy (fun p hp => hfit p (List.mem_append_right taken hp)) h1 h.holds
    refine ⟨fun hbusy => Or.inr (hb.1 hbusy), fun v' hv => Or.inl ?_⟩
    rw [size_append] at h1
    rw [Bool.false_and, bulkEnd_false, List.append_nil]
    exact ⟨hb.2 v' hv, by omega, by omega, by omega, fun _ => by omega, Or.inr (Or.inr (by omega))⟩

end Steps

end Mt7610u.Usb
