import Mt7610u.Data.Amsdu

/-! # The deaggregation of any A-MSDU body

`deaggregate_AMSDU_announce` on a body whose bytes, length and tail are arbitrary. The loop is written
with the positions that it clones from and the sizes that it assigns, and is compared with
`deaggregateAmsduAnnounce`. -/

namespace Mt7610u.Data.Amsdu

open Lib

/-! ### The loop with its positions -/

inductive Access
  /-- `PayloadSize` is assigned: the number that is meant, and the sixteen bits that are stored. -/
  | size (exact : ℤ) (stored : BitVec 16)
  /-- `REPORT_MGMT_FRAME_TO_MLME` on the payload. -/
  | report (payload : List Byte)
  /-- A clone that covers these bytes of the body, from `off` on, is announced. -/
  | clone (off : ℕ) (bytes : List Byte)
  deriving DecidableEq

/-- One turn, on subframe `n`, which lies at `m`, `off` bytes into the body: `PayloadSize` and `pPayload`
behind `CONVERT_TO_802_3`, and once the header is in front of the payload. -/
def accesses (res : Resources) (n : ℕ) (m : ℕ → Byte) (off : ℕ) : List Access :=
  let p := payloadSize m
  let c := convertTo8023 m p
  let size := if c.2 then p - 8 else p
  let pPayload := if c.2 then 22 else 14
  let size' := if c.2 then size + 14 else size
  let pPayload' := if c.2 then pPayload - 14 else pPayload
  [.size p.toNat p] ++ (if c.2 then [.size (p.toNat - 8) size] else []) ++
    (if c.1.drop 12 = [0x88#8, 0x8e#8] ∧ res.elem n = true then
      [.report (readAt m pPayload size.toNat)] else []) ++
    (if c.2 then [.size (size.toNat + 14) size'] else []) ++
    (if res.clone n then [.clone (off + pPayload') (readAt (converted m p) pPayload' size'.toNat)] else [])

/-- `deaggregate_AMSDU_announce` on the `dataSize` bytes at `m`, which begin `off` bytes into the body,
with `nMSDU` subframes in front of them: the count that is returned, and what the turns do. -/
def deaggregate (res : Resources) (nMSDU : ℕ) (m : ℕ → Byte) (off dataSize : ℕ) : ℕ × List Access :=
  if dataSize > 14 then
    if dataSize < (subFrameSize m).toNat ∨ (payloadSize m).toNat > 1518 then (nMSDU + 1, [])
    else if (alignedSize m).toNat > 1528 ∨ (alignedSize m).toNat < 32 then
      (nMSDU + 1, accesses res nMSDU m off)
    else if dataSize > (alignedSize m).toNat then
      let rest := deaggregate res (nMSDU + 1)
        (fun i => converted m (payloadSize m) ((alignedSize m).toNat + i))
        (off + (alignedSize m).toNat) (dataSize - (alignedSize m).toNat)
      (rest.1, accesses res nMSDU m off ++ rest.2)
    else (nMSDU + 1, accesses res nMSDU m off)
  else (nMSDU, [])
termination_by dataSize
decreasing_by omega

/-- What lies behind the header at `m` is an LLC/SNAP header that the 802.3 frame goes without. -/
def SnapAt (m : ℕ → Byte) : Prop :=
  (readAt m 14 6 = snap8021h ∨ readAt m 14 6 = snapBridgeTunnel) ∧
    ¬ ((readAt m 20 2 = ipx ∨ readAt m 20 2 = appleTalk) ∧ readAt m 14 6 = snap8021h)

instance (m : ℕ → Byte) : Decidable (SnapAt m) := by unfold SnapAt; infer_instance

theorem convertTo8023_snd (m : ℕ → Byte) (size : BitVec 16) : (convertTo8023 m size).2 = decide (SnapAt m) := by
  unfold convertTo8023 SnapAt
  simp only []
  split_ifs with h1 h2
  · exact (decide_eq_false fun h => h.2 h2).symm
  · exact (decide_eq_true ⟨h1, h2⟩).symm
  · exact (decide_eq_false fun h => h1 h.1).symm

section Turn

variable (res : Resources) (n : ℕ) {m : ℕ → Byte} (off : ℕ)

def reported (m : ℕ → Byte) (payload : List Byte) : List Access :=
  if (convertTo8023 m (payloadSize m)).1.drop 12 = [0x88#8, 0x8e#8] ∧ res.elem n = true then
    [.report payload]
  else []

theorem accesses_of_snap (h : SnapAt m) :
    accesses res n m off =
      [.size (payloadSize m).toNat (payloadSize m),
          .size ((payloadSize m).toNat - 8) (payloadSize m - 8)] ++
        reported res n m (readAt m 22 (payloadSize m - 8).toNat) ++
        [.size ((payloadSize m - 8).toNat + 14) (payloadSize m - 8 + 14)] ++
        if res.clone n then [.clone (off + 8) (cloned m (payloadSize m))] else [] := by
  have hc : (convertTo8023 m (payloadSize m)).2 = true := by
    rw [convertTo8023_snd]
    exact decide_eq_true h
  unfold accesses reported cloned
  simp only [hc, if_true]
  rfl

theorem accesses_of_not_snap (h : ¬ SnapAt m) :
    accesses res n m off =
      [.size (payloadSize m).toNat (payloadSize m)] ++
        reported res n m (readAt m 14 (payloadSize m).toNat) ++
        if res.clone n then [.clone (off + 14) (cloned m (payloadSize m))] else [] := by
  have hc : (convertTo8023 m (payloadSize m)).2 = false := by
    rw [convertTo8023_snd]
    exact decide_eq_false h
  unfold accesses reported cloned converted
  simp only [hc, Bool.false_eq_true, if_false, List.append_nil]

end Turn

/-! ### The subframes of a body -/

section Grammar

variable (m : ℕ → Byte) (size : ℕ)

/-- The subframe at `m` has a length field that fits into the `size` bytes that are left. -/
def Fits : Prop := (payloadSize m).toNat + 14 ≤ size ∧ (payloadSize m).toNat ≤ 1518

/-- The length of the subframe at `m` with its padding. -/
def padded : ℕ := ((payloadSize m).toNat + 17) / 4 * 4

/-- Another subframe is looked for behind the one at `m`. -/
def Continues : Prop := 14 < size ∧ Fits m size ∧ 32 ≤ padded m ∧ padded m ≤ 1528 ∧ padded m < size

instance : Decidable (Fits m size) := by unfold Fits; infer_instance

instance : Decidable (Continues m size) := by unfold Continues; infer_instance

end Grammar

/-- Subframe `n` of the `size` bytes at `m` begins `off` bytes into them. -/
inductive SubframeAt : (ℕ → Byte) → ℕ → ℕ → ℕ → Prop
  | here {m size} : 14 < size → SubframeAt m size 0 0
  | behind {m size n off} : Continues m size →
      SubframeAt (fun i => m (padded m + i)) (size - padded m) n off →
      SubframeAt m size (n + 1) (padded m + off)

theorem forall_subframeAt {P : ℕ → (ℕ → Byte) → ℕ → Prop} {m : ℕ → Byte} {size : ℕ} :
    (∀ n off, SubframeAt m size n off → P n (fun i => m (off + i)) (size - off)) ↔
      (14 < size → P 0 m size) ∧
      (Continues m size → ∀ n off, SubframeAt (fun i => m (padded m + i)) (size - padded m) n off →
        P (n + 1) (fun i => m (padded m + (off + i))) (size - padded m - off)) := by
  constructor
  · intro h
    constructor
    · intro hlen
      have h0 := h 0 0 (.here hlen)
      simpa only [Nat.zero_add, Nat.sub_zero] using h0
    · intro hgo n off hsub
      have hn := h (n + 1) (padded m + off) (.behind hgo hsub)
      simpa only [Nat.add_assoc, Nat.sub_sub] using hn
  · rintro ⟨hfirst, hrest⟩ n off hsub
    cases hsub with
    | here hlen => simpa only [Nat.zero_add, Nat.sub_zero] using hfirst hlen
    | behind hgo hsub => simpa only [Nat.add_assoc, Nat.sub_sub] using hrest hgo _ _ hsub

/-! ### One turn -/

theorem fits_iff {m : ℕ → Byte} {size : ℕ} :
    ¬ (size < (subFrameSize m).toNat ∨ (payloadSize m).toNat > 1518) ↔ Fits m size := by
  unfold Fits
  constructor
  · intro h
    have hle : (payloadSize m).toNat ≤ 1518 := by omega
    have hs := toNat_subFrameSize hle
    omega
  · intro h
    have hs := toNat_subFrameSize h.2
    omega

theorem aligned_eq {m : ℕ → Byte} {size : ℕ} (h : Fits m size) : (alignedSize m).toNat = padded m :=
  toNat_alignedSize h.2

theorem deaggregate_eq (res : Resources) (n : ℕ) (m : ℕ → Byte) (off size : ℕ) :
    deaggregate res n m off size =
      if 14 < size then
        if Continues m size then
          let rest := deaggregate res (n + 1) (fun i => m (padded m + i)) (off + padded m)
            (size - padded m)
          (rest.1, accesses res n m off ++ rest.2)
        else (n + 1, if Fits m size then accesses res n m off else [])
      else (n, []) := by
  rw [deaggregate]
  by_cases hlen : 14 < size
  · rw [if_pos hlen, if_pos hlen]
    by_cases hfits : Fits m size
    · rw [if_neg (fits_iff.2 hfits), aligned_eq hfits]
      by_cases hgo : Continues m size
      · obtain ⟨-, -, h32, h1528, hmore⟩ := hgo
        -- the header was written in front of the padding's end
        have hsame : (fun i => converted m (payloadSize m) (padded m + i)) = fun i => m (padded m + i) := by
          funext i
          exact converted_behind m _ (by omega)
        rw [if_neg (by omega), if_pos hmore, if_pos ⟨hlen, hfits, h32, h1528, hmore⟩, hsame]
      · rw [if_neg hgo, if_pos hfits]
        unfold Continues at hgo
        split_ifs
        · rfl
        · exact absurd ⟨hlen, hfits, by omega, by omega, by omega⟩ hgo
        · rfl
    · have hstop : ¬ Continues m size := fun h => hfits h.2.1
      rw [if_pos (not_not.1 fun h => hfits (fits_iff.1 h)), if_neg hstop, if_neg hfits]
  · rw [if_neg hlen, if_neg hlen]

/-! ### Safety, one turn at a time -/

def clones (as : List Access) : List (ℕ × List Byte) :=
  as.filterMap fun a => match a with
    | .clone off bytes => some (off, bytes)
    | _ => none

/-- Every assignment to `PayloadSize` stores the number that is meant. -/
def SizesExact (as : List Access) : Prop := ∀ exact stored, .size exact stored ∈ as → (stored.toNat : ℤ) = exact

theorem clones_append (as bs : List Access) : clones (as ++ bs) = clones as ++ clones bs := List.filterMap_append

theorem sizesExact_append {as bs : List Access} : SizesExact (as ++ bs) ↔ SizesExact as ∧ SizesExact bs := by
  unfold SizesExact
  simp only [List.mem_append]
  constructor
  · intro h
    exact ⟨fun e s hm => h e s (Or.inl hm), fun e s hm => h e s (Or.inr hm)⟩
  · rintro ⟨h1, h2⟩ e s (hm | hm)
    · exact h1 e s hm
    · exact h2 e s hm

theorem sizesExact_nil : SizesExact [] := fun _ _ h => absurd h List.not_mem_nil

theorem sizesExact_size {e : ℤ} {s : BitVec 16} : SizesExact [.size e s] ↔ (s.toNat : ℤ) = e := by
  constructor
  · intro h
    exact h e s (List.mem_singleton_self _)
  · rintro h e' s' hm
    cases List.mem_singleton.1 hm
    exact h

section Turn

variable (res : Resources) (n : ℕ) {m : ℕ → Byte} (off : ℕ)

theorem clones_reported (payload : List Byte) : clones (reported res n m payload) = [] := by
  unfold reported
  split
  · rfl
  · rfl

theorem sizesExact_reported (payload : List Byte) : SizesExact (reported res n m payload) := by
  unfold reported
  split
  · intro e s h
    cases List.mem_singleton.1 h
  · exact sizesExact_nil

theorem clones_accesses (m : ℕ → Byte) :
    clones (accesses res n m off) =
      if res.clone n then [(off + (if SnapAt m then 8 else 14), cloned m (payloadSize m))] else [] := by
  have hclone : ∀ o, clones (if res.clone n then [Access.clone o (cloned m (payloadSize m))] else []) =
      if res.clone n then [(o, cloned m (payloadSize m))] else [] := by
    intro o
    split
    · rfl
    · rfl
  by_cases hs : SnapAt m
  · rw [accesses_of_snap res n off hs, if_pos hs]
    simp only [clones_append, hclone, clones_reported]
    rfl
  · rw [accesses_of_not_snap res n off hs, if_neg hs]
    simp only [clones_append, hclone, clones_reported]
    rfl

theorem cloned_extent {size : ℕ} (h : Fits m size) :
    (if SnapAt m then 8 else 14) + (cloned m (payloadSize m)).length = 14 + (payloadSize m).toNat := by
  have hconv := toNat_convertedSize h.2
  unfold cloned
  rw [convertTo8023_snd]
  by_cases hs : SnapAt m
  · rw [if_pos hs, decide_eq_true hs, if_pos rfl, length_readAt, hconv]
    omega
  · rw [if_neg hs, decide_eq_false hs, if_neg Bool.false_ne_true, length_readAt]

theorem sizesExact_accesses {size : ℕ} (h : Fits m size) :
    SizesExact (accesses res n m off) ↔ (SnapAt m → 8 ≤ (payloadSize m).toNat) := by
  have hclone : ∀ o bytes, SizesExact (if res.clone n then [Access.clone o bytes] else []) := by
    intro o bytes
    split
    · intro e s hm
      cases List.mem_singleton.1 hm
    · exact sizesExact_nil
  have hsub : (payloadSize m - 8).toNat = (65536 - 8 + (payloadSize m).toNat) % 65536 := BitVec.toNat_sub _ _
  have hconv := toNat_convertedSize h.2
  by_cases hs : SnapAt m
  · rw [accesses_of_snap res n off hs, ← List.singleton_append]
    simp only [sizesExact_append, sizesExact_size, sizesExact_reported, hclone, and_true, true_and, hs,
      forall_const, hconv, hsub]
    omega
  · rw [accesses_of_not_snap res n off hs]
    simp only [sizesExact_append, sizesExact_size, sizesExact_reported, hclone, hs, and_self, false_imp_iff]

end Turn

/-! ### Safety of a body -/

section Body

variable (res : Resources) (n : ℕ) (m : ℕ → Byte) (off size : ℕ)

theorem clones_inside : ∀ c ∈ clones (deaggregate res n m off size).2,
    off ≤ c.1 ∧ c.1 + c.2.length ≤ off + size := by
  have hturn : ∀ (n : ℕ) (m : ℕ → Byte) (off size : ℕ), Fits m size →
      ∀ c ∈ clones (accesses res n m off), off ≤ c.1 ∧ c.1 + c.2.length ≤ off + size := by
    intro n m off size hfits c hc
    have hext := cloned_extent hfits
    have hlen := hfits.1
    rw [clones_accesses] at hc
    by_cases hclone : res.clone n = true
    · rw [if_pos hclone] at hc
      cases List.mem_singleton.1 hc
      show off ≤ off + _ ∧ off + _ + (cloned m (payloadSize m)).length ≤ off + size
      omega
    · rw [if_neg hclone] at hc
      exact absurd hc List.not_mem_nil
  induction size using Nat.strong_induction_on generalizing n m off with
  | _ size ih =>
    rw [deaggregate_eq]
    split_ifs with hlen hgo hfits
    · intro c hc
      simp only [clones_append, List.mem_append] at hc
      obtain hc | hc := hc
      · exact hturn n m off size hgo.2.1 c hc
      · have hpos := hgo.2.2
        have hrest := ih (size - padded m) (by omega) _ _ _ c hc
        omega
    · exact hturn n m off size hfits
    · exact fun c hc => absurd hc List.not_mem_nil
    · exact fun c hc => absurd hc List.not_mem_nil

/-- **The sizes are exact** if every subframe that is converted has room for what is removed. -/
theorem sizesExact_iff : SizesExact (deaggregate res n m off size).2 ↔
    ∀ k o, SubframeAt m size k o → Fits (fun i => m (o + i)) (size - o) →
      SnapAt (fun i => m (o + i)) → 8 ≤ (payloadSize fun i => m (o + i)).toNat := by
  induction size using Nat.strong_induction_on generalizing n m off with
  | _ size ih =>
    rw [forall_subframeAt (P := fun _ m size => Fits m size → SnapAt m → 8 ≤ (payloadSize m).toNat), deaggregate_eq]
    split_ifs with hlen hgo hfits
    · have hpos := hgo.2.2
      rw [sizesExact_append, sizesExact_accesses res n off hgo.2.1, ih (size - padded m) (by omega)]
      constructor
      · rintro ⟨h1, h2⟩
        exact ⟨fun _ _ => h1, fun _ => h2⟩
      · rintro ⟨h1, h2⟩
        exact ⟨h1 hlen hgo.2.1, h2 hgo⟩
    · rw [sizesExact_accesses res n off hfits]
      exact ⟨fun h => ⟨fun _ _ => h, fun h' => absurd h' hgo⟩, fun h => h.1 hlen hfits⟩
    · exact ⟨fun _ => ⟨fun _ h => absurd h hfits, fun h' => absurd h' hgo⟩, fun _ => sizesExact_nil⟩
    · exact ⟨fun _ => ⟨fun h => absurd h hlen, fun h => absurd h.1 hlen⟩, fun _ => sizesExact_nil⟩

theorem length_clones_accesses : (clones (accesses res n m off)).length = if res.clone n then 1 else 0 := by
  rw [clones_accesses]
  split
  · rfl
  · rfl

theorem clones_le_count : n + (clones (deaggregate res n m off size).2).length ≤
    (deaggregate res n m off size).1 := by
  have hone : ∀ (n : ℕ) (m : ℕ → Byte) (off : ℕ), (clones (accesses res n m off)).length ≤ 1 := by
    intro n m off
    rw [length_clones_accesses]
    split
    · exact le_rfl
    · exact Nat.zero_le _
  induction size using Nat.strong_induction_on generalizing n m off with
  | _ size ih =>
    have h1 := hone n m off
    rw [deaggregate_eq]
    split_ifs with hlen hgo hfits
    · have hpos := hgo.2.2
      have hrest := ih (size - padded m) (by omega) (n + 1) (fun i => m (padded m + i)) (off + padded m)
      simp only [clones_append, List.length_append]
      omega
    · exact Nat.add_le_add_left h1 n
    · exact Nat.le_succ n
    · exact le_rfl

/-- **The count is that of the clones** if every subframe met fits and gets its clone. -/
theorem count_eq_iff :
    (deaggregate res n m off size).1 = n + (clones (deaggregate res n m off size).2).length ↔
      ∀ k o, SubframeAt m size k o → Fits (fun i => m (o + i)) (size - o) ∧ res.clone (n + k) = true := by
  induction size using Nat.strong_induction_on generalizing n m off with
  | _ size ih =>
    rw [forall_subframeAt (P := fun k m size => Fits m size ∧ res.clone (n + k) = true), deaggregate_eq]
    have h1 := length_clones_accesses res n m off
    split_ifs with hlen hgo hfits
    · have hpos := hgo.2.2
      have hle := clones_le_count res (n + 1) (fun i => m (padded m + i)) (off + padded m) (size - padded m)
      have hrest := ih (size - padded m) (by omega) (n + 1) (fun i => m (padded m + i)) (off + padded m)
      simp only [Nat.add_assoc n 1, Nat.add_comm 1] at hrest
      simp only [clones_append, List.length_append, h1]
      constructor
      · intro heq
        have hclone : res.clone n = true := by
          by_contra hno
          rw [if_neg hno] at heq
          omega
        rw [if_pos hclone] at heq
        exact ⟨fun _ => ⟨hgo.2.1, hclone⟩, fun _ => hrest.1 (by omega)⟩
      · rintro ⟨hfirst, hbehind⟩
        have heq := hrest.2 (hbehind hgo)
        have hclone : res.clone n = true := (hfirst hlen).2
        rw [if_pos hclone]
        omega
    · rw [h1]
      constructor
      · intro heq
        have hclone : res.clone n = true := by
          by_contra hno
          rw [if_neg hno] at heq
          omega
        exact ⟨fun _ => ⟨hfits, hclone⟩, fun h => absurd h hgo⟩
      · rintro ⟨hfirst, -⟩
        have hclone : res.clone n = true := (hfirst hlen).2
        rw [if_pos hclone]
    · constructor
      · intro heq
        exact absurd heq (Nat.succ_ne_self n)
      · rintro ⟨hfirst, -⟩
        exact absurd (hfirst hlen).1 hfits
    · exact ⟨fun _ => ⟨fun h => absurd h hlen, fun h => absurd h.1 hlen⟩, fun _ => rfl⟩

theorem count_le : (deaggregate res n m off size).1 ≤ n + size / 32 + 1 := by
  induction size using Nat.strong_induction_on generalizing n m off with
  | _ size ih =>
    rw [deaggregate_eq]
    split_ifs with hlen hgo hfits
    · obtain ⟨-, -, h32, -, hmore⟩ := hgo
      have hrest := ih (size - padded m) (by omega) (n + 1) (fun i => m (padded m + i)) (off + padded m)
      show (deaggregate res (n + 1) (fun i => m (padded m + i)) (off + padded m) (size - padded m)).1 ≤ _
      omega
    · show n + 1 ≤ _
      omega
    · show n + 1 ≤ _
      omega
    · show n ≤ _
      omega

end Body

/-- A body of `dataSize` bytes at `m` is taken apart safely: the loop ends, its clones lie inside the
body, the sizes do not wrap, and the count that is returned is that of the packets announced. -/
structure Safe (res : Resources) (m : ℕ → Byte) (dataSize : ℕ) : Prop where
  ends : (deaggregate res 0 m 0 dataSize).1 ≤ dataSize / 32 + 1
  inside : ∀ c ∈ clones (deaggregate res 0 m 0 dataSize).2, c.1 + c.2.length ≤ dataSize
  exact : SizesExact (deaggregate res 0 m 0 dataSize).2
  count : (deaggregate res 0 m 0 dataSize).1 = (clones (deaggregate res 0 m 0 dataSize).2).length

/-- What a body promises of subframe `n`, which is at `m` with `size` bytes left: its length fits, there
is memory for its clone, and an LLC/SNAP header lies within its payload. -/
structure Regular (res : Resources) (n : ℕ) (m : ℕ → Byte) (size : ℕ) : Prop where
  fits : Fits m size
  cloned : res.clone n = true
  snap : SnapAt m → 8 ≤ (payloadSize m).toNat

/-- **The safety of deaggregation.** A body is taken apart safely exactly if all its subframes are
regular, down to the one that nothing follows. -/
theorem safe_iff (res : Resources) (m : ℕ → Byte) (dataSize : ℕ) :
    Safe res m dataSize ↔
      ∀ n off, SubframeAt m dataSize n off → Regular res n (fun i => m (off + i)) (dataSize - off) := by
  have hsizes := sizesExact_iff res 0 m 0 dataSize
  have hcount := count_eq_iff res 0 m 0 dataSize
  simp only [Nat.zero_add] at hcount
  constructor
  · intro h n off hsub
    obtain ⟨hfits, hclone⟩ := hcount.1 h.count n off hsub
    exact ⟨hfits, hclone, hsizes.1 h.exact n off hsub hfits⟩
  · intro h
    refine ⟨?_, ?_, hsizes.2 fun n off hsub _ => (h n off hsub).snap,
      hcount.2 fun n off hsub => ⟨(h n off hsub).fits, (h n off hsub).cloned⟩⟩
    · have hle := count_le res 0 m 0 dataSize
      omega
    · intro c hc
      have hin := (clones_inside res 0 m 0 dataSize c hc).2
      omega

def emptyBeforeSnap : List Byte := List.replicate 12 0x11#8 ++ [0x00#8, 0x00#8] ++ snap8021h ++ [0x08#8, 0x00#8]

def tooLong : List Byte := List.replicate 12 0x11#8 ++ [0x00#8, 0x40#8, 0x00#8]

/-- Neither body is taken apart safely: the payload size of the one is eight less than nothing, and the
subframe of the other is counted, though no packet comes of it. -/
theorem not_safe :
    ¬ Safe ⟨fun _ => true, fun _ => true⟩ (mem emptyBeforeSnap) emptyBeforeSnap.length ∧
      ¬ Safe ⟨fun _ => true, fun _ => true⟩ (mem tooLong) tooLong.length := by
  constructor
  · intro h
    have hroom := (sizesExact_iff _ 0 _ 0 _).1 h.exact 0 0 (.here (by decide)) (by decide) (by decide)
    revert hroom
    decide
  · intro h
    have hcount := h.count.trans (Nat.zero_add _).symm
    have hfits := ((count_eq_iff _ 0 _ 0 _).1 hcount 0 0 (.here (by decide))).1
    revert hfits
    decide

end Mt7610u.Data.Amsdu
