import Mt7610u.Mgmt.BeaconBounds

/-! # The traffic indication map

What a TIM element says, and what `GetTimBit` makes of it. -/

namespace Mt7610u.Mgmt.Beacon

open Mt7610u.Lib Mt7610u.Mlme

/-! ### Bitmaps -/

/-- The numbers marked in a bitmap of which these are the octets from number `off` on; all others are zero. -/
def marked (off : ℕ) (bs : List Byte) : Set ℕ :=
  {k | ∃ i j : ℕ, k = 8 * (off + i) + j ∧ j < 8 ∧ ∃ b, bs[i]? = some b ∧ b.getLsbD j = true}

section

variable {off k : ℕ} {bs : List Byte}

theorem mem_marked {b : Byte} (hoff : off ≤ k / 8) (hb : bs[k / 8 - off]? = some b) :
    k ∈ marked off bs ↔ b.getLsbD (k % 8) = true := by
  constructor
  · rintro ⟨i, j, hk, hj, b', hb', hbit⟩
    have hi : i = k / 8 - off := by omega
    have hj' : j = k % 8 := by omega
    subst hi hj'
    rw [hb, Option.some_inj] at hb'
    rwa [hb']
  · intro hbit
    exact ⟨k / 8 - off, k % 8, by omega, Nat.mod_lt _ (by decide), b, hb, hbit⟩

theorem notMem_marked_of_lt (h : k < 8 * off) : k ∉ marked off bs := by
  rintro ⟨i, j, hk, hj, -⟩
  omega

theorem notMem_marked_of_le (h : 8 * (off + bs.length) ≤ k) : k ∉ marked off bs := by
  rintro ⟨i, j, hk, hj, b, hb, -⟩
  obtain ⟨hi, -⟩ := List.getElem?_eq_some_iff.1 hb
  omega

end

/-! ### The element -/

/-- The bitmap offset: the number of the first octet that the element carries, which is even. -/
def Arrival.bitmapOffset (a : Arrival) (p : ℕ) : ℕ := (a.octet p 2 &&& 0xfe#8).toNat

def Arrival.partialVirtualBitmap (a : Arrival) (p : ℕ) : List Byte := readAt (a.octet p) 3 (a.len p - 3)

/-- The stations that the element at `p` names. -/
def Arrival.waiting (a : Arrival) (p : ℕ) : Set ℕ := marked (a.bitmapOffset p) (a.partialVirtualBitmap p)

section

variable (a : Arrival) (p : ℕ) (aid : BitVec 16)

theorem partialVirtualBitmap_getElem? {i : ℕ} (h : i < a.len p - 3) :
    (a.partialVirtualBitmap p)[i]? = some (a.octet p (3 + i)) := by
  unfold Arrival.partialVirtualBitmap readAt Lib.read
  rw [List.getElem?_map, List.getElem?_range h]
  rfl

theorem toNat_lastByte :
    (a.msg (p + 1) - 4 + (a.msg (p + 4) &&& 0xfe#8)).toNat = (a.len p + 252 + a.bitmapOffset p) % 256 := by
  have hlen : a.len p = (a.msg (p + 1)).toNat := rfl
  have hoff : a.bitmapOffset p = (a.msg (p + 4) &&& 0xfe#8).toNat := rfl
  rw [BitVec.toNat_add, BitVec.toNat_sub, hlen, hoff]
  show ((256 - 4 + (a.msg (p + 1)).toNat) % 256 + _) % 256 = _
  omega

theorem even_bitmapOffset : a.bitmapOffset p % 2 = 0 := by
  have hbit : (a.octet p 2 &&& 0xfe#8).getLsbD 0 = false := by
    rw [BitVec.getLsbD_and]
    exact Bool.and_false _
  rw [BitVec.getLsbD, Nat.testBit_zero, decide_eq_false_iff_not] at hbit
  unfold Arrival.bitmapOffset
  omega

theorem toNat_myByte (hlt : aid.toNat < 2048) (hoff : a.bitmapOffset p ≤ aid.toNat / 8) :
    ((aid >>> 3).setWidth 8 - (a.msg (p + 4) &&& 0xfe#8)).toNat = aid.toNat / 8 - a.bitmapOffset p := by
  have hn1 : a.bitmapOffset p = (a.msg (p + 4) &&& 0xfe#8).toNat := rfl
  have hbound : a.bitmapOffset p < 256 := BitVec.isLt _
  rw [BitVec.toNat_sub, BitVec.toNat_setWidth, BitVec.toNat_ushiftRight, Nat.shiftRight_eq_div_pow, ← hn1]
  omega

theorem myBit_eq {myByte : Byte} (h : myByte.toNat = aid.toNat / 8 - a.bitmapOffset p)
    (hoff : a.bitmapOffset p ≤ aid.toNat / 8) :
    aid.toNat % 16 - (if myByte &&& 1#8 ≠ 0#8 then 8 else 0) = aid.toNat % 8 := by
  have heven := even_bitmapOffset a p
  have hodd : myByte &&& 1#8 ≠ 0#8 ↔ myByte.toNat % 2 = 1 := by
    rw [ne_eq, ← BitVec.toNat_inj, BitVec.toNat_and]
    show ¬ myByte.toNat &&& 1 = 0 ↔ _
    rw [Nat.and_one_is_mod]
    omega
  split_ifs with hb
  · have := hodd.1 hb
    omega
  · have := mt hodd.2 hb
    omega

theorem getTimBit_messageToMe (hlt : aid.toNat < 2048) (hoff : a.bitmapOffset p ≤ aid.toNat / 8)
    (hrange : aid.toNat < ((a.len p + 252 + a.bitmapOffset p) % 256 + 1) * 8) :
    (getTimBit a p aid).messageToMe =
      (a.octet p (3 + (aid.toNat / 8 - a.bitmapOffset p))).getLsbD (aid.toNat % 8) := by
  have hbyte := toNat_myByte a p aid hlt hoff
  have hinside : ¬ (aid.toNat < (a.msg (p + 4) &&& 0xfe#8).toNat * 8 ∨
      ((a.msg (p + 1) - 4 + (a.msg (p + 4) &&& 0xfe#8)).toNat + 1) * 8 ≤ aid.toNat) := by
    rw [toNat_lastByte]
    have hn1 : a.bitmapOffset p = (a.msg (p + 4) &&& 0xfe#8).toNat := rfl
    omega
  have hplace : p + 4 + (aid.toNat / 8 - a.bitmapOffset p + 1) = p + 2 + (3 + (aid.toNat / 8 - a.bitmapOffset p)) := by
    omega
  unfold getTimBit
  dsimp only
  rw [if_neg hinside, myBit_eq a p aid hbyte hoff, hbyte, hplace]
  rfl

theorem getTimBit_messageToMe_of_outside
    (h : aid.toNat < 8 * a.bitmapOffset p ∨ ((a.len p + 252 + a.bitmapOffset p) % 256 + 1) * 8 ≤ aid.toNat) :
    (getTimBit a p aid).messageToMe = false := by
  have houtside : aid.toNat < (a.msg (p + 4) &&& 0xfe#8).toNat * 8 ∨
      ((a.msg (p + 1) - 4 + (a.msg (p + 4) &&& 0xfe#8)).toNat + 1) * 8 ≤ aid.toNat := by
    rw [toNat_lastByte]
    have hn1 : a.bitmapOffset p = (a.msg (p + 4) &&& 0xfe#8).toNat := rfl
    omega
  unfold getTimBit
  dsimp only
  rw [if_pos houtside]

theorem getTimBit_of_wrap (h4 : 4 ≤ a.len p) (hend : 260 ≤ a.bitmapOffset p + a.len p) :
    (getTimBit a p aid).messageToMe = false := by
  refine getTimBit_messageToMe_of_outside a p aid ?_
  have hlen : a.len p < 256 := BitVec.isLt _
  have hoff : a.bitmapOffset p < 256 := BitVec.isLt _
  omega

theorem getTimBit_of_range (h4 : 4 ≤ a.len p) (hend : a.bitmapOffset p + a.len p < 260) :
    (getTimBit a p aid).messageToMe = true ↔ aid.toNat ∈ a.waiting p := by
  have hlast : (a.len p + 252 + a.bitmapOffset p) % 256 = a.bitmapOffset p + a.len p - 4 := by omega
  by_cases hfirst : aid.toNat < 8 * a.bitmapOffset p
  · rw [getTimBit_messageToMe_of_outside a p aid (.inl hfirst)]
    exact iff_of_false Bool.false_ne_true (notMem_marked_of_lt hfirst)
  by_cases hrange : aid.toNat < (a.bitmapOffset p + a.len p - 4 + 1) * 8
  · have hoff : a.bitmapOffset p ≤ aid.toNat / 8 := by omega
    rw [getTimBit_messageToMe a p aid (by omega) hoff (by omega)]
    exact (mem_marked hoff (partialVirtualBitmap_getElem? a p (by omega))).symm
  · rw [getTimBit_messageToMe_of_outside a p aid (.inr (by omega))]
    refine iff_of_false Bool.false_ne_true (notMem_marked_of_le ?_)
    rw [Arrival.partialVirtualBitmap, length_readAt]
    omega

theorem getTimBit_of_empty (h3 : a.len p = 3) (h : a.msg (p + 4) &&& 0xfe#8 ≠ 0#8 ∨ 2048 ≤ aid.toNat) :
    (getTimBit a p aid).messageToMe = false ∧ aid.toNat ∉ a.waiting p := by
  have hoff : a.msg (p + 4) &&& 0xfe#8 ≠ 0#8 ↔ a.bitmapOffset p ≠ 0 := by
    rw [ne_eq, ne_eq, ← BitVec.toNat_inj]
    rfl
  have hbound : a.bitmapOffset p < 256 := BitVec.isLt _
  rw [hoff] at h
  constructor
  · refine getTimBit_messageToMe_of_outside a p aid ?_
    omega
  · rintro ⟨i, j, -, -, b, hb, -⟩
    rw [Arrival.partialVirtualBitmap, h3] at hb
    exact absurd hb nofun

theorem getTimBit_congr {a b : Arrival} (hlen : b.msg (p + 1) = a.msg (p + 1))
    (h : ∀ i, Access.msg i ∈ getTimBitAccesses a p aid → b.msg i = a.msg i) :
    getTimBit b p aid = getTimBit a p aid := by
  unfold getTimBitAccesses at h
  dsimp only at h
  have hfixed : ∀ k < 3, b.msg (p + 2 + k) = a.msg (p + 2 + k) := by
    refine fun k hk => h _ (List.mem_append_left _ (List.mem_map.2 ⟨k, List.mem_range.2 hk, ?_⟩))
    rw [Nat.add_zero]
  have h0 : b.msg (p + 2) = a.msg (p + 2) := hfixed 0 (by decide)
  have h1 : b.msg (p + 3) = a.msg (p + 3) := hfixed 1 (by decide)
  have h2 : b.msg (p + 4) = a.msg (p + 4) := hfixed 2 (by decide)
  unfold getTimBit
  dsimp only
  rw [hlen, h0, h1, h2]
  refine congrArg (Tim.mk _ _ _) (ite_congr rfl (fun _ => rfl) fun hrange => ?_)
  -- the station's octet is the last one on the list
  have hmine := h (p + 4 + (((aid >>> 3).setWidth 8 - (a.msg (p + 4) &&& 0xfe#8)).toNat + 1)) <| by
    refine List.mem_append_right _ ?_
    rw [if_neg hrange]
    refine List.mem_map.2 ⟨0, List.mem_range.2 Nat.one_pos, congrArg Access.msg ?_⟩
    omega
  rw [hmine]

end

/-! ### Whose traffic waits -/

/-- What one may expect of `GetTimBit`: the station's bit of the virtual bitmap, bit 0 of the bitmap control, and
nothing read outside the element. -/
def TimSound : Prop :=
  ∀ (a : Arrival) (p : ℕ) (aid : BitVec 16),
    ((getTimBit a p aid).messageToMe = true ↔ aid.toNat ∈ a.waiting p) ∧
      ((getTimBit a p aid).bcastFlag = true ↔ (a.octet p 2).getLsbD 0 = true) ∧
      AllInside a p (getTimBitAccesses a p aid)

/-- A TIM element of four octets: DTIM count, DTIM period 3, the bitmap control 1, and a bitmap for AID 1. -/
def timElement (dtimCount : Byte) : Arrival where
  msg := mem [5, 4, dtimCount, 3, 1, 2]
  msgLen := 6
  msgChannel := 1
  peerWscIe := false

/-- The group traffic that bit 0 announces waits for the beacon with DTIM count zero. -/
theorem not_timSound : ¬ TimSound := by
  intro h
  have hcast := (h (timElement 1) 0 1#16).2.1
  exact absurd (hcast.2 (by decide)) (by decide)

/-- **Whose traffic waits.** If the element has a bitmap, or else `GetTimBit` does not look for the station's bit,
then everything that is read is inside the element, and the outcome depends on nothing outside. The broadcast flag
says that the DTIM count is zero and bit 0 of the bitmap control is set, and `MessageToMe` that the station's bit in
the virtual bitmap is set; for that the element's octets have to end within the 256 of a virtual bitmap, unless the
bit is not set. -/
theorem getTimBit_waiting (a : Arrival) (p : ℕ) (aid : BitVec 16)
    (hin : 4 ≤ a.len p ∨ a.len p = 3 ∧ (a.msg (p + 4) &&& 0xfe#8 ≠ 0#8 ∨ 2048 ≤ aid.toNat)) :
    (a.bitmapOffset p + a.len p < 260 ∨ aid.toNat ∉ a.waiting p →
      ((getTimBit a p aid).messageToMe = true ↔ aid.toNat ∈ a.waiting p)) ∧
    ((getTimBit a p aid).bcastFlag = true ↔ a.octet p 0 = 0 ∧ (a.octet p 2).getLsbD 0 = true) ∧
    (getTimBit a p aid).dtimCount = a.octet p 0 ∧ (getTimBit a p aid).dtimPeriod = a.octet p 1 ∧
    AllInside a p (getTimBitAccesses a p aid) ∧
    ∀ b : Arrival, (∀ i, p ≤ i → i < p + 2 + a.len p → b.msg i = a.msg i) →
      getTimBit b p aid = getTimBit a p aid := by
  have hinside := (allInside_getTimBit aid).2 hin
  refine ⟨fun hend => ?_, ?_, rfl, rfl, hinside, fun b hb => ?_⟩
  · rcases hin with h4 | ⟨h3, h⟩
    · by_cases hwrap : a.bitmapOffset p + a.len p < 260
      · exact getTimBit_of_range a p aid h4 hwrap
      · rw [getTimBit_of_wrap a p aid h4 (not_lt.1 hwrap)]
        exact iff_of_false Bool.false_ne_true (hend.resolve_left hwrap)
    · obtain ⟨hme, hnot⟩ := getTimBit_of_empty a p aid h3 h
      rw [hme]
      exact iff_of_false Bool.false_ne_true hnot
  · have hbit : a.msg (p + 4) &&& 1#8 ≠ 0#8 ↔ (a.octet p 2).getLsbD 0 = true := by
      show a.msg (p + 4) &&& 1#8 ≠ 0#8 ↔ (a.msg (p + 4)).getLsbD 0 = true
      generalize a.msg (p + 4) = c
      revert c
      decide
    rw [← hbit]
    exact decide_eq_true_iff
  · refine getTimBit_congr p aid (hb _ (by omega) (by omega)) fun i hi => ?_
    obtain ⟨hlo, hhi⟩ := hinside _ hi
    exact hb i hlo hhi

/-- At a beacon with DTIM count zero, traffic for the station with AID 1 and group traffic are seen. -/
theorem getTimBit_timElement :
    (getTimBit (timElement 0) 0 1#16).messageToMe = true ∧ (getTimBit (timElement 0) 0 1#16).bcastFlag = true := by
  obtain ⟨hme, hcast, -⟩ := getTimBit_waiting (timElement 0) 0 1#16 (.inl (by decide))
  refine ⟨(hme (.inl (by decide))).2 ?_, hcast.2 (by decide)⟩
  exact ⟨0, 1, by decide, by decide, 2#8, by decide, by decide⟩

end Mt7610u.Mgmt.Beacon
