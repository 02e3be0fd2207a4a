import Mt7610u.Mgmt.AssocRsp
import Mt7610u.Mlme.SsidSort

/-! # The RSN element that is kept with an association

After an association response `AssocPostProc` goes through the variable elements of the BSS for the one that the WPA
state machine needs. -/

namespace Mt7610u.Mgmt.Assoc

open Mt7610u.Lib Mt7610u.Mlme Mt7610u.Mgmt.Beacon

/-! ### The code -/

def maxLenOfRsnIe : ℕ := 255

/-- What the search goes by: the variable elements of the BSS entry, with the memory behind them, their length, and
`StaCfg.AuthMode`. -/
structure Search where
  varIEs : ℕ → Byte
  varIELen : BitVec 16
  authMode : ℕ

/-- `RSN_IE` and `RSNIE_Len` of the entry for the access point. -/
structure RsnIe where
  rsnIe : ℕ → Byte
  rsnIeLen : Byte

inductive SearchAccess
  | read (i : ℕ)
  | store (n : ℕ)
deriving DecidableEq, Repr

namespace Search

variable (s : Search)

/-- The element at `p` is a WPA element, and the station uses WPA. -/
def isWpa (p : ℕ) : Bool :=
  s.varIEs p = 221 && equalMemory (fun i => s.varIEs (p + 2 + i)) (mem wpaOui) 4 &&
    (s.authMode = authModeWpa || s.authMode = authModeWpaPsk)

/-- The element at `p` is an RSN element, and the station uses WPA2. -/
def isRsn (p : ℕ) : Bool :=
  s.varIEs p = 48 && equalMemory (fun i => s.varIEs (p + 4 + i)) (mem rsnOui) 3 &&
    (s.authMode = authModeWpa2 || s.authMode = authModeWpa2Psk)

/-- The body of the loop, for the element at `p`. -/
def turn (p : ℕ) (r : RsnIe) : RsnIe :=
  if s.isWpa p || s.isRsn p then
    let n := Elements.len s.varIEs p + 2
    ⟨moveMemory r.rsnIe (fun i => s.varIEs (p + i)) n, BitVec.ofNat 8 n⟩
  else r

def turnAccesses (p : ℕ) : List SearchAccess :=
  let readAll := fun p n => (List.range n).map fun i => SearchAccess.read (p + i)
  readAll p 2 ++ (if s.varIEs p = 221 then readAll (p + 2) 4 else []) ++
    (if s.varIEs p = 48 then readAll (p + 4) 3 else []) ++
      if s.isWpa p || s.isRsn p then
        readAll p (Elements.len s.varIEs p + 2) ++ [.store (Elements.len s.varIEs p + 2)]
      else []

/-- The loop from `pVIE` on with `len` octets left, for at most `turns` turns: what is stored, what it touches, and
whether it has come to its end. -/
def loop : (turns p : ℕ) → (len : BitVec 16) → RsnIe → RsnIe × List SearchAccess × Bool
  | 0, _, len, r => (r, [], len = 0)
  | turns + 1, p, len, r =>
    if len = 0 then (r, [], true)
    else
      let next := loop turns (Elements.next s.varIEs p) (len - BitVec.ofNat 16 (Elements.len s.varIEs p + 2)) (s.turn p r)
      (next.1, s.turnAccesses p ++ next.2.1, next.2.2)

/-- The part of `AssocPostProc` that looks for the RSN element, for at most `turns` turns of its loop. -/
def storeRsnIe (turns : ℕ) : RsnIe × List SearchAccess × Bool :=
  if authModeWpa ≤ s.authMode ∧ s.varIELen ≠ 0 then s.loop turns 0 s.varIELen ⟨zeroMemory, 0⟩
  else (⟨zeroMemory, 0⟩, [], true)

end Search

/-! ### What it should do -/

/-- The read is inside the buffer of `MAX_VIE_LEN` octets, what is stored fits `RSN_IE`. -/
def SearchAccess.Inside : SearchAccess → Prop
  | .read i => i < maxVieLen
  | .store n => n ≤ maxLenOfRsnIe

/-- **The search is safe**: it comes to an end, and on the way there it stays inside. -/
def SearchSafe (s : Search) : Prop :=
  (∃ turns, (s.storeRsnIe turns).2.2 = true) ∧ ∀ turns, ∀ x ∈ (s.storeRsnIe turns).2.1, x.Inside

def Search.elements (s : Search) : List ℕ := Elements.complete s.varIEs s.varIELen.toNat 0

/-- When the elements are such that the search is safe. -/
structure SearchFits (s : Search) : Prop where
  /-- the last complete element ends where the length says -/
  ends : Elements.rest s.varIEs s.varIELen.toNat 0 = s.varIELen.toNat
  /-- the number and the length of each element, and what is compared, is in the buffer -/
  header : ∀ p ∈ s.elements, p + 2 ≤ maxVieLen
  wpa : ∀ p ∈ s.elements, s.varIEs p = 221 → p + 6 ≤ maxVieLen
  rsn : ∀ p ∈ s.elements, s.varIEs p = 48 → p + 7 ≤ maxVieLen
  /-- an element that is stored is in the buffer and has at most 253 octets of body -/
  stored : ∀ p ∈ s.elements, (s.isWpa p || s.isRsn p) = true →
    Elements.next s.varIEs p ≤ maxVieLen ∧ Elements.len s.varIEs p + 2 ≤ maxLenOfRsnIe

/-! ### The loop -/

section

variable (s : Search)

/-- The loop from `pVIE` on is safe. -/
def Search.LoopSafe (p : ℕ) (len : BitVec 16) (r : RsnIe) : Prop :=
  (∃ turns, (s.loop turns p len r).2.2 = true) ∧ ∀ turns, ∀ x ∈ (s.loop turns p len r).2.1, x.Inside

/-- What is left behind the element at `p`. -/
def Search.left (p : ℕ) (len : BitVec 16) : BitVec 16 := len - BitVec.ofNat 16 (Elements.len s.varIEs p + 2)

theorem loop_zero (turns p : ℕ) (r : RsnIe) : s.loop turns p 0 r = (r, [], true) := by
  cases turns with
  | zero => rfl
  | succ turns => exact if_pos rfl

theorem loop_succ (turns p : ℕ) {len : BitVec 16} (h : len ≠ 0) (r : RsnIe) :
    s.loop (turns + 1) p len r =
      ((s.loop turns (Elements.next s.varIEs p) (s.left p len) (s.turn p r)).1,
        s.turnAccesses p ++ (s.loop turns (Elements.next s.varIEs p) (s.left p len) (s.turn p r)).2.1,
        (s.loop turns (Elements.next s.varIEs p) (s.left p len) (s.turn p r)).2.2) := by
  rw [Search.loop, if_neg h]
  rfl

theorem loopSafe_zero (p : ℕ) (r : RsnIe) : s.LoopSafe p 0 r := by
  refine ⟨⟨0, ?_⟩, fun turns x hx => ?_⟩
  · rw [loop_zero]
  · rw [loop_zero] at hx
    exact absurd hx List.not_mem_nil

theorem loopSafe_iff (p : ℕ) {len : BitVec 16} (h : len ≠ 0) (r : RsnIe) :
    s.LoopSafe p len r ↔ (∀ x ∈ s.turnAccesses p, x.Inside) ∧
      s.LoopSafe (Elements.next s.varIEs p) (s.left p len) (s.turn p r) := by
  unfold Search.LoopSafe
  constructor
  · rintro ⟨⟨turns, hend⟩, hinside⟩
    refine ⟨fun x hx => hinside 1 x ?_, ?_, fun t x hx => hinside (t + 1) x ?_⟩
    · rw [loop_succ s 0 p h]
      exact List.mem_append_left _ hx
    · cases turns with
      | zero => exact absurd (of_decide_eq_true hend) h
      | succ turns =>
        rw [loop_succ s turns p h] at hend
        exact ⟨turns, hend⟩
    · rw [loop_succ s t p h]
      exact List.mem_append_right _ hx
  · rintro ⟨hturn, ⟨turns, hend⟩, hinside⟩
    refine ⟨⟨turns + 1, ?_⟩, fun t x hx => ?_⟩
    · rw [loop_succ s turns p h]
      exact hend
    · cases t with
      | zero => exact absurd hx List.not_mem_nil
      | succ t =>
        rw [loop_succ s t p h] at hx
        exact (List.mem_append.1 hx).elim (hturn x) (hinside t x)

theorem toNat_left (p : ℕ) (len : BitVec 16) :
    (s.left p len).toNat = (len.toNat + 65536 - (Elements.len s.varIEs p + 2)) % 65536 := by
  have hlen : Elements.len s.varIEs p < 256 := BitVec.isLt _
  unfold Search.left
  rw [BitVec.toNat_sub, BitVec.toNat_ofNat]
  have := len.isLt
  omega

/-- **What a loop that ends and stays inside goes over** is not much longer than the buffer, so that the number of
octets left does not wrap. -/
theorem add_le_of_ends (turns : ℕ) : ∀ {p : ℕ} {len : BitVec 16} {r : RsnIe}, len ≠ 0 →
    (s.loop turns p len r).2.2 = true → (∀ x ∈ (s.loop turns p len r).2.1, x.Inside) →
    p + len.toNat ≤ maxVieLen + 256 := by
  induction turns with
  | zero => exact fun h hend _ => absurd (of_decide_eq_true hend) h
  | succ turns ih =>
    intro p len r h hend hinside
    rw [loop_succ s turns p h] at hend hinside
    have hread : SearchAccess.read p ∈ s.turnAccesses p := by
      unfold Search.turnAccesses
      refine List.mem_append_left _ (List.mem_append_left _ (List.mem_append_left _ ?_))
      exact List.mem_map.2 ⟨0, List.mem_range.2 (by decide), rfl⟩
    have hp : p < maxVieLen := hinside _ (List.mem_append_left _ hread)
    have hlen : Elements.len s.varIEs p < 256 := BitVec.isLt _
    have hnat := toNat_left s p len
    have hbound := len.isLt
    have hpos : len.toNat ≠ 0 := fun h0 => h (BitVec.eq_of_toNat_eq h0)
    have hnext : Elements.next s.varIEs p = p + 2 + Elements.len s.varIEs p := rfl
    have hmax : maxVieLen = 1024 := rfl
    by_cases hleft : s.left p len = 0
    · have hzero : (s.left p len).toNat = 0 := by rw [hleft]; rfl
      omega
    · have hsum := ih hleft hend fun x hx => hinside x (List.mem_append_right _ hx)
      omega

/-- **The loop over the elements**: it is safe just if the complete elements end where it ends, and each of them is
looked at safely. -/
theorem loopSafe_elements (n p : ℕ) : ∀ (len : BitVec 16) (r : RsnIe), p + len.toNat = n →
    (s.LoopSafe p len r ↔ Elements.rest s.varIEs n p = n ∧
      ∀ q ∈ Elements.complete s.varIEs n p, ∀ x ∈ s.turnAccesses q, x.Inside) := by
  induction p using Elements.complete_induction (m := s.varIEs) (n := n) with
  | hlast p h =>
    intro len r hsum
    rw [Elements.rest_of_lt h, Elements.complete_of_lt h, and_iff_left (List.forall_mem_nil _)]
    by_cases hlen : len = 0
    · subst hlen
      exact iff_of_true (loopSafe_zero s p r) hsum
    · have hpos : len.toNat ≠ 0 := fun h0 => hlen (BitVec.eq_of_toNat_eq h0)
      refine iff_of_false (fun hsafe => ?_) (by omega)
      -- the number of octets left wraps, and the loop runs out of the buffer
      obtain ⟨-, ⟨turns, hend⟩, hinside⟩ := (loopSafe_iff s p hlen r).1 hsafe
      have hnat := toNat_left s p len
      have hbody : Elements.len s.varIEs p < 256 := BitVec.isLt _
      have hbound := len.isLt
      have hnext : Elements.next s.varIEs p = p + 2 + Elements.len s.varIEs p := rfl
      have hmax : maxVieLen = 1024 := rfl
      have hleft : s.left p len ≠ 0 := by
        intro h0
        rw [h0] at hnat
        have hzero : (0 : BitVec 16).toNat = 0 := rfl
        omega
      have := add_le_of_ends s turns hleft hend (hinside turns)
      omega
  | hnext p h ih =>
    intro len r hsum
    have hlt := Elements.lt_next s.varIEs p
    have hlen : len ≠ 0 := by
      rintro rfl
      have hzero : (0 : BitVec 16).toNat = 0 := rfl
      omega
    have hnat := toNat_left s p len
    have hbound := len.isLt
    have hnext : Elements.next s.varIEs p = p + 2 + Elements.len s.varIEs p := rfl
    rw [loopSafe_iff s p hlen, ih _ _ (by omega), Elements.rest_of_le h, Elements.complete_of_le h, List.forall_mem_cons]
    exact and_left_comm

theorem forall_reads {p n : ℕ} (hn : 0 < n) :
    (∀ x ∈ (List.range n).map fun i => SearchAccess.read (p + i), x.Inside) ↔ p + n ≤ maxVieLen := by
  rw [List.forall_mem_map]
  constructor
  · intro h
    have hlast : p + (n - 1) < maxVieLen := h (n - 1) (List.mem_range.2 (by omega))
    omega
  · intro h i hi
    have := List.mem_range.1 hi
    show p + i < maxVieLen
    omega

theorem turn_inside_iff (p : ℕ) :
    (∀ x ∈ s.turnAccesses p, x.Inside) ↔ p + 2 ≤ maxVieLen ∧ (s.varIEs p = 221 → p + 6 ≤ maxVieLen) ∧
      (s.varIEs p = 48 → p + 7 ≤ maxVieLen) ∧ ((s.isWpa p || s.isRsn p) = true →
        Elements.next s.varIEs p ≤ maxVieLen ∧ Elements.len s.varIEs p + 2 ≤ maxLenOfRsnIe) := by
  have hite : ∀ {c : Prop} [Decidable c] {l : List SearchAccess},
      (∀ x ∈ if c then l else [], x.Inside) ↔ (c → ∀ x ∈ l, x.Inside) := by
    intro c _ l
    split_ifs with h
    · exact ⟨fun hl _ => hl, fun hl => hl h⟩
    · exact iff_of_true (List.forall_mem_nil _) fun hc => absurd hc h
  unfold Search.turnAccesses
  dsimp only
  rw [List.forall_mem_append, List.forall_mem_append, List.forall_mem_append, hite, hite, hite,
    forall_reads (by decide), forall_reads (by decide), forall_reads (by decide), and_assoc, and_assoc]
  refine and_congr_right fun _ => and_congr Iff.rfl (and_congr Iff.rfl (forall_congr' fun _ => ?_))
  rw [List.forall_mem_append, forall_reads (by omega), List.forall_mem_singleton]
  refine and_congr ?_ Iff.rfl
  unfold Elements.next
  omega

/-- **Which elements are searched safely**: all, if the station uses no WPA; else those that fit. -/
theorem searchSafe_iff : SearchSafe s ↔ s.authMode < authModeWpa ∨ SearchFits s := by
  unfold SearchSafe Search.storeRsnIe
  by_cases h : authModeWpa ≤ s.authMode ∧ s.varIELen ≠ 0
  · rw [or_iff_right (by omega)]
    have hloop := loopSafe_elements s s.varIELen.toNat 0 s.varIELen ⟨zeroMemory, 0⟩ (Nat.zero_add _)
    unfold Search.LoopSafe at hloop
    simp only [if_pos h]
    rw [hloop]
    constructor
    · rintro ⟨hends, hturns⟩
      have hall := fun p hp => (turn_inside_iff s p).1 (hturns p hp)
      exact ⟨hends, fun p hp => (hall p hp).1, fun p hp => (hall p hp).2.1, fun p hp => (hall p hp).2.2.1,
        fun p hp => (hall p hp).2.2.2⟩
    · intro hfits
      refine ⟨hfits.ends, fun p hp => (turn_inside_iff s p).2 ?_⟩
      exact ⟨hfits.header p hp, hfits.wpa p hp, hfits.rsn p hp, hfits.stored p hp⟩
  · simp only [if_neg h]
    refine iff_of_true ⟨⟨0, trivial⟩, fun _ x hx => absurd hx List.not_mem_nil⟩ ?_
    by_cases hauth : authModeWpa ≤ s.authMode
    · right
      have hlen : s.varIELen = 0 := by
        by_contra hne
        exact h ⟨hauth, hne⟩
      have hzero : s.varIELen.toNat = 0 := by
        rw [hlen]
        rfl
      have hnext : 0 < Elements.next s.varIEs 0 := by
        have := Elements.lt_next s.varIEs 0
        omega
      have hnone : s.elements = [] := by
        unfold Search.elements
        rw [hzero, Elements.complete_of_lt hnext]
      refine ⟨?_, ?_, ?_, ?_, ?_⟩
      · rw [hzero, Elements.rest_of_lt hnext]
      all_goals
        rw [hnone]
        exact List.forall_mem_nil _
    · exact .inl (by omega)

end

/-! ### The response and the search -/

/-- A response and the search after it are handled safely. -/
structure AssocSafe (vht : Bool) (f : Frame) (s : Search) : Prop where
  frame : FrameSafe vht f
  search : SearchSafe s

/-- **Association responses**: exactly which ones are parsed safely, and after which of them the search is safe. -/
theorem assocSafe_iff (vht : Bool) (f : Frame) (s : Search) :
    AssocSafe vht f s ↔
      (32 ≤ f.msgLen ∧ f.refused = false ∧ (f.hasRates = true → Fits f)) ∧
        (s.authMode < authModeWpa ∨ SearchFits s) := by
  rw [← frameSafe_iff vht f, ← searchSafe_iff s]
  exact ⟨fun h => ⟨h.frame, h.search⟩, fun h => ⟨h.1, h.2⟩⟩

def shortResponse : Frame where
  msg := mem (List.replicate 24 0 ++ [0x21, 0, 0, 0, 1, 0xc0, 1, 1, 0x82])
  msgLen := 33

def noSearch : Search := ⟨zeroMemory, 0, 0⟩

/-- The test that ends the loop reads behind the message. -/
theorem not_assocSafe_shortResponse : ¬ AssocSafe true shortResponse noSearch := by
  intro h
  have hrest := (((inside_iff true shortResponse).1 h.frame.inside).2 (by decide)).2 (by decide)
  have hlt : shortResponse.msgLen < Elements.next shortResponse.msg shortResponse.firstElement := by decide
  rw [Elements.rest_of_lt hlt] at hrest
  exact absurd hrest.1 (by decide)

end Mt7610u.Mgmt.Assoc
