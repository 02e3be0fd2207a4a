import Mathlib.Tactic.IntervalCases
import Mt7610u.Mcu.LoadFirmware

/-! # Which images are uploaded

The loops of `andes_usb_loadfw` by the pieces that they cut a part into: full ones, and a shorter one at the
end. -/

namespace Mt7610u.Mcu.LoadFirmware

open Lib

variable {fw : Firmware} {base : ℕ} {offset len curLen : BitVec 32} {buf : Buffer} {ok : ℕ → Bool}

theorem sizes : txInfoSize = 4 ∧ usbEndPadding = 4 ∧ sentLenMax = 14584 := ⟨rfl, rfl, rfl⟩

/-! ### Pieces -/

/-- The lengths of the pieces of `n` octets. -/
def pieces (n : ℕ) : List ℕ :=
  List.replicate (n / sentLenMax) sentLenMax ++ if n % sentLenMax = 0 then [] else [n % sentLenMax]

theorem pieces_zero : pieces 0 = [] := rfl

theorem pieces_cons {n : ℕ} (h : n ≠ 0) : pieces n = nextLen n :: pieces (n - nextLen n) := by
  unfold nextLen
  split_ifs with hle
  · have hdiv : n / sentLenMax = (n - sentLenMax) / sentLenMax + 1 := Nat.div_eq_sub_div (by decide) hle
    have hmod : n % sentLenMax = (n - sentLenMax) % sentLenMax := Nat.mod_eq_sub_mod hle
    rw [pieces, hdiv, hmod, List.replicate_succ, List.cons_append]
    rfl
  · have hlt : n < sentLenMax := Nat.lt_of_not_le hle
    rw [pieces, Nat.div_eq_of_lt hlt, Nat.mod_eq_of_lt hlt, if_neg h, Nat.sub_self, pieces_zero]
    rfl

theorem nextLen_pos {n : ℕ} (h : n ≠ 0) : 0 < nextLen n := by
  unfold nextLen
  split_ifs
  · decide
  · exact Nat.pos_of_ne_zero h

theorem sum_pieces (n : ℕ) : (pieces n).sum = n := by
  induction n using Nat.strong_induction_on with
  | _ n ih =>
    by_cases h : n = 0
    · rw [h, pieces_zero]
      rfl
    · have hpos := nextLen_pos h
      have hle := nextLen_le n
      rw [pieces_cons h, List.sum_cons, ih _ (by omega)]
      omega

theorem le_of_mem_pieces {n k : ℕ} (h : k ∈ pieces n) : k ≤ sentLenMax := by
  unfold pieces at h
  rcases List.mem_append.1 h with h | h
  · exact (List.eq_of_mem_replicate h).le
  · split_ifs at h with hmod
    · cases h
    · rw [List.mem_singleton.1 h]
      exact (Nat.mod_lt _ (by decide)).le

/-! ### The loops -/

def transfers (fw : Firmware) (base : ℕ) (offset : BitVec 32) : List ℕ → BitVec 32 → Buffer → List Transfer
  | [], _, _ => []
  | n :: ns, curLen, buf =>
    transfer fw base offset curLen n buf ::
      transfers fw base offset ns (curLen + BitVec.ofNat 32 n) (transfer fw base offset curLen n buf).buf

def bufAfter (fw : Firmware) (base : ℕ) (offset : BitVec 32) : List ℕ → BitVec 32 → Buffer → Buffer
  | [], _, buf => buf
  | n :: ns, curLen, buf =>
    bufAfter fw base offset ns (curLen + BitVec.ofNat 32 n) (transfer fw base offset curLen n buf).buf

theorem load_zero (i : ℕ) (h : (len - curLen).toNat = 0) :
    load fw base offset len ok i curLen buf = some ([], buf) := by
  rw [load, h]
  rfl

theorem load_pos (i : ℕ) (h : (len - curLen).toNat ≠ 0) :
    load fw base offset len ok i curLen buf =
      if ok i then
        (load fw base offset len ok (i + 1) (curLen + BitVec.ofNat 32 (nextLen (len - curLen).toNat))
          (transfer fw base offset curLen (nextLen (len - curLen).toNat) buf).buf).map fun r =>
            (transfer fw base offset curLen (nextLen (len - curLen).toNat) buf :: r.1, r.2)
      else none := by
  rw [load]
  exact if_pos (nextLen_pos h)

/-- **The loop ends** when its transfers succeed, and they are those of the pieces. -/
theorem load_eq (hok : ∀ i, ok i = true) (i : ℕ) (curLen : BitVec 32) (buf : Buffer) :
    load fw base offset len ok i curLen buf =
      some (transfers fw base offset (pieces (len - curLen).toNat) curLen buf,
        bufAfter fw base offset (pieces (len - curLen).toNat) curLen buf) := by
  induction hn : (len - curLen).toNat using Nat.strong_induction_on generalizing i curLen buf with
  | _ n ih =>
    by_cases h : n = 0
    · rw [load_zero i (hn.trans h), h, pieces_zero]
      rfl
    · have hle := nextLen_le n
      have hpos := nextLen_pos h
      have hleft : (len - (curLen + BitVec.ofNat 32 (nextLen n))).toNat = n - nextLen n := by
        rw [toNat_sub_add (hn.symm ▸ hle), hn]
      rw [load_pos i (hn.symm ▸ h), hn, if_pos (hok i), ih _ (by omega) (i + 1) _ _ hleft, pieces_cons h]
      rfl

theorem transfers_append (ns ms : List ℕ) (curLen : BitVec 32) (buf : Buffer) :
    transfers fw base offset (ns ++ ms) curLen buf =
      transfers fw base offset ns curLen buf ++
        transfers fw base offset ms (curLen + BitVec.ofNat 32 ns.sum) (bufAfter fw base offset ns curLen buf) := by
  induction ns generalizing curLen buf with
  | nil => simp [transfers, bufAfter]
  | cons n ns ih =>
    have hcur : curLen + BitVec.ofNat 32 (n + ns.sum) =
        curLen + BitVec.ofNat 32 n + BitVec.ofNat 32 ns.sum := by
      rw [BitVec.ofNat_add, BitVec.add_assoc]
    simp only [List.cons_append, transfers, bufAfter, List.sum_cons, ih, hcur]

theorem bufAfter_append (ns ms : List ℕ) (curLen : BitVec 32) (buf : Buffer) :
    bufAfter fw base offset (ns ++ ms) curLen buf =
      bufAfter fw base offset ms (curLen + BitVec.ofNat 32 ns.sum) (bufAfter fw base offset ns curLen buf) := by
  induction ns generalizing curLen buf with
  | nil => simp [bufAfter]
  | cons n ns ih =>
    have hcur : curLen + BitVec.ofNat 32 (n + ns.sum) =
        curLen + BitVec.ofNat 32 n + BitVec.ofNat 32 ns.sum := by
      rw [BitVec.ofNat_add, BitVec.add_assoc]
    simp only [List.cons_append, bufAfter, List.sum_cons, ih, hcur]

theorem toNat_add_piece {n : ℕ} (h : curLen.toNat + n < 2 ^ 32) :
    (curLen + BitVec.ofNat 32 n).toNat = curLen.toNat + n := by
  have hn : n % 2 ^ 32 = n := Nat.mod_eq_of_lt (by omega)
  rw [BitVec.toNat_add, BitVec.toNat_ofNat, hn, Nat.mod_eq_of_lt h]

theorem mem_transfers {ns : List ℕ} {t : Transfer} (h : curLen.toNat + ns.sum < 2 ^ 32)
    (ht : t ∈ transfers fw base offset ns curLen buf) :
    ∃ n ∈ ns, ∃ cur buf', t = transfer fw base offset cur n buf' ∧ cur.toNat + n ≤ curLen.toNat + ns.sum := by
  induction ns generalizing curLen buf with
  | nil => cases ht
  | cons n ns ih =>
    rw [List.sum_cons] at h ⊢
    rcases List.mem_cons.1 ht with rfl | ht
    · exact ⟨n, List.mem_cons_self, curLen, buf, rfl, by omega⟩
    · have hcur := @toNat_add_piece curLen n (by omega)
      obtain ⟨m, hm, cur, buf', heq, hle⟩ := ih (by omega) ht
      exact ⟨m, List.mem_cons_of_mem _ hm, cur, buf', heq, by omega⟩

/-! ### One transfer -/

theorem roundUp_eq (n : ℕ) : roundUp n = (n + 3) / 4 * 4 := by
  fun_induction roundUp n with
  | case1 n h => omega
  | case2 n h ih => omega

theorem halves_append (x : BitVec 32) :
    ((x &&& 0xFFFF0000) >>> 16).setWidth 16 ++ (x &&& 0xFFFF).setWidth 16 = x := by
  apply BitVec.eq_of_getLsbD_eq
  intro i hi
  rw [BitVec.getLsbD_append]
  by_cases hlow : i < 16
  · have hbit : (0xFFFF : BitVec 32).getLsbD i = true := by
      interval_cases i <;> rfl
    rw [if_pos hlow, BitVec.getLsbD_setWidth, BitVec.getLsbD_and, hbit, Bool.and_true, decide_eq_true hlow,
      Bool.true_and]
  · have hbit : (0xFFFF0000 : BitVec 32).getLsbD i = true := by
      interval_cases i <;> rfl
    rw [if_neg hlow, BitVec.getLsbD_setWidth, BitVec.getLsbD_ushiftRight, Nat.add_sub_cancel' (by omega),
      BitVec.getLsbD_and, hbit, Bool.and_true, decide_eq_true (by omega), Bool.true_and]

theorem transfer_address (curLen : BitVec 32) (n : ℕ) (buf : Buffer) :
    (transfer fw base offset curLen n buf).address = curLen + offset := halves_append _

theorem transfer_dma {n : ℕ} (h : n ≤ sentLenMax) :
    ((transfer fw base offset curLen n buf).dmaHigh ++ (transfer fw base offset curLen n buf).dmaLow).toNat =
      (n + 3) / 4 * 4 * 2 ^ 16 := by
  have hword : (transfer fw base offset curLen n buf).dmaHigh ++ (transfer fw base offset curLen n buf).dmaLow =
      BitVec.ofNat 32 (roundUp n) <<< 16 := halves_append _
  have h' : n ≤ 14584 := h
  rw [hword, BitVec.toNat_shiftLeft, BitVec.toNat_ofNat, roundUp_eq, Nat.shiftLeft_eq]
  omega

theorem setTxInfo_ge {i : ℕ} (n : ℕ) (h : txInfoSize ≤ i) : setTxInfo buf n i = buf i := by
  have h4 : 4 ≤ i := h
  match i, h4 with
  | i + 4, _ => rfl

theorem view_filled (image : ℕ → Byte) (src n : ℕ) :
    view (filled buf image src n) = lay image src n (view buf) := by
  obtain ⟨htx, hpad, -⟩ := sizes
  funext k
  simp only [view, filled, zeroMemory, moveMemory, lay]
  by_cases hdata : k < n
  · rw [if_neg (by omega), if_pos (by omega), if_pos hdata, Nat.add_sub_cancel_left]
  · by_cases hzero : k < n + usbEndPadding
    · rw [if_pos (by omega), if_neg hdata, if_pos hzero]
    · rw [if_neg (by omega), if_neg (by omega), if_neg hdata, if_neg hzero, setTxInfo_ge n (by omega)]

theorem view_transfer (curLen : BitVec 32) (n : ℕ) (buf : Buffer) :
    view (transfer fw base offset curLen n buf).buf = lay fw.image (base + curLen.toNat) n (view buf) :=
  view_filled _ _ _

theorem padding_transfer {n : ℕ} :
    (∀ i, txInfoSize + (transfer fw base offset curLen n buf).pktLen ≤ i →
        i < (transfer fw base offset curLen n buf).length → (transfer fw base offset curLen n buf).buf i = 0) ↔
      ∀ k, n + usbEndPadding ≤ k → k < (n + 3) / 4 * 4 + usbEndPadding → view buf k = 0 := by
  obtain ⟨htx, hpad, -⟩ := sizes
  have hview := @view_transfer fw base offset curLen n buf
  have hlen : (transfer fw base offset curLen n buf).length = (n + 3) / 4 * 4 + 8 := by
    change roundUp n + 4 + 4 = _
    rw [roundUp_eq]
  rw [hlen]
  constructor
  · intro h k hk hk'
    have hzero := h (txInfoSize + k) (by change 4 + n ≤ _; omega) (by omega)
    change view _ k = 0 at hzero
    rwa [hview, lay, if_neg (by omega), if_neg (by omega)] at hzero
  · intro h i hi hi'
    obtain ⟨k, rfl⟩ := Nat.exists_eq_add_of_le (show txInfoSize ≤ i by omega)
    have hk : n ≤ k := by
      change 4 + n ≤ 4 + k at hi
      omega
    change view _ k = 0
    rw [hview, lay, if_neg (by omega)]
    split_ifs with hzero
    · rfl
    · exact h k (by omega) (by omega)

/-! ### What arrives -/

theorem part_append (image : ℕ → Byte) {a b c : ℕ} (hab : a ≤ b) (hbc : b ≤ c) :
    part image base offset a b ++ part image base offset b c = part image base offset a c := by
  have hrange : List.range' a (b - a) ++ List.range' b (c - b) = List.range' a (c - a) := by
    have hmid : b = a + (b - a) := by omega
    have hlen : c - a = b - a + (c - b) := by omega
    rw [hlen, ← List.range'_append_1, ← hmid]
  rw [part, part, ← List.map_append, hrange, part]

theorem sent_transfer {n : ℕ} :
    (transfer fw base offset curLen n buf).sent =
      part fw.image base offset curLen.toNat (curLen.toNat + n) := by
  rw [Transfer.sent, part, Nat.add_sub_cancel_left, List.range'_eq_map_range, List.map_map]
  refine List.map_congr_left fun i hi => ?_
  have hi : i < n := List.mem_range.1 hi
  have haddress : (transfer fw base offset curLen n buf).address + BitVec.ofNat 32 i =
      offset + BitVec.ofNat 32 (curLen.toNat + i) := by
    rw [transfer_address, BitVec.ofNat_add, BitVec.ofNat_toNat, BitVec.setWidth_eq, BitVec.add_comm curLen,
      BitVec.add_assoc]
  have hbyte : view (transfer fw base offset curLen n buf).buf i = fw.image (base + (curLen.toNat + i)) := by
    rw [view_transfer, lay, if_pos hi, Nat.add_assoc]
  exact Prod.ext haddress hbyte

theorem sent_transfers (ns : List ℕ) (curLen : BitVec 32) (buf : Buffer) (h : curLen.toNat + ns.sum < 2 ^ 32) :
    (transfers fw base offset ns curLen buf).flatMap Transfer.sent =
      part fw.image base offset curLen.toNat (curLen.toNat + ns.sum) := by
  induction ns generalizing curLen buf with
  | nil => simp [transfers, part]
  | cons n ns ih =>
    rw [List.sum_cons] at h ⊢
    have hcur := @toNat_add_piece curLen n (by omega)
    rw [transfers, List.flatMap_cons, sent_transfer, ih _ _ (by omega), hcur,
      part_append fw.image (by omega) (by omega), Nat.add_assoc]

/-! ### What is left in the buffer -/

theorem lay_eq (image : ℕ → Byte) {src n k : ℕ} (v v' : ℕ → Byte) (h : k < n + usbEndPadding) :
    lay image src n v k = lay image src n v' k := by
  unfold lay
  split_ifs <;> rfl

theorem view_replicate {m k : ℕ} (hk : k < m + usbEndPadding) (q : ℕ) (curLen : BitVec 32) (buf : Buffer)
    (h : curLen.toNat + q * m < 2 ^ 32) (v : ℕ → Byte) :
    view (bufAfter fw base offset (List.replicate q m) curLen buf) k =
      if q = 0 then view buf k else lay fw.image (base + curLen.toNat + (q - 1) * m) m v k := by
  induction q generalizing curLen buf with
  | zero => rfl
  | succ q ih =>
    rw [Nat.add_mul, one_mul] at h
    have hcur := @toNat_add_piece curLen m (by omega)
    rw [List.replicate_succ, bufAfter, ih _ _ (by omega), hcur, if_neg (Nat.succ_ne_zero q)]
    by_cases hq : q = 0
    · subst hq
      rw [if_pos rfl, view_transfer, Nat.sub_self, zero_mul, Nat.add_zero]
      exact lay_eq fw.image _ _ hk
    · obtain ⟨q, rfl⟩ := Nat.exists_eq_succ_of_ne_zero hq
      rw [if_neg hq]
      simp only [Nat.succ_eq_add_one, Nat.add_sub_cancel, Nat.add_mul, one_mul]
      congr 1
      omega

theorem pieces_eq (n : ℕ) : pieces n =
    List.replicate (n / sentLenMax) sentLenMax ++ if n % sentLenMax = 0 then [] else [n % sentLenMax] := rfl

theorem div_eq_zero_iff (n : ℕ) : n / sentLenMax = 0 ↔ n < sentLenMax := Nat.div_eq_zero_iff_lt (by decide)

theorem view_full {n k : ℕ} (hk : k < sentLenMax + usbEndPadding) (h : curLen.toNat + n < 2 ^ 32) :
    view (bufAfter fw base offset (List.replicate (n / sentLenMax) sentLenMax) curLen buf) k =
      behind fw.image (base + curLen.toNat) n (view buf) k := by
  have hle := Nat.div_mul_le_self n sentLenMax
  rw [view_replicate hk _ _ _ (by omega) (view buf), behind, apply_ite (fun f : ℕ → Byte => f k)]
  simp only [div_eq_zero_iff]

theorem view_pieces {n k : ℕ} (hk : k < sentLenMax + usbEndPadding) (h : curLen.toNat + n < 2 ^ 32) :
    view (bufAfter fw base offset (pieces n) curLen buf) k =
      after fw.image (base + curLen.toNat) n (view buf) k := by
  have hle := Nat.div_mul_le_self n sentLenMax
  rw [pieces_eq, bufAfter_append, after]
  split_ifs with hmod
  · exact view_full hk h
  · have hsum : (List.replicate (n / sentLenMax) sentLenMax).sum = n / sentLenMax * sentLenMax := by
      rw [List.sum_replicate_nat]
    have hcur := @toNat_add_piece curLen (n / sentLenMax * sentLenMax) (by omega)
    rw [hsum, bufAfter, bufAfter, view_transfer, hcur, Nat.add_assoc]
    unfold lay
    split_ifs
    · rfl
    · rfl
    · exact view_full hk h

/-- **A part ends in zeros** exactly if what is behind the cleared octets of its last piece is zero. -/
theorem padding_pieces {n : ℕ} (h : curLen.toNat + n < 2 ^ 32) :
    (∀ t ∈ transfers fw base offset (pieces n) curLen buf, ∀ i, txInfoSize + t.pktLen ≤ i → i < t.length →
        t.buf i = 0) ↔ CleanEnd fw.image (base + curLen.toNat) n (view buf) := by
  have hle := Nat.div_mul_le_self n sentLenMax
  have hlt : n % sentLenMax < sentLenMax := Nat.mod_lt _ (by decide)
  obtain ⟨htx, hpad, hmax⟩ := sizes
  have hfull : ∀ t ∈ transfers fw base offset (List.replicate (n / sentLenMax) sentLenMax) curLen buf,
      ∀ i, txInfoSize + t.pktLen ≤ i → i < t.length → t.buf i = 0 := by
    intro t ht
    have hsum : (List.replicate (n / sentLenMax) sentLenMax).sum = n / sentLenMax * sentLenMax := by
      rw [List.sum_replicate_nat]
    obtain ⟨m, hm, cur, buf', rfl, -⟩ := mem_transfers (by omega) ht
    rw [padding_transfer, List.eq_of_mem_replicate hm]
    intro k hk hk'
    omega
  rw [pieces_eq, transfers_append]
  simp only [List.mem_append, or_imp, forall_and, and_iff_right hfull]
  unfold CleanEnd
  split_ifs with hmod
  · simp only [transfers, List.not_mem_nil, false_imp_iff, implies_true, true_iff, hmod]
    intro k hk hk'
    omega
  · simp only [transfers, List.mem_singleton, forall_eq]
    rw [padding_transfer]
    refine forall₃_congr fun k _ hk' => ?_
    rw [view_full (by omega) h]

/-! ### The image -/

theorem congr_cleanEnd (image : ℕ → Byte) (src n : ℕ) {v v' : ℕ → Byte}
    (h : ∀ k < sentLenMax + usbEndPadding, v k = v' k) : CleanEnd image src n v ↔ CleanEnd image src n v' := by
  have hlt : n % sentLenMax < sentLenMax := Nat.mod_lt _ (by decide)
  obtain ⟨htx, hpad, hmax⟩ := sizes
  refine forall₃_congr fun k _ hk' => ?_
  have hk : k < sentLenMax + usbEndPadding := by omega
  unfold behind
  split_ifs
  · rw [h k hk]
  · rw [lay_eq image v v' hk]

theorem transfer_bounds {n : ℕ} {t : Transfer} (h : curLen.toNat + n < 2 ^ 32)
    (ht : t ∈ transfers fw base offset (pieces n) curLen buf) :
    (t.length = txInfoSize + t.rounded + usbEndPadding ∧ (t.dmaHigh ++ t.dmaLow).toNat = t.rounded * 2 ^ 16) ∧
    t.length ≤ uploadFwUnit ∧ t.source + t.pktLen ≤ base + (curLen.toNat + n) := by
  obtain ⟨htx, hpad, hmax⟩ := sizes
  obtain ⟨m, hm, cur, buf', rfl, hle⟩ := mem_transfers (by rwa [sum_pieces]) ht
  have hmle : m ≤ sentLenMax := le_of_mem_pieces hm
  rw [sum_pieces] at hle
  have hlen : (transfer fw base offset cur m buf').length = (m + 3) / 4 * 4 + 8 := by
    change roundUp m + 4 + 4 = _
    rw [roundUp_eq]
  refine ⟨⟨?_, transfer_dma hmle⟩, ?_, ?_⟩
  · rw [hlen]
    change _ = txInfoSize + (m + 3) / 4 * 4 + usbEndPadding
    omega
  · rw [hlen]
    change _ ≤ 14592
    omega
  · change base + cur.toNat + m ≤ _
    omega

def uploaded (fw : Firmware) (buf : Buffer) : Upload :=
  let ns := pieces (fw.ilmLen - fw.start).toNat
  ⟨transfers fw fwInfoSize fw.ilmOffset ns fw.start buf,
    transfers fw (fwInfoSize + fw.ilmLen.toNat) fw.dlmOffset (pieces fw.dlmLen.toNat) 0
      (bufAfter fw fwInfoSize fw.ilmOffset ns fw.start buf)⟩

theorem andesUsbLoadfw_eq (hok : ∀ i, ok i = true) (fw : Firmware) (buf : Buffer) :
    andesUsbLoadfw fw ok buf = some (uploaded fw buf) := by
  unfold andesUsbLoadfw uploaded
  have hzero : fw.dlmLen - 0 = fw.dlmLen := BitVec.sub_zero _
  rw [load_eq hok, Option.bind_some, load_eq hok, Option.map_some, hzero]

theorem not_uploads_of_short {fw : Firmware} (h : ¬fw.start ≤ fw.ilmLen) (buf : Buffer) :
    ¬Uploads fw (uploaded fw buf) := by
  intro hup
  have hlt : fw.ilmLen.toNat < fw.start.toNat := by
    rw [BitVec.le_def] at h
    omega
  have hleft : (fw.ilmLen - fw.start).toNat ≠ 0 := by
    rw [BitVec.toNat_sub]
    have h1 := fw.ilmLen.isLt
    have h2 := fw.start.isLt
    omega
  have hilm := hup.ilm
  have hnil : part fw.image fwInfoSize fw.ilmOffset fw.start.toNat fw.ilmLen.toNat = [] := by
    rw [part, Nat.sub_eq_zero_of_le hlt.le]
    rfl
  rw [hnil] at hilm
  dsimp only [uploaded] at hilm
  rw [pieces_cons hleft, transfers, List.flatMap_cons, List.append_eq_nil_iff] at hilm
  have hsent := congrArg List.length hilm.1
  rw [Transfer.sent, List.length_map, List.length_range, List.length_nil] at hsent
  have hpos := nextLen_pos hleft
  change nextLen _ = 0 at hsent
  omega

theorem uploads_uploaded_iff (fw : Firmware) (buf : Buffer) : Uploads fw (uploaded fw buf) ↔ Clean fw buf := by
  by_cases hvector : fw.start ≤ fw.ilmLen
  · have hle : fw.start.toNat ≤ fw.ilmLen.toNat := BitVec.le_def.1 hvector
    have hleft : (fw.ilmLen - fw.start).toNat = fw.ilmLen.toNat - fw.start.toNat := BitVec.toNat_sub_of_le hvector
    have hilmLt : fw.start.toNat + (fw.ilmLen.toNat - fw.start.toNat) < 2 ^ 32 := by
      have := fw.ilmLen.isLt
      omega
    have hdlmLt : (0 : BitVec 32).toNat + fw.dlmLen.toNat < 2 ^ 32 := by
      have := fw.dlmLen.isLt
      simpa using this
    have hilm : (∀ t ∈ (uploaded fw buf).ilm, ∀ i, txInfoSize + t.pktLen ≤ i → i < t.length → t.buf i = 0) ↔
        CleanEnd fw.image (fwInfoSize + fw.start.toNat) (fw.ilmLen.toNat - fw.start.toNat) (view buf) := by
      unfold uploaded
      rw [hleft]
      exact padding_pieces hilmLt
    have hdlm : (∀ t ∈ (uploaded fw buf).dlm, ∀ i, txInfoSize + t.pktLen ≤ i → i < t.length → t.buf i = 0) ↔
        CleanEnd fw.image (fwInfoSize + fw.ilmLen.toNat) fw.dlmLen.toNat
          (after fw.image (fwInfoSize + fw.start.toNat) (fw.ilmLen.toNat - fw.start.toNat) (view buf)) := by
      unfold uploaded
      rw [hleft]
      refine (padding_pieces hdlmLt).trans ?_
      exact congr_cleanEnd fw.image _ _ fun k hk => view_pieces hk hilmLt
    constructor
    · intro h
      exact ⟨hvector, hilm.1 fun t ht => h.padding t (List.mem_append_left _ ht),
        hdlm.1 fun t ht => h.padding t (List.mem_append_right _ ht)⟩
    · intro h
      have hilmBounds : ∀ t ∈ (uploaded fw buf).ilm, _ := fun t ht => transfer_bounds (by rwa [hleft]) ht
      have hdlmBounds : ∀ t ∈ (uploaded fw buf).dlm, _ := fun t ht => transfer_bounds hdlmLt ht
      refine ⟨?_, ?_, fun t ht => ?_, fun t ht => ?_, fun t ht => ?_, fun t ht => ?_⟩
      · unfold uploaded
        rw [sent_transfers _ _ _ (by rwa [sum_pieces, hleft]), sum_pieces, hleft, Nat.add_sub_cancel' hle]
      · unfold uploaded
        rw [sent_transfers _ _ _ (by rwa [sum_pieces]), sum_pieces]
        simp
      · rcases List.mem_append.1 ht with ht | ht
        · exact (hilmBounds t ht).1
        · exact (hdlmBounds t ht).1
      · rcases List.mem_append.1 ht with ht | ht
        · exact (hilmBounds t ht).2.1
        · exact (hdlmBounds t ht).2.1
      · rcases List.mem_append.1 ht with ht | ht
        · exact hilm.2 h.ilm t ht
        · exact hdlm.2 h.dlm t ht
      · rcases List.mem_append.1 ht with ht | ht
        · have hin := (hilmBounds t ht).2.2
          rw [hleft, Nat.add_sub_cancel' hle] at hin
          exact hin.trans (Nat.le_add_right _ _)
        · have hin := (hdlmBounds t ht).2.2
          simpa [Firmware.size] using hin
  · exact iff_of_false (not_uploads_of_short hvector buf) fun h => hvector h.vector

/-- **The firmware is uploaded** octet by octet and with clean ends, when the transfers succeed, exactly if the
vector that is skipped is in the image and what the last pieces find behind their cleared octets is zero. -/
theorem uploads_iff (fw : Firmware) (buf : Buffer) (hok : ∀ i, ok i = true) :
    (∃ up, andesUsbLoadfw fw ok buf = some up ∧ Uploads fw up) ↔ Clean fw buf := by
  rw [andesUsbLoadfw_eq hok]
  simp only [Option.some.injEq, exists_eq_left']
  exact uploads_uploaded_iff fw buf

/-- An image with an ILM of `ilm` octets and no DLM, all octets behind the header being `fill`. -/
def imageOf (loadIv : Bool) (ilm fill : Byte) : Firmware :=
  ⟨loadIv, 0, 0x110800, fun i => if i = 0 then ilm else if i < fwInfoSize then 0 else fill⟩

theorem uploads_eight : (∀ i, (fun _ : ℕ => true) i = true) ∧
    ((∃ up, andesUsbLoadfw (imageOf false 8 0x55) (fun _ => true) (fun _ => 0) = some up ∧
      Uploads (imageOf false 8 0x55) up) ↔ Clean (imageOf false 8 0x55) fun _ => 0) :=
  ⟨fun _ => rfl, uploads_iff (imageOf false 8 0x55) (fun _ => 0) fun _ => rfl⟩

/-- An ILM of 63 octets, shorter than the vector; and one of a single octet, sent from a buffer that was not
clear. -/
theorem not_uploads :
    (¬∃ up, andesUsbLoadfw (imageOf true 63 0x55) (fun _ => true) (fun _ => 0) = some up ∧
      Uploads (imageOf true 63 0x55) up) ∧
    ¬∃ up, andesUsbLoadfw (imageOf false 1 0x55) (fun _ => true) (fun _ => 0xFF) = some up ∧
      Uploads (imageOf false 1 0x55) up := by
  rw [andesUsbLoadfw_eq fun _ => rfl, andesUsbLoadfw_eq fun _ => rfl]
  simp only [Option.some.injEq, exists_eq_left']
  constructor
  · exact not_uploads_of_short (by decide) _
  · intro h
    have hclean := ((uploads_uploaded_iff _ _).1 h).ilm 5 (by decide) (by decide)
    exact absurd hclean (by decide)

end Mt7610u.Mcu.LoadFirmware
