import Mt7610u.Lib.Descent
import Mt7610u.RateCtrl.IndexBounds

/-! # The search for the next rates

`MlmeSelectUpRate` and `MlmeSelectDownRate` turn by turn, over the group tables of the driver, the three-stream
one included. The links of the one-stream table can lead behind its rows; `mem` is what memory holds there. -/

namespace Mt7610u.RateCtrl

open RateTable Lib.Descent Lib.Outcome

namespace UpDown

/-! ### Group tables -/

/-- `RateSwitchTableAdapt11N3S`, for three streams. -/
def rateSwitchTableAdapt11N3S : List RateRow :=
  [⟨0, 0x21, 0, 30, 50, 32, 1, 8, 1, 7⟩,
   ⟨1, 0x21, 1, 20, 50, 0, 16, 9, 2, 13⟩,
   ⟨2, 0x21, 2, 20, 50, 1, 17, 9, 3, 20⟩,
   ⟨3, 0x21, 3, 15, 50, 2, 17, 10, 4, 26⟩,
   ⟨4, 0x21, 4, 15, 30, 3, 18, 11, 5, 39⟩,
   ⟨5, 0x21, 5, 10, 25, 4, 18, 12, 6, 52⟩,
   ⟨6, 0x21, 6, 8, 14, 5, 19, 12, 7, 59⟩,
   ⟨7, 0x21, 7, 8, 14, 6, 19, 12, 7, 65⟩,
   ⟨8, 0x20, 8, 30, 50, 0, 16, 9, 2, 13⟩,
   ⟨9, 0x20, 9, 20, 50, 8, 17, 10, 4, 26⟩,
   ⟨10, 0x20, 10, 20, 40, 9, 18, 11, 5, 39⟩,
   ⟨11, 0x20, 11, 15, 30, 10, 18, 12, 6, 52⟩,
   ⟨12, 0x20, 12, 15, 30, 11, 20, 13, 12, 78⟩,
   ⟨13, 0x20, 13, 8, 20, 12, 20, 14, 13, 104⟩,
   ⟨14, 0x20, 14, 8, 18, 13, 21, 15, 14, 117⟩,
   ⟨15, 0x20, 15, 8, 14, 14, 21, 15, 15, 130⟩,
   ⟨16, 0x20, 16, 30, 50, 8, 17, 9, 3, 20⟩,
   ⟨17, 0x20, 17, 20, 50, 16, 18, 11, 5, 39⟩,
   ⟨18, 0x20, 18, 20, 40, 17, 19, 12, 7, 59⟩,
   ⟨19, 0x20, 19, 15, 30, 18, 20, 13, 19, 78⟩,
   ⟨20, 0x20, 20, 15, 30, 19, 21, 15, 20, 117⟩,
   ⟨21, 0x20, 21, 8, 20, 20, 22, 21, 21, 156⟩,
   ⟨22, 0x20, 22, 8, 20, 21, 23, 22, 22, 176⟩,
   ⟨23, 0x20, 23, 6, 18, 22, 24, 23, 23, 195⟩,
   ⟨24, 0x22, 23, 6, 14, 23, 24, 24, 24, 217⟩,
   ⟨25, 0, 0, 0, 0, 0, 0, 0, 0, 0⟩,
   ⟨26, 0, 0, 0, 0, 0, 0, 0, 0, 0⟩,
   ⟨27, 0, 0, 0, 0, 0, 0, 0, 0, 0⟩,
   ⟨28, 0, 0, 0, 0, 0, 0, 0, 0, 0⟩,
   ⟨29, 0, 0, 0, 0, 0, 0, 0, 0, 0⟩,
   ⟨30, 0x00, 0, 40, 101, 30, 30, 30, 31, 1⟩,
   ⟨31, 0x00, 1, 40, 50, 30, 31, 31, 32, 2⟩,
   ⟨32, 0x21, 32, 30, 50, 31, 0, 8, 0, 7⟩]

/-- A group table: its rows, and whether `pTable` is `RateTableVht2S`. -/
structure GroupTable where
  rows : List RateRow
  isVht2S : Bool

def GroupTable.of (t : RateTable) : GroupTable := ⟨t.rows, t = rateTableVht2S⟩

def groupTables : List GroupTable :=
  [.of rateSwitchTableAdapt11N1S, .of rateSwitchTableAdapt11N2S, ⟨rateSwitchTableAdapt11N3S, false⟩,
    .of rateTableVht1S, .of rateTableVht1SMcs7, .of rateTableVht2S]

theorem mem_groupTables {t : RateTable} (h : t.adapt = true) : GroupTable.of t ∈ groupTables := by
  cases t <;> first | exact absurd h (by decide) | simp [groupTables]

/-- What `PTX_RA_GRP_ENTRY` reads: a row of the table, or whatever memory holds behind it. -/
def Holds (mem : ℕ → RateRow) (rows : List RateRow) : Prop := ∀ i row, rows[i]? = some row → mem i = row

/-! ### The loops -/

section loops

variable (mem : ℕ → RateRow) (pAd : Adapter) (g : GroupTable)

def better (e : RaEntry) (row : RateRow) (link up : ℕ) : ℕ :=
  if e.txQuality up > e.txQuality link ∧ link ≠ row.itemNo then link else up

/-- The switch over `mcsGroup`. A wrong group leaves `UpRateIdx` as it is. -/
def upLink (e : RaEntry) (row : RateRow) (up : ℕ) : ℕ :=
  if threeStreams pAd e.peer then
    match e.mcsGroup with
    | 0 =>
      let up := if row.upMcs3 = row.itemNo then
          (if row.upMcs2 = row.itemNo then row.upMcs1 else row.upMcs2) else row.upMcs3
      better e row row.upMcs1 (better e row row.upMcs2 up)
    | 3 => row.upMcs3
    | 2 => row.upMcs2
    | 1 => row.upMcs1
    | _ => up
  else if twoStreams pAd e.peer ∨ g.isVht2S then
    match e.mcsGroup with
    | 0 => better e row row.upMcs1 (if row.upMcs2 = row.itemNo then row.upMcs1 else row.upMcs2)
    | 2 => row.upMcs2
    | 1 => row.upMcs1
    | _ => up
  else
    match e.mcsGroup with
    | 0 | 1 => row.upMcs1
    | _ => up

/-- One turn of `MlmeSelectUpRate`: the state is `UpRateIdx` and the entry. -/
def turnUp (row : RateRow) : ℕ × RaEntry → (ℕ × RaEntry) ⊕ (ℕ × RaEntry)
  | (up, e) =>
    let up := upLink pAd g e row up
    if (mem up).currMCS = 32 ∧ skipsMcs32 pAd e.peer then .inr ((mem up).upMcs1, { e with mcsGroup := 1 })
    else
      let e := markShortGI (mem up) up e
      if up = e.currTxRateIndex then .inr (up, { e with mcsGroup := 0 })
      else if e.txQuality up > 0 ∧ e.mcsGroup > 0 then .inl (up, { e with mcsGroup := e.mcsGroup - 1 })
      else .inr (up, e)

/-- One turn of `MlmeSelectDownRate`: the state is `DownRateIdx`. -/
def turnDown (p : Peer) (curr down : ℕ) : ℕ ⊕ ℕ :=
  if validDown pAd p (mem down) then .inr down
  else if down = (mem down).downMcs then .inr curr
  else .inl (mem down).downMcs

end loops

/-! ### The loops of the other model -/

variable {mem : ℕ → RateRow} {pAd : Adapter} {g : GroupTable} {t : RateTable} {e e' : RaEntry} {row : RateRow}
  {p : Peer} {curr down up : ℕ}

theorem mem_of_entry (hmem : Holds mem t.rows) {i : ℕ} (h : t.entry i = .ok row) : mem i = row := by
  unfold RateTable.entry at h
  cases hget : t.rows[i]? with
  | none => rw [hget] at h; cases h
  | some r =>
    rw [hget] at h
    exact (hmem i r hget).trans (Except.ok.inj h)

theorem ends_of_downFrom (hmem : Holds mem t.rows) : ∀ fuel down res, downFrom pAd t p curr fuel down = .ok res →
    Ends (turnDown mem pAd p curr) down res
  | 0, _, _, h => by cases h
  | fuel + 1, down, res, h => by
    obtain ⟨row, hrow, h⟩ := bind_eq_ok h
    have hturn : turnDown mem pAd p curr down = if validDown pAd p row then .inr down
        else if down = row.downMcs then .inr curr else .inl row.downMcs := by
      rw [turnDown, mem_of_entry hmem hrow]
    split_ifs at h with hvalid hend
    · rw [if_pos hvalid] at hturn
      exact Except.ok.inj h ▸ .leave hturn
    · rw [if_neg hvalid, if_pos hend] at hturn
      exact Except.ok.inj h ▸ .leave hturn
    · rw [if_neg hvalid, if_neg hend] at hturn
      exact .again hturn (ends_of_downFrom hmem fuel _ _ h)

theorem ends_of_mlmeSelectDownRate (hmem : Holds mem t.rows) (h : mlmeSelectDownRate pAd t p curr = .ok down) :
    Ends (turnDown mem pAd p curr) (mem curr).downMcs down := by
  obtain ⟨row, hrow, h⟩ := bind_eq_ok h
  rw [mem_of_entry hmem hrow]
  exact ends_of_downFrom hmem _ _ _ h

theorem better_of_preferLink {link : ℕ} {res : ℕ} (h : preferLink t e row link up = .ok res) :
    better e row link up = res := by
  unfold preferLink RateTable.access at h
  split at h
  · exact Except.ok.inj h
  · cases h

def topGroup (pAd : Adapter) (g : GroupTable) (p : Peer) : ℕ :=
  if threeStreams pAd p then 3 else if twoStreams pAd p ∨ g.isVht2S then 2 else 1

theorem groupLink_wrong (h : topGroup pAd (.of t) e.peer < e.mcsGroup) : groupLink pAd t e row = .ok 0 := by
  unfold topGroup at h
  unfold groupLink
  generalize e.mcsGroup = group at h ⊢
  simp only [GroupTable.of, decide_eq_true_eq] at h
  by_cases h3 : threeStreams pAd e.peer = true
  · simp only [h3, if_true] at h ⊢
    match group, h with
    | n + 4, _ => rfl
  · simp only [h3, if_false, Bool.false_eq_true] at h ⊢
    by_cases h2 : twoStreams pAd e.peer = true ∨ t = rateTableVht2S
    · simp only [if_pos h2] at h ⊢
      match group, h with
      | n + 3, _ => rfl
    · simp only [if_neg h2] at h ⊢
      match group, h with
      | n + 2, _ => rfl

theorem upLink_of_groupLink {res : ℕ} (hle : e.mcsGroup ≤ topGroup pAd (.of t) e.peer)
    (h : groupLink pAd t e row = .ok res) : upLink pAd (.of t) e row up = res := by
  unfold topGroup at hle
  unfold groupLink at h
  unfold upLink
  generalize e.mcsGroup = group at hle h ⊢
  simp only [GroupTable.of, decide_eq_true_eq] at hle ⊢
  by_cases h3 : threeStreams pAd e.peer = true
  · simp only [h3, if_true] at hle h ⊢
    rcases group with _ | _ | _ | _ | n
    · obtain ⟨up2, hup2, hup1⟩ := bind_eq_ok h
      change better e row row.upMcs1 (better e row row.upMcs2 _) = res
      rw [better_of_preferLink hup2, better_of_preferLink hup1]
    · exact Except.ok.inj h
    · exact Except.ok.inj h
    · exact Except.ok.inj h
    · omega
  · simp only [h3, if_false, Bool.false_eq_true] at hle h ⊢
    by_cases h2 : twoStreams pAd e.peer = true ∨ t = rateTableVht2S
    · simp only [if_pos h2] at hle h ⊢
      rcases group with _ | _ | _ | n
      · exact better_of_preferLink h
      · exact Except.ok.inj h
      · exact Except.ok.inj h
      · omega
    · simp only [if_neg h2] at hle h ⊢
      rcases group with _ | _ | n
      · exact Except.ok.inj h
      · exact Except.ok.inj h
      · omega

theorem upLink_wrong (h : topGroup pAd g e.peer < e.mcsGroup) : upLink pAd g e row up = up := by
  unfold topGroup at h
  unfold upLink
  generalize e.mcsGroup = group at h ⊢
  by_cases h3 : threeStreams pAd e.peer = true
  · simp only [h3, if_true] at h ⊢
    match group, h with
    | n + 4, _ => rfl
  · simp only [h3, if_false, Bool.false_eq_true] at h ⊢
    by_cases h2 : twoStreams pAd e.peer = true ∨ g.isVht2S = true
    · simp only [if_pos h2] at h ⊢
      match group, h with
      | n + 3, _ => rfl
    · simp only [if_neg h2] at h ⊢
      match group, h with
      | n + 2, _ => rfl

theorem markShortGI_mcsGroup (next : RateRow) (up : ℕ) (e : RaEntry) :
    (markShortGI next up e).mcsGroup = e.mcsGroup ∧ (markShortGI next up e).peer = e.peer := by
  unfold markShortGI
  split <;> exact ⟨rfl, rfl⟩

theorem turnUp_of_upTurn (hmem : Holds mem t.rows) {again : Bool} {res : ℕ}
    (hup : up = 0 ∨ e.mcsGroup ≤ topGroup pAd (.of t) e.peer) (h : upTurn pAd t row e = .ok (res, e', again)) :
    turnUp mem pAd (.of t) row (up, e) =
        (if again = true ∧ 0 < e.mcsGroup then .inl (res, { e' with mcsGroup := e.mcsGroup - 1 })
          else .inr (res, e')) ∧
      (again = true → e'.peer = e.peer ∧ (res = 0 ∨ e.mcsGroup ≤ topGroup pAd (.of t) e.peer)) := by
  obtain ⟨link, hlink, h⟩ := bind_eq_ok h
  obtain ⟨next, hnext, h⟩ := bind_eq_ok h
  have hat : upLink pAd (.of t) e row up = link ∧ (link = 0 ∨ e.mcsGroup ≤ topGroup pAd (.of t) e.peer) := by
    rcases Nat.lt_or_ge (topGroup pAd (.of t) e.peer) e.mcsGroup with hgt | hle
    · have h0 : 0 = link := Except.ok.inj ((groupLink_wrong hgt).symm.trans hlink)
      exact ⟨(upLink_wrong hgt).trans ((hup.resolve_right (Nat.not_le.2 hgt)).trans h0), .inl h0.symm⟩
    · exact ⟨upLink_of_groupLink hle hlink, .inr hle⟩
  obtain ⟨hgroup, hpeer⟩ := markShortGI_mcsGroup next link e
  simp only [turnUp, hat.1, mem_of_entry hmem hnext]
  generalize markShortGI next link e = marked at h hgroup hpeer ⊢
  split_ifs at h with hskip
  · rw [if_pos hskip]
    cases h
    exact ⟨rfl, fun h => by cases h⟩
  · rw [if_neg hskip]
    obtain ⟨-, -, h⟩ := bind_eq_ok h
    by_cases hsame : link = marked.currTxRateIndex
    · simp only [if_pos hsame] at h ⊢
      cases h
      exact ⟨rfl, fun h => by cases h⟩
    · simp only [if_neg hsame] at h ⊢
      cases h
      refine ⟨?_, fun _ => ⟨hpeer, hat.2⟩⟩
      simp only [decide_eq_true_eq, hgroup, gt_iff_lt]

theorem ends_of_selectUpFrom (hmem : Holds mem t.rows) : ∀ group up (e : RaEntry) out, e.mcsGroup = group →
    (up = 0 ∨ group ≤ topGroup pAd (.of t) e.peer) → selectUpFrom pAd t row group e = .ok out →
      Ends (turnUp mem pAd (.of t) row) (up, e) out
  | 0, up, e, out, hg, hup, h => by
    obtain ⟨⟨res, e', again⟩, hturn, h⟩ := bind_eq_ok h
    have h' := (turnUp_of_upTurn hmem (hup.imp_right hg.le.trans) hturn).1
    rw [hg, if_neg (by simp)] at h'
    exact Except.ok.inj h ▸ .leave h'
  | group + 1, up, e, out, hg, hup, h => by
    obtain ⟨⟨res, e', again⟩, hturn, h⟩ := bind_eq_ok h
    obtain ⟨h', hrest⟩ := turnUp_of_upTurn hmem (hup.imp_right hg.le.trans) hturn
    rw [hg, Nat.add_sub_cancel] at h'
    cases again with
    | false => exact Except.ok.inj h ▸ .leave (h'.trans (if_neg (by simp)))
    | true =>
      obtain ⟨hpeer, hzero⟩ := hrest rfl
      refine .again (h'.trans (if_pos ⟨rfl, Nat.succ_pos _⟩)) ?_
      refine ends_of_selectUpFrom hmem group res _ out rfl ?_ h
      rw [hg] at hzero
      exact hzero.imp_right fun hle => (Nat.le_succ group).trans (hpeer.symm ▸ hle)

theorem ends_of_mlmeSelectUpRate (hmem : Holds mem t.rows) {out : ℕ × RaEntry}
    (h : mlmeSelectUpRate pAd t row e = .ok out) : Ends (turnUp mem pAd (.of t) row) (0, e) out :=
  ends_of_selectUpFrom hmem _ _ _ _ rfl (.inl rfl) h

/-! ### The next rate down -/

/-- The row fits the band and the bandwidth in use: CCK only in the 2.4 GHz band, MCS 32 only if both ends use
40 MHz or both 80 MHz. -/
def Fits (pAd : Adapter) (p : Peer) (row : RateRow) : Prop :=
  (row.mode = modeCCK → pAd.channel ≤ 14) ∧
    (row.mode ≠ modeCCK → row.currMCS = 32 →
      p.maxHTPhyMode.bw = pAd.bbpCurrentBW ∧ (pAd.bbpCurrentBW = .bw40 ∨ pAd.bbpCurrentBW = .bw80))

theorem validDown_iff : validDown pAd p row = true ↔ Fits pAd p row := by
  unfold validDown Fits
  by_cases hmode : row.mode = modeCCK
  · simp [hmode]
  · by_cases hmcs : row.currMCS = 32
    · cases pAd.bbpCurrentBW <;> simp [hmode, hmcs]
    · simp [hmode, hmcs]

def height (rows : List RateRow) : ℕ → ℕ → ℕ
  | 0, _ => 0
  | fuel + 1, i =>
    match rows[i]? with
    | some row => if row.downMcs = i then 0 else height rows fuel row.downMcs + 1
    | none => 0

theorem height_downMcs : ∀ g ∈ groupTables, ∀ i < g.rows.length, ∀ row ∈ g.rows[i]?,
    row.downMcs < g.rows.length ∧
      (row.downMcs ≠ i → height g.rows g.rows.length row.downMcs < height g.rows g.rows.length i) := by
  decide

theorem ranked_groupTables (hg : g ∈ groupTables) (hmem : Holds mem g.rows) :
    Ranked (fun i => (mem i).downMcs) (· < g.rows.length) (height g.rows g.rows.length) := by
  intro i hi
  have hrow : g.rows[i]? = some (g.rows.get ⟨i, hi⟩) := List.getElem?_eq_getElem hi
  have hfacts := height_downMcs g hg i hi _ hrow
  rw [← hmem i _ hrow] at hfacts
  exact hfacts

theorem ends_turnDown {r : Option ℕ}
    (h : Ends (seek (fun i => (mem i).downMcs) fun i => validDown pAd p (mem i)) down r) :
    Ends (turnDown mem pAd p curr) down (r.getD curr) := by
  induction h with
  | leave hs =>
    refine .leave ?_
    unfold seek at hs
    unfold turnDown
    split_ifs at hs ⊢
    all_goals
      cases hs
      rfl
  | again hs _ ih =>
    refine .again ?_ ih
    unfold seek at hs
    unfold turnDown
    split_ifs at hs ⊢
    cases hs
    rfl

theorem turnDown_ends (hg : g ∈ groupTables) (hmem : Holds mem g.rows) (hcurr : curr < g.rows.length) :
    ∃ down, Ends (turnDown mem pAd p curr) (mem curr).downMcs down ∧
      ((Below (fun i => (mem i).downMcs) curr down ∧ Fits pAd p (mem down)) ∨
        (down = curr ∧ ∀ i, Below (fun i => (mem i).downMcs) curr i → ¬Fits pAd p (mem i))) := by
  have hr := ranked_groupTables hg hmem
  obtain ⟨r, hends, hr'⟩ := seek_ends (fun i => validDown pAd p (mem i)) hr (hr curr hcurr).1
  refine ⟨r.getD curr, ends_turnDown hends, ?_⟩
  rcases hr' with ⟨down, rfl, hvalid, hat⟩ | ⟨rfl, hall⟩
  · by_cases hend : (mem curr).downMcs = curr
    · -- the current row is the end of its chain
      have hdown : down = curr := by
        rcases hat with hat | hat
        · exact hat.trans hend
        · exact absurd hat (not_below_of_end (congrArg (fun i => (mem i).downMcs) hend))
      exact .inr ⟨hdown, fun i hi => absurd hi (not_below_of_end hend)⟩
    · exact .inl ⟨below_of_link hend hat, validDown_iff.1 hvalid⟩
  · refine .inr ⟨rfl, fun i hi hfits => ?_⟩
    have hfail : validDown pAd p (mem i) = false := hall i (link_of_below hi)
    rw [validDown_iff.2 hfits] at hfail
    cases hfail

/-! ### The next rate up -/

/-- What a turn of `MlmeSelectUpRate` leaves: after MCS 32 is skipped group 1, else no higher group. -/
def GroupAfter (mem : ℕ → RateRow) (pAd : Adapter) (e : RaEntry) (out : ℕ × RaEntry) : Prop :=
  ∃ i, if (mem i).currMCS = 32 ∧ skipsMcs32 pAd e.peer = true then
      out.1 = (mem i).upMcs1 ∧ out.2.mcsGroup = 1
    else out.1 = i ∧ out.2.mcsGroup ≤ e.mcsGroup

theorem turnUp_cases (mem : ℕ → RateRow) (pAd : Adapter) (g : GroupTable) (row : RateRow) (up : ℕ) (e : RaEntry) :
    (∃ up' e', turnUp mem pAd g row (up, e) = .inl (up', e') ∧ e'.peer = e.peer ∧ e'.mcsGroup + 1 = e.mcsGroup) ∨
    ∃ out, turnUp mem pAd g row (up, e) = .inr out ∧ GroupAfter mem pAd e out := by
  unfold GroupAfter
  simp only [turnUp]
  generalize upLink pAd g e row up = link
  obtain ⟨hgroup, hpeer⟩ := markShortGI_mcsGroup (mem link) link e
  by_cases hskip : (mem link).currMCS = 32 ∧ skipsMcs32 pAd e.peer = true
  · rw [if_pos hskip]
    exact .inr ⟨_, rfl, link, by simp [hskip]⟩
  · rw [if_neg hskip]
    split_ifs with hsame hbad
    · exact .inr ⟨_, rfl, link, by rw [if_neg hskip]; exact ⟨rfl, Nat.zero_le _⟩⟩
    · refine .inl ⟨link, _, rfl, hpeer, ?_⟩
      exact (Nat.sub_add_cancel hbad.2).trans hgroup
    · exact .inr ⟨_, rfl, link, by rw [if_neg hskip]; exact ⟨rfl, hgroup.le⟩⟩

theorem turnUp_ends (mem : ℕ → RateRow) (pAd : Adapter) (g : GroupTable) (row : RateRow) (up : ℕ) (e : RaEntry) :
    ∃ out, Ends (turnUp mem pAd g row) (up, e) out ∧ GroupAfter mem pAd e out := by
  refine ends_of_rank (I := fun s : ℕ × RaEntry => s.2.peer = e.peer ∧ s.2.mcsGroup ≤ e.mcsGroup)
    (fun s => s.2.mcsGroup) ?_ ?_ ⟨rfl, le_rfl⟩
  · rintro ⟨u, e₁⟩ ⟨u', e₂⟩ ⟨hpeer, hle⟩ hturn
    rcases turnUp_cases mem pAd g row u e₁ with ⟨_, _, h, hp, hlt⟩ | ⟨out, h, -⟩
    · cases hturn.symm.trans h
      have hlower : e₂.mcsGroup < e₁.mcsGroup := Nat.lt_of_succ_le hlt.le
      exact ⟨⟨hp.trans hpeer, hlower.le.trans hle⟩, hlower⟩
    · cases hturn.symm.trans h
  · rintro ⟨u, e₁⟩ out ⟨hpeer, hle⟩ hturn
    rcases turnUp_cases mem pAd g row u e₁ with ⟨_, _, h, -⟩ | ⟨out', h, i, hout⟩
    · cases hturn.symm.trans h
    · cases hturn.symm.trans h
      rw [hpeer] at hout
      refine ⟨i, ?_⟩
      split_ifs at hout ⊢ with hskip
      · exact hout
      · exact ⟨hout.1, hout.2.trans hle⟩

/-! ### Both -/

/-- **The searches for the next rates end.** From every row of every group table, the one down ends at the
current row or at one strictly below it that fits the band and the bandwidth, no row being below itself; the one
up leaves group 1 if MCS 32 was skipped, and else no higher group than before. -/
theorem select_ends (hg : g ∈ groupTables) (hmem : Holds mem g.rows) (hcurr : e.currTxRateIndex < g.rows.length) :
    (∃ down, Ends (turnDown mem pAd e.peer e.currTxRateIndex) (mem e.currTxRateIndex).downMcs down ∧
      ((Below (fun i => (mem i).downMcs) e.currTxRateIndex down ∧ Fits pAd e.peer (mem down) ∧
          down < g.rows.length ∧ down ≠ e.currTxRateIndex) ∨
        (down = e.currTxRateIndex ∧
          ∀ i, Below (fun i => (mem i).downMcs) e.currTxRateIndex i → ¬Fits pAd e.peer (mem i)))) ∧
    (∀ i < g.rows.length, ¬Below (fun i => (mem i).downMcs) i i) ∧
    ∃ out, Ends (turnUp mem pAd g (mem e.currTxRateIndex)) (0, e) out ∧ GroupAfter mem pAd e out := by
  have hr := ranked_groupTables hg hmem
  refine ⟨?_, fun i hi => hr.not_below hi, turnUp_ends mem pAd g _ 0 e⟩
  obtain ⟨down, hends, hdown⟩ := @turnDown_ends mem pAd g e.peer _ hg hmem hcurr
  refine ⟨down, hends, hdown.imp_left ?_⟩
  rintro ⟨hbelow, hfits⟩
  refine ⟨hbelow, hfits, (hr.below hcurr hbelow).1, ?_⟩
  rintro rfl
  exact hr.not_below hcurr hbelow

def rowAt (rows : List RateRow) (i : ℕ) : RateRow := rows.getD i ⟨0, 0, 0, 0, 0, 0, 0, 0, 0, 0⟩

theorem holds_rowAt (rows : List RateRow) : Holds (rowAt rows) rows := by
  intro i row hrow
  rw [rowAt, List.getD_eq_getElem?_getD, hrow]
  rfl

/-- From MCS 0 of the one-stream table at 40 MHz. -/
theorem select_ends_oneStream :
    (∃ down, Ends (turnDown (rowAt rateSwitchTableAdapt11N1S.rows) aBandStation oneStreamPeer 0) 11 down ∧
      ((Below (fun i => (rowAt rateSwitchTableAdapt11N1S.rows i).downMcs) 0 down ∧
          Fits aBandStation oneStreamPeer (rowAt rateSwitchTableAdapt11N1S.rows down) ∧ down < 12 ∧ down ≠ 0) ∨
        (down = 0 ∧ ∀ i, Below (fun i => (rowAt rateSwitchTableAdapt11N1S.rows i).downMcs) 0 i →
          ¬Fits aBandStation oneStreamPeer (rowAt rateSwitchTableAdapt11N1S.rows i)))) ∧
    ∃ out, Ends (turnUp (rowAt rateSwitchTableAdapt11N1S.rows) aBandStation (.of rateSwitchTableAdapt11N1S)
        (rowAt rateSwitchTableAdapt11N1S.rows 0)) (0, { RaEntry.zero with peer := oneStreamPeer }) out ∧
      GroupAfter (rowAt rateSwitchTableAdapt11N1S.rows) aBandStation
        { RaEntry.zero with peer := oneStreamPeer } out := by
  have hmem := holds_rowAt (GroupTable.of rateSwitchTableAdapt11N1S).rows
  have h := @select_ends _ aBandStation _ { RaEntry.zero with peer := oneStreamPeer } (mem_groupTables rfl) hmem
    (by decide)
  exact ⟨h.1, h.2.2⟩

end UpDown

end Mt7610u.RateCtrl
