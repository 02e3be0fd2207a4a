import Mt7610u.Mlme.Connect

/-! # The candidates that a connect request goes through

The control machine goes through a table of candidates by an index that every wait procedure moves on its own. -/

namespace Mt7610u.Mlme.Connect

open Lib Lib.Runs

variable {env : Env} {s t : Cntl} {m : Msg} {i n first : ℕ}

/-! ### What is attempted -/

/-- The entry of `SsidBssTab` that a request is about, if it asks for a join. -/
def Posted.join? : Posted → Option ℕ
  | .joinReq i => some i
  | _ => none

/-- The entry of `RoamTab` that a request is about, if it asks for a reassociation. -/
def Posted.reassoc? : Posted → Option ℕ
  | .reassocReq i => some i
  | _ => none

/-- The entries of `SsidBssTab` that were attempted. -/
def joins (s : Cntl) : List ℕ := s.posted.filterMap Posted.join?

/-- The entries of `RoamTab` that were attempted. -/
def reassocs (s : Cntl) : List ℕ := s.posted.filterMap Posted.reassoc?

structure Walk where
  attempts : Cntl → List ℕ
  bssNr : Cntl → ℕ
  turns : Cntl → Msg → Prop
  candidates : Cntl → Msg → ℕ
  waiting : CntlState

def Connects (s : Cntl) : Prop := s.bssType = .adhoc ∨ s.bssType = .infra

def turns (s : Cntl) : Msg → Prop
  | .disassocConf => s.currState = .waitDisassoc
  | .joinConf success _ _ => s.currState = .waitJoin ∧ success = false
  | .authConf success alg => s.currState = .waitAuth2 ∧ success = false ∧ triesOpen s alg = false
  | .assocConf success => s.currState = .waitAssoc ∧ success = false
  | .scanConf _ =>
    s.currState = .waitScanForConnect ∨ s.currState = .waitOidListScan ∧ connectsAfterList s = true
  | _ => False

/-- The candidates that a message leaves: after a scan, those that were found. -/
def candidates (s : Cntl) : Msg → ℕ
  | .scanConf sorted => sorted.bssNr
  | _ => s.ssidBssTab.bssNr

/-- The walk through `SsidBssTab`. -/
def ssidWalk : Walk where
  attempts := joins
  bssNr s := s.ssidBssTab.bssNr
  turns s m := Connects s ∧ turns s m
  candidates := candidates
  waiting := .waitJoin

/-- The walk through `RoamTab`. -/
def roamWalk : Walk where
  attempts := reassocs
  bssNr s := s.roamTab.bssNr
  turns s m := s.currState = .waitReassoc ∧ m = .reassocConf false
  candidates s _ := s.roamTab.bssNr
  waiting := .waitReassoc

/-- In every run from `t` the attempts are made at the entries `first`, `first + 1` and so on, each time at one
that the table has; the next candidate is always attempted; and after the last one the machine is in
state `done` and attempts nothing any more. -/
structure Visits (env : Env) (w : Walk) (first : ℕ) (done : CntlState) (t : Cntl) : Prop where
  inOrder : ∀ msgs, w.attempts (run (step env) t msgs) =
    List.range' first (w.attempts (run (step env) t msgs)).length
  inTable : ∀ msgs m, let u := run (step env) t msgs
    ∀ i ∈ w.attempts (step env u m), i ∈ w.attempts u ∨ i < w.bssNr (step env u m)
  noneSkipped : ∀ msgs m, let u := run (step env) t msgs
    w.turns u m → first + (w.attempts u).length < w.candidates u m →
      w.attempts (step env u m) = w.attempts u ++ [first + (w.attempts u).length] ∧
        (step env u m).currState = w.waiting
  ends : ∀ msgs m, let u := run (step env) t msgs
    w.turns u m → w.candidates u m ≤ first + (w.attempts u).length →
      (step env u m).currState = done ∧ ∀ more, w.attempts (run (step env) (step env u m) more) = w.attempts u

/-- Where the attempts end: an ad-hoc station starts a network of its own. -/
def afterLast (s : Cntl) : CntlState := if s.bssType = .adhoc then .waitStart else .idle

/-- The request has candidates at hand, and nothing is to be done before they are tried. -/
def Request.atOnce (s : Cntl) (r : Request) : Prop :=
  s.radioOff = false ∧
    match r with
    | .ssid wanted ssidLen sorted =>
      let s := recordSsid s.atRest wanted ssidLen sorted
      onTop s = false ∧ s.infraOn = false ∧ scansFirst (dropAdhoc s) = false
    | .bssid addr => (wantedBss s.atRest addr).isSome = true ∧ s.infraOn = false
    | .roaming _ => True
    | _ => False

def Request.candidates (s : Cntl) : Request → ℕ
  | .ssid _ _ sorted => sorted.bssNr
  | .bssid _ => 1
  | .roaming _ => s.roamTab.bssNr
  | _ => 0

/-! ### One turn -/

/-- The machine turns to candidate `i` of `n`, or there is none, or the station does not connect. -/
inductive Goes (i n : ℕ) (s t : Cntl) : Prop
  | next (hi : i < n) (hjoins : joins t = joins s ++ [i]) (hstate : t.currState = .waitJoin)
      (hidx : t.bssIdx = i) (hnr : t.ssidBssTab.bssNr = n) (htype : t.bssType = s.bssType)
  | last (hi : Connects s → n ≤ i) (hjoins : joins t = joins s) (hstate : t.currState = afterLast s)
      (htype : t.bssType = s.bssType)

theorem Goes.of_eq {s' : Cntl} (h : Goes i n s' t) (hjoins : joins s' = joins s)
    (htype : s'.bssType = s.bssType) : Goes i n s t := by
  cases h with
  | next hi hj hs hidx hnr ht => exact .next hi (hjoins ▸ hj) hs hidx hnr (ht.trans htype)
  | last hi hj hs ht =>
    refine .last (fun hc => hi ?_) (hj.trans hjoins) ?_ (ht.trans htype)
    · rwa [Connects, htype]
    · rw [hs, afterLast, htype, afterLast]

theorem Goes.bssType_eq (h : Goes i n s t) : t.bssType = s.bssType := by
  cases h with
  | next _ _ _ _ _ ht => exact ht
  | last _ _ _ ht => exact ht

@[simp] theorem joins_post (p : Posted) (next : CntlState) :
    joins (s.post p next) = joins s ++ (p.join?).toList := by
  unfold joins Cntl.post
  cases p <;> simp [Posted.join?]

@[simp] theorem reassocs_post (p : Posted) (next : CntlState) :
    reassocs (s.post p next) = reassocs s ++ (p.reassoc?).toList := by
  unfold reassocs Cntl.post
  cases p <;> simp [Posted.reassoc?]

@[simp] theorem posted_linkDown (s : Cntl) : (linkDown s).posted = s.posted := by
  unfold linkDown
  split_ifs <;> rfl

@[simp] theorem bssIdx_linkDown (s : Cntl) : (linkDown s).bssIdx = s.bssIdx := by
  unfold linkDown
  split_ifs <;> rfl

@[simp] theorem bssType_linkDown (s : Cntl) : (linkDown s).bssType = s.bssType := by
  unfold linkDown
  split_ifs <;> rfl

@[simp] theorem ssidBssTab_linkDown (s : Cntl) : (linkDown s).ssidBssTab = s.ssidBssTab := by
  unfold linkDown
  split_ifs <;> rfl

@[simp] theorem joins_linkDown (s : Cntl) : joins (linkDown s) = joins s := by
  rw [joins, posted_linkDown, joins]

theorem adoptCiphers_frame (s : Cntl) (b : BssEntry) :
    (adoptCiphers s b).posted = s.posted ∧ (adoptCiphers s b).bssIdx = s.bssIdx ∧
      (adoptCiphers s b).ssidBssTab = s.ssidBssTab ∧ (adoptCiphers s b).bssType = s.bssType := by
  unfold adoptCiphers
  split_ifs <;> exact ⟨rfl, rfl, rfl, rfl⟩

theorem goes_iterateOnBssTab (s : Cntl) : Goes s.bssIdx s.ssidBssTab.bssNr s (iterateOnBssTab s) := by
  unfold iterateOnBssTab
  dsimp only
  split_ifs with hadhoc hlt hnext
  · exact .next hlt (joins_post _ _) rfl rfl rfl rfl
  · refine .last (fun _ => Nat.le_of_not_lt hlt) ((joins_post _ _).trans (List.append_nil _)) ?_ rfl
    rw [afterLast, if_pos (show s.bssType = .adhoc from hadhoc)]
    rfl
  · obtain ⟨hposted, hidx, htab, htype⟩ := adoptCiphers_frame (resetCiphers s) (s.ssidBssTab.bssEntry s.bssIdx)
    refine .next hnext.1 ?_ rfl hidx (congrArg BssTable.bssNr htab) htype
    rw [joins_post, joins, joins]
    exact congrArg (List.filterMap Posted.join? · ++ [s.bssIdx]) hposted
  · refine .last (fun hc => ?_) rfl ?_ rfl
    · have hinfra : s.bssType = .infra := hc.resolve_left hadhoc
      exact Nat.le_of_not_lt fun hlt => hnext ⟨hlt, hinfra⟩
    · rw [afterLast, if_neg (show ¬s.bssType = .adhoc from hadhoc)]
      rfl

/-! ### One message -/

def CntlState.atCandidate : CntlState → Bool
  | .waitDisassoc | .waitJoin | .waitAuth | .waitAuth2 | .waitAssoc => true
  | _ => false

def CntlState.scans : CntlState → Bool
  | .waitOidListScan | .waitScanForConnect => true
  | _ => false

structure Cursor (first : ℕ) (s : Cntl) : Prop where
  atCandidate : s.currState.atCandidate = true → s.bssIdx + 1 = first + (joins s).length
  scans : s.currState.scans = true → first + (joins s).length = 0

/-- **The invariant.** -/
structure Inv (first : ℕ) (s : Cntl) : Prop where
  inOrder : joins s = List.range' first (joins s).length
  cursor : Cursor first s

theorem Cursor.of_over (hat : s.currState.atCandidate = false) (hscans : s.currState.scans = false) :
    Cursor first s :=
  ⟨fun h => absurd (hat.symm.trans h) (by decide), fun h => absurd (hscans.symm.trans h) (by decide)⟩

variable (env) in
/-- **A turn** goes to the candidate after those that were attempted. -/
theorem goes_turn (h : Inv first s) (ht : turns s m) :
    Goes (first + (joins s).length) (candidates s m) s (step env s m) := by
  cases m with
  | disassocConf =>
    have hstate : s.currState = .waitDisassoc := ht
    have hcursor := h.cursor.atCandidate (by rw [hstate]; rfl)
    have hstep : step env s .disassocConf = cntlWaitDisassocProc s := by
      simp only [step, performAction, hstate]
    rw [hstep, ← hcursor]
    unfold cntlWaitDisassocProc
    dsimp only
    split_ifs with hnone
    · rw [ssidBssTab_linkDown, bssType_linkDown] at hnone
      refine .last (fun _ => hnone.1.le.trans (Nat.zero_le _)) ?_ ?_ (bssType_linkDown s)
      · rw [joins_post, joins_linkDown]
        exact List.append_nil _
      · rw [afterLast, if_pos hnone.2]
        rfl
    · have hgoes := goes_iterateOnBssTab { linkDown s with bssIdx := (linkDown s).bssIdx + 1 }
      rw [bssIdx_linkDown, ssidBssTab_linkDown] at hgoes
      rw [bssIdx_linkDown]
      exact hgoes.of_eq (joins_linkDown s) (bssType_linkDown s)
  | joinConf success type radar =>
    obtain ⟨hstate, rfl⟩ := ht
    have hcursor := h.cursor.atCandidate (by rw [hstate]; rfl)
    have hstep : step env s (.joinConf false type radar) = iterateOnBssTab { s with bssIdx := s.bssIdx + 1 } :=
      if_pos hstate
    rw [hstep, ← hcursor]
    exact (goes_iterateOnBssTab { s with bssIdx := s.bssIdx + 1 }).of_eq rfl rfl
  | authConf success alg =>
    obtain ⟨hstate, rfl, htries⟩ := ht
    have hcursor := h.cursor.atCandidate (by rw [hstate]; rfl)
    have hstep : step env s (.authConf false alg) = cntlWaitAuthProc2 s false alg := by
      simp only [step, performAction, hstate]
    rw [hstep, ← hcursor, cntlWaitAuthProc2, if_neg (by decide), if_neg (by rw [htries]; decide)]
    exact (goes_iterateOnBssTab { s with currState := .idle, bssIdx := s.bssIdx + 1 }).of_eq rfl rfl
  | assocConf success =>
    obtain ⟨hstate, rfl⟩ := ht
    have hcursor := h.cursor.atCandidate (by rw [hstate]; rfl)
    have hstep : step env s (.assocConf false) = iterateOnBssTab { s with bssIdx := s.bssIdx + 1 } := if_pos hstate
    rw [hstep, ← hcursor]
    exact (goes_iterateOnBssTab { s with bssIdx := s.bssIdx + 1 }).of_eq rfl rfl
  | scanConf sorted =>
    have hstep : step env s (.scanConf sorted) = connectAfterScan s sorted := by
      rcases ht with hstate | ⟨hstate, hlist⟩
      · simp only [step, performAction, hstate]
      · simp only [step, performAction, hstate, hlist, if_true]
    have hzero : first + (joins s).length = 0 := by
      refine h.cursor.scans ?_
      rcases ht with hstate | ⟨hstate, -⟩ <;> rw [hstate] <;> rfl
    rw [hstep, hzero]
    exact (goes_iterateOnBssTab { s with currState := .idle, ssidBssTab := sorted, bssIdx := 0 }).of_eq rfl rfl
  | startConf success radar => exact ht.elim
  | reassocConf success => exact ht.elim
  | beacon st bcn => exact ht.elim

structure Stays (first : ℕ) (s t : Cntl) : Prop where
  joins_eq : joins t = joins s
  bssType_eq : t.bssType = s.bssType
  cursor : Cursor first s → Cursor first t
  settled : s.currState = .idle ∨ s.currState = .waitStart → t.currState = .idle ∨ t.currState = .waitStart

theorem Stays.refl (s : Cntl) : Stays first s s := ⟨rfl, rfl, id, id⟩

theorem Stays.of_idle (hjoins : joins t = joins s) (htype : t.bssType = s.bssType) (hidle : t.currState = .idle) :
    Stays first s t := by
  exact ⟨hjoins, htype, fun _ => .of_over (by rw [hidle]; rfl) (by rw [hidle]; rfl), fun _ => Or.inl hidle⟩

theorem Stays.of_post {p : Posted} {next : CntlState} (hp : p.join? = none)
    (hs : s.currState.atCandidate = true) (hnext : next.scans = false) : Stays first s (s.post p next) := by
  have hjoins : joins (s.post p next) = joins s := by
    rw [joins_post, hp]
    exact List.append_nil _
  refine ⟨hjoins, rfl, fun h => ⟨fun _ => ?_, fun hscans => ?_⟩, fun h => ?_⟩
  · rw [hjoins]
    exact h.atCandidate hs
  · exact absurd (hnext.symm.trans hscans) (by decide)
  · rcases h with h | h <;> exact absurd (h ▸ hs) (by decide)

theorem stays_startAdhoc (s : Cntl) (radar : Bool) : Stays first s (startAdhoc env s radar) := by
  unfold startAdhoc
  split_ifs
  · exact .of_idle rfl rfl rfl
  · exact .of_idle rfl rfl rfl

variable (env) in
theorem stays_step (first : ℕ) (ht : ¬turns s m) : Stays first s (step env s m) := by
  cases m with
  | disassocConf =>
    simp only [step, performAction]
    split
    · rename_i hstate
      exact absurd hstate ht
    · exact .of_idle (joins_linkDown s) (bssType_linkDown s) rfl
    · exact .refl s
  | joinConf success type radar =>
    simp only [step, performAction]
    split_ifs with hstate
    · cases success with
      | false => exact absurd ⟨hstate, rfl⟩ ht
      | true =>
        simp only [cntlWaitJoinProc, if_true]
        split_ifs
        · exact stays_startAdhoc s radar
        · exact .of_post rfl (by rw [hstate]; rfl) rfl
    · exact .refl s
  | startConf success radar =>
    simp only [step, performAction, cntlWaitStartProc]
    split_ifs
    · exact stays_startAdhoc s radar
    · exact .of_idle rfl rfl rfl
    · exact .refl s
  | authConf success alg =>
    simp only [step, performAction]
    split
    · rename_i hstate
      unfold cntlWaitAuthProc
      split_ifs <;> exact .of_post rfl (by rw [hstate]; rfl) rfl
    · rename_i hstate
      unfold cntlWaitAuthProc2
      split_ifs with hsuccess htries
      · exact .of_post rfl (by rw [hstate]; rfl) rfl
      · exact .of_post rfl (by rw [hstate]; rfl) rfl
      · exact absurd ⟨hstate, Bool.eq_false_of_not_eq_true hsuccess, Bool.eq_false_of_not_eq_true htries⟩ ht
    · exact .refl s
  | assocConf success =>
    simp only [step, performAction, cntlWaitAssocProc]
    split_ifs with hstate hsuccess
    · exact .of_idle rfl rfl rfl
    · exact absurd ⟨hstate, Bool.eq_false_of_not_eq_true hsuccess⟩ ht
    · exact .refl s
  | reassocConf success =>
    simp only [step, performAction, cntlWaitReassocProc, iterateOnBssTab2]
    split_ifs with hstate
    · exact .of_idle rfl rfl rfl
    · refine ⟨(joins_post _ _).trans (List.append_nil _), rfl, fun _ => .of_over rfl rfl, fun h => ?_⟩
      rcases h with h | h <;> exact absurd (hstate.symm.trans h) (by decide)
    · exact .of_idle rfl rfl rfl
    · exact .refl s
  | scanConf sorted =>
    simp only [step, performAction]
    split
    · rename_i hstate
      exact absurd (Or.inl hstate) ht
    · rename_i hstate
      split_ifs with hlist
      · exact absurd (Or.inr ⟨hstate, hlist⟩) ht
      · exact .of_idle rfl rfl rfl
    · exact .refl s
  | beacon st bcn =>
    simp only [step]
    split_ifs
    · exact ⟨rfl, rfl, fun h => ⟨h.atCandidate, h.scans⟩, id⟩
    · exact .refl s

theorem Inv.of_goes (h : Inv first s) (hgoes : Goes (first + (joins s).length) n s t) : Inv first t := by
  cases hgoes with
  | next _ hjoins hstate hidx _ _ =>
    have hlen : (joins t).length = (joins s).length + 1 := by
      rw [hjoins]
      exact List.length_append
    refine ⟨?_, ⟨fun _ => by omega, fun hscans => absurd (hstate ▸ hscans) (by decide)⟩⟩
    rw [hlen, List.range'_1_concat, ← h.inOrder, hjoins]
  | last _ hjoins hstate _ =>
    refine ⟨hjoins ▸ h.inOrder, .of_over ?_ ?_⟩ <;>
    · rw [hstate, afterLast]
      split_ifs <;> rfl

theorem inv_step (h : Inv first s) (m : Msg) : Inv first (step env s m) := by
  by_cases ht : turns s m
  · exact h.of_goes (goes_turn env h ht)
  · have hstays := stays_step env first ht
    exact ⟨hstays.joins_eq ▸ h.inOrder, hstays.cursor h.cursor⟩

theorem bssType_step (h : Inv first s) (m : Msg) : (step env s m).bssType = s.bssType := by
  by_cases ht : turns s m
  · exact (goes_turn env h ht).bssType_eq
  · exact (stays_step env first ht).bssType_eq

theorem joins_run_over (msgs : List Msg) (h : s.currState = .idle ∨ s.currState = .waitStart) :
    joins (run (step env) s msgs) = joins s := by
  have hover : ∀ (u : Cntl) (m : Msg), u.currState = .idle ∨ u.currState = .waitStart → ¬turns u m := by
    intro u m hu ht
    cases m <;> rcases hu with hu | hu <;> simp [turns, hu] at ht
  refine (run_invariant_all (I := fun u => joins u = joins s ∧ (u.currState = .idle ∨ u.currState = .waitStart))
    ?_ msgs s ⟨rfl, h⟩).1
  rintro u m ⟨hjoins, hu⟩
  have hstays := stays_step env 0 (hover u m hu)
  exact ⟨hstays.joins_eq.trans hjoins, hstays.settled hu⟩

theorem Inv.visits (h : Inv first s) : Visits env ssidWalk first (afterLast s) s := by
  have hrun : ∀ msgs, Inv first (run (step env) s msgs) ∧ (run (step env) s msgs).bssType = s.bssType := by
    intro msgs
    refine run_invariant_all (I := fun u => Inv first u ∧ u.bssType = s.bssType) ?_ msgs s ⟨h, rfl⟩
    rintro u m ⟨hu, htype⟩
    exact ⟨inv_step hu m, (bssType_step hu m).trans htype⟩
  refine ⟨fun msgs => (hrun msgs).1.inOrder, ?_, ?_, ?_⟩
  · intro msgs m u i hi
    replace hi : i ∈ joins (step env u m) := hi
    by_cases ht : turns u m
    · cases goes_turn env (hrun msgs).1 ht with
      | next hlt hjoins _ _ hnr _ =>
        rw [hjoins] at hi
        rcases List.mem_append.1 hi with hold | hnew
        · exact Or.inl hold
        · rw [List.mem_singleton.1 hnew]
          exact Or.inr (hlt.trans_eq hnr.symm)
      | last _ hjoins _ _ =>
        rw [hjoins] at hi
        exact Or.inl hi
    · rw [(stays_step env first ht).joins_eq] at hi
      exact Or.inl hi
  · rintro msgs m u ⟨hconnects, ht⟩ hlt
    cases goes_turn env (hrun msgs).1 ht with
    | next _ hjoins hstate _ _ _ => exact ⟨hjoins, hstate⟩
    | last hle _ _ _ => exact absurd hlt (Nat.not_lt.2 (hle hconnects))
  · rintro msgs m u ⟨hconnects, ht⟩ hle
    cases goes_turn env (hrun msgs).1 ht with
    | next hlt _ _ _ _ _ => exact absurd hlt (Nat.not_lt.2 hle)
    | last _ hjoins hstate _ =>
      have hafter : afterLast u = afterLast s := by rw [afterLast, (hrun msgs).2, afterLast]
      refine ⟨hstate.trans hafter, fun more => (joins_run_over more ?_).trans hjoins⟩
      rw [hstate, afterLast]
      split_ifs
      · exact Or.inr rfl
      · exact Or.inl rfl

/-! ### The request -/

theorem dropAdhoc_frame (s : Cntl) :
    (dropAdhoc s).posted = s.posted ∧ (dropAdhoc s).bssIdx = s.bssIdx ∧
      (dropAdhoc s).ssidBssTab = s.ssidBssTab ∧ (dropAdhoc s).bssType = s.bssType := by
  unfold dropAdhoc
  split_ifs
  · exact ⟨posted_linkDown s, bssIdx_linkDown s, ssidBssTab_linkDown s, bssType_linkDown s⟩
  · exact ⟨rfl, rfl, rfl, rfl⟩

inductive Starts (s : Cntl) (r : Request) (t : Cntl) : Prop
  | goes (hgoes : Goes 0 (r.candidates s) s.atRest t)
  | detour (hat : ¬r.atOnce s) (hposted : .disassocReq ∈ t.posted ∨ .forceJoinReq ∈ t.posted) (hjoins : joins t = [])
      (hstate : t.currState.scans = false) (htype : t.bssType = s.bssType)
  | waits (hat : ¬r.atOnce s) (hjoins : joins t = [])
      (hstate : t.currState.atCandidate = false)
      (htype : t.bssType = s.bssType)

theorem starts_ssid (ssid : ℕ → Byte) (ssidLen : ℕ) (sorted : BssTable) :
    Starts s (.ssid ssid ssidLen sorted) (cntlOidSsidProc (recordSsid s.atRest ssid ssidLen sorted)) := by
  unfold cntlOidSsidProc
  split_ifs with htop hredo hinfra
  · exact .detour (fun h => Bool.eq_false_iff.1 h.2.1 htop) (Or.inl List.mem_cons_self) rfl rfl rfl
  · exact .waits (fun h => Bool.eq_false_iff.1 h.2.1 htop) rfl rfl rfl
  · exact .detour (fun h => Bool.eq_false_iff.1 h.2.2.1 hinfra) (Or.inl List.mem_cons_self) rfl rfl rfl
  · obtain ⟨hposted, -, htab, htype⟩ := dropAdhoc_frame (recordSsid s.atRest ssid ssidLen sorted)
    have hjoins : joins (dropAdhoc (recordSsid s.atRest ssid ssidLen sorted)) = [] := by
      rw [joins, hposted]
      rfl
    dsimp only
    split_ifs with hscan
    · refine .waits (fun h => Bool.eq_false_iff.1 h.2.2.2 hscan) ?_ ?_ ?_
      · unfold startScan
        dsimp only
        split_ifs <;> exact (joins_post _ _).trans ((List.append_nil _).trans hjoins)
      · unfold startScan
        dsimp only
        split_ifs <;> rfl
      · unfold startScan
        dsimp only
        split_ifs <;> exact htype
    · have hgoes := goes_iterateOnBssTab { dropAdhoc (recordSsid s.atRest ssid ssidLen sorted) with bssIdx := 0 }
      exact .goes ((congrArg BssTable.bssNr htab ▸ hgoes).of_eq hjoins htype)

theorem starts_bssid (bssid : BitVec 48) : Starts s (.bssid bssid) (cntlOidRTBssidProc s.atRest bssid) := by
  unfold cntlOidRTBssidProc
  split
  · rename_i hnone
    have hat : ¬Request.atOnce s (.bssid bssid) := by
      rintro ⟨-, hsome, -⟩
      rw [hnone] at hsome
      exact absurd hsome (by decide)
    unfold bssidNotFound
    dsimp only
    split_ifs
    · exact .detour hat (Or.inr List.mem_cons_self) rfl rfl rfl
    · exact .waits hat rfl rfl rfl
    · exact .waits hat rfl rfl rfl
  · rename_i k _
    dsimp only
    split_ifs with hinfra
    · exact .detour (fun h => Bool.eq_false_iff.1 h.2.2 hinfra) (Or.inl List.mem_cons_self) rfl rfl rfl
    · obtain ⟨hposted, hidx, htab, htype⟩ := dropAdhoc_frame (copyTarget s.atRest k)
      obtain ⟨hposted', hidx', htab', htype'⟩ := adoptCiphers_frame (resetCiphers (dropAdhoc (copyTarget s.atRest k)))
        ((resetCiphers (dropAdhoc (copyTarget s.atRest k))).ssidBssTab.bssEntry 0)
      refine .goes (.next Nat.one_pos ?_ rfl ?_ ?_ ?_)
      · rw [joins_post, joins, hposted']
        simp only [resetCiphers, hposted, hidx]
        rfl
      · exact hidx'.trans hidx
      · exact congrArg BssTable.bssNr (htab'.trans htab)
      · exact htype'.trans htype

theorem starts (s : Cntl) (r : Request) : Starts s r (cntlIdleProc s r) := by
  unfold cntlIdleProc
  dsimp only
  split_ifs with hradio
  · refine .waits (fun h => absurd (h.1.symm.trans hradio) (by decide)) rfl rfl rfl
  · cases r with
    | ssid ssid ssidLen sorted => exact starts_ssid ssid ssidLen sorted
    | bssid bssid => exact starts_bssid bssid
    | listScan mem =>
      dsimp only
      split_ifs
      · exact .waits (fun h => h.2) rfl rfl rfl
      · exact .waits (fun h => h.2) rfl rfl rfl
    | disassociate => exact .detour (fun h => h.2) (Or.inl List.mem_cons_self) rfl rfl rfl
    | roaming tmp =>
      have hnr : (BssTable.bssTableSortByRssi tmp s.roamTab).bssNr = s.roamTab.bssNr := by
        unfold BssTable.bssTableSortByRssi
        split_ifs <;> rfl
      have hgoes := goes_iterateOnBssTab
        { s.atRest with ssidBssTab := BssTable.bssTableSortByRssi tmp s.roamTab, bssIdx := 0 }
      rw [hnr] at hgoes
      exact .goes (hgoes.of_eq rfl rfl)

theorem inv_atRest (s : Cntl) : Inv 0 s.atRest := ⟨rfl, .of_over rfl rfl⟩

theorem Starts.inv {r : Request} (h : Starts s r t) :
    t.bssType = s.bssType ∧
      ∃ first, Inv first t ∧ (.disassocReq ∉ t.posted → .forceJoinReq ∉ t.posted → first = 0) := by
  cases h with
  | goes hgoes => exact ⟨hgoes.bssType_eq, 0, (inv_atRest s).of_goes hgoes, fun _ _ => rfl⟩
  | detour _ hposted hjoins hstate htype =>
    refine ⟨htype, t.bssIdx + 1, ⟨by rw [hjoins]; rfl, fun _ => by rw [hjoins]; rfl, fun hscans => ?_⟩,
      fun hdis hforce => ?_⟩
    · exact absurd (hstate.symm.trans hscans) (by decide)
    · rcases hposted with h | h
      · exact absurd h hdis
      · exact absurd h hforce
  | waits _ hjoins hstate htype =>
    refine ⟨htype, 0, ⟨by rw [hjoins]; rfl, fun hat => ?_, fun _ => by rw [hjoins]; rfl⟩, fun _ _ => rfl⟩
    exact absurd (hstate.symm.trans hat) (by decide)

/-! ### The walk through `RoamTab` -/

/-- What a failed reassociation does, with `i` the entry behind the one that was attempted. -/
inductive Reassociates (i : ℕ) (s t : Cntl) : Prop
  | next (hi : i < s.roamTab.bssNr) (hattempts : reassocs t = reassocs s ++ [i]) (hstate : t.currState = .waitReassoc)
      (hidx : t.roamIdx = i) (hnr : t.roamTab.bssNr = s.roamTab.bssNr)
  | last (hi : s.roamTab.bssNr ≤ i) (hattempts : reassocs t = reassocs s) (hstate : t.currState = .idle)

theorem reassociates_iterateOnBssTab2 (s : Cntl) : Reassociates s.roamIdx s (iterateOnBssTab2 s) := by
  unfold iterateOnBssTab2
  split_ifs with hlt
  · exact .next hlt (reassocs_post _ _) rfl rfl rfl
  · exact .last (Nat.le_of_not_lt hlt) rfl rfl

structure RoamInv (first : ℕ) (s : Cntl) : Prop where
  inOrder : reassocs s = List.range' first (reassocs s).length
  state : s.currState = .waitReassoc ∧ s.roamIdx + 1 = first + (reassocs s).length ∨ s.currState = .idle

variable (env) in
theorem reassociates_turn (h : RoamInv first s) (hs : s.currState = .waitReassoc) :
    Reassociates (first + (reassocs s).length) s (step env s (.reassocConf false)) := by
  rcases h.state with ⟨-, hcursor⟩ | hidle
  · simp only [step, performAction, hs, if_true, cntlWaitReassocProc, Bool.false_eq_true, if_false]
    rw [← hcursor]
    cases reassociates_iterateOnBssTab2 { s with roamIdx := s.roamIdx + 1 } with
    | next hi hattempts hstate hidx hnr => exact .next hi hattempts hstate hidx hnr
    | last hi hattempts hstate => exact .last hi hattempts hstate
  · exact absurd (hs.symm.trans hidle) (by decide)

variable (env) in
theorem reassocs_step (h : RoamInv first s) (ht : ¬roamWalk.turns s m) :
    reassocs (step env s m) = reassocs s ∧
      ((step env s m).currState = s.currState ∧ (step env s m).roamIdx = s.roamIdx ∨
        (step env s m).currState = .idle) := by
  have hstate : s.currState = .waitReassoc ∨ s.currState = .idle := h.state.imp_left And.left
  cases m with
  | reassocConf success =>
    simp only [step, performAction]
    split_ifs with hs
    · cases success with
      | false => exact absurd ⟨hs, rfl⟩ ht
      | true => exact ⟨rfl, Or.inr rfl⟩
    · exact ⟨rfl, Or.inl ⟨rfl, rfl⟩⟩
  | beacon st bcn =>
    simp only [step]
    split_ifs <;> exact ⟨rfl, Or.inl ⟨rfl, rfl⟩⟩
  | _ => rcases hstate with hs | hs <;> simp [step, performAction, hs]

theorem roamInv_step (h : RoamInv first s) (m : Msg) : RoamInv first (step env s m) := by
  by_cases ht : roamWalk.turns s m
  · obtain ⟨hs, rfl⟩ := ht
    cases reassociates_turn env h hs with
    | next _ hattempts hstate hidx _ =>
      have hlen : (reassocs (step env s (.reassocConf false))).length = (reassocs s).length + 1 := by
        rw [hattempts]
        exact List.length_append
      refine ⟨?_, Or.inl ⟨hstate, by omega⟩⟩
      rw [hlen, List.range'_1_concat, ← h.inOrder, hattempts]
    | last _ hattempts hstate => exact ⟨hattempts ▸ h.inOrder, Or.inr hstate⟩
  · obtain ⟨hattempts, hsame⟩ := reassocs_step env h ht
    refine ⟨hattempts ▸ h.inOrder, ?_⟩
    rcases hsame with ⟨hstate, hidx⟩ | hidle
    · rw [hstate, hidx, hattempts]
      exact h.state
    · exact Or.inr hidle

theorem reassocs_run_idle (msgs : List Msg) (h : s.currState = .idle) :
    reassocs (run (step env) s msgs) = reassocs s := by
  refine (run_invariant_all (I := fun u => reassocs u = reassocs s ∧ u.currState = .idle) ?_ msgs s ⟨rfl, h⟩).1
  rintro u m ⟨hattempts, hidle⟩
  cases m with
  | beacon st bcn =>
    simp only [step]
    split_ifs <;> exact ⟨hattempts, hidle⟩
  | _ => simpa [step, performAction, hidle] using hattempts

theorem RoamInv.visits (h : RoamInv first s) : Visits env roamWalk first .idle s := by
  have hrun : ∀ msgs, RoamInv first (run (step env) s msgs) := fun msgs =>
    run_invariant_all (I := RoamInv first) (fun _ m hu => roamInv_step hu m) msgs s h
  refine ⟨fun msgs => (hrun msgs).inOrder, ?_, ?_, ?_⟩
  · intro msgs m u i hi
    replace hi : i ∈ reassocs (step env u m) := hi
    by_cases ht : roamWalk.turns u m
    · obtain ⟨hs, rfl⟩ := ht
      cases reassociates_turn env (hrun msgs) hs with
      | next hlt hattempts _ _ hnr =>
        rw [hattempts] at hi
        rcases List.mem_append.1 hi with hold | hnew
        · exact Or.inl hold
        · rw [List.mem_singleton.1 hnew]
          exact Or.inr (hlt.trans_eq hnr.symm)
      | last _ hattempts _ =>
        rw [hattempts] at hi
        exact Or.inl hi
    · rw [(reassocs_step env (hrun msgs) ht).1] at hi
      exact Or.inl hi
  · rintro msgs m u ⟨hs, rfl⟩ hlt
    cases reassociates_turn env (hrun msgs) hs with
    | next _ hattempts hstate _ _ => exact ⟨hattempts, hstate⟩
    | last hle _ _ => exact absurd hlt (Nat.not_lt.2 hle)
  · rintro msgs m u ⟨hs, rfl⟩ hle
    cases reassociates_turn env (hrun msgs) hs with
    | next hlt _ _ _ _ => exact absurd hlt (Nat.not_lt.2 hle)
    | last _ hattempts hstate => exact ⟨hstate, fun more => (reassocs_run_idle more hstate).trans hattempts⟩

/-! ### All requests -/

/-- **Candidate iteration.** Whatever the candidates are, whatever comes of the joins, authentications and
associations, and whatever beacons enter into the table meanwhile: the attempts of a request go through
`SsidBssTab` in order, from the first candidate on unless the station has to leave its access point before or
to join a known one, each at most once and none beyond the table. None behind is left out, and after the last
failure the machine is idle, or starts an ad-hoc network, without further attempts. The walk through `RoamTab`,
which only goes on from a reassociation, is one of this kind too. -/
theorem visits_inOrder (env : Env) (s : Cntl) (r : Request) :
    (∃ first, Visits env ssidWalk first (afterLast s) (cntlIdleProc s r) ∧
      (.disassocReq ∉ (cntlIdleProc s r).posted → .forceJoinReq ∉ (cntlIdleProc s r).posted → first = 0)) ∧
    (r.atOnce s → Connects s →
      if 0 < r.candidates s then
        joins (cntlIdleProc s r) = [0] ∧ (cntlIdleProc s r).currState = .waitJoin
      else joins (cntlIdleProc s r) = [] ∧ (cntlIdleProc s r).currState = afterLast s) ∧
    Visits env roamWalk (s.roamIdx + 1) .idle { s with currState := .waitReassoc, posted := [] } := by
  refine ⟨?_, fun hat hconnects => ?_, ?_⟩
  · obtain ⟨htype, first, hinv, hfirst⟩ := (starts s r).inv
    have hafter : afterLast (cntlIdleProc s r) = afterLast s := by rw [afterLast, htype, afterLast]
    exact ⟨first, hafter ▸ hinv.visits, hfirst⟩
  · cases starts s r with
    | goes hgoes =>
      cases hgoes with
      | next hlt hjoins hstate _ _ _ =>
        rw [if_pos hlt]
        exact ⟨hjoins, hstate⟩
      | last hle hjoins hstate _ =>
        rw [if_neg (Nat.not_lt.2 (hle hconnects))]
        exact ⟨hjoins, hstate⟩
    | detour hno _ _ _ _ => exact absurd hat hno
    | waits hno _ _ _ => exact absurd hat hno
  · exact RoamInv.visits ⟨rfl, Or.inl ⟨rfl, rfl⟩⟩

def sampleEnv : Env where
  peer :=
    { getCentChByHtinfo := fun _ _ => 0
      bssCipherParse := fun _ => ⟨false, zeroMemory, zeroMemory, 0, 0, Ibss.wepDisabled⟩
      controlChannel := fun st _ => st.channel }
  linkUp := fun s _ => s.active

def sampleCntl (bssType : NetworkType) (infraOn : Bool) : Cntl where
  currState := .idle
  radioOff := false
  bssType := bssType
  authMode := 0
  wepStatus := Ibss.wepDisabled
  pairCipher := Ibss.wepDisabled
  groupCipher := Ibss.wepDisabled
  rsnCapability := 0
  bMixCipher := false
  wpaSupplicantUP := 0
  ieee8021X := false
  bAutoReconnect := false
  bNotFirstScan := true
  connectinfoChannel := 0
  connectinfoflag := false
  bConfigChanged := false
  bIEEE80211H := false
  active := ⟨1, zeroMemory, 0, 6, false, infraOn, infraOn⟩
  ssid := zeroMemory
  ssidLen := 0
  auxChannel := 0
  currReqIsFromNdis := false
  bssIdx := 0
  roamIdx := 0
  scanTab := BssTable.fresh fun _ => none
  ssidBssTab := BssTable.fresh fun _ => none
  roamTab := BssTable.fresh fun _ => none
  infraOn := infraOn
  adhocOn := false
  scanInProgress := false
  posted := []

def sampleRequest (n : ℕ) : Request := .ssid zeroMemory 0 { BssTable.fresh fun _ => none with bssNr := n }

/-- A connected station that is told to go to one of two others leaves out the first of them; and an ad-hoc
station does not end up idle. -/
theorem not_visits_all :
    ¬Visits sampleEnv ssidWalk 0 .idle (cntlIdleProc (sampleCntl .infra true) (sampleRequest 2)) ∧
      ¬Visits sampleEnv ssidWalk 0 .idle (cntlIdleProc (sampleCntl .adhoc false) (sampleRequest 1)) := by
  constructor
  · intro h
    have hlist := h.inOrder [.disassocConf]
    exact absurd hlist (by decide)
  · intro h
    have hidle := (h.ends [] (.joinConf false .adhoc false) ⟨Or.inl rfl, rfl, rfl⟩ (by decide)).1
    exact absurd hidle (by decide)

end Mt7610u.Mlme.Connect
