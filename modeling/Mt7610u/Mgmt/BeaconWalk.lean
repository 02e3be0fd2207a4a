import Mt7610u.Mgmt.BeaconAgree

/-! # The elements that the beacon parser looks at

A walk over a frame that keeps no contents: which elements are looked at, which are kept in the variable-IE buffer
and which are gathered for the WSC element. -/

namespace Mt7610u.Mgmt.Beacon

open Mt7610u.Lib Mt7610u.Mlme

/-! ### The walk -/

structure Look where
  pos : ℕ
  htCap : Bool
  wscLen : ℕ
deriving DecidableEq

structure Walk where
  pos : ℕ
  ssid : Bool
  rates : Bool
  channel : Bool
  htCap : Bool
  kept : List ℕ
  gathered : List ℕ
  looked : List Look
  jumped : Bool

namespace Walk

variable (a : Arrival)

def lengthVIE (w : Walk) : ℕ := (w.kept.map fun p => a.len p + 2).sum

def wscLen (w : Walk) : ℕ := (w.gathered.map fun p => a.len p - 4).sum

/-- The element at `w.pos` is looked at. -/
def look (w : Walk) : Walk :=
  { w with looked := ⟨w.pos, w.htCap, w.wscLen a⟩ :: w.looked, pos := w.pos + 2 + a.len w.pos }

/-- The element at `p` is kept. -/
def keep (w : Walk) (p : ℕ) : Walk := { w with kept := p :: w.kept }

/-- The element at `p` is gathered. -/
def gather (w : Walk) (p : ℕ) : Walk := { w with gathered := p :: w.gathered }

def jump (w : Walk) : Walk := { w with jumped := true }

end Walk

/-- What becomes of the element at `p` that is looked at. -/
def walkArm (pAd : Adapter) (a : Arrival) (p : ℕ) (w : Walk) : Walk :=
  let len := a.len p
  match Eid.ofByte (a.eid p) with
  | .ssid => if w.ssid then w else if len ≤ 32 then { w with ssid := true } else w.jump
  | .suppRates => if len ≤ 12 then { w with rates := true } else w.jump
  | .dsParm =>
    if len = 1 ∧ (pAd.ifOpModeOnSta → pAd.channelSanity (a.octet p 0)) then { w with channel := true } else w.jump
  | .cfParm => if len = 6 then w else w.jump
  | .ibssParm => if len = 2 then w else w.jump
  | .htCap =>
    if 26 ≤ len then
      if pAd.ifOpModeOnSta then { w with htCap := true }.keep p else { w with htCap := true }
    else w
  | .addHt => if 22 ≤ len ∧ pAd.ifOpModeOnSta then w.keep p else w
  | .vendorSpecific =>
    if a.hasOui p wpaOui then w.keep p
    else if a.hasOui p wpsOui ∧ a.peerWscIe ∧ w.wscLen a < 512 then if len < 4 then w.jump else w.gather p
    else w
  | .rsn => if equalMemory (fun i => a.octet p (2 + i)) (mem rsnOui) 3 then w.keep p else w
  | .country => if pAd.flags.countryIe then w.keep p else w
  | .qbssLoad => if len = 5 then w.keep p else w
  | _ => w

/-- The walk from `w` on. -/
def walk (pAd : Adapter) (a : Arrival) : ℕ → Walk → Walk
  | 0, w => w
  | turns + 1, w =>
    if w.pos + 2 + a.len w.pos ≤ a.msgLen then
      if 1024 ≤ w.lengthVIE a + a.len w.pos + 2 then w
      else
        let w' := walkArm pAd a w.pos (w.look a)
        if w'.jumped then w' else walk pAd a turns w'
    else w

/-- The walk over a frame; `htCap` says whether the caller's list has HT capabilities already. -/
def walkFrame (pAd : Adapter) (a : Arrival) (htCap : Bool) : Walk :=
  walk pAd a a.msgLen ⟨firstElement, false, false, false, htCap, [], [], [], false⟩

/-! ### The loop of the parser -/

/-- The elements that the parser looks at, each with the state before it, and the position of the last test of the
loop, unless an arm has left it. -/
def visits (pAd : Adapter) (a : Arrival) : ℕ → ℕ → NewState → List (ℕ × NewState) × Option ℕ
  | 0, p, _ => ([], some p)
  | turns + 1, p, s =>
    if p + 2 + a.len p ≤ a.msgLen then
      if 1024 ≤ s.loc.lengthVIE + a.len p + 2 then ([], some p)
      else
        match newArm pAd a p s with
        | .next s' =>
          let r := visits pAd a turns (p + 2 + a.len p) s'
          ((p, s) :: r.1, r.2)
        | _ => ([(p, s)], none)
    else ([], some p)

def payload (a : Arrival) (p : ℕ) : List Byte := readAt a.msg (p + 6) (a.len p - 4)

structure Tracks (a : Arrival) (n : NewState) (w : Walk) : Prop where
  sanity : n.loc.sanity = sanityBits w.ssid w.rates w.channel
  htCap : w.htCap = decide (n.ieList.htCapabilityLen ≠ 0)
  bssid : ∀ i < 6, n.ieList.bssid i = a.msg (16 + i)
  lengthVIE : n.loc.lengthVIE = w.lengthVIE a
  vie : Lib.read n.vie (w.lengthVIE a) = (w.kept.reverse.map a.element).flatten
  peerWscIe : n.loc.pPeerWscIe.isSome = a.peerWscIe
  wscLen : n.loc.peerWscIeLen = w.wscLen a
  wsc : ∀ m, n.loc.pPeerWscIe = some m → Lib.read m (w.wscLen a) = (w.gathered.reverse.map (payload a)).flatten

inductive Leads (a : Arrival) (w : Walk) : Flow NewState → Prop
  | next {n : NewState} (h : Tracks a n w) (hjumped : w.jumped = false) : Leads a w (.next n)
  | sanityCheck {n : NewState} (h : Tracks a n w) (hjumped : w.jumped = true) : Leads a w (.sanityCheck n)
  | reject (hjumped : w.jumped = true) : Leads a w .reject
  | fault (hjumped : w.jumped = true) : Leads a w .fault

namespace Tracks

variable {a : Arrival} {n : NewState} {w : Walk} {p : ℕ}

theorem look (h : Tracks a n w) : Tracks a n (w.look a) := { h with }

theorem keep (h : Tracks a n w) (p : ℕ) : Tracks a (n.copyVIE a p) (w.keep p) where
  sanity := h.sanity
  htCap := h.htCap
  bssid := h.bssid
  lengthVIE := by
    show n.loc.lengthVIE + (a.len p + 2) = _
    rw [h.lengthVIE, Nat.add_comm]
    rfl
  vie := by
    have hlen : (w.keep p).lengthVIE a = w.lengthVIE a + (a.element p).length := by
      rw [Nat.add_comm]
      exact congrArg (· + _) (length_readAt _ _ _).symm
    show Lib.read (copy n.vie n.loc.lengthVIE (a.element p)) _ = ((p :: w.kept).reverse.map a.element).flatten
    rw [hlen, h.lengthVIE, read_copy_append, h.vie]
    simp
  peerWscIe := h.peerWscIe
  wscLen := h.wscLen
  wsc := h.wsc

theorem gather {vie : ℕ → Byte} {ieList : BcnIeList} {loc : Locals} {wsc : ℕ → Byte} (h : Tracks a ⟨ieList, vie, loc⟩ w)
    (hwsc : loc.pPeerWscIe = some wsc) (p : ℕ) :
    Tracks a ⟨ieList, vie, { loc with
      pPeerWscIe := some (copy wsc loc.peerWscIeLen (readAt a.msg (p + 6) (a.len p - 4)))
      peerWscIeLen := loc.peerWscIeLen + (a.len p - 4) }⟩ (w.gather p) where
  sanity := h.sanity
  htCap := h.htCap
  bssid := h.bssid
  lengthVIE := h.lengthVIE
  vie := h.vie
  peerWscIe := by
    rw [← h.peerWscIe]
    show true = loc.pPeerWscIe.isSome
    rw [hwsc]
    rfl
  wscLen := by
    show loc.peerWscIeLen + (a.len p - 4) = _
    rw [show loc.peerWscIeLen = w.wscLen a from h.wscLen, Nat.add_comm]
    rfl
  wsc := by
    intro m hm
    obtain rfl := Option.some.inj hm
    have hlen : (w.gather p).wscLen a = w.wscLen a + (payload a p).length := by
      rw [Nat.add_comm]
      exact congrArg (· + _) (length_readAt _ _ _).symm
    rw [hlen, show loc.peerWscIeLen = w.wscLen a from h.wscLen]
    show Lib.read (copy wsc (w.wscLen a) (payload a p)) _ = ((p :: w.gathered).reverse.map (payload a)).flatten
    rw [read_copy_append, h.wsc wsc hwsc]
    simp

theorem vhtCap (h : Tracks a n w) (hj : w.jumped = false) (pAd : Adapter) (len : ℕ) (octet : ℕ → Byte) :
    Leads a w (vhtCapArm pAd len octet n) := by
  unfold vhtCapArm
  split
  · exact .next { h with } hj
  · exact .next h hj

theorem vendor (pAd : Adapter) (h : Tracks a n w) (hj : w.jumped = false)
    (hv : Eid.ofByte (a.eid p) = .vendorSpecific) : Leads a (walkArm pAd a p w) (newArm pAd a p n) := by
  obtain ⟨ieList, vie, loc⟩ := n
  unfold newArm walkArm
  rw [hv]
  dsimp only
  have hskip (hwps : ¬ a.hasOui p wpsOui) : ¬ (a.hasOui p wpsOui ∧ a.peerWscIe ∧ w.wscLen a < 512) :=
    fun hc => hwps hc.1
  by_cases hral : a.hasOui p ralinkOui ∧ a.len p = 7
  · obtain ⟨hwpa, hwps⟩ := Sim.not_wpa_wps (Or.inl hral.1)
    rw [if_pos hral, if_neg hwpa, if_neg (hskip hwps)]
    exact .next { h with } hj
  rw [if_neg hral]
  by_cases hpre : ieList.htCapabilityLen = 0 ∧ a.hasOui p preNHtOui ∧ 4 ≤ a.len p ∧ pAd.opModeSta
  · obtain ⟨hwpa, hwps⟩ := Sim.not_wpa_wps (Or.inr (Or.inl hpre.2.1))
    rw [if_pos hpre, if_neg hwpa, if_neg (hskip hwps)]
    by_cases h51 : a.octet p 3 = 51 ∧ 30 ≤ a.len p ∧ ieList.htCapabilityLen = 0
    · simp only [if_pos h51]
      split
      · exact .next { h with } hj
      · exact .next { h with } hj
    · simp only [if_neg h51]
      split
      · exact .next { h with } hj
      · exact .next h hj
  rw [if_neg hpre]
  by_cases hwpa : a.hasOui p wpaOui
  · rw [if_pos hwpa, if_pos hwpa]
    exact .next (h.keep p) hj
  rw [if_neg hwpa, if_neg hwpa]
  by_cases hparm : a.hasOui p wmeParmElem ∧ a.len p = 24
  · obtain ⟨-, hwps⟩ := Sim.not_wpa_wps (Or.inr (Or.inr (Or.inl hparm.1)))
    rw [if_pos hparm, if_neg (hskip hwps)]
    exact .next { h with } hj
  rw [if_neg hparm]
  by_cases hinfo : a.hasOui p wmeInfoElem ∧ a.len p = 7
  · obtain ⟨-, hwps⟩ := Sim.not_wpa_wps (Or.inr (Or.inr (Or.inr hinfo.1)))
    rw [if_pos hinfo, if_neg (hskip hwps)]
    exact .next { h with } hj
  rw [if_neg hinfo]
  by_cases hwps : a.hasOui p wpsOui
  · rw [if_pos hwps]
    have hbuf : loc.pPeerWscIe.isSome = a.peerWscIe := h.peerWscIe
    have hwsc : loc.peerWscIeLen = w.wscLen a := h.wscLen
    cases hloc : loc.pPeerWscIe with
    | none =>
      have hno : ¬ (a.hasOui p wpsOui ∧ a.peerWscIe ∧ w.wscLen a < 512) := by
        rw [← hbuf, hloc]
        simp
      rw [if_neg hno]
      exact .next h hj
    | some wsc =>
      have hbuf' : a.peerWscIe = true := by rw [← hbuf, hloc]; rfl
      dsimp only
      by_cases hroom : w.wscLen a < 512
      · rw [if_pos (show loc.peerWscIeLen < 512 by omega), if_pos ⟨hwps, hbuf', hroom⟩]
        split
        · exact .fault rfl
        · exact .next (h.gather hloc p) hj
      · rw [if_neg (show ¬ loc.peerWscIeLen < 512 by omega), if_neg fun hc => hroom hc.2.2]
        exact .next h hj
  · rw [if_neg hwps, if_neg (hskip hwps)]
    exact .next h hj

theorem arm (pAd : Adapter) (h : Tracks a n w) (hj : w.jumped = false) (p : ℕ) :
    Leads a (walkArm pAd a p w) (newArm pAd a p n) := by
  by_cases hvendor : Eid.ofByte (a.eid p) = .vendorSpecific
  · exact h.vendor pAd hj hvendor
  obtain ⟨ieList, vie, loc⟩ := n
  have hsanity : loc.sanity = sanityBits w.ssid w.rates w.channel := h.sanity
  unfold newArm walkArm
  cases heid : Eid.ofByte (a.eid p) with
  | ssid =>
    dsimp only
    rw [hsanity]
    simp only [sanityBits_ssid, sanityBits_or_one]
    split
    · exact .next h hj
    · split
      · exact .next { h with sanity := rfl } hj
      · exact .sanityCheck { h with } rfl
  | suppRates =>
    dsimp only
    rw [hsanity, sanityBits_or_two]
    split
    · exact .next { h with sanity := rfl } hj
    · exact .sanityCheck { h with } rfl
  | htCap =>
    dsimp only
    split
    · split
      · refine .next (keep ?_ p) hj
        exact { h with htCap := rfl }
      · exact .next { h with htCap := rfl } hj
    · exact .next h hj
  | addHt =>
    dsimp only
    by_cases hlen : 22 ≤ a.len p
    · rw [if_pos hlen]
      by_cases hsta : pAd.ifOpModeOnSta
      · rw [if_pos hsta, if_pos ⟨hlen, hsta⟩]
        refine .next (keep ?_ p) hj
        exact { h with }
      · rw [if_neg hsta, if_neg fun hc => hsta hc.2]
        exact .next { h with } hj
    · rw [if_neg hlen, if_neg fun hc => hlen hc.1]
      exact .next h hj
  | secondaryChOffset =>
    dsimp only
    split
    · exact .next { h with } hj
    · exact .next h hj
  | dsParm =>
    dsimp only
    rw [hsanity, sanityBits_or_four]
    by_cases hlen : a.len p = 1
    · rw [if_pos hlen]
      by_cases hch : pAd.ifOpModeOnSta && !pAd.channelSanity (a.octet p 0)
      · have hno : ¬ (a.len p = 1 ∧ (pAd.ifOpModeOnSta → pAd.channelSanity (a.octet p 0))) := by
          intro hc
          obtain ⟨hsta, hbad⟩ := Bool.and_eq_true_iff.1 hch
          simp [hc.2 hsta] at hbad
        rw [if_pos hch, if_neg hno]
        exact .sanityCheck { h with } rfl
      · have hyes : a.len p = 1 ∧ (pAd.ifOpModeOnSta → pAd.channelSanity (a.octet p 0)) := by
          refine ⟨hlen, fun hsta => ?_⟩
          simpa [hsta] using hch
        rw [if_neg hch, if_pos hyes]
        exact .next { h with sanity := rfl } hj
    · rw [if_neg hlen, if_neg fun hc => hlen hc.1]
      exact .sanityCheck { h with } rfl
  | cfParm =>
    dsimp only
    split
    · exact .next { h with } hj
    · exact .reject rfl
  | ibssParm =>
    dsimp only
    split
    · exact .next { h with } hj
    · exact .reject rfl
  | tim =>
    dsimp only
    split
    · exact .next { h with } hj
    · exact .next h hj
  | channelSwitch =>
    dsimp only
    split
    · exact .next { h with } hj
    · exact .next h hj
  | extSuppRates =>
    dsimp only
    split
    · exact .next { h with } hj
    · exact .next h hj
  | erp =>
    dsimp only
    split
    · exact .next { h with } hj
    · exact .next h hj
  | aironetCkip =>
    dsimp only
    split
    · exact .next h hj
    · exact .next { h with } hj
  | apTxPower =>
    dsimp only
    split
    · exact .next h hj
    · split
      · exact .next { h with } hj
      · exact .next h hj
  | rsn =>
    dsimp only
    split
    · exact .next (h.keep p) hj
    · exact .next h hj
  | country =>
    dsimp only
    split
    · exact .next (h.keep p) hj
    · exact .next h hj
  | qbssLoad =>
    dsimp only
    split
    · refine .next (keep ?_ p) hj
      exact { h with }
    · exact .next h hj
  | extCapability =>
    dsimp only
    split
    · exact .next { h with } hj
    · exact h.vhtCap hj pAd _ _
  | vhtCap => exact h.vhtCap hj pAd _ _
  | vhtOp =>
    dsimp only
    split
    · exact .next { h with } hj
    · exact .next h hj
  | vendorSpecific => exact absurd heid hvendor
  | fhParm => exact .next h hj
  | other => exact .next h hj

end Tracks

/-! ### The loop -/

theorem walkArm_pos_looked (pAd : Adapter) (a : Arrival) (p : ℕ) (w : Walk) :
    (walkArm pAd a p w).pos = w.pos ∧ (walkArm pAd a p w).looked = w.looked := by
  unfold walkArm
  dsimp only
  cases Eid.ofByte (a.eid p) <;> dsimp only <;> (try split_ifs) <;> exact ⟨rfl, rfl⟩

section Loop

variable (pAd : Adapter) (a : Arrival)

theorem walk_succ (turns : ℕ) (w : Walk) : walk pAd a (turns + 1) w =
    if w.pos + 2 + a.len w.pos ≤ a.msgLen then
      if 1024 ≤ w.lengthVIE a + a.len w.pos + 2 then w
      else if (walkArm pAd a w.pos (w.look a)).jumped then walkArm pAd a w.pos (w.look a)
      else walk pAd a turns (walkArm pAd a w.pos (w.look a)) else w := rfl

theorem visits_succ (turns p : ℕ) (s : NewState) : visits pAd a (turns + 1) p s =
    if p + 2 + a.len p ≤ a.msgLen then
      if 1024 ≤ s.loc.lengthVIE + a.len p + 2 then ([], some p)
      else
        match newArm pAd a p s with
        | .next s' =>
          ((p, s) :: (visits pAd a turns (p + 2 + a.len p) s').1, (visits pAd a turns (p + 2 + a.len p) s').2)
        | _ => ([(p, s)], none)
    else ([], some p) := rfl

theorem elements_succ {σ : Type} (lengthVIE : σ → ℕ) (arm : ℕ → σ → Flow σ) (turns p : ℕ) (s : σ) :
    elements a lengthVIE arm (turns + 1) p s =
      if p + 2 + a.len p ≤ a.msgLen then
        if 1024 ≤ lengthVIE s + a.len p + 2 then .next s
        else
          match arm p s with
          | .next s => elements a lengthVIE arm turns (p + 2 + a.len p) s
          | r => r
      else .next s := rfl

theorem step_cases (turns : ℕ) {n : NewState} {w : Walk} (h : Tracks a n w) (hj : w.jumped = false) :
    (walk pAd a (turns + 1) w = w ∧ visits pAd a (turns + 1) w.pos n = ([], some w.pos) ∧
        elements a (fun s => s.loc.lengthVIE) (newArm pAd a) (turns + 1) w.pos n = .next n) ∨
      (w.pos + 2 + a.len w.pos ≤ a.msgLen ∧ w.lengthVIE a + a.len w.pos + 2 < 1024) ∧
        ((∃ n' w', newArm pAd a w.pos n = .next n' ∧ walkArm pAd a w.pos (w.look a) = w' ∧
            Tracks a n' w' ∧ w'.jumped = false ∧
            walk pAd a (turns + 1) w = walk pAd a turns w' ∧
            visits pAd a (turns + 1) w.pos n =
              ((w.pos, n) :: (visits pAd a turns w'.pos n').1, (visits pAd a turns w'.pos n').2) ∧
            elements a (fun s => s.loc.lengthVIE) (newArm pAd a) (turns + 1) w.pos n =
              elements a (fun s => s.loc.lengthVIE) (newArm pAd a) turns w'.pos n') ∨
          ∃ w', walkArm pAd a w.pos (w.look a) = w' ∧ w'.jumped = true ∧ Leads a w' (newArm pAd a w.pos n) ∧
            walk pAd a (turns + 1) w = w' ∧ visits pAd a (turns + 1) w.pos n = ([(w.pos, n)], none) ∧
            elements a (fun s => s.loc.lengthVIE) (newArm pAd a) (turns + 1) w.pos n = newArm pAd a w.pos n) := by
  rw [walk_succ, visits_succ, elements_succ]
  by_cases htest : w.pos + 2 + a.len w.pos ≤ a.msgLen
  swap
  · exact Or.inl ⟨if_neg htest, if_neg htest, if_neg htest⟩
  rw [if_pos htest, if_pos htest, if_pos htest]
  by_cases hroom : 1024 ≤ w.lengthVIE a + a.len w.pos + 2
  · have hroomN : 1024 ≤ n.loc.lengthVIE + a.len w.pos + 2 := by
      rw [h.lengthVIE]
      exact hroom
    exact Or.inl ⟨if_pos hroom, if_pos hroomN, if_pos hroomN⟩
  have hroomN : ¬ 1024 ≤ n.loc.lengthVIE + a.len w.pos + 2 := by
    rw [h.lengthVIE]
    exact hroom
  rw [if_neg hroom, if_neg hroomN, if_neg hroomN]
  refine Or.inr ⟨⟨htest, by omega⟩, ?_⟩
  have hlead := h.look.arm pAd hj w.pos
  have hpos : (walkArm pAd a w.pos (w.look a)).pos = w.pos + 2 + a.len w.pos :=
    (walkArm_pos_looked pAd a w.pos (w.look a)).1
  generalize walkArm pAd a w.pos (w.look a) = w' at hlead hpos ⊢
  generalize newArm pAd a w.pos n = r at hlead ⊢
  cases hlead with
  | @next n' h' hj' =>
    refine Or.inl ⟨n', w', rfl, rfl, h', hj', ?_, ?_, ?_⟩
    · rw [hj']
      rfl
    · rw [hpos]
    · rw [hpos]
  | @sanityCheck n' h' hj' => exact Or.inr ⟨w', rfl, hj', .sanityCheck h' hj', if_pos hj', rfl, rfl⟩
  | reject hj' => exact Or.inr ⟨w', rfl, hj', .reject hj', if_pos hj', rfl, rfl⟩
  | fault hj' => exact Or.inr ⟨w', rfl, hj', .fault hj', if_pos hj', rfl, rfl⟩

/-- **The loop.** The walk ends where the parser's loop does, in a state that it tracks. -/
theorem tracks_loop (turns : ℕ) : ∀ {n : NewState} {w : Walk}, Tracks a n w → w.jumped = false →
    Leads a (walk pAd a turns w) (elements a (fun s => s.loc.lengthVIE) (newArm pAd a) turns w.pos n) := by
  induction turns with
  | zero =>
    intro n w h hj
    exact .next h hj
  | succ turns ih =>
    intro n w h hj
    rcases step_cases pAd a turns h hj with ⟨hw, -, he⟩ |
      ⟨-, ⟨n', w', -, -, h', hj', hw, -, he⟩ | ⟨w', -, hj', hlead, hw, -, he⟩⟩
    · rw [hw, he]
      exact .next h hj
    · rw [hw, he]
      exact ih h' hj'
    · rw [hw, he]
      exact hlead

theorem visits_last (turns : ℕ) : ∀ {n : NewState} {w : Walk}, Tracks a n w → w.jumped = false →
    (visits pAd a turns w.pos n).2 =
      if (walk pAd a turns w).jumped then none else some (walk pAd a turns w).pos := by
  induction turns with
  | zero =>
    intro n w h hj
    show some w.pos = if w.jumped then none else some w.pos
    rw [hj]
    rfl
  | succ turns ih =>
    intro n w h hj
    rcases step_cases pAd a turns h hj with ⟨hw, hv, -⟩ |
      ⟨-, ⟨n', w', -, -, h', hj', hw, hv, -⟩ | ⟨w', -, hj', -, hw, hv, -⟩⟩
    · rw [hw, hv, hj]
      rfl
    · rw [hw, hv]
      exact ih h' hj'
    · rw [hw, hv, hj']
      rfl

/-- What holds of every element that the parser looks at, by the walk: `Q` is asked of an element and the parser's
state, `Q'` of what the walk knows. -/
theorem forall_visits_iff {Q : ℕ × NewState → Prop} {Q' : Look → Prop}
    (hQ : ∀ n w, Tracks a n w → w.pos + 2 + a.len w.pos ≤ a.msgLen → w.lengthVIE a + a.len w.pos + 2 < 1024 →
      (Q (w.pos, n) ↔ Q' ⟨w.pos, w.htCap, w.wscLen a⟩)) (turns : ℕ) :
    ∀ {n : NewState} {w : Walk}, Tracks a n w → w.jumped = false →
      ((∀ l ∈ (walk pAd a turns w).looked, Q' l) ↔
        (∀ l ∈ w.looked, Q' l) ∧ ∀ v ∈ (visits pAd a turns w.pos n).1, Q v) := by
  induction turns with
  | zero =>
    intro n w h hj
    exact ⟨fun hl => ⟨hl, List.forall_mem_nil _⟩, fun hl => hl.1⟩
  | succ turns ih =>
    intro n w h hj
    have hlooked (w' : Walk) (hw' : walkArm pAd a w.pos (w.look a) = w') :
        w'.looked = ⟨w.pos, w.htCap, w.wscLen a⟩ :: w.looked := by
      rw [← hw']
      exact (walkArm_pos_looked pAd a w.pos (w.look a)).2
    rcases step_cases pAd a turns h hj with ⟨hw, hv, -⟩ |
      ⟨⟨htest, hroom⟩, ⟨n', w', -, hw', h', hj', hw, hv, -⟩ | ⟨w', hw', -, -, hw, hv, -⟩⟩
    · rw [hw, hv]
      exact ⟨fun hl => ⟨hl, List.forall_mem_nil _⟩, fun hl => hl.1⟩
    · rw [hw, hv, ih h' hj', hlooked w' hw', List.forall_mem_cons, List.forall_mem_cons,
        hQ n w h htest hroom]
      tauto
    · rw [hw, hv, hlooked w' hw', List.forall_mem_cons, List.forall_mem_singleton, hQ n w h htest hroom]
      tauto

end Loop

theorem tracks_start (a : Arrival) (ieList : BcnIeList) (vie : ℕ → Byte) :
    Tracks a ⟨ieList.start a, vie, Locals.start a⟩
      ⟨firstElement, false, false, false, decide (ieList.htCapabilityLen ≠ 0), [], [], [], false⟩ where
  sanity := by
    show 0#8 = sanityBits false false false
    decide
  htCap := rfl
  bssid i hi := if_pos hi
  lengthVIE := rfl
  vie := rfl
  peerWscIe := by
    show (if a.peerWscIe then some zeroMemory else none : Option (ℕ → Byte)).isSome = a.peerWscIe
    cases a.peerWscIe <;> rfl
  wscLen := rfl
  wsc _ _ := rfl

end Mt7610u.Mgmt.Beacon
