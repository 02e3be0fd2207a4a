import Mt7610u.Lib.RunningMax
import Mt7610u.Wpa.FourWay

/-! # Group keys over a network that repeats and reorders

The group messages 1 of an authenticator, brought to the station in any order and any number of times. -/

namespace Mt7610u.Wpa

open Lib Crypto Runs

/-- A group message 1 that is under way: its counter and arguments, and what the system gives at both ends. -/
structure Rekey where
  counter : Bytes 8
  args : EapolArgs
  sender : ConstructEnv
  input : Input

variable {suite : Suite} {ap : MacTableEntry} {s s' : Sta} {r : Rekey} {rs : List Rekey} {w : WepStatus}

namespace Rekey

def value (r : Rekey) : ℕ := counterValue r.counter

def idx (r : Rekey) : ℕ := r.args.defaultKeyIdx.toNat

def key (w : WepStatus) (r : Rekey) : CipherKey := sharedKeyOf w r.args.gtk (gtkLen w)

def msg (suite : Suite) (ap : MacTableEntry) (r : Rekey) : EapolPacket :=
  constructEapolMsg suite r.sender { ap with rCounter := r.counter } .groupMsg1 r.args

end Rekey

def deliver (suite : Suite) (s : Sta) (r : Rekey) : Sta := wpaEAPOLKeyAction suite s r.input

/-! ### The keys of a station -/

/-- The group keys, and the counter up to which no more of them are taken. -/
structure Keyring where
  counter : ℕ
  current : ℕ
  key : Fin 4 → CipherKey
  secured : Bool

def Sta.keyring (s : Sta) : Keyring :=
  ⟨stored s, s.staCfg.defaultKeyId, s.sharedKey, s.staCfg.portSecured && s.entry.portSecured⟩

/-- No message is newer than `r`, and only repetitions of it are as new. -/
def Newest (rs : List Rekey) (r : Rekey) : Prop :=
  ∀ r' ∈ rs, r'.value ≤ r.value ∧ (r'.value = r.value → r'.args = r.args)

namespace Keyring

def announce (w : WepStatus) (k : Keyring) (r : Rekey) : Keyring :=
  if k.counter < r.value then ⟨r.value, r.idx, fun i => if i.1 = r.idx then r.key w else k.key i, true⟩ else k

/-- The key of `r` is there and in use. -/
structure Uses (w : WepStatus) (k : Keyring) (r : Rekey) : Prop where
  current : k.current = r.idx
  key : ∀ i : Fin 4, i.1 = r.idx → k.key i = r.key w
  secured : k.secured = true

theorem counter_announce (w : WepStatus) (k : Keyring) (r : Rekey) :
    (k.announce w r).counter = max k.counter r.value := by
  unfold announce
  split_ifs with h
  · exact (max_eq_right h.le).symm
  · exact (max_eq_left (Nat.le_of_not_lt h)).symm

/-- The newest announcement prevails, whatever the order. -/
theorem uses_newest {k : Keyring} (hr : r ∈ rs) (hk : k.counter < r.value) (hn : Newest rs r) :
    Uses w (run (announce w) k rs) r := by
  have hok : Along (announce w) (fun _ r' => r'.value ≤ r.value ∧ (r'.value = r.value → r'.args = r.args)) k rs :=
    along_of_forall (fun r' h' _ => hn r' h') k
  have hcount : (run (announce w) k rs).counter = (rs.map Rekey.value).foldl max k.counter :=
    RunningMax.key_run (fun k r _ => counter_announce w k r) rs k hok
  have hinv : (run (announce w) k rs).counter ≤ r.value ∧
      ((run (announce w) k rs).counter = r.value → Uses w (run (announce w) k rs) r) := by
    refine run_invariant (I := fun k => k.counter ≤ r.value ∧ (k.counter = r.value → Uses w k r)) ?_ rs k
      ⟨hk.le, fun h => absurd h hk.ne⟩ hok
    rintro k r' ⟨hle, huses⟩ ⟨hle', hsame⟩
    unfold announce
    split_ifs
    · refine ⟨hle', fun heq => ?_⟩
      have hargs : r'.args = r.args := hsame heq
      have hidx : r'.idx = r.idx := by rw [Rekey.idx, hargs, Rekey.idx]
      have hkey : r'.key w = r.key w := by rw [Rekey.key, hargs, Rekey.key]
      exact ⟨hidx, fun i hi => (if_pos (hi.trans hidx.symm)).trans hkey, rfl⟩
    · exact ⟨hle, huses⟩
  refine hinv.2 (le_antisymm hinv.1 ?_)
  rw [hcount]
  exact (RunningMax.isGreatest_foldl_max _ _).2 (.inr (List.mem_map_of_mem hr))

end Keyring

/-- What no group message changes. -/
structure SamePairing (s s' : Sta) : Prop where
  entry : s'.entry = { s.entry with rCounter := s'.entry.rCounter, portSecured := s'.entry.portSecured }
  groupCipher : s'.staCfg.groupCipher = s.staCfg.groupCipher
  installs : s'.installs = s.installs
  halted : s'.halted = s.halted

theorem SamePairing.trans {s₁ s₂ s₃ : Sta} (h : SamePairing s₁ s₂) (h' : SamePairing s₂ s₃) : SamePairing s₁ s₃ :=
  ⟨by rw [h'.entry, h.entry], h'.groupCipher.trans h.groupCipher, h'.installs.trans h.installs,
    h'.halted.trans h.halted⟩

/-! ### A message that arrives -/

/-- Both ends have finished a handshake with each other, and the message arrives at the station. -/
structure Brought (suite : Suite) (ap : MacTableEntry) (s : Sta) (r : Rekey) : Prop where
  waits : Waits s
  ptk : s.entry.ptk = ap.ptk
  mode : s.entry.authMode = ap.authMode
  received : Receives s r.input (r.msg suite ap)
  version : versionChecked s.entry.wepStatus (frameVer ap r.args) = true
  cipher : r.args.groupKeyWepStatus = s.staCfg.groupCipher
  sender : r.sender.mpool = true ∧ r.sender.outBuffer = true ∧ r.sender.memory.Ample
  memory : r.input.env.memory.Ample
  rsnIe : r.args.rsnIe = [] ∨ IsRsnIe r.args.rsnIe
  idx : 1 ≤ r.idx ∧ r.idx ≤ 3
  counter : 0 < r.value

theorem Brought.same (hb : Brought suite ap s r) (h : SamePairing s s') : Brought suite ap s' r := by
  have he := h.entry
  refine { hb with
    waits := ⟨h.halted.trans hb.waits.running, ?_, ?_, ?_, ?_⟩, ptk := ?_, mode := ?_, version := ?_
    received := { hb.received with addr := ?_ }, cipher := hb.cipher.trans h.groupCipher.symm } <;> rw [he]
  · exact hb.waits.peer
  · exact hb.waits.wpa
  · exact hb.waits.assoc
  · exact hb.waits.started
  · exact hb.ptk
  · exact hb.mode
  · exact hb.received.addr
  · exact hb.version

theorem sharedKeyOf_congr {gtk gtk' : ℕ → Byte} (h : ∀ i < gtkLen w, gtk i = gtk' i) :
    sharedKeyOf w gtk (gtkLen w) = sharedKeyOf w gtk' (gtkLen w) := by
  have hlen : 16 ≤ gtkLen w := by
    have := gtkLen_eq w
    omega
  have hkey : (fun i : Fin 16 => gtk i) = fun i : Fin 16 => gtk' i := funext fun i => h i (i.isLt.trans_le hlen)
  cases w with
  | encryption2Enabled =>
    have htx : (fun i : Fin 8 => gtk (24 + i)) = fun i : Fin 8 => gtk' (24 + i) :=
      funext fun i => h _ (show 24 + i.1 < 32 by omega)
    have hrx : (fun i : Fin 8 => gtk (16 + i)) = fun i : Fin 8 => gtk' (16 + i) :=
      funext fun i => h _ (show 16 + i.1 < 32 by omega)
    simp only [sharedKeyOf, hkey, htx, hrx]
  | encryption3Enabled => simp only [sharedKeyOf, hkey]
  | _ => rfl

theorem Brought.deliver_eq (hb : Brought suite ap s r) :
    deliver suite s r = (peerGroupMsg1Action suite r.input.env r.input.elem s).1 := by
  have hd : dispatch s r.input.elem = some .groupMsg1 :=
    dispatch_receives (.inr (.inr rfl)) hb.waits hb.received hb.version
  rw [deliver, wpaEAPOLKeyAction, hb.waits.running, hd]
  rfl

theorem Brought.stale (hb : Brought suite ap s r) (h : ¬ stored s < r.value) : deliver suite s r = s := by
  have hc : (r.msg suite ap).replayCounter = r.counter := (headed_constructEapolMsg _ _ _ _ _).counter
  have hdiff : replayDiff .groupMsg1 s.entry (r.msg suite ap) = true := by
    rw [← Bool.not_eq_false, fresh_iff rfl, hc]
    rintro (hlt | hzero)
    · exact h hlt
    · exact hb.counter.ne' hzero
  have hsanity : peerWpaMessageSanity suite r.input.env .groupMsg1 (r.msg suite ap) s = (false, s) := by
    simp only [peerWpaMessageSanity, hb.received.keyData, hdiff]
    rfl
  rw [hb.deliver_eq]
  simp only [peerGroupMsg1Action, hb.waits.peer, hb.received.packet, hsanity]
  rfl

theorem Brought.fresh (hb : Brought suite ap s r) (h : stored s < r.value) :
    SamePairing s (deliver suite s r) ∧ (deliver suite s r).keyring = s.keyring.announce s.staCfg.groupCipher r := by
  have hc : (r.msg suite ap).replayCounter = r.counter := (headed_constructEapolMsg _ _ _ _ _).counter
  have hex : Exchange r.sender { ap with rCounter := r.counter } .groupMsg1 r.args r.input.env s :=
    { kind := by simp [gtkIncluded]
      ptk := hb.ptk
      mode := congrArg AuthMode.bWpa2 hb.mode
      counter := .inl h
      mpool := hb.sender.1
      outBuffer := hb.sender.2.1
      senderMemory := hb.sender.2.2
      keyData := hb.received.keyData
      memory := hb.memory
      rsnIe := hb.rsnIe
      idx := hb.idx }
  obtain ⟨g, -, hsanity, hidx, hlen, hgtk⟩ := hex.yields suite fun hk => absurd hk (by decide)
  have hsanity' : peerWpaMessageSanity suite r.input.env .groupMsg1 (r.msg suite ap) s = (true, installGroupKey g s) :=
    hsanity
  have hdeliver : deliver suite s r = staPortSecured (storeCounter (r.msg suite ap) (installGroupKey g s)) := by
    rw [hb.deliver_eq]
    simp only [peerGroupMsg1Action, hb.waits.peer, hb.received.packet, hsanity', hb.received.mpool]
    rfl
  rw [hdeliver]
  refine ⟨⟨rfl, rfl, rfl, rfl⟩, ?_⟩
  have hkey : sharedKeyOf s.staCfg.groupCipher (overwrite s.staCfg.gtk g.gtkLen g.gtk) g.gtkLen =
      r.key s.staCfg.groupCipher := by
    rw [hlen, hb.cipher]
    exact sharedKeyOf_congr fun i hi => (if_pos hi).trans (hgtk i (hb.cipher ▸ hi))
  have hlt : s.keyring.counter < r.value := h
  rw [Keyring.announce, if_pos hlt]
  show (⟨counterValue (r.msg suite ap).replayCounter, g.defaultIdx, fun i => if i.1 = g.defaultIdx then
    sharedKeyOf s.staCfg.groupCipher (overwrite s.staCfg.gtk g.gtkLen g.gtk) g.gtkLen else s.sharedKey i, true⟩ :
      Keyring) = _
  rw [hc, hkey, hidx]
  rfl

theorem Brought.step (hb : Brought suite ap s r) :
    SamePairing s (deliver suite s r) ∧ (deliver suite s r).keyring = s.keyring.announce s.staCfg.groupCipher r := by
  by_cases h : stored s < r.value
  · exact hb.fresh h
  · have hlt : ¬ s.keyring.counter < r.value := h
    rw [hb.stale h, Keyring.announce, if_neg hlt]
    exact ⟨⟨rfl, rfl, rfl, rfl⟩, rfl⟩

/-! ### Every run -/

theorem rekeyed (hb : ∀ r ∈ rs, Brought suite ap s r) :
    SamePairing s (run (deliver suite) s rs) ∧
      (run (deliver suite) s rs).keyring = run (Keyring.announce s.staCfg.groupCipher) s.keyring rs := by
  refine run_refines (I := SamePairing s) (fun s' r hsame (hr : Brought suite ap s r) => ?_) rs s ⟨rfl, rfl, rfl, rfl⟩
    (along_of_forall (fun r hr _ => hb r hr) s)
  obtain ⟨hsame', hkeys⟩ := (hr.same hsame).step
  exact ⟨hsame.trans hsame', hsame.groupCipher ▸ hkeys⟩

/-- **The newest group key prevails.** In whatever order the messages arrive, and however often each of them, the
station takes those that are newer than all before and leaves the rest alone; it ends with the key of the newest,
under its index and with the port secured. The pairwise key stays. -/
theorem newest_rekey_prevails (suite : Suite) (ap : MacTableEntry) (s : Sta) (rs : List Rekey)
    (hb : ∀ r ∈ rs, Brought suite ap s r) :
    SamePairing s (run (deliver suite) s rs) ∧
      (run (deliver suite) s rs).keyring = run (Keyring.announce s.staCfg.groupCipher) s.keyring rs ∧
      ∀ r ∈ rs, stored s < r.value → Newest rs r →
        (run (deliver suite) s rs).keyring.Uses s.staCfg.groupCipher r := by
  refine ⟨(rekeyed hb).1, (rekeyed hb).2, fun r hr hnew hn => ?_⟩
  rw [(rekeyed hb).2]
  exact Keyring.uses_newest hr hnew hn

def sampleRekey (counter idx : Byte) : Rekey where
  counter := fun i => if i.1 = 7 then counter else 0
  args := { sampleArgs 14 with defaultKeyIdx := idx }
  sender := ⟨true, true, sampleMemory⟩
  input := sampleArrival (constructEapolMsg sampleSuite ⟨true, true, sampleMemory⟩
    { sampleSender with rCounter := fun i => if i.1 = 7 then counter else 0 } .groupMsg1
    { sampleArgs 14 with defaultKeyIdx := idx })

theorem sampleRekey_brought {counter idx : Byte} (hi : 1 ≤ idx.toNat ∧ idx.toNat ≤ 3)
    (hc : 0 < (sampleRekey counter idx).value) :
    Brought sampleSuite sampleSender (sampleSta .encryption3Enabled) (sampleRekey counter idx) where
  waits := ⟨rfl, rfl, rfl, rfl, by decide⟩
  ptk := rfl
  mode := rfl
  received := sampleArrival_receives _ rfl
  version := rfl
  cipher := rfl
  sender := ⟨rfl, rfl, rfl, rfl, rfl⟩
  memory := ⟨rfl, rfl, rfl⟩
  rsnIe := .inr ⟨rfl, show (sampleArgs 14).rsnIe.length ≤ 255 by decide⟩
  idx := hi
  counter := hc

/-- The second rekeying overtakes the first. -/
def overtaking : List Rekey := [sampleRekey 2 1, sampleRekey 1 2]

theorem newest_rekey_prevails_overtaking :
    (run (deliver sampleSuite) (sampleSta .encryption3Enabled) overtaking).keyring.current = 1 := by
  have hb : ∀ r ∈ overtaking, Brought sampleSuite sampleSender (sampleSta .encryption3Enabled) r := by
    intro r hr
    rcases List.mem_cons.1 hr with rfl | hr
    · exact sampleRekey_brought (by decide) (by decide)
    · exact List.mem_singleton.1 hr ▸ sampleRekey_brought (by decide) (by decide)
  have hn : Newest overtaking (sampleRekey 2 1) := by
    intro r hr
    rcases List.mem_cons.1 hr with rfl | hr
    · exact ⟨le_rfl, fun _ => rfl⟩
    · rw [List.mem_singleton.1 hr]
      exact ⟨by decide, fun h => absurd h (by decide)⟩
  exact ((newest_rekey_prevails sampleSuite sampleSender (sampleSta .encryption3Enabled) overtaking hb).2.2
    (sampleRekey 2 1) List.mem_cons_self (by decide) hn).current

end Mt7610u.Wpa
