import Mt7610u.Wpa.ReplayCounter

/-! # Key data from one end to the other

The key data that `constructEapolMsg` builds, decrypted and parsed by `peerWpaMessageSanity` under the
same PTK. -/

namespace Mt7610u.Wpa

open Lib Crypto

/-! ### The parser over a list of elements -/

theorem isGtkKde_congr {data data' : ℕ → Byte} {o j : ℕ} (h : ∀ j, data (o + j) = data' j) :
    IsGtkKde data (o + j) ↔ IsGtkKde data' j := by
  simp only [IsGtkKde, Nat.add_assoc, h]

theorem kdeWalk_shift {data data' : ℕ → Byte} {o : ℕ} (h : ∀ j, data (o + j) = data' j) (n j : ℕ)
    (g : GroupKey) : kdeWalk data (o + n) (o + j) g = kdeWalk data' n j g := by
  have h1 : ∀ j, data (o + j + 1) = data' (j + 1) := fun j => h (j + 1)
  fun_induction kdeWalk data' n j g with
  | case1 j g hfit hkde hshort =>
    rw [kdeWalk, h1, if_pos (by omega), if_pos ((isGtkKde_congr h).2 hkde), if_pos hshort]
  | case2 j g hfit hkde hshort ih =>
    rw [kdeWalk, h1, if_pos (by omega), if_pos ((isGtkKde_congr h).2 hkde), if_neg hshort]
    simp only [Nat.add_assoc, h] at ih ⊢
    exact ih
  | case3 j g hfit hkde ih =>
    rw [kdeWalk, h1, if_pos (by omega), if_neg (mt (isGtkKde_congr h).1 hkde)]
    simp only [Nat.add_assoc] at ih ⊢
    exact ih
  | case4 j g hfit => rw [kdeWalk, h1, if_neg (by omega)]

theorem kdeWalk_element {num : Byte} {body rest : List Byte} {n : ℕ} (g : GroupKey)
    (hlen : body.length < 256) (hn : 2 + body.length ≤ n)
    (hkde : ¬ IsGtkKde (mem (num :: BitVec.ofNat 8 body.length :: body ++ rest)) 0) :
    kdeWalk (mem (num :: BitVec.ofNat 8 body.length :: body ++ rest)) n 0 g =
      kdeWalk (mem rest) (n - (2 + body.length)) 0 g := by
  have hl : (mem (num :: BitVec.ofNat 8 body.length :: body ++ rest) (0 + 1)).toNat =
      body.length := by
    simp [mem, Nat.mod_eq_of_lt hlen]
  rw [kdeWalk, hl, if_pos (by omega), if_neg hkde]
  obtain ⟨m, rfl⟩ := Nat.exists_eq_add_of_le hn
  rw [Nat.add_sub_cancel_left, show 0 + 2 + body.length = 2 + body.length + 0 by omega]
  refine kdeWalk_shift (fun j => ?_) m 0 g
  have happ := mem_append_right (num :: BitVec.ofNat 8 body.length :: body) rest j
  rw [List.length_cons, List.length_cons] at happ
  rw [← happ]
  congr 1
  omega

theorem kdeWalk_zeros {data : ℕ → Byte} {n j : ℕ} (g : GroupKey) (h : ∀ i, j ≤ i → data i = 0) :
    kdeWalk data n j g = some g := by
  fun_induction kdeWalk data n j g with
  | case1 j g hfit hkde hshort => exact absurd (hkde.1.symm.trans (h j le_rfl)) (by decide)
  | case2 j g hfit hkde hshort ih => exact absurd (hkde.1.symm.trans (h j le_rfl)) (by decide)
  | case3 j g hfit hkde ih => exact ih fun i hi => h i (by omega)
  | case4 j g hfit => rfl

/-! ### The plain key data -/

def gtkElement (idx : Byte) (gtk : List Byte) : List Byte :=
  wpaConstructKdeHdr 1 (2 + BitVec.ofNat 8 gtk.length) ++ [idx &&& 0x03, 0x00] ++ gtk

def padding (n : ℕ) : List Byte :=
  if n % 8 = 0 then [] else 0xDD :: List.replicate (8 - n % 8 - 1) 0x00

theorem padKeyData_eq (keyData : List Byte) : padKeyData keyData = keyData ++ padding keyData.length := by
  unfold padKeyData padding
  split_ifs
  · rw [List.append_nil]
  · rfl

theorem length_padding (n : ℕ) : (padding n).length = (8 - n % 8) % 8 := by
  unfold padding
  split_ifs with h
  · rw [h]
    rfl
  · rw [List.length_cons, List.length_replicate]
    omega

theorem kdeWalk_padding (n m : ℕ) (g : GroupKey) : kdeWalk (mem (padding n)) m 0 g = some g := by
  unfold padding
  split_ifs with h
  · exact kdeWalk_zeros g fun i _ => by simp [mem]
  · have hzero : ∀ i, 0 < i →
        mem (0xDD :: List.replicate (8 - n % 8 - 1) 0x00) i = 0 := by
      intro i hi
      obtain ⟨i, rfl⟩ := Nat.exists_eq_succ_of_ne_zero hi.ne'
      rw [mem, List.getD_eq_getElem?_getD, List.getElem?_cons_succ, List.getElem?_replicate]
      split_ifs <;> rfl
    have hkde : ¬ IsGtkKde (mem (0xDD :: List.replicate (8 - n % 8 - 1) 0x00)) 0 := by
      rintro ⟨-, -, h3, -⟩
      rw [hzero _ (by omega)] at h3
      exact absurd h3 (by decide)
    rw [kdeWalk]
    split_ifs
    · exact kdeWalk_zeros g fun i hi => hzero i (by omega)
    · rfl

theorem length_gtkElement (idx : Byte) (gtk : List Byte) : (gtkElement idx gtk).length = 8 + gtk.length := by
  simp [gtkElement, wpaConstructKdeHdr]
  omega

/-- The group key that is read off the element of `gtk` in front of `rest`. -/
def readGtk (idx : Byte) (gtk rest : List Byte) (g : GroupKey) : GroupKey :=
  ⟨(idx &&& 0x03).toNat % 4, gtk.length,
    overwrite g.gtk gtk.length fun i => mem (gtkElement idx gtk ++ rest) (8 + i)⟩

theorem readGtk_gtk (idx : Byte) (gtk rest : List Byte) (g : GroupKey) {i : ℕ}
    (hi : i < gtk.length) : (readGtk idx gtk rest g).gtk i = mem gtk i := by
  simp only [readGtk, overwrite, if_pos hi]
  rw [mem_append_left _ (by rw [length_gtkElement]; omega)]
  exact mem_append_right (wpaConstructKdeHdr 1 (2 + BitVec.ofNat 8 gtk.length) ++ [idx &&& 0x03, 0x00]) gtk i

theorem kdeWalk_gtk {idx : Byte} {gtk rest : List Byte} {n : ℕ} (g : GroupKey)
    (hmin : 5 ≤ gtk.length) (hmax : gtk.length ≤ 249) (hn : 8 + gtk.length ≤ n) :
    kdeWalk (mem (gtkElement idx gtk ++ rest)) n 0 g =
      kdeWalk (mem rest) (n - (8 + gtk.length)) 0 (readGtk idx gtk rest g) := by
  have h2 : (2 : Byte).toNat = 2 := rfl
  have h4 : (4 : Byte).toNat = 4 := rfl
  have h6 : (6 : Byte).toNat = 6 := rfl
  have hl : (mem (gtkElement idx gtk ++ rest) (0 + 1)).toNat = 6 + gtk.length := by
    show (4 + (2 + BitVec.ofNat 8 gtk.length)).toNat = _
    rw [BitVec.toNat_add, BitVec.toNat_add, BitVec.toNat_ofNat, h2, h4]
    omega
  have hsub : (mem (gtkElement idx gtk ++ rest) (0 + 1) - 6).toNat = gtk.length := by
    rw [BitVec.toNat_sub, hl, h6]
    omega
  have hshift : ∀ j, mem (gtkElement idx gtk ++ rest) (8 + gtk.length + j) = mem rest j := by
    intro j
    rw [← length_gtkElement idx gtk]
    exact mem_append_right _ _ _
  rw [kdeWalk, hl, if_pos (by omega), if_pos ⟨rfl, rfl, rfl, rfl, rfl⟩, hsub, if_neg (by omega)]
  obtain ⟨m, rfl⟩ := Nat.exists_eq_add_of_le hn
  rw [Nat.add_sub_cancel_left, show 0 + 2 + (6 + gtk.length) = 8 + gtk.length + 0 by omega, kdeWalk_shift hshift]
  rfl

def rsnElement (k : MsgType) (rsnIe : List Byte) : List Byte :=
  if rsnIe ≠ [] ∧ (k = .pairMsg2 ∨ k = .pairMsg3) then rtmpInsertRSNIE rsnIe else []

theorem plainKeyData_wpa2 {k : MsgType} {a : EapolArgs} (hk : gtkIncluded true k = true) :
    plainKeyData true k a = rsnElement k a.rsnIe ++
      gtkElement a.defaultKeyIdx (read a.gtk (gtkLen a.groupKeyWepStatus)) := by
  simp only [plainKeyData, hk, if_true, rsnElement, gtkElement, length_read]

theorem plainKeyData_wpa1 {k : MsgType} {a : EapolArgs} (hk : gtkIncluded false k = true) :
    plainKeyData false k a = read a.gtk (gtkLen a.groupKeyWepStatus) := by
  have hg : k = .groupMsg1 := by simpa [gtkIncluded] using hk
  subst hg
  simp [plainKeyData, gtkIncluded]

theorem gtkLen_eq (w : WepStatus) : gtkLen w = 16 ∨ gtkLen w = 32 := by
  unfold gtkLen
  split_ifs
  · exact Or.inl rfl
  · exact Or.inr rfl

theorem length_rsnElement (k : MsgType) (rsnIe : List Byte) : (rsnElement k rsnIe).length ≤ 2 + rsnIe.length := by
  unfold rsnElement
  split_ifs
  · simp [rtmpInsertRSNIE]
    omega
  · simp

/-! ### Decryption -/

structure Memory.Ample (m : Memory) : Prop where
  result : m.result = true
  aesCtx : m.aesCtx = true
  arc4Ctx : m.arc4Ctx = true

def padded (ver : BitVec 3) (plain : List Byte) : List Byte :=
  if ver = keyDescAes then padKeyData plain else plain

theorem length_kek (e : MacTableEntry) : e.kek.length = 16 := by
  simp [MacTableEntry.kek]

/-- **Decryption undoes encryption**, whichever cipher the version calls for. -/
theorem decryptKeyData_encrypt {m m' : Memory} (hm : m.Ample) (hm' : m'.Ample) {e : MacTableEntry}
    {f : EapolPacket} {plain : List Byte}
    (hver : f.keyInfo.keyDescVer = keyDescTkip ∨ f.keyInfo.keyDescVer = keyDescAes)
    (hdata : f.keyData = mem (encryptKeyData m f.keyInfo.keyDescVer e.kek (List.ofFn f.keyIv) plain))
    (hlen : f.keyDataLen = BitVec.ofNat 16
      (encryptKeyData m f.keyInfo.keyDescVer e.kek (List.ofFn f.keyIv) plain).length)
    (hshort : plain.length ≤ 400) (hne : plain ≠ []) :
    decryptKeyData m' e f =
        (mem (padded f.keyInfo.keyDescVer plain), (padded f.keyInfo.keyDescVer plain).length) ∧
      f.keyDataLen.toNat ≠ 0 := by
  have hpos : 0 < plain.length := List.length_pos_iff.2 hne
  rcases hver with hver | hver
  · have henc : encryptKeyData m f.keyInfo.keyDescVer e.kek (List.ofFn f.keyIv) plain =
        tkipGtkKeyWrap e.kek (List.ofFn f.keyIv) plain := by
      rw [encryptKeyData, hver, if_neg (by decide), hm.arc4Ctx, if_pos rfl]
    rw [henc] at hdata hlen
    have hn : f.keyDataLen.toNat = plain.length := by
      rw [hlen, length_tkipGtkKeyWrap, BitVec.toNat_ofNat]
      omega
    have hread : read f.keyData plain.length = tkipGtkKeyWrap e.kek (List.ofFn f.keyIv) plain := by
      rw [hdata]
      conv_lhs => rw [← length_tkipGtkKeyWrap e.kek (List.ofFn f.keyIv) plain]
      exact read_mem_length _
    refine ⟨?_, by omega⟩
    simp only [decryptKeyData, hver, hn, hread, hm'.arc4Ctx, tkipGtkKeyUnwrap_wrap, padded]
    rfl
  · obtain ⟨cipherText, hwrap, hclen, hunwrap⟩ :=
      aesKeyUnwrap_wrap (padKeyData plain) (Or.inl (length_kek e))
    have henc : encryptKeyData m f.keyInfo.keyDescVer e.kek (List.ofFn f.keyIv) plain =
        cipherText := by
      rw [encryptKeyData, hver, if_pos rfl, hm.result, hwrap]
      simp only [hm.aesCtx, if_true]
    rw [henc] at hdata hlen
    have hpad : (padKeyData plain).length ≤ plain.length + 8 := by
      rw [padKeyData_eq, List.length_append, length_padding]
      omega
    have hn : f.keyDataLen.toNat = cipherText.length := by
      rw [hlen, BitVec.toNat_ofNat]
      omega
    refine ⟨?_, by omega⟩
    simp only [decryptKeyData, hver, hn, hdata, read_mem_length, hm'.result, hunwrap, hm'.aesCtx, padded]
    rfl

/-! ### The built frame -/

/-- What the receiver reads of a frame with a group key that `constructEapolMsg` has built. -/
structure Built (suite : Suite) (env : ConstructEnv) (e : MacTableEntry) (k : MsgType)
    (a : EapolArgs) (f : EapolPacket) : Prop where
  info : f.keyInfo = constructKeyInfo e.authMode.bWpa2
    (constructKeyDescVer e.wepStatus a.groupKeyWepStatus) k a.defaultKeyIdx
  counter : f.replayCounter = e.rCounter
  data : f.keyData = mem (encryptKeyData env.memory f.keyInfo.keyDescVer e.kek (List.ofFn f.keyIv)
    (plainKeyData e.authMode.bWpa2 k a))
  length : f.keyDataLen = BitVec.ofNat 16 (encryptKeyData env.memory f.keyInfo.keyDescVer e.kek
    (List.ofFn f.keyIv) (plainKeyData e.authMode.bWpa2 k a)).length
  mic : f.keyMic = computeMic suite env.memory f.keyInfo.keyDescVer e.kck
    (f.zeroMic.octets f.eapolLen)

theorem constructEapolMsg_built (suite : Suite) {env : ConstructEnv} {e : MacTableEntry}
    {k : MsgType} {a : EapolArgs} (hk : gtkIncluded e.authMode.bWpa2 k = true)
    (hpool : env.mpool = true) (hbuf : env.outBuffer = true) :
    Built suite env e k a (constructEapolMsg suite env e k a) := by
  have hkind : ¬ (k = .pairMsg1 ∨ k = .pairMsg4 ∨ k = .groupMsg2) := by
    cases k <;> simp_all [gtkIncluded]
  have hne : k ≠ .pairMsg1 := fun h => hkind (Or.inl h)
  have hpool' : ¬ env.mpool = false := by simp [hpool]
  simp only [constructEapolMsg, constructEapolKeyData, calculateMic, if_neg hkind, if_neg hpool', hk,
    if_true, if_neg hne, hbuf]
  exact ⟨rfl, rfl, rfl, rfl, rfl⟩

theorem constructKeyDescVer_eq (w g : WepStatus) :
    constructKeyDescVer w g = keyDescTkip ∨ constructKeyDescVer w g = keyDescAes := by
  unfold constructKeyDescVer
  split_ifs
  · exact Or.inr rfl
  · exact Or.inl rfl

theorem computeMic_congr {suite : Suite} {m m' : Memory} {ver : BitVec 3} {kck data : List Byte}
    (hver : ver = keyDescTkip ∨ ver = keyDescAes) :
    computeMic suite m ver kck data = computeMic suite m' ver kck data := by
  rcases hver with rfl | rfl <;> rfl

/-! ### The exchange -/

def foundGroupKey (env : Env) (k : MsgType) (f : EapolPacket) (s : Sta) : Option GroupKey :=
  parseGroupKey (decryptKeyData env.memory s.entry f).1
    ((decryptKeyData env.memory s.entry f).2 % 256)
    (groupKeyIndex s.entry.authMode.bWpa2 k f) s.entry.authMode.bWpa2

/-- The frame is accepted, and the group key that it installs has the given index, length and bytes. -/
def YieldsGroupKey (suite : Suite) (env : Env) (k : MsgType) (f : EapolPacket) (s : Sta)
    (idx len : ℕ) (gtk : ℕ → Byte) : Prop :=
  ∃ g, foundGroupKey env k f s = some g ∧
    peerWpaMessageSanity suite env k f s = (true, installGroupKey g s) ∧
    g.defaultIdx = idx ∧ g.gtkLen = len ∧ ∀ i < len, g.gtk i = gtk i

def IsRsnIe (ie : List Byte) : Prop := ie.take 2 = [0x01, 0x00] ∧ ie.length ≤ 255

/-- A message 3 of WPA2 or a group message 1, between ends that share a PTK and a mode, with memory
enough, a counter that passes and a default key index from one to three. -/
structure Exchange (sender : ConstructEnv) (e : MacTableEntry) (k : MsgType) (a : EapolArgs)
    (env : Env) (s : Sta) : Prop where
  kind : gtkIncluded e.authMode.bWpa2 k = true
  ptk : s.entry.ptk = e.ptk
  mode : s.entry.authMode.bWpa2 = e.authMode.bWpa2
  counter : counterValue s.entry.rCounter < counterValue e.rCounter ∨ counterValue e.rCounter = 0
  mpool : sender.mpool = true
  outBuffer : sender.outBuffer = true
  senderMemory : sender.memory.Ample
  keyData : env.keyData = true
  memory : env.memory.Ample
  rsnIe : a.rsnIe = [] ∨ IsRsnIe a.rsnIe
  idx : 1 ≤ a.defaultKeyIdx.toNat ∧ a.defaultKeyIdx.toNat ≤ 3

def frameVer (e : MacTableEntry) (a : EapolArgs) : BitVec 3 := constructKeyDescVer e.wepStatus a.groupKeyWepStatus

variable {suite : Suite} {sender : ConstructEnv} {e : MacTableEntry} {k : MsgType} {a : EapolArgs}
  {env : Env} {s : Sta}

theorem Exchange.length_plain (h : Exchange sender e k a env s) :
    (plainKeyData e.authMode.bWpa2 k a).length ≤ 400 ∧ plainKeyData e.authMode.bWpa2 k a ≠ [] := by
  have hlen := gtkLen_eq a.groupKeyWepStatus
  have hie : a.rsnIe.length ≤ 255 := by
    rcases h.rsnIe with hnil | hrsn
    · simp [hnil]
    · exact hrsn.2
  have hrsn := length_rsnElement k a.rsnIe
  rw [← List.length_pos_iff]
  have hk := h.kind
  cases hb : e.authMode.bWpa2 with
  | false =>
    rw [hb] at hk
    rw [plainKeyData_wpa1 hk, length_read]
    omega
  | true =>
    rw [hb] at hk
    rw [plainKeyData_wpa2 hk, List.length_append, length_gtkElement, length_read]
    omega

theorem Exchange.sanity (h : Exchange sender e k a env s) (suite : Suite) :
    let f := constructEapolMsg suite sender e k a
    foundGroupKey env k f s =
        parseGroupKey (mem (padded (frameVer e a) (plainKeyData e.authMode.bWpa2 k a)))
          ((padded (frameVer e a) (plainKeyData e.authMode.bWpa2 k a)).length % 256)
          (groupKeyIndex e.authMode.bWpa2 k f) e.authMode.bWpa2 ∧
      ∀ g, foundGroupKey env k f s = some g →
        peerWpaMessageSanity suite env k f s = (true, installGroupKey g s) := by
  intro f
  have hb : Built suite sender e k a f := constructEapolMsg_built suite h.kind h.mpool h.outBuffer
  have hver : f.keyInfo.keyDescVer = frameVer e a := by rw [hb.info]; rfl
  have hver2 : f.keyInfo.keyDescVer = keyDescTkip ∨ f.keyInfo.keyDescVer = keyDescAes := by
    rw [hver]
    exact constructKeyDescVer_eq _ _
  have hkek : s.entry.kek = e.kek := by rw [MacTableEntry.kek, h.ptk]; rfl
  have hkck : s.entry.kck = e.kck := by rw [MacTableEntry.kck, h.ptk]; rfl
  obtain ⟨hshort, hne⟩ := h.length_plain
  obtain ⟨hdec, hlen⟩ := decryptKeyData_encrypt h.senderMemory h.memory (e := s.entry) hver2
    (by rw [hkek]; exact hb.data) (by rw [hkek]; exact hb.length) hshort hne
  rw [hver] at hdec
  constructor
  · rw [foundGroupKey, hdec, h.mode]
  · intro g hg
    have hrep : replayDiff k s.entry f = false := by
      have hk := h.kind
      refine (fresh_iff ?_).2 (by rw [hb.counter]; exact h.counter)
      cases k <;> simp_all [gtkIncluded, MsgType.toSupplicant]
    have hmic : micDiff suite env.memory s.entry f = false := by
      rw [micDiff, bne_eq_false_iff_eq, hkck, hb.mic]
      exact computeMic_congr hver2
    have hkind : gtkIncluded s.entry.authMode.bWpa2 k = true := by rw [h.mode]; exact h.kind
    have hguard : ¬ (k = .pairMsg2 ∨ k = .pairMsg3 ∧ s.entry.authMode.bWpa2 = false) := by
      cases k <;> simp_all [gtkIncluded]
    simp only [peerWpaMessageSanity, h.keyData, hrep, hmic, if_neg hlen, hkind]
    simp only [Bool.true_eq_false, Bool.false_eq_true, if_false, and_false, if_true,
      rtmpParseEapolKeyData, if_neg hguard]
    rw [foundGroupKey] at hg
    rw [hg]

/-! ### The parser on the padded key data -/

theorem padded_eq (ver : BitVec 3) (plain : List Byte) : ∃ pad : List Byte,
    padded ver plain = plain ++ pad ∧
      pad.length = (if ver = keyDescAes then (8 - plain.length % 8) % 8 else 0) ∧
      ∀ m g, kdeWalk (mem pad) m 0 g = some g := by
  unfold padded
  split_ifs with h
  · exact ⟨padding plain.length, padKeyData_eq plain, length_padding _,
      fun m g => kdeWalk_padding _ m g⟩
  · exact ⟨[], (List.append_nil _).symm, rfl, fun m g => kdeWalk_zeros g fun i _ => by simp [mem]⟩

/-- The longest RSN element and group key that fit together into the length of the parser. -/
def fits (ver : BitVec 3) (rsnLen gtkLen : ℕ) : Prop := rsnLen + gtkLen ≤ if ver = keyDescAes then 238 else 245

theorem not_isGtkKde_rsn {ie : List Byte} (h : IsRsnIe ie) (rest : List Byte) :
    ¬ IsGtkKde (mem (rtmpInsertRSNIE ie ++ rest)) 0 := by
  rintro ⟨-, h2, -⟩
  obtain ⟨x, y, ie, rfl⟩ : ∃ x y t, ie = x :: y :: t := by
    have hlen := congrArg List.length h.1
    match ie, hlen with
    | x :: y :: t, _ => exact ⟨x, y, t, rfl⟩
  have hx : x = 0x01 := (List.cons.inj h.1).1
  have hx0 : x = 0x00 := h2
  rw [hx] at hx0
  exact absurd hx0 (by decide)

theorem kdeWalk_rsn {ie rest : List Byte} {n : ℕ} (g : GroupKey) (h : ie = [] ∨ IsRsnIe ie)
    (k : MsgType) (hn : (rsnElement k ie).length ≤ n) :
    kdeWalk (mem (rsnElement k ie ++ rest)) n 0 g =
      kdeWalk (mem rest) (n - (rsnElement k ie).length) 0 g := by
  unfold rsnElement at hn ⊢
  split_ifs at hn ⊢ with hie
  · have hrsn := h.resolve_left hie.1
    have hlen : (rtmpInsertRSNIE ie).length = 2 + ie.length := by
      simp [rtmpInsertRSNIE]
      omega
    rw [hlen] at hn ⊢
    exact kdeWalk_element g (by have := hrsn.2; omega) hn (not_isGtkKde_rsn hrsn rest)
  · rfl

theorem Exchange.parse_fits (h : Exchange sender e k a env s) (hb : e.authMode.bWpa2 = true)
    (hlen : (padded (frameVer e a) (plainKeyData true k a)).length < 256) (index : ℕ) :
    ∃ g, parseGroupKey (mem (padded (frameVer e a) (plainKeyData true k a)))
        ((padded (frameVer e a) (plainKeyData true k a)).length % 256) index true = some g ∧
      g.defaultIdx = a.defaultKeyIdx.toNat ∧ g.gtkLen = gtkLen a.groupKeyWepStatus ∧
      ∀ i < gtkLen a.groupKeyWepStatus, g.gtk i = a.gtk i := by
  have hk := h.kind
  rw [hb] at hk
  have hgtk := gtkLen_eq a.groupKeyWepStatus
  obtain ⟨pad, hpad, -, hwalk⟩ := padded_eq (frameVer e a) (plainKeyData true k a)
  rw [Nat.mod_eq_of_lt hlen]
  rw [hpad, plainKeyData_wpa2 hk, List.append_assoc] at hlen ⊢
  set gtk := read a.gtk (gtkLen a.groupKeyWepStatus) with hg
  have hglen : gtk.length = gtkLen a.groupKeyWepStatus := length_read _ _
  have hidx : (a.defaultKeyIdx &&& 0x03).toNat % 4 = a.defaultKeyIdx.toNat := by
    have h3 : (0x03 : Byte).toNat = 2 ^ 2 - 1 := rfl
    rw [BitVec.toNat_and, h3, Nat.and_two_pow_sub_one_eq_mod]
    have := h.idx.2
    omega
  refine ⟨readGtk a.defaultKeyIdx gtk pad ⟨0, 0, fun _ => 0⟩, ?_, hidx, hglen, fun i hi => ?_⟩
  · rw [parseGroupKey, if_pos rfl, kdeWalk_rsn _ h.rsnIe k (by rw [List.length_append]; omega),
      List.length_append, Nat.add_sub_cancel_left,
      kdeWalk_gtk _ (by omega) (by omega)
        (by rw [List.length_append, length_gtkElement]; omega), hwalk]
    refine Option.filter_eq_some_iff.2 ⟨rfl, ?_⟩
    have := h.idx.2
    rw [decide_eq_true_eq, readGtk, hidx]
    exact this
  · rw [readGtk_gtk _ _ _ _ (by omega), hg, mem_read hi]

theorem Exchange.parse_long (h : Exchange sender e k a env s) (hb : e.authMode.bWpa2 = true)
    (hk3 : k = .pairMsg3) (hie : a.rsnIe ≠ [])
    (hlen : 256 ≤ (padded (frameVer e a) (plainKeyData true k a)).length) (index : ℕ) :
    parseGroupKey (mem (padded (frameVer e a) (plainKeyData true k a)))
        ((padded (frameVer e a) (plainKeyData true k a)).length % 256) index true =
      some ⟨0, 0, fun _ => 0⟩ := by
  have hk := h.kind
  rw [hb] at hk
  have hgtk := gtkLen_eq a.groupKeyWepStatus
  have hrsn := (h.rsnIe.resolve_left hie).2
  obtain ⟨pad, hpad, hpadlen, -⟩ := padded_eq (frameVer e a) (plainKeyData true k a)
  have hpad7 : pad.length ≤ 7 := by
    rw [hpadlen]
    split_ifs <;> omega
  have helem : rsnElement k a.rsnIe = rtmpInsertRSNIE a.rsnIe := if_pos ⟨hie, Or.inr hk3⟩
  have hbyte : (mem (padded (frameVer e a) (plainKeyData true k a)) (0 + 1)).toNat = a.rsnIe.length := by
    rw [hpad, plainKeyData_wpa2 hk, helem]
    show (BitVec.ofNat 8 a.rsnIe.length).toNat = _
    rw [BitVec.toNat_ofNat]
    omega
  have htotal : (padded (frameVer e a) (plainKeyData true k a)).length ≤ a.rsnIe.length + 49 := by
    rw [hpad, plainKeyData_wpa2 hk, List.length_append, List.length_append, length_gtkElement, length_read]
    have := length_rsnElement k a.rsnIe
    omega
  rw [parseGroupKey, if_pos rfl, kdeWalk, hbyte, if_neg (by omega)]
  rfl

theorem Exchange.parse_wpa1 (h : Exchange sender e k a env s) (suite : Suite) (hb : e.authMode.bWpa2 = false) :
    ∃ g, parseGroupKey (mem (padded (frameVer e a) (plainKeyData false k a)))
        ((padded (frameVer e a) (plainKeyData false k a)).length % 256)
        (groupKeyIndex false k (constructEapolMsg suite sender e k a)) false = some g ∧
      g.defaultIdx = a.defaultKeyIdx.toNat ∧ g.gtkLen = gtkLen a.groupKeyWepStatus ∧
      ∀ i < gtkLen a.groupKeyWepStatus, g.gtk i = a.gtk i := by
  have hk := h.kind
  rw [hb] at hk
  have hgroup : k = .groupMsg1 := by simpa [gtkIncluded] using hk
  have hgtk := gtkLen_eq a.groupKeyWepStatus
  have hidx : groupKeyIndex false k (constructEapolMsg suite sender e k a) =
      a.defaultKeyIdx.toNat := by
    have hinfo := (constructEapolMsg_built suite h.kind h.mpool h.outBuffer (a := a)).info
    rw [groupKeyIndex, if_pos ⟨rfl, hgroup⟩, hinfo, hb, hgroup]
    show (a.defaultKeyIdx.setWidth 2).toNat = _
    rw [BitVec.toNat_setWidth]
    have := h.idx.2
    omega
  have hplain : padded (frameVer e a) (plainKeyData false k a) =
      read a.gtk (gtkLen a.groupKeyWepStatus) := by
    have h8 : gtkLen a.groupKeyWepStatus % 8 = 0 := by omega
    rw [plainKeyData_wpa1 hk, padded, padKeyData, length_read, if_pos h8, ite_self]
  rw [hplain, length_read, Nat.mod_eq_of_lt (by omega)]
  refine ⟨⟨a.defaultKeyIdx.toNat, gtkLen a.groupKeyWepStatus,
    overwrite (fun _ => 0) (gtkLen a.groupKeyWepStatus)
      (mem (read a.gtk (gtkLen a.groupKeyWepStatus)))⟩, ?_, rfl, rfl, fun i hi => ?_⟩
  · rw [parseGroupKey, hidx]
    refine Option.filter_eq_some_iff.2 ⟨rfl, ?_⟩
    simpa using h.idx.2
  · simp only [overwrite, if_pos hi, mem_read hi]

/-! ### The round trip -/

theorem Exchange.length_padded (h : Exchange sender e k a env s) (hb : e.authMode.bWpa2 = true) :
    (padded (frameVer e a) (plainKeyData true k a)).length < 256 ↔
      (k = .pairMsg3 → fits (frameVer e a) a.rsnIe.length (gtkLen a.groupKeyWepStatus)) := by
  have hk := h.kind
  rw [hb] at hk
  have hgtk := gtkLen_eq a.groupKeyWepStatus
  obtain ⟨pad, hpad, hpadlen, -⟩ := padded_eq (frameVer e a) (plainKeyData true k a)
  rw [hpad, List.length_append, hpadlen, plainKeyData_wpa2 hk, List.length_append,
    length_gtkElement, length_read, fits]
  have hrsn : (rsnElement k a.rsnIe).length =
      if a.rsnIe ≠ [] ∧ k = .pairMsg3 then 2 + a.rsnIe.length else 0 := by
    have hk2 : k ≠ .pairMsg2 := by
      rintro rfl
      exact absurd hk (by decide)
    simp only [rsnElement, hk2, false_or]
    split_ifs
    · simp [rtmpInsertRSNIE]
      omega
    · rfl
  rw [hrsn]
  by_cases hk3 : k = .pairMsg3
  · by_cases hie : a.rsnIe = []
    · simp only [hk3, hie, ne_eq, not_true_eq_false, false_and, if_false, List.length_nil,
        forall_const]
      split_ifs <;> omega
    · simp only [hk3, hie, ne_eq, not_false_eq_true, true_and, if_true, forall_const]
      split_ifs <;> omega
  · simp only [hk3, and_false, if_false, false_implies, iff_true]
    split_ifs <;> omega

theorem Exchange.yields (h : Exchange sender e k a env s) (suite : Suite)
    (hfit : k = .pairMsg3 → fits (frameVer e a) a.rsnIe.length (gtkLen a.groupKeyWepStatus)) :
    YieldsGroupKey suite env k (constructEapolMsg suite sender e k a) s a.defaultKeyIdx.toNat
      (gtkLen a.groupKeyWepStatus) a.gtk := by
  obtain ⟨hfound, hsanity⟩ := h.sanity suite
  cases hb : e.authMode.bWpa2 with
  | false =>
    rw [hb] at hfound
    obtain ⟨g, hg, hgood⟩ := h.parse_wpa1 suite hb
    exact ⟨g, hfound.trans hg, hsanity g (hfound.trans hg), hgood⟩
  | true =>
    rw [hb] at hfound
    obtain ⟨g, hg, hgood⟩ := h.parse_fits hb ((h.length_padded hb).2 hfit)
      (groupKeyIndex true k (constructEapolMsg suite sender e k a))
    exact ⟨g, hfound.trans hg, hsanity g (hfound.trans hg), hgood⟩

theorem Exchange.not_yields (h : Exchange sender e k a env s) (suite : Suite) (hk3 : k = .pairMsg3)
    (hfit : ¬ fits (frameVer e a) a.rsnIe.length (gtkLen a.groupKeyWepStatus)) :
    ¬ YieldsGroupKey suite env k (constructEapolMsg suite sender e k a) s a.defaultKeyIdx.toNat
      (gtkLen a.groupKeyWepStatus) a.gtk := by
  rintro ⟨g, hg, -, hidx, -⟩
  have hb : e.authMode.bWpa2 = true := by
    have hk := h.kind
    rw [hk3] at hk
    simpa [gtkIncluded] using hk
  obtain ⟨hfound, -⟩ := h.sanity suite
  rw [hb] at hfound
  have hie : a.rsnIe ≠ [] := by
    intro hnil
    have := gtkLen_eq a.groupKeyWepStatus
    refine hfit ?_
    rw [fits, hnil, List.length_nil]
    split_ifs <;> omega
  have hlong := mt (h.length_padded hb).1 fun hc => hfit (hc hk3)
  rw [hfound, h.parse_long hb hk3 hie (by omega)] at hg
  have h0 : (0 : ℕ) = g.defaultIdx := congrArg GroupKey.defaultIdx (Option.some.inj hg)
  have := h.idx.1
  omega

/-- **Key data round trip.** The receiver of a message 3 or group message 1 installs the group key,
its length and its index as they were sent exactly when, in a message 3, the RSN element and the
group key together do not fill more than the length of the parser can hold. -/
theorem yieldsGroupKey_iff (suite : Suite) (sender : ConstructEnv) (e : MacTableEntry)
    (k : MsgType) (a : EapolArgs) (env : Env) (s : Sta) (h : Exchange sender e k a env s) :
    YieldsGroupKey suite env k (constructEapolMsg suite sender e k a) s a.defaultKeyIdx.toNat
        (gtkLen a.groupKeyWepStatus) a.gtk ↔
      (k = .pairMsg3 → fits (frameVer e a) a.rsnIe.length (gtkLen a.groupKeyWepStatus)) := by
  constructor
  · intro hyields hk3
    by_contra hfit
    exact h.not_yields suite hk3 hfit hyields
  · exact h.yields suite

/-! ### A sample exchange -/

def sampleSender : MacTableEntry :=
  { (sampleSta .encryption3Enabled).entry with rCounter := fun i => if i.1 = 7 then 1 else 0 }

def sampleArgs (rest : ℕ) : EapolArgs :=
  ⟨.encryption3Enabled, 2, fun _ => 7, zeros 6, fun i => BitVec.ofNat 8 (i + 1),
    0x01 :: 0x00 :: 0x00 :: 0x0F :: 0xAC :: 0x04 :: List.replicate rest 0⟩

theorem length_sampleArgs (rest : ℕ) : (sampleArgs rest).rsnIe.length = rest + 6 := by
  simp [sampleArgs]

theorem sample_exchange {rest : ℕ} (h : rest ≤ 249) :
    Exchange ⟨true, true, sampleMemory⟩ sampleSender .pairMsg3 (sampleArgs rest)
      (sampleInput .pairMsg3 1 7 5).env (sampleSta .encryption3Enabled) where
  kind := rfl
  ptk := rfl
  mode := rfl
  counter := Or.inl (by decide)
  mpool := rfl
  outBuffer := rfl
  senderMemory := ⟨rfl, rfl, rfl⟩
  keyData := rfl
  memory := ⟨rfl, rfl, rfl⟩
  rsnIe := Or.inr ⟨rfl, by rw [length_sampleArgs]; omega⟩
  idx := ⟨show 1 ≤ 2 by decide, show 2 ≤ 3 by decide⟩

theorem yieldsGroupKey_short :
    Exchange ⟨true, true, sampleMemory⟩ sampleSender .pairMsg3 (sampleArgs 14)
        (sampleInput .pairMsg3 1 7 5).env (sampleSta .encryption3Enabled) ∧
      YieldsGroupKey sampleSuite (sampleInput .pairMsg3 1 7 5).env .pairMsg3
        (constructEapolMsg sampleSuite ⟨true, true, sampleMemory⟩ sampleSender .pairMsg3
          (sampleArgs 14)) (sampleSta .encryption3Enabled) 2 16 (sampleArgs 14).gtk :=
  ⟨sample_exchange (by decide),
    (yieldsGroupKey_iff _ _ _ _ _ _ _ (sample_exchange (by decide))).2
      fun _ => by unfold fits; decide⟩

/-- An RSN element of 223 bytes makes the padded key data 256 bytes long. -/
theorem not_yieldsGroupKey_long :
    ¬ ∀ (suite : Suite) (sender : ConstructEnv) (e : MacTableEntry) (k : MsgType) (a : EapolArgs)
      (env : Env) (s : Sta), Exchange sender e k a env s →
        YieldsGroupKey suite env k (constructEapolMsg suite sender e k a) s a.defaultKeyIdx.toNat
          (gtkLen a.groupKeyWepStatus) a.gtk := by
  intro h
  have hex := sample_exchange (show 217 ≤ 249 by decide)
  have hfit : ¬ fits (frameVer sampleSender (sampleArgs 217)) (sampleArgs 217).rsnIe.length
      (gtkLen (sampleArgs 217).groupKeyWepStatus) := by
    rw [fits, length_sampleArgs]
    decide
  exact hex.not_yields sampleSuite rfl hfit (h _ _ _ _ _ _ _ hex)

end Mt7610u.Wpa
