import Mt7610u.Mgmt.BeaconElements
import Mt7610u.Mlme.BssTable
import Mt7610u.Lib.Elements

/-! # The association response

`PeerAssocRspSanity` with the octets that it reads and the copies that it makes. -/

namespace Mt7610u.Mgmt.Assoc

open Mt7610u.Lib Mt7610u.Mlme Mt7610u.Mgmt.Beacon

/-! ### The code -/

structure Frame where
  msg : ℕ → Byte
  msgLen : ℕ

/-- `pFrame->Octet` lies behind the header of `LENGTH_802_11` octets. -/
def Frame.octet (f : Frame) (i : ℕ) : Byte := f.msg (24 + i)

/-- The outputs. `vhtCap` and `vhtOp` are in `ie_list`. -/
structure AssocRsp where
  addr2 : ℕ → Byte
  capabilityInfo : BitVec 16
  status : BitVec 16
  aid : BitVec 16
  supRate : ℕ → Byte
  supRateLen : ℕ
  extRate : ℕ → Byte
  extRateLen : ℕ
  htCapability : ℕ → Byte
  htCapabilityLen : ℕ
  addHtInfo : ℕ → Byte
  addHtInfoLen : ℕ
  newExtChannelOffset : Byte
  edcaParm : EdcaParm
  extCapInfo : ℕ → Byte
  ckipFlag : Byte
  vhtCap : ℕ → Byte
  vhtCapLen : ℕ
  vhtOp : ℕ → Byte
  vhtOpLen : ℕ

inductive Output
  | addr2 | capabilityInfo | status | aid | supRate | extRate | htCapability | addHtInfo | vhtCap | vhtOp | extCapInfo
deriving DecidableEq, Repr

def Output.size : Output → ℕ
  | addr2 => 6
  | capabilityInfo | status | aid => 2
  | supRate | extRate => 12
  | htCapability => 26
  | addHtInfo => 22
  | vhtCap => 12
  | vhtOp => 5
  | extCapInfo => 4

/-- An octet of the message that is read, or a copy of `n` bytes to an output. -/
inductive Access
  | read (i : ℕ)
  | copy (d : Output) (n : ℕ)
deriving DecidableEq, Repr

inductive Eid
  | extSuppRates | htCap | addHt | secondaryChOffset | vhtCap | vhtOp | vendorSpecific | extCapability | other
deriving DecidableEq, Repr

/-- The arm for `pEid->Eid`; HT elements have two numbers each. -/
def Eid.ofByte (b : Byte) : Eid :=
  if b = 50 then extSuppRates else if b = 45 ∨ b = 52 then htCap else if b = 61 ∨ b = 53 then addHt
  else if b = 62 then secondaryChOffset else if b = 191 then vhtCap else if b = 192 then vhtOp
  else if b = 221 then vendorSpecific else if b = 127 then extCapability else other

/-- The body of the element at `p`. -/
def Frame.body (f : Frame) (p : ℕ) : ℕ → Byte := fun i => f.msg (p + 2 + i)

def Frame.isWmeParm (f : Frame) (p : ℕ) : Bool :=
  equalMemory (f.body p) (mem wmeParmElem) 6 && Elements.len f.msg p = 24

/-- The arm for the element at `p`; the arms for VHT are there with `DOT11_VHT_AC`. -/
def arm (vht : Bool) (f : Frame) (o : AssocRsp) (p : ℕ) : AssocRsp :=
  let len := Elements.len f.msg p
  let body := f.body p
  match Eid.ofByte (f.msg p) with
  | .extSuppRates =>
    if len ≤ 12 then { o with extRate := moveMemory o.extRate body len, extRateLen := len } else o
  | .htCap =>
    if 26 ≤ len then { o with htCapability := moveMemory o.htCapability body 26, htCapabilityLen := 26 } else o
  | .addHt => if 22 ≤ len then { o with addHtInfo := moveMemory o.addHtInfo body 22, addHtInfoLen := 22 } else o
  | .secondaryChOffset => if len = 1 then { o with newExtChannelOffset := body 0 } else o
  | .vhtCap =>
    if vht = true ∧ len = 12 then { o with vhtCap := moveMemory o.vhtCap body 12, vhtCapLen := 12 } else o
  | .vhtOp => if vht = true ∧ len = 5 then { o with vhtOp := moveMemory o.vhtOp body 5, vhtOpLen := 5 } else o
  | .vendorSpecific => if f.isWmeParm p then { o with edcaParm := o.edcaParm.ofParmElem body } else o
  | .extCapability => if 1 ≤ len then { o with extCapInfo := moveMemory o.extCapInfo body (min len 4) } else o
  | .other => o

def reads (p n : ℕ) : List Access := (List.range n).map fun i => .read (p + i)

def copies (d : Output) (p n : ℕ) : List Access := reads p n ++ [.copy d n]

def armAccesses (vht : Bool) (f : Frame) (p : ℕ) : List Access :=
  let len := Elements.len f.msg p
  match Eid.ofByte (f.msg p) with
  | .extSuppRates => if len ≤ 12 then copies .extRate (p + 2) len else []
  | .htCap => if 26 ≤ len then copies .htCapability (p + 2) 26 else []
  | .addHt => if 22 ≤ len then copies .addHtInfo (p + 2) 22 else []
  | .secondaryChOffset => if len = 1 then reads (p + 2) 1 else []
  | .vhtCap => if vht = true ∧ len = 12 then copies .vhtCap (p + 2) 12 else []
  | .vhtOp => if vht = true ∧ len = 5 then copies .vhtOp (p + 2) 5 else []
  | .vendorSpecific => reads (p + 2) 6 ++ if f.isWmeParm p then reads (p + 8) 1 ++ reads (p + 10) 16 else []
  | .extCapability => if 1 ≤ len then copies .extCapInfo (p + 2) (min len 4) else []
  | .other => []

/-- The loop over the elements, from the one at `p` on. -/
def elementLoop (vht : Bool) (f : Frame) (p : ℕ) (o : AssocRsp) : AssocRsp :=
  if Elements.next f.msg p ≤ f.msgLen then elementLoop vht f (Elements.next f.msg p) (arm vht f o p) else o
termination_by f.msgLen - p
decreasing_by
  have := Elements.lt_next f.msg p
  omega

/-- What it touches: its test reads the length, the `switch` the number. -/
def elementAccesses (vht : Bool) (f : Frame) (p : ℕ) : List Access :=
  .read (p + 1) ::
    if Elements.next f.msg p ≤ f.msgLen then
      .read p :: armAccesses vht f p ++ elementAccesses vht f (Elements.next f.msg p)
    else []
termination_by f.msgLen - p
decreasing_by
  have := Elements.lt_next f.msg p
  omega

def AssocRsp.start (o : AssocRsp) (f : Frame) : AssocRsp :=
  { o with
    newExtChannelOffset := 0xff
    htCapabilityLen := 0
    addHtInfoLen := 0
    addr2 := moveMemory o.addr2 (fun i => f.msg (10 + i)) 6
    capabilityInfo := ushortAt f.octet
    status := ushortAt fun i => f.octet (2 + i)
    ckipFlag := 0
    extRateLen := 0
    edcaParm := { o.edcaParm with bValid := false } }

/-- `*pStatus != MLME_SUCCESS`. -/
def Frame.refused (f : Frame) : Bool := ushortAt (fun i => f.octet (2 + i)) ≠ 0

def Frame.supRateLen (f : Frame) : ℕ := (f.octet 7).toNat

/-- The frame goes on with an element of supported rates that are not too many. -/
def Frame.hasRates (f : Frame) : Bool := f.octet 6 = 1 ∧ f.supRateLen ≤ 12

def Frame.firstElement (f : Frame) : ℕ := 32 + f.supRateLen

def AssocRsp.accept (o : AssocRsp) (f : Frame) : AssocRsp :=
  { o with aid := ushortAt (fun i => f.octet (4 + i)) &&& 0x3fff, supRateLen := f.supRateLen }

def AssocRsp.rates (o : AssocRsp) (f : Frame) : AssocRsp :=
  { o with supRate := moveMemory o.supRate (fun i => f.octet (8 + i)) f.supRateLen }

/-- `PeerAssocRspSanity`: what it returns, and the outputs, which contain `o` before. -/
def peerAssocRspSanity (vht : Bool) (f : Frame) (o : AssocRsp) : Bool × AssocRsp :=
  let o := o.start f
  if f.refused then (true, o)
  else
    let o := o.accept f
    if f.hasRates then (true, elementLoop vht f f.firstElement (o.rates f)) else (false, o)

def sanityAccesses (vht : Bool) (f : Frame) : List Access :=
  copies .addr2 10 6 ++ copies .capabilityInfo 24 2 ++ copies .status 26 2 ++
    if f.refused then []
    else
      copies .aid 28 2 ++ reads 30 2 ++
        if f.hasRates then copies .supRate 32 f.supRateLen ++ elementAccesses vht f f.firstElement else []

/-! ### What it should do -/

def Access.Inside (f : Frame) : Access → Prop
  | .read i => i < f.msgLen
  | .copy d n => n ≤ d.size

def ac (e : EdcaParm) (a : Fin 4) : Byte × Byte × Byte × BitVec 16 × Bool :=
  (e.aifsn a, e.cwmin a, e.cwmax a, e.txop a, e.bACM a)

/-- What EDCA parameters say, if they are valid. `bAdd` is not part of it: nothing sets it, and nothing reads it. -/
structure EdcaSeen where
  flags : Bool × Bool × Bool × Bool
  edcaUpdateCount : Byte
  acs : Fin 4 → Byte × Byte × Byte × BitVec 16 × Bool

def edcaSeen (e : EdcaParm) : EdcaSeen :=
  ⟨(e.bQAck, e.bQueueRequest, e.bTxopRequest, e.bAPSDCapable), e.edcaUpdateCount, ac e⟩

structure Fields where
  addr2 : List Byte
  capabilityInfo : BitVec 16
  status : BitVec 16
  aid : BitVec 16
  supRate : List Byte
  extRate : List Byte
  htCapability : List Byte
  addHtInfo : List Byte
  newExtChannelOffset : Byte
  ckipFlag : Byte
  edcaValid : Bool

namespace AssocRsp

def fields (o : AssocRsp) : Fields where
  addr2 := Lib.read o.addr2 6
  capabilityInfo := o.capabilityInfo
  status := o.status
  aid := o.aid
  supRate := Lib.read o.supRate o.supRateLen
  extRate := Lib.read o.extRate o.extRateLen
  htCapability := Lib.read o.htCapability o.htCapabilityLen
  addHtInfo := Lib.read o.addHtInfo o.addHtInfoLen
  newExtChannelOffset := o.newExtChannelOffset
  ckipFlag := o.ckipFlag
  edcaValid := o.edcaParm.bValid

def seen (o : AssocRsp) : Fields × Option EdcaSeen :=
  (o.fields, if o.edcaParm.bValid then some (edcaSeen o.edcaParm) else none)

end AssocRsp

/-- **A frame is parsed safely**: everything that is read lies in the message, every copy fits its output, and if the
parser returns `TRUE` then what the outputs say comes from this call, whatever they contained before. -/
structure FrameSafe (vht : Bool) (f : Frame) : Prop where
  inside : ∀ x ∈ sanityAccesses vht f, x.Inside f
  set : ∀ o o' : AssocRsp, (peerAssocRspSanity vht f o).1 = true →
    (peerAssocRspSanity vht f o).2.seen = (peerAssocRspSanity vht f o').2.seen

def Frame.elements (f : Frame) : List ℕ := Elements.complete f.msg f.msgLen f.firstElement

/-- The access category of record `i` of the WME parameter element at `p`. -/
def Frame.aci (f : Frame) (p i : ℕ) : Fin 4 :=
  ⟨((f.body p (8 + 4 * i) &&& 0x60#8) >>> 5).toNat % 4, Nat.mod_lt _ (by decide)⟩

/-- The element at `p` sets EDCA parameters. -/
def Frame.SetsEdca (f : Frame) (p : ℕ) : Prop := Eid.ofByte (f.msg p) = .vendorSpecific ∧ f.isWmeParm p = true

/-- When the elements of an accepted frame are such that it is parsed safely. -/
structure Fits (f : Frame) : Prop where
  /-- the two octets that the last test of the loop goes by are still in the message -/
  rest : Elements.rest f.msg f.msgLen f.firstElement + 2 ≤ f.msgLen
  /-- the six octets that a vendor element is compared in are in the message -/
  vendor : ∀ p ∈ f.elements, Eid.ofByte (f.msg p) = .vendorSpecific → p + 8 ≤ f.msgLen
  /-- if there are WME parameters, then there are some for each access category -/
  categories : ∀ p ∈ f.elements, f.SetsEdca p → ∀ a, ∃ q ∈ f.elements, f.SetsEdca q ∧ ∃ i < 4, f.aci q i = a

/-! ### Where it reads and writes -/

section

variable {f : Frame} {l l' : List Access} {c : Prop} [Decidable c]

def AllInside (f : Frame) (l : List Access) : Prop := ∀ x ∈ l, x.Inside f

theorem allInside_nil : AllInside f [] := List.forall_mem_nil _

theorem allInside_cons {x : Access} : AllInside f (x :: l) ↔ x.Inside f ∧ AllInside f l := List.forall_mem_cons

theorem allInside_append : AllInside f (l ++ l') ↔ AllInside f l ∧ AllInside f l' := List.forall_mem_append

theorem allInside_ite : AllInside f (if c then l else []) ↔ (c → AllInside f l) := by
  split_ifs with h
  · exact ⟨fun hl _ => hl, fun hl => hl h⟩
  · exact iff_of_true allInside_nil fun hc => absurd hc h

theorem allInside_reads {p n : ℕ} : AllInside f (reads p n) ↔ n = 0 ∨ p + n ≤ f.msgLen := by
  unfold AllInside reads
  rw [List.forall_mem_map]
  constructor
  · intro h
    rcases Nat.eq_zero_or_pos n with h0 | hpos
    · exact .inl h0
    · have hlast : p + (n - 1) < f.msgLen := h (n - 1) (List.mem_range.2 (by omega))
      omega
  · intro h i hi
    have := List.mem_range.1 hi
    show p + i < f.msgLen
    omega

theorem allInside_copies {d : Output} {p n : ℕ} :
    AllInside f (copies d p n) ↔ (n = 0 ∨ p + n ≤ f.msgLen) ∧ n ≤ d.size := by
  unfold copies
  rw [allInside_append, allInside_reads, allInside_cons, and_iff_left allInside_nil]
  rfl

/-- **An arm** touches only what is in its element, but for the comparison of a vendor element. -/
theorem allInside_arm (vht : Bool) {p : ℕ} (h : Elements.next f.msg p ≤ f.msgLen) :
    AllInside f (armAccesses vht f p) ↔ (Eid.ofByte (f.msg p) = .vendorSpecific → p + 8 ≤ f.msgLen) := by
  unfold Elements.next at h
  unfold armAccesses
  dsimp only
  cases Eid.ofByte (f.msg p) with
  | vendorSpecific =>
    dsimp only
    rw [allInside_append, allInside_reads, allInside_ite]
    refine ⟨fun ⟨h6, _⟩ _ => by omega, fun h8 => ⟨.inr (h8 rfl), fun hparm => ?_⟩⟩
    have hlen : Elements.len f.msg p = 24 := of_decide_eq_true (Bool.and_eq_true_iff.1 hparm).2
    rw [allInside_append, allInside_reads, allInside_reads]
    omega
  | extSuppRates =>
    dsimp only
    rw [allInside_ite, allInside_copies]
    exact iff_of_true (fun hlen => ⟨.inr (by omega), hlen⟩) nofun
  | htCap =>
    dsimp only
    rw [allInside_ite, allInside_copies]
    exact iff_of_true (fun hlen => ⟨.inr (by omega), le_rfl⟩) nofun
  | addHt =>
    dsimp only
    rw [allInside_ite, allInside_copies]
    exact iff_of_true (fun hlen => ⟨.inr (by omega), le_rfl⟩) nofun
  | secondaryChOffset =>
    dsimp only
    rw [allInside_ite, allInside_reads]
    exact iff_of_true (fun hlen => .inr (by omega)) nofun
  | vhtCap =>
    dsimp only
    rw [allInside_ite, allInside_copies]
    exact iff_of_true (fun hlen => ⟨.inr (by omega), le_rfl⟩) nofun
  | vhtOp =>
    dsimp only
    rw [allInside_ite, allInside_copies]
    exact iff_of_true (fun hlen => ⟨.inr (by omega), le_rfl⟩) nofun
  | extCapability =>
    dsimp only
    rw [allInside_ite, allInside_copies]
    exact iff_of_true (fun hlen => ⟨.inr (by omega), Nat.min_le_right _ _⟩) nofun
  | other => exact iff_of_true allInside_nil nofun

/-- **The loop**: its last test needs two octets behind the last complete element. -/
theorem allInside_elements (vht : Bool) (p : ℕ) :
    AllInside f (elementAccesses vht f p) ↔ Elements.rest f.msg f.msgLen p + 2 ≤ f.msgLen ∧
      ∀ q ∈ Elements.complete f.msg f.msgLen p, Eid.ofByte (f.msg q) = .vendorSpecific → q + 8 ≤ f.msgLen := by
  induction p using Elements.complete_induction (m := f.msg) (n := f.msgLen) with
  | hlast p h =>
    rw [elementAccesses, if_neg (by omega), allInside_cons, and_iff_left allInside_nil, Elements.rest_of_lt h,
      Elements.complete_of_lt h]
    exact ⟨fun hread => ⟨hread, List.forall_mem_nil _⟩, fun hrest => hrest.1⟩
  | hnext p h ih =>
    have hlt := Elements.lt_next f.msg p
    have hread : (Access.read (p + 1)).Inside f := lt_of_lt_of_le hlt h
    have hread' : (Access.read p).Inside f := show p < f.msgLen by omega
    rw [elementAccesses, if_pos h, allInside_cons, and_iff_right hread, List.cons_append, allInside_cons,
      and_iff_right hread', allInside_append, allInside_arm vht h, ih, Elements.rest_of_le h, Elements.complete_of_le h,
      List.forall_mem_cons]
    exact and_left_comm

theorem inside_iff (vht : Bool) (f : Frame) :
    AllInside f (sanityAccesses vht f) ↔ 28 ≤ f.msgLen ∧ (f.refused = false → 32 ≤ f.msgLen ∧
      (f.hasRates = true → Elements.rest f.msg f.msgLen f.firstElement + 2 ≤ f.msgLen ∧
        ∀ p ∈ f.elements, Eid.ofByte (f.msg p) = .vendorSpecific → p + 8 ≤ f.msgLen)) := by
  unfold sanityAccesses
  rw [allInside_append, allInside_append, allInside_append, allInside_copies, allInside_copies, allInside_copies]
  have hfixed : (((6 = 0 ∨ 10 + 6 ≤ f.msgLen) ∧ 6 ≤ Output.addr2.size) ∧
      (2 = 0 ∨ 24 + 2 ≤ f.msgLen) ∧ 2 ≤ Output.capabilityInfo.size) ∧
      (2 = 0 ∨ 26 + 2 ≤ f.msgLen) ∧ 2 ≤ Output.status.size ↔ 28 ≤ f.msgLen := by
    have h1 : Output.addr2.size = 6 := rfl
    have h2 : Output.capabilityInfo.size = 2 := rfl
    have h3 : Output.status.size = 2 := rfl
    omega
  refine and_congr hfixed ?_
  cases f.refused with
  | true => exact iff_of_true allInside_nil nofun
  | false =>
    rw [if_neg Bool.false_ne_true, forall_prop_of_true rfl, allInside_append, allInside_append, allInside_copies,
      allInside_reads, allInside_ite, allInside_append, allInside_copies, allInside_elements]
    have hfixed' : ((2 = 0 ∨ 28 + 2 ≤ f.msgLen) ∧ 2 ≤ Output.aid.size) ∧ (2 = 0 ∨ 30 + 2 ≤ f.msgLen) ↔
        32 ≤ f.msgLen := by
      have h1 : Output.aid.size = 2 := rfl
      omega
    refine and_congr hfixed' (forall_congr' fun hrates => and_iff_right_of_imp fun h => ?_)
    -- the rates lie in front of the first element
    have hle := Elements.le_rest (m := f.msg) (n := f.msgLen) (p := f.firstElement)
    have hcount : f.supRateLen ≤ 12 := (of_decide_eq_true hrates).2
    unfold Frame.firstElement at hle h
    exact ⟨.inr (by omega), hcount⟩

end

/-! ### What the outputs come from -/

section

variable {ε ξ ν : Type} {g : ε → ν} {s : ε → ξ → ε} {P : ξ → Prop}

theorem foldl_kept (hkeep : ∀ e x, ¬ P x → g (s e x) = g e) {l : List ξ} (h : ∀ x ∈ l, ¬ P x) (e : ε) :
    g (l.foldl s e) = g e := by
  induction l generalizing e with
  | nil => rfl
  | cons x l ih =>
    obtain ⟨hx, hl⟩ := List.forall_mem_cons.1 h
    rw [List.foldl_cons, ih hl, hkeep e x hx]

theorem foldl_set (hkeep : ∀ e x, ¬ P x → g (s e x) = g e) (hset : ∀ e e' x, P x → g (s e x) = g (s e' x))
    {l : List ξ} (h : ∃ x ∈ l, P x) (e e' : ε) : g (l.foldl s e) = g (l.foldl s e') := by
  classical
  induction l generalizing e e' with
  | nil =>
    obtain ⟨x, hx, -⟩ := h
    exact absurd hx List.not_mem_nil
  | cons x l ih =>
    by_cases hl : ∃ y ∈ l, P y
    · exact ih hl (s e x) (s e' x)
    · have hnone : ∀ y ∈ l, ¬ P y := fun y hy hP => hl ⟨y, hy, hP⟩
      obtain ⟨y, hy, hP⟩ := h
      have hyx : y = x := (List.mem_cons.1 hy).resolve_right fun hmem => hnone y hmem hP
      rw [List.foldl_cons, List.foldl_cons, foldl_kept hkeep hnone, foldl_kept hkeep hnone]
      exact hset e e' x (hyx ▸ hP)

end

section

variable (f : Frame)

theorem ac_setAc (e : EdcaParm) (ptr : ℕ → Byte) (a : Fin 4) :
    ac (e.setAc ptr) a =
      if a = ⟨((ptr 0 &&& 0x60#8) >>> 5).toNat % 4, Nat.mod_lt _ (by decide)⟩ then
        (ptr 0 &&& 0x0f#8, ptr 1 &&& 0x0f#8, ptr 1 >>> 4, ushortAt fun i => ptr (2 + i), decide (ptr 0 &&& 0x10#8 = 0x10#8))
      else ac e a := by
  unfold ac EdcaParm.setAc
  dsimp only
  split_ifs with h
  · subst h
    rw [Function.update_self, Function.update_self, Function.update_self, Function.update_self, Function.update_self]
  · rw [Function.update_of_ne h, Function.update_of_ne h, Function.update_of_ne h, Function.update_of_ne h,
      Function.update_of_ne h]

theorem ac_ofParmElem_set {p : ℕ} {a : Fin 4} (h : ∃ i < 4, f.aci p i = a) (e e' : EdcaParm) :
    ac (e.ofParmElem (f.body p)) a = ac (e'.ofParmElem (f.body p)) a := by
  refine foldl_set (g := fun e => ac e a) (P := fun i => f.aci p i = a) (fun e i hi => ?_) (fun e e' i hi => ?_) ?_ _ _
  · show ac (e.setAc _) a = _
    rw [ac_setAc, if_neg fun heq => hi heq.symm]
  · show ac (e.setAc _) a = ac (e'.setAc _) a
    rw [ac_setAc, ac_setAc]
    exact (if_pos hi.symm).trans (if_pos hi.symm).symm
  · obtain ⟨i, hi, ha⟩ := h
    exact ⟨i, List.mem_range.2 hi, ha⟩

theorem ac_ofParmElem_kept {p : ℕ} {a : Fin 4} (h : ¬ ∃ i < 4, f.aci p i = a) (e : EdcaParm) :
    ac (e.ofParmElem (f.body p)) a = ac e a := by
  refine (foldl_kept (g := fun e => ac e a) (P := fun i => f.aci p i = a) (fun e i hi => ?_) (fun i hi ha => ?_) _)
  · show ac (e.setAc _) a = _
    rw [ac_setAc, if_neg fun heq => hi heq.symm]
  · exact h ⟨i, List.mem_range.1 hi, ha⟩

theorem ofParmElem_info (e : EdcaParm) (body : ℕ → Byte) :
    (e.ofParmElem body).bValid = true ∧ (edcaSeen (e.ofParmElem body)).flags = (edcaSeen (e.setInfo body)).flags ∧
      (e.ofParmElem body).edcaUpdateCount = body 6 &&& 0x0f#8 := by
  have hkept : ∀ {ν : Type} (g : EdcaParm → ν), (∀ e ptr, g (EdcaParm.setAc e ptr) = g e) →
      g (e.ofParmElem body) = g (e.setInfo body) := by
    intro ν g hg
    exact foldl_kept (g := g) (P := fun _ => False) (fun e i _ => hg e _) (fun _ _ => id) _
  exact ⟨hkept (fun e => e.bValid) fun _ _ => rfl, hkept (fun e => (edcaSeen e).flags) fun _ _ => rfl,
    hkept (fun e => e.edcaUpdateCount) fun _ _ => rfl⟩

theorem fields_arm (vht : Bool) (p : ℕ) {o o' : AssocRsp} (h : o.fields = o'.fields) :
    (arm vht f o p).fields = (arm vht f o' p).fields := by
  have hcopy : ∀ (m m' src : ℕ → Byte) (n : ℕ), Lib.read (moveMemory m src n) n = Lib.read (moveMemory m' src n) n := by
    intro m m' src n
    rw [BssTable.read_moveMemory, BssTable.read_moveMemory]
  unfold AssocRsp.fields at h
  rw [Fields.mk.injEq] at h
  obtain ⟨haddr2, hcap, hstatus, haid, hsup, hext, hht, hadd, hoff, hckip, hvalid⟩ := h
  unfold arm AssocRsp.fields
  rw [Fields.mk.injEq]
  dsimp only
  cases Eid.ofByte (f.msg p) with
  | extSuppRates =>
    dsimp only
    split_ifs
    · exact ⟨haddr2, hcap, hstatus, haid, hsup, hcopy _ _ _ _, hht, hadd, hoff, hckip, hvalid⟩
    · exact ⟨haddr2, hcap, hstatus, haid, hsup, hext, hht, hadd, hoff, hckip, hvalid⟩
  | htCap =>
    dsimp only
    split_ifs
    · exact ⟨haddr2, hcap, hstatus, haid, hsup, hext, hcopy _ _ _ _, hadd, hoff, hckip, hvalid⟩
    · exact ⟨haddr2, hcap, hstatus, haid, hsup, hext, hht, hadd, hoff, hckip, hvalid⟩
  | addHt =>
    dsimp only
    split_ifs
    · exact ⟨haddr2, hcap, hstatus, haid, hsup, hext, hht, hcopy _ _ _ _, hoff, hckip, hvalid⟩
    · exact ⟨haddr2, hcap, hstatus, haid, hsup, hext, hht, hadd, hoff, hckip, hvalid⟩
  | secondaryChOffset =>
    dsimp only
    split_ifs
    · exact ⟨haddr2, hcap, hstatus, haid, hsup, hext, hht, hadd, rfl, hckip, hvalid⟩
    · exact ⟨haddr2, hcap, hstatus, haid, hsup, hext, hht, hadd, hoff, hckip, hvalid⟩
  | vendorSpecific =>
    dsimp only
    split_ifs
    · refine ⟨haddr2, hcap, hstatus, haid, hsup, hext, hht, hadd, hoff, hckip, ?_⟩
      exact ((ofParmElem_info o.edcaParm _).1).trans (ofParmElem_info o'.edcaParm _).1.symm
    · exact ⟨haddr2, hcap, hstatus, haid, hsup, hext, hht, hadd, hoff, hckip, hvalid⟩
  | vhtCap | vhtOp | extCapability =>
    dsimp only
    split_ifs
    · exact ⟨haddr2, hcap, hstatus, haid, hsup, hext, hht, hadd, hoff, hckip, hvalid⟩
    · exact ⟨haddr2, hcap, hstatus, haid, hsup, hext, hht, hadd, hoff, hckip, hvalid⟩
  | other => exact ⟨haddr2, hcap, hstatus, haid, hsup, hext, hht, hadd, hoff, hckip, hvalid⟩

theorem edcaParm_arm_of_sets (vht : Bool) {p : ℕ} (h : f.SetsEdca p) (o : AssocRsp) :
    (arm vht f o p).edcaParm = o.edcaParm.ofParmElem (f.body p) := by
  obtain ⟨heid, hparm⟩ := h
  unfold arm
  dsimp only
  rw [heid]
  dsimp only
  rw [if_pos hparm]

theorem edcaParm_arm_of_not (vht : Bool) {p : ℕ} (h : ¬ f.SetsEdca p) (o : AssocRsp) :
    (arm vht f o p).edcaParm = o.edcaParm := by
  unfold arm
  dsimp only
  cases heid : Eid.ofByte (f.msg p) with
  | vendorSpecific =>
    dsimp only
    rw [if_neg fun hparm => h ⟨heid, hparm⟩]
  | extSuppRates | htCap | addHt | secondaryChOffset | vhtCap | vhtOp | extCapability =>
    dsimp only
    split_ifs <;> rfl
  | other => rfl

theorem elementLoop_eq (vht : Bool) (p : ℕ) (o : AssocRsp) :
    elementLoop vht f p o = (Elements.complete f.msg f.msgLen p).foldl (arm vht f) o := by
  induction p using Elements.complete_induction (m := f.msg) (n := f.msgLen) generalizing o with
  | hlast p h =>
    rw [elementLoop, if_neg (by omega), Elements.complete_of_lt h]
    rfl
  | hnext p h ih => rw [elementLoop, if_pos h, ih, Elements.complete_of_le h, List.foldl_cons]

theorem fields_foldl (vht : Bool) (l : List ℕ) {o o' : AssocRsp} (h : o.fields = o'.fields) :
    (l.foldl (arm vht f) o).fields = (l.foldl (arm vht f) o').fields := by
  induction l generalizing o o' with
  | nil => exact h
  | cons p l ih => exact ih (fields_arm f vht p h)

theorem ac_foldl_set (vht : Bool) {l : List ℕ} {a : Fin 4} (h : ∃ q ∈ l, f.SetsEdca q ∧ ∃ i < 4, f.aci q i = a)
    (o o' : AssocRsp) : ac (l.foldl (arm vht f) o).edcaParm a = ac (l.foldl (arm vht f) o').edcaParm a := by
  refine foldl_set (g := fun o : AssocRsp => ac o.edcaParm a) (fun o q hq => ?_) (fun o o' q hq => ?_) h o o'
  · by_cases hsets : f.SetsEdca q
    · rw [edcaParm_arm_of_sets f vht hsets]
      exact ac_ofParmElem_kept f (fun hi => hq ⟨hsets, hi⟩) _
    · rw [edcaParm_arm_of_not f vht hsets]
  · rw [edcaParm_arm_of_sets f vht hq.1, edcaParm_arm_of_sets f vht hq.1]
    exact ac_ofParmElem_set f hq.2 _ _

theorem ac_foldl_kept (vht : Bool) {l : List ℕ} {a : Fin 4} (h : ¬ ∃ q ∈ l, f.SetsEdca q ∧ ∃ i < 4, f.aci q i = a)
    (o : AssocRsp) : ac (l.foldl (arm vht f) o).edcaParm a = ac o.edcaParm a := by
  refine foldl_kept (g := fun o : AssocRsp => ac o.edcaParm a) (P := fun q => f.SetsEdca q ∧ ∃ i < 4, f.aci q i = a)
    (fun o q hq => ?_) (fun q hq hP => h ⟨q, hq, hP⟩) o
  by_cases hsets : f.SetsEdca q
  · rw [edcaParm_arm_of_sets f vht hsets]
    exact ac_ofParmElem_kept f (fun hi => hq ⟨hsets, hi⟩) _
  · rw [edcaParm_arm_of_not f vht hsets]

/-- If some element sets EDCA parameters, then they are valid, and what it says of all categories does not come from
what was there before. -/
theorem info_foldl (vht : Bool) {l : List ℕ} (h : ∃ q ∈ l, f.SetsEdca q) (o o' : AssocRsp) :
    (l.foldl (arm vht f) o).edcaParm.bValid = true ∧
      (edcaSeen (l.foldl (arm vht f) o).edcaParm).flags = (edcaSeen (l.foldl (arm vht f) o').edcaParm).flags ∧
      (l.foldl (arm vht f) o).edcaParm.edcaUpdateCount = (l.foldl (arm vht f) o').edcaParm.edcaUpdateCount := by
  have hfold : ∀ {ν : Type} (g : EdcaParm → ν),
      (∀ (e e' : EdcaParm) p, g (e.ofParmElem (f.body p)) = g (e'.ofParmElem (f.body p))) →
        ∀ o o' : AssocRsp, g (l.foldl (arm vht f) o).edcaParm = g (l.foldl (arm vht f) o').edcaParm := by
    intro ν g hg
    refine foldl_set (g := fun o : AssocRsp => g o.edcaParm) (fun o q hq => ?_) (fun o o' q hq => ?_) h
    · rw [edcaParm_arm_of_not f vht hq]
    · rw [edcaParm_arm_of_sets f vht hq, edcaParm_arm_of_sets f vht hq]
      exact hg _ _ q
  refine ⟨?_, ?_, ?_⟩
  · -- valid parameters stay valid, and those set before are
    have hvalid := hfold (fun e => e.bValid) (fun e e' p => (ofParmElem_info e _).1.trans (ofParmElem_info e' _).1.symm)
      o { o with edcaParm := { o.edcaParm with bValid := true } }
    refine hvalid.trans ?_
    clear hvalid hfold h
    suffices hkeep : ∀ o : AssocRsp, o.edcaParm.bValid = true → (l.foldl (arm vht f) o).edcaParm.bValid = true from
      hkeep _ rfl
    induction l with
    | nil => exact fun o ho => ho
    | cons p l ih =>
      refine fun o ho => ih _ ?_
      by_cases hsets : f.SetsEdca p
      · rw [edcaParm_arm_of_sets f vht hsets]
        exact (ofParmElem_info _ _).1
      · rw [edcaParm_arm_of_not f vht hsets]
        exact ho
  · exact hfold (fun e => (edcaSeen e).flags)
      (fun e e' p => (ofParmElem_info e _).2.1.trans (ofParmElem_info e' _).2.1.symm) o o'
  · exact hfold (fun e => e.edcaUpdateCount)
      (fun e e' p => (ofParmElem_info e _).2.2.trans (ofParmElem_info e' _).2.2.symm) o o'

theorem valid_foldl_none (vht : Bool) {l : List ℕ} (h : ∀ q ∈ l, ¬ f.SetsEdca q) (o : AssocRsp) :
    (l.foldl (arm vht f) o).edcaParm.bValid = o.edcaParm.bValid := by
  refine foldl_kept (g := fun o : AssocRsp => o.edcaParm.bValid) (fun o q hq => ?_) h o
  rw [edcaParm_arm_of_not f vht hq]

theorem fields_rates (o o' : AssocRsp) :
    (((o.start f).accept f).rates f).fields = (((o'.start f).accept f).rates f).fields := by
  unfold AssocRsp.fields
  rw [Fields.mk.injEq]
  refine ⟨?_, rfl, rfl, rfl, ?_, rfl, rfl, rfl, rfl, rfl, rfl⟩
  · exact (BssTable.read_moveMemory _ _ _).trans (BssTable.read_moveMemory _ _ _).symm
  · exact (BssTable.read_moveMemory _ _ _).trans (BssTable.read_moveMemory _ _ _).symm

/-- **What an accepted frame leaves in the outputs** comes from the frame, if its WME parameters name each category. -/
theorem seen_foldl (vht : Bool) {l : List ℕ}
    (h : ∀ p ∈ l, f.SetsEdca p → ∀ a, ∃ q ∈ l, f.SetsEdca q ∧ ∃ i < 4, f.aci q i = a) (o o' : AssocRsp) :
    (l.foldl (arm vht f) (((o.start f).accept f).rates f)).seen =
      (l.foldl (arm vht f) (((o'.start f).accept f).rates f)).seen := by
  refine Prod.ext (fields_foldl f vht l (fields_rates f o o')) ?_
  unfold AssocRsp.seen
  dsimp only
  by_cases hsets : ∃ q ∈ l, f.SetsEdca q
  · obtain ⟨hvalid, hflags, hcount⟩ := info_foldl f vht hsets (((o.start f).accept f).rates f)
      (((o'.start f).accept f).rates f)
    obtain ⟨hvalid', -⟩ := info_foldl f vht hsets (((o'.start f).accept f).rates f) (((o.start f).accept f).rates f)
    rw [if_pos hvalid, if_pos hvalid']
    obtain ⟨p, hp, hsp⟩ := hsets
    unfold edcaSeen at hflags ⊢
    rw [Option.some_inj, EdcaSeen.mk.injEq]
    exact ⟨hflags, hcount, funext fun a => ac_foldl_set f vht (h p hp hsp a) _ _⟩
  · have hnone : ∀ q ∈ l, ¬ f.SetsEdca q := fun q hq hs => hsets ⟨q, hq, hs⟩
    rw [valid_foldl_none f vht hnone, valid_foldl_none f vht hnone]
    rfl

end

/-- Outputs that contain zeros but for the AID and the AIFSN of all categories. -/
def blank (aid : BitVec 16) (aifsn : Byte) : AssocRsp where
  addr2 := zeroMemory
  capabilityInfo := 0
  status := 0
  aid := aid
  supRate := zeroMemory
  supRateLen := 0
  extRate := zeroMemory
  extRateLen := 0
  htCapability := zeroMemory
  htCapabilityLen := 0
  addHtInfo := zeroMemory
  addHtInfoLen := 0
  newExtChannelOffset := 0
  edcaParm := ⟨false, false, false, false, false, false, 0, fun _ => aifsn, fun _ => 0, fun _ => 0, fun _ => 0, fun _ => false⟩
  extCapInfo := zeroMemory
  ckipFlag := 0
  vhtCap := zeroMemory
  vhtCapLen := 0
  vhtOp := zeroMemory
  vhtOpLen := 0

section

variable (vht : Bool) (f : Frame)

theorem sanity_of_refused (h : f.refused = true) (o : AssocRsp) :
    peerAssocRspSanity vht f o = (true, o.start f) := by
  unfold peerAssocRspSanity
  rw [if_pos h]

theorem sanity_of_rates (h : f.refused = false) (hr : f.hasRates = true) (o : AssocRsp) :
    peerAssocRspSanity vht f o =
      (true, f.elements.foldl (arm vht f) (((o.start f).accept f).rates f)) := by
  unfold peerAssocRspSanity
  rw [if_neg (by rw [h]; exact Bool.false_ne_true), if_pos hr, elementLoop_eq]
  rfl

theorem sanity_of_noRates (h : f.refused = false) (hr : f.hasRates = false) (o : AssocRsp) :
    (peerAssocRspSanity vht f o).1 = false := by
  unfold peerAssocRspSanity
  rw [if_neg (by rw [h]; exact Bool.false_ne_true), if_neg (by rw [hr]; exact Bool.false_ne_true)]

/-- **When all outputs are set**: the frame accepts the association, and its WME parameters, if there are some, are
there for each access category. -/
theorem set_iff :
    (∀ o o' : AssocRsp, (peerAssocRspSanity vht f o).1 = true →
        (peerAssocRspSanity vht f o).2.seen = (peerAssocRspSanity vht f o').2.seen) ↔
      f.refused = false ∧ (f.hasRates = true →
        ∀ p ∈ f.elements, f.SetsEdca p → ∀ a, ∃ q ∈ f.elements, f.SetsEdca q ∧ ∃ i < 4, f.aci q i = a) := by
  constructor
  · intro h
    have hrefused : f.refused = false := by
      rw [← Bool.not_eq_true]
      intro hr
      have hseen := h (blank 0 0) (blank 1 0) (by rw [sanity_of_refused vht f hr])
      rw [sanity_of_refused vht f hr, sanity_of_refused vht f hr] at hseen
      have haid : (0 : BitVec 16) = 1 := congrArg (fun s => s.1.aid) hseen
      exact absurd haid (by decide)
    refine ⟨hrefused, fun hr p hp hsp a => ?_⟩
    by_contra hnone
    have hseen := h (blank 0 0) (blank 0 1) (by rw [sanity_of_rates vht f hrefused hr])
    rw [sanity_of_rates vht f hrefused hr, sanity_of_rates vht f hrefused hr] at hseen
    have hopt := congrArg Prod.snd hseen
    unfold AssocRsp.seen at hopt
    dsimp only at hopt
    rw [if_pos (info_foldl f vht ⟨p, hp, hsp⟩ _ (blank 0 0)).1, if_pos (info_foldl f vht ⟨p, hp, hsp⟩ _ (blank 0 0)).1,
      Option.some_inj] at hopt
    -- the category keeps what the caller's memory contained
    have hac := congrArg (fun s => s.acs a) hopt
    unfold edcaSeen at hac
    dsimp only at hac
    rw [ac_foldl_kept f vht hnone, ac_foldl_kept f vht hnone] at hac
    have haifsn : (0 : Byte) = 1 := congrArg Prod.fst hac
    exact absurd haifsn (by decide)
  · rintro ⟨hrefused, hcat⟩ o o' htrue
    cases hr : f.hasRates with
    | true =>
      rw [sanity_of_rates vht f hrefused hr, sanity_of_rates vht f hrefused hr]
      exact seen_foldl f vht (hcat hr) o o'
    | false =>
      rw [sanity_of_noRates vht f hrefused hr] at htrue
      exact absurd htrue nofun

/-- **Which frames are parsed safely**: those of at least 32 octets that accept the association and either have no
proper supported rates, or elements that fit. -/
theorem frameSafe_iff : FrameSafe vht f ↔ 32 ≤ f.msgLen ∧ f.refused = false ∧ (f.hasRates = true → Fits f) := by
  constructor
  · rintro ⟨hinside, hset⟩
    obtain ⟨-, hrest⟩ := (inside_iff vht f).1 hinside
    obtain ⟨hrefused, hcat⟩ := (set_iff vht f).1 hset
    obtain ⟨h32, hfits⟩ := hrest hrefused
    exact ⟨h32, hrefused, fun hr => ⟨(hfits hr).1, (hfits hr).2, hcat hr⟩⟩
  · rintro ⟨h32, hrefused, hfits⟩
    refine ⟨(inside_iff vht f).2 ⟨by omega, fun _ => ⟨h32, fun hr => ⟨(hfits hr).rest, (hfits hr).vendor⟩⟩⟩, ?_⟩
    exact (set_iff vht f).2 ⟨hrefused, fun hr => (hfits hr).categories⟩

end

end Mt7610u.Mgmt.Assoc
