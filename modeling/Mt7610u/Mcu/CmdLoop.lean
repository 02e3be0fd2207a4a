import Mt7610u.Mcu.Firmware

/-! # Register accesses in parts

`andes_burst_write`, `andes_random_write`, `andes_read_modify_write`, `andes_burst_read`, `andes_random_read` and the
functions for the RF registers cut what they are asked for into command messages of at most `InbandPacketMaxLen` bytes.
The eight loops are one, with the words of a message and the lengths as each function has them. -/

namespace Mt7610u.Mcu.CmdLoop

abbrev Word := BitVec 32

structure RegPair where
  register : Word
  value : Word

structure BankRfRegPair where
  bank : BitVec 8
  register : BitVec 8
  value : BitVec 8

structure RMWReg where
  register : Word
  clearBitMask : Word
  value : Word

structure RfRMWReg where
  bank : BitVec 8
  register : BitVec 8
  clearBitMask : BitVec 8
  value : BitVec 8

inductive CmdType
  | burstWrite
  | readModifyWrite
  | randomRead
  | burstRead
  | randomWrite
  deriving DecidableEq

def CmdType.reads : CmdType → Bool
  | .burstRead | .randomRead => true
  | .burstWrite | .readModifyWrite | .randomWrite => false

/-- `struct cmd_msg` as it is sent: `size` is what was allocated, `rspPayload` where in the caller's array the
response goes, `payload` the words that were appended. -/
structure CmdMsg where
  size : ℕ
  type : CmdType
  needWait : Bool
  needRetransmit : Bool
  needRsp : Bool
  rspPayloadLen : ℕ
  rspPayload : Option ℕ
  payload : List Word

/-! ### The loop -/

/-- What the functions differ in: `var_len` or `rsp_len`; how much is allocated for a message of a length, how many
elements it is for, and its words, for an index and a length; that `*data` stands for the result of a read that
failed. -/
structure Loop where
  type : CmdType
  varLen : ℕ
  room : ℕ → ℕ
  count : ℕ → ℕ
  payload : ℕ → ℕ → List Word
  allOnes : Bool

/-- What `andes_alloc_cmd_msg` and `andes_send_cmd_msg` return, one round after the other. -/
structure Answers where
  alloc : ℕ → Bool
  send : ℕ → ℤ

/-- The variables of a loop, with the messages that it has sent, and whether `*data` was set to `0xffffffff`. -/
structure State where
  curLen : ℕ
  curIndex : ℕ
  lastPacket : Bool
  ret : ℤ
  allOnes : Bool
  sent : List CmdMsg

def State.start : State :=
  { curLen := 0, curIndex := 0, lastPacket := false, ret := 0, allOnes := false, sent := [] }

namespace Loop

variable (l : Loop)

/-- `sent_len`, `receive_len`. -/
def sentLen (curLen : ℕ) : ℕ :=
  if l.varLen - curLen > inbandPacketMaxLen then inbandPacketMaxLen else l.varLen - curLen

def lastPacket (st : State) : Bool :=
  st.lastPacket || decide (l.sentLen st.curLen < inbandPacketMaxLen ∨
    (st.curLen + inbandPacketMaxLen) % 2 ^ 32 = l.varLen)

/-- The message of a round; a read asks for a response with each of them, a write with the last one. -/
def msg (index len : ℕ) (last : Bool) : CmdMsg :=
  let ask := l.type.reads || last
  { size := l.room len
    type := l.type
    needWait := ask
    needRetransmit := ask
    needRsp := ask
    rspPayloadLen := if l.type.reads then len else 0
    rspPayload := if l.type.reads then some index else none
    payload := l.payload index len }

def round (ad : Answers) (st : State) : State :=
  let len := l.sentLen st.curLen
  let ret := ad.send st.sent.length
  { curLen := (st.curLen + inbandPacketMaxLen) % 2 ^ 32
    curIndex := (st.curIndex + l.count len) % 2 ^ 32
    lastPacket := l.lastPacket st
    ret := ret
    allOnes := st.allOnes || (l.allOnes && decide (ret ≠ 0))
    sent := st.sent ++ [l.msg st.curIndex len (l.lastPacket st)] }

/-- The loop, with a bound on the rounds; `none` where it has not ended within them. -/
def rounds (ad : Answers) : ℕ → State → Option State
  | 0, st => if st.curLen < l.varLen then none else some st
  | n + 1, st =>
    if st.curLen < l.varLen then
      if ad.alloc st.sent.length then rounds ad n (l.round ad st)
      else some { st with lastPacket := l.lastPacket st, ret := ndisStatusResources }
    else some st

end Loop

/-- A call of a function, where its pointer is not `NULL`. -/
def call (ad : Answers) (n : ℕ) : Option Loop → Option State
  | none => some { State.start with ret := -1 }
  | some l => l.rounds ad n State.start

/-! ### The functions -/

def rfWord (bank register : BitVec 8) : Word :=
  let value := (0 &&& ~~~0x80000000#32) ||| 0x80000000#32
  let value := (value &&& ~~~0x00ff0000#32) ||| (bank.setWidth 32 <<< 16)
  (value &&& ~~~0x000000ff#32) ||| register.setWidth 32

def rfReadWord (bank register : BitVec 8) : Word :=
  let value := (0 &&& ~~~0x80000000#32) ||| 0x80000000#32
  let value := (value &&& ~~~0x00ff0000#32) ||| (bank.setWidth 32 <<< 16)
  (value &&& ~~~0x0000ffff#32) ||| register.setWidth 32

def byteWord (b : BitVec 8) : Word := (0 &&& ~~~0x000000ff#32) ||| b.setWidth 32

/-- The words for `n` elements from the index `cur_index` on. -/
def append {α : Type} (words : α → List Word) (array : ℕ → α) (curIndex n : ℕ) : List Word :=
  (List.range n).flatMap fun i => words (array ((i + curIndex) % 2 ^ 32))

section Functions

variable (wlanMemmapOffset : Word)

/-- `offset + cap->WlanMemmapOffset + cur_index * 4`. -/
def burstAddr (offset : Word) (curIndex : ℕ) : Word := offset + wlanMemmapOffset + BitVec.ofNat 32 (curIndex * 4)

def andesBurstWrite (offset : Word) (data : Option (ℕ → Word)) (cnt : Word) : Option Loop :=
  data.map fun data =>
    { type := .burstWrite
      varLen := ReadKind.burst.rspLen cnt.toNat
      room := fun sentLen => sentLen
      count := fun sentLen => (sentLen - 4) / 4
      payload := fun curIndex sentLen =>
        burstAddr wlanMemmapOffset offset curIndex :: append (fun w => [w]) data curIndex ((sentLen - 4) / 4)
      allOnes := false }

def andesBurstRead (offset : Word) (cnt : Word) (data : Option Unit) : Option Loop :=
  data.map fun _ =>
    { type := .burstRead
      varLen := ReadKind.burst.rspLen cnt.toNat
      room := fun _ => 8
      count := fun receiveLen => (receiveLen - 4) / 4
      payload := fun curIndex receiveLen =>
        [burstAddr wlanMemmapOffset offset curIndex, BitVec.ofNat 32 ((receiveLen - 4) / 4)]
      allOnes := decide (cnt = 1) }

def andesRandomRead (regPair : Option (ℕ → RegPair)) (num : Word) : Option Loop :=
  regPair.map fun regPair =>
    { type := .randomRead
      varLen := num.toNat * 8 % 2 ^ 32
      room := fun receiveLen => receiveLen
      count := fun receiveLen => receiveLen / 8
      payload := fun curIndex receiveLen =>
        append (fun p => [p.register + wlanMemmapOffset, 0]) regPair curIndex (receiveLen / 8)
      allOnes := false }

def andesRfRandomRead (regPair : Option (ℕ → BankRfRegPair)) (num : Word) : Option Loop :=
  regPair.map fun regPair =>
    { type := .randomRead
      varLen := num.toNat * 8 % 2 ^ 32
      room := fun receiveLen => receiveLen
      count := fun receiveLen => receiveLen / 8
      payload := fun curIndex receiveLen =>
        append (fun p => [rfReadWord p.bank p.register, 0]) regPair curIndex (receiveLen / 8)
      allOnes := false }

def andesReadModifyWrite (regPair : Option (ℕ → RMWReg)) (num : Word) : Option Loop :=
  regPair.map fun regPair =>
    { type := .readModifyWrite
      varLen := num.toNat * 12 % 2 ^ 32
      room := fun sentLen => sentLen
      count := fun sentLen => sentLen / 12
      payload := fun curIndex sentLen =>
        append (fun p => [p.register + wlanMemmapOffset, p.clearBitMask, p.value]) regPair curIndex (sentLen / 12)
      allOnes := false }

def andesRfReadModifyWrite (regPair : Option (ℕ → RfRMWReg)) (num : Word) : Option Loop :=
  regPair.map fun regPair =>
    { type := .readModifyWrite
      varLen := num.toNat * 12 % 2 ^ 32
      room := fun sentLen => sentLen
      count := fun sentLen => sentLen / 12
      payload := fun curIndex sentLen =>
        append (fun p => [rfWord p.bank p.register, byteWord p.clearBitMask, byteWord p.value]) regPair curIndex
          (sentLen / 12)
      allOnes := false }

def andesRandomWrite (regPair : Option (ℕ → RegPair)) (num : Word) : Option Loop :=
  regPair.map fun regPair =>
    { type := .randomWrite
      varLen := num.toNat * 8 % 2 ^ 32
      room := fun sentLen => sentLen
      count := fun sentLen => sentLen / 8
      payload := fun curIndex sentLen =>
        append (fun p => [p.register + wlanMemmapOffset, p.value]) regPair curIndex (sentLen / 8)
      allOnes := false }

def andesRfRandomWrite (regPair : Option (ℕ → BankRfRegPair)) (num : Word) : Option Loop :=
  regPair.map fun regPair =>
    { type := .randomWrite
      varLen := num.toNat * 8 % 2 ^ 32
      room := fun sentLen => sentLen
      count := fun sentLen => sentLen / 8
      payload := fun curIndex sentLen =>
        append (fun p => [rfWord p.bank p.register, byteWord p.value]) regPair curIndex (sentLen / 8)
      allOnes := false }

end Functions

/-! ### What a message asks for -/

def pairs : List Word → List (List Word)
  | a :: b :: ws => [a, b] :: pairs ws
  | _ => []

def triples : List Word → List (List Word)
  | a :: b :: c :: ws => [a, b, c] :: triples ws
  | _ => []

def burst (addr : Word) (ws : List Word) : List (List Word) := ws.mapIdx fun i w => [addr + BitVec.ofNat 32 (4 * i), w]

def CmdType.elements : CmdType → List Word → List (List Word)
  | .burstWrite, addr :: ws => burst addr ws
  | .burstWrite, [] => []
  | .burstRead, [addr, n] => (List.range n.toNat).map fun i => [addr + BitVec.ofNat 32 (4 * i)]
  | .burstRead, _ => []
  | .randomRead, ws | .randomWrite, ws => pairs ws
  | .readModifyWrite, ws => triples ws

def CmdMsg.elements (m : CmdMsg) : List (List Word) := m.type.elements m.payload

/-- How many elements the callback for a response of that length writes. -/
def CmdType.written : CmdType → ℕ → ℕ
  | .burstRead, len => ReadKind.burst.words len
  | .randomRead, len => ReadKind.random.words len
  | .burstWrite, _ | .readModifyWrite, _ | .randomWrite, _ => 0

def CmdMsg.fills (m : CmdMsg) : List ℕ :=
  match m.rspPayload with
  | none => []
  | some i => List.range' i (m.type.written m.rspPayloadLen)

theorem pairs_flatMap {α : Type} (f g : α → Word) (l : List α) :
    pairs (l.flatMap fun x => [f x, g x]) = l.map fun x => [f x, g x] := by
  induction l with
  | nil => rfl
  | cons x l ih =>
    show [f x, g x] :: pairs (l.flatMap fun x => [f x, g x]) = _
    rw [ih, List.map_cons]

theorem triples_flatMap {α : Type} (f g h : α → Word) (l : List α) :
    triples (l.flatMap fun x => [f x, g x, h x]) = l.map fun x => [f x, g x, h x] := by
  induction l with
  | nil => rfl
  | cons x l ih =>
    show [f x, g x, h x] :: triples (l.flatMap fun x => [f x, g x, h x]) = _
    rw [ih, List.map_cons]

theorem append_eq {α : Type} (words : α → List Word) (array : ℕ → α) {curIndex n : ℕ} (h : curIndex + n ≤ 2 ^ 32) :
    append words array curIndex n = (List.range' curIndex n).flatMap fun i => words (array i) := by
  rw [append, List.range'_eq_map_range, List.flatMap_map]
  refine List.flatMap_congr fun i hi => ?_
  rw [List.mem_range] at hi
  rw [Nat.mod_eq_of_lt (by omega), Nat.add_comm]

theorem length_append {α : Type} {words : α → List Word} {k : ℕ} (hk : ∀ x, (words x).length = k) (array : ℕ → α)
    (curIndex n : ℕ) : (append words array curIndex n).length = n * k := by
  rw [append, List.length_flatMap, List.map_congr_left fun i _ => hk _, List.map_const', List.sum_replicate_nat,
    List.length_range]

/-! ### Calls -/

inductive Request
  | burstWrite (offset : Word) (data : ℕ → Word) (cnt : Word)
  | burstRead (offset : Word) (cnt : Word)
  | randomRead (regPair : ℕ → RegPair) (num : Word)
  | rfRandomRead (regPair : ℕ → BankRfRegPair) (num : Word)
  | readModifyWrite (regPair : ℕ → RMWReg) (num : Word)
  | rfReadModifyWrite (regPair : ℕ → RfRMWReg) (num : Word)
  | randomWrite (regPair : ℕ → RegPair) (num : Word)
  | rfRandomWrite (regPair : ℕ → BankRfRegPair) (num : Word)

namespace Request

variable (wlanMemmapOffset : Word)

def loop? : Request → Option Loop
  | .burstWrite offset data cnt => andesBurstWrite wlanMemmapOffset offset (some data) cnt
  | .burstRead offset cnt => andesBurstRead wlanMemmapOffset offset cnt (some ())
  | .randomRead regPair num => andesRandomRead wlanMemmapOffset (some regPair) num
  | .rfRandomRead regPair num => andesRfRandomRead (some regPair) num
  | .readModifyWrite regPair num => andesReadModifyWrite wlanMemmapOffset (some regPair) num
  | .rfReadModifyWrite regPair num => andesRfReadModifyWrite (some regPair) num
  | .randomWrite regPair num => andesRandomWrite wlanMemmapOffset (some regPair) num
  | .rfRandomWrite regPair num => andesRfRandomWrite (some regPair) num

def reads : Request → Bool
  | .burstRead .. | .randomRead .. | .rfRandomRead .. => true
  | _ => false

def num : Request → ℕ
  | .burstWrite _ _ n | .burstRead _ n | .randomRead _ n | .rfRandomRead _ n | .readModifyWrite _ n
  | .rfReadModifyWrite _ n | .randomWrite _ n | .rfRandomWrite _ n => n.toNat

def element (i : ℕ) : Request → List Word
  | .burstWrite offset data _ => [offset + wlanMemmapOffset + BitVec.ofNat 32 (4 * i), data i]
  | .burstRead offset _ => [offset + wlanMemmapOffset + BitVec.ofNat 32 (4 * i)]
  | .randomRead regPair _ => [(regPair i).register + wlanMemmapOffset, 0]
  | .rfRandomRead regPair _ => [rfReadWord (regPair i).bank (regPair i).register, 0]
  | .readModifyWrite regPair _ =>
    [(regPair i).register + wlanMemmapOffset, (regPair i).clearBitMask, (regPair i).value]
  | .rfReadModifyWrite regPair _ =>
    [rfWord (regPair i).bank (regPair i).register, byteWord (regPair i).clearBitMask, byteWord (regPair i).value]
  | .randomWrite regPair _ => [(regPair i).register + wlanMemmapOffset, (regPair i).value]
  | .rfRandomWrite regPair _ => [rfWord (regPair i).bank (regPair i).register, byteWord (regPair i).value]

/-- The bytes in front of the elements of a message, the bytes of an element, and how many of them a message of full
length has. -/
def head : Request → ℕ
  | .burstWrite .. | .burstRead .. => 4
  | _ => 0

def size : Request → ℕ
  | .burstWrite .. | .burstRead .. => 4
  | .randomRead .. | .rfRandomRead .. | .randomWrite .. | .rfRandomWrite .. => 8
  | .readModifyWrite .. | .rfReadModifyWrite .. => 12

def perMsg : Request → ℕ
  | .burstWrite .. | .burstRead .. => 47
  | .randomRead .. | .rfRandomRead .. | .randomWrite .. | .rfRandomWrite .. => 24
  | .readModifyWrite .. | .rfReadModifyWrite .. => 16

def msgs (r : Request) : ℕ := (r.num + r.perMsg - 1) / r.perMsg

def total (r : Request) : ℕ := r.head * r.msgs + r.size * r.num

end Request

/-- What the functions have in common: the loop `l` is for `num` elements of `size` bytes, `per` of them in a message
of full length, behind `head` bytes. -/
structure Layout (l : Loop) (head size per num : ℕ) (element : ℕ → List Word) : Prop where
  full : head + size * per = inbandPacketMaxLen
  head_dvd : 4 ∣ head
  head_le : head ≤ 4
  size_dvd : 4 ∣ size
  size_pos : 0 < size
  num_lt : num < 2 ^ 32
  varLen_eq : l.varLen = (head * ((num + per - 1) / per) + size * num) % 2 ^ 32
  count_eq : ∀ len, l.count len = (len - head) / size
  written_eq : l.type.reads = true → ∀ len, l.type.written len = l.count len
  elements_eq : ∀ i len, len ≤ inbandPacketMaxLen → i + l.count len ≤ 2 ^ 32 →
    l.type.elements (l.payload i len) = (List.range' i (l.count len)).map element
  length_le : ∀ i len, head ≤ len → len ≤ inbandPacketMaxLen → 4 * (l.payload i len).length ≤ inbandPacketMaxLen ∧
    4 * (l.payload i len).length ≤ l.room len

theorem layout_append {α : Type} {l : Loop} (words : α → List Word) (array : ℕ → α) (size per : ℕ) {num : ℕ}
    (hfull : size * per = inbandPacketMaxLen) (hdvd : 4 ∣ size) (hpos : 0 < size) (hnum : num < 2 ^ 32)
    (hvar : l.varLen = num * size % 2 ^ 32) (hroom : ∀ len, l.room len = len) (hcount : ∀ len, l.count len = len / size)
    (hwritten : l.type.reads = true → ∀ len, l.type.written len = l.count len)
    (hpayload : ∀ i len, l.payload i len = append words array i (len / size))
    (hwords : ∀ x, 4 * (words x).length = size)
    (helements : ∀ xs : List α, l.type.elements (xs.flatMap words) = xs.map words) :
    Layout l 0 size per num fun i => words (array i) where
  full := by rw [Nat.zero_add, hfull]
  head_dvd := Nat.dvd_zero 4
  head_le := Nat.zero_le 4
  size_dvd := hdvd
  size_pos := hpos
  num_lt := hnum
  varLen_eq := by rw [hvar, Nat.zero_mul, Nat.zero_add, Nat.mul_comm]
  count_eq len := by rw [hcount, Nat.sub_zero]
  written_eq := hwritten
  elements_eq i len _ h := by
    rw [hcount] at h ⊢
    rw [hpayload, append_eq words array h]
    have h2 := helements ((List.range' i (len / size)).map array)
    rwa [List.flatMap_map, List.map_map] at h2
  length_le i len _ hle := by
    have hbytes : 4 * (append words array i (len / size)).length ≤ len := by
      rw [length_append (k := size / 4) fun x => ?_, Nat.mul_left_comm, Nat.mul_div_cancel' hdvd]
      · exact Nat.div_mul_le_self len size
      · have := hwords x
        omega
    rw [hpayload, hroom]
    exact ⟨hbytes.trans hle, hbytes⟩

theorem burstAddr_add (wlanMemmapOffset offset : Word) (i j : ℕ) :
    burstAddr wlanMemmapOffset offset i + BitVec.ofNat 32 (4 * j) =
      offset + wlanMemmapOffset + BitVec.ofNat 32 (4 * (i + j)) := by
  rw [burstAddr, BitVec.add_assoc, ← BitVec.ofNat_add, Nat.mul_comm i 4, Nat.mul_add]

theorem burst_append (wlanMemmapOffset offset : Word) (data : ℕ → Word) {i n : ℕ} (h : i + n ≤ 2 ^ 32) :
    burst (burstAddr wlanMemmapOffset offset i) (append (fun w => [w]) data i n) =
      (List.range' i n).map fun i => [offset + wlanMemmapOffset + BitVec.ofNat 32 (4 * i), data i] := by
  rw [append_eq _ _ h, ← List.map_eq_flatMap, burst]
  refine List.ext_getElem (by rw [List.length_mapIdx, List.length_map, List.length_map]) fun j h1 h2 => ?_
  simp [burstAddr_add]

theorem layout_andesBurstWrite (wlanMemmapOffset offset : Word) (data : ℕ → Word) (cnt : Word) {l : Loop}
    (h : andesBurstWrite wlanMemmapOffset offset (some data) cnt = some l) :
    Layout l 4 4 47 cnt.toNat fun i => [offset + wlanMemmapOffset + BitVec.ofNat 32 (4 * i), data i] := by
  simp only [andesBurstWrite, Option.map_some, Option.some.injEq] at h
  subst h
  refine ⟨rfl, by decide, le_rfl, by decide, by decide, cnt.isLt, ?_, fun len => rfl, nofun, fun i len _ h => ?_,
    fun i len h1 h2 => ?_⟩
  · show ReadKind.burst.rspLen cnt.toNat = _
    rw [ReadKind.rspLen, ReadKind.total_burst]
    rfl
  · exact burst_append wlanMemmapOffset offset data h
  · show 4 * (append _ data i ((len - 4) / 4)).length.succ ≤ 192 ∧
      4 * (append _ data i ((len - 4) / 4)).length.succ ≤ len
    rw [length_append fun w : Word => (rfl : [w].length = 1)]
    change len ≤ 192 at h2
    rw [Nat.mul_one]
    omega

theorem layout_andesBurstRead (wlanMemmapOffset offset : Word) (cnt : Word) {l : Loop}
    (h : andesBurstRead wlanMemmapOffset offset cnt (some ()) = some l) :
    Layout l 4 4 47 cnt.toNat fun i => [offset + wlanMemmapOffset + BitVec.ofNat 32 (4 * i)] := by
  simp only [andesBurstRead, Option.map_some, Option.some.injEq] at h
  subst h
  refine ⟨rfl, by decide, le_rfl, by decide, by decide, cnt.isLt, ?_, fun len => rfl, fun _ _ => rfl,
    fun i len h1 h => ?_,
    fun i len _ _ => ⟨(by decide : 8 ≤ 192), le_rfl⟩⟩
  · show ReadKind.burst.rspLen cnt.toNat = _
    rw [ReadKind.rspLen, ReadKind.total_burst]
    rfl
  · show (List.range (BitVec.ofNat 32 ((len - 4) / 4)).toNat).map _ = (List.range' i ((len - 4) / 4)).map _
    have hle : (len - 4) / 4 < 2 ^ 32 := by
      change len ≤ 192 at h1
      omega
    rw [BitVec.toNat_ofNat, Nat.mod_eq_of_lt hle, List.range'_eq_map_range, List.map_map]
    refine List.map_congr_left fun j _ => ?_
    rw [burstAddr_add]
    rfl

theorem Request.layout (wlanMemmapOffset : Word) (r : Request) {l : Loop} (h : r.loop? wlanMemmapOffset = some l) :
    Layout l r.head r.size r.perMsg r.num fun i => r.element wlanMemmapOffset i := by
  cases r with
  | burstWrite offset data cnt => exact layout_andesBurstWrite wlanMemmapOffset offset data cnt h
  | burstRead offset cnt => exact layout_andesBurstRead wlanMemmapOffset offset cnt h
  | randomRead regPair num =>
    simp only [loop?, andesRandomRead, Option.map_some, Option.some.injEq] at h
    subst h
    exact layout_append (fun p : RegPair => [p.register + wlanMemmapOffset, 0]) regPair 8 24 rfl
      (by decide) (by decide) num.isLt rfl (fun _ => rfl) (fun _ => rfl) (fun _ _ => rfl)
      (fun _ _ => rfl) (fun _ => rfl) (pairs_flatMap _ _)
  | rfRandomRead regPair num =>
    simp only [loop?, andesRfRandomRead, Option.map_some, Option.some.injEq] at h
    subst h
    exact layout_append (fun p : BankRfRegPair => [rfReadWord p.bank p.register, 0]) regPair 8 24 rfl
      (by decide) (by decide) num.isLt rfl (fun _ => rfl) (fun _ => rfl) (fun _ _ => rfl)
      (fun _ _ => rfl) (fun _ => rfl) (pairs_flatMap _ _)
  | readModifyWrite regPair num =>
    simp only [loop?, andesReadModifyWrite, Option.map_some, Option.some.injEq] at h
    subst h
    exact layout_append (fun p : RMWReg => [p.register + wlanMemmapOffset, p.clearBitMask, p.value]) regPair 12 16 rfl
      (by decide) (by decide) num.isLt rfl (fun _ => rfl) (fun _ => rfl) nofun
      (fun _ _ => rfl) (fun _ => rfl) (triples_flatMap _ _ _)
  | rfReadModifyWrite regPair num =>
    simp only [loop?, andesRfReadModifyWrite, Option.map_some, Option.some.injEq] at h
    subst h
    exact layout_append
      (fun p : RfRMWReg => [rfWord p.bank p.register, byteWord p.clearBitMask, byteWord p.value]) regPair 12 16 rfl
      (by decide) (by decide) num.isLt rfl (fun _ => rfl) (fun _ => rfl) nofun
      (fun _ _ => rfl) (fun _ => rfl) (triples_flatMap _ _ _)
  | randomWrite regPair num =>
    simp only [loop?, andesRandomWrite, Option.map_some, Option.some.injEq] at h
    subst h
    exact layout_append (fun p : RegPair => [p.register + wlanMemmapOffset, p.value]) regPair 8 24 rfl
      (by decide) (by decide) num.isLt rfl (fun _ => rfl) (fun _ => rfl) nofun
      (fun _ _ => rfl) (fun _ => rfl) (pairs_flatMap _ _)
  | rfRandomWrite regPair num =>
    simp only [loop?, andesRfRandomWrite, Option.map_some, Option.some.injEq] at h
    subst h
    exact layout_append (fun p : BankRfRegPair => [rfWord p.bank p.register, byteWord p.value]) regPair 8 24 rfl
      (by decide) (by decide) num.isLt rfl (fun _ => rfl) (fun _ => rfl) nofun
      (fun _ _ => rfl) (fun _ => rfl) (pairs_flatMap _ _)

theorem Request.loop?_isSome (wlanMemmapOffset : Word) (r : Request) :
    ∃ l, r.loop? wlanMemmapOffset = some l ∧ l.type.reads = r.reads := by
  cases r <;> exact ⟨_, rfl, rfl⟩

end Mt7610u.Mcu.CmdLoop
