import Mt7610u.Lib.Bytes

/-! # Parameters of the profile

The profile is a text of lines `key=value` behind the word `Default`. A string is the list of its octets
before the terminating NUL, a pointer into it what is left of it there. -/

namespace Mt7610u.Profile

open Lib

/-- `'\n'`, `'='`, `' '` and `'\t'`. -/
def lineFeed : Byte := 10
def equals : Byte := 61
def blank : Byte := 32
def tab : Byte := 9

def defaultWord : List Byte := [68, 101, 102, 97, 117, 108, 116]

/-- `MAX_PARAM_BUFFER_SIZE` and `MAX_INI_BUFFER_SIZE`. -/
def maxParamBufferSize : ℕ := 2048
def maxIniBufferSize : ℕ := 10000

/-! ### The searches -/

/-- The loop of `rtstrstr`: `memcmp` as long as what is left is not shorter than `s2`. -/
def rtstrstrLoop (s2 : List Byte) : List Byte → Option (List Byte)
  | [] => none
  | c :: cs =>
    if (c :: cs).length ≥ s2.length then
      if (c :: cs).take s2.length = s2 then some (c :: cs) else rtstrstrLoop s2 cs
    else none

def rtstrstr (s1 s2 : List Byte) : Option (List Byte) :=
  if s2.length = 0 then some s1 else rtstrstrLoop s2 s1

/-- `RTMPFindSection`. It leaves the first letter of the word behind. -/
def rtmpFindSection (buffer : List Byte) : Option (List Byte) := (rtstrstr buffer defaultWord).map List.tail

def upToEnd (start : List Byte) : List Byte :=
  match rtstrstr start [lineFeed] with
  | some rest => start.take (start.length - rest.length)
  | none => start

/-! ### What is written -/

/-- The buffers: the one of `RTMPFindSection`, the one of `RTMPGetKeyParameter`, the two of
`RTMPGetKeyParameterWithOffset`, and the destination. -/
inductive Buf
  | sectionBuf | pMemBuf | tempBuf1 | tempBuf2 | dest
deriving DecidableEq

def Buf.size (destsize : ℕ) : Buf → ℕ
  | .sectionBuf => 32
  | .pMemBuf => maxParamBufferSize * 2
  | .tempBuf1 | .tempBuf2 => maxParamBufferSize
  | .dest => destsize

/-- `len` octets from `offset` on. -/
structure Write where
  buf : Buf
  offset : ℕ
  len : ℕ
deriving DecidableEq

def Write.Inside (destsize : ℕ) (w : Write) : Prop := w.offset + w.len ≤ w.buf.size destsize

instance (destsize : ℕ) (w : Write) : Decidable (w.Inside destsize) := inferInstanceAs (Decidable (_ ≤ _))

/-- `strcpy` of `"\n"`, `strcat` of the key and `strcat` of `"="`, with the NUL behind each. -/
def patternWrites (buf : Buf) (key : List Byte) : List Write :=
  [⟨buf, 0, 2⟩, ⟨buf, 1, key.length + 1⟩, ⟨buf, 1 + key.length, 2⟩]

def pattern (key : List Byte) : List Byte := lineFeed :: (key ++ [equals])

/-- `memset` with zero. -/
def memset (m : ℕ → Byte) (n : ℕ) : ℕ → Byte := fun i => if i < n then 0 else m i

/-- `strncpy`: at most `n` octets of the string, and NULs up to `n`. -/
def strncpy (m : ℕ → Byte) (s : List Byte) (n : ℕ) : ℕ → Byte := fun i => if i < n then s.getD i 0 else m i

def trim (bTrimSpace : Bool) (s : List Byte) : List Byte :=
  s.dropWhile fun c => decide (c = blank) && bTrimSpace || decide (c = tab)

structure Looked where
  ret : Bool
  dest : ℕ → Byte
  writes : List Write

/-! ### The value of a key -/

/-- `RTMPGetKeyParameter` behind the search for the key: `start` is what is left of the text from the line on. -/
def takeValue (dest : ℕ → Byte) (destsize : ℕ) (start : List Byte) (bTrimSpace : Bool)
    (writes : List Write) : Looked :=
  let line := upToEnd start
  let writes := writes ++
    [⟨.pMemBuf, maxParamBufferSize, line.length⟩, ⟨.pMemBuf, maxParamBufferSize + line.length, 1⟩]
  match rtstrstr line [equals] with
  | none => ⟨false, dest, writes⟩
  | some start =>
    let ptr := trim bTrimSpace start.tail
    -- The length is taken from the `=` on, before the value was trimmed.
    let len := start.length
    let n := if len ≥ destsize then destsize else len
    ⟨true, strncpy (memset dest destsize) ptr n, writes ++ [⟨.dest, 0, destsize⟩, ⟨.dest, 0, n⟩]⟩

/-- `RTMPGetKeyParameter`. `memory` says whether the buffer could be allocated. -/
def rtmpGetKeyParameter (memory : Bool) (key : List Byte) (dest : ℕ → Byte) (destsize : ℕ)
    (buffer : List Byte) (bTrimSpace : Bool) : Looked :=
  if memory = false then ⟨false, dest, []⟩
  else
    let writes := [⟨.pMemBuf, 0, maxParamBufferSize * 2⟩, ⟨.sectionBuf, 0, 8⟩]
    match rtmpFindSection buffer with
    | none => ⟨false, dest, writes⟩
    | some offset =>
      let writes := writes ++ patternWrites .pMemBuf key
      match rtstrstr offset (pattern key) with
      | none => ⟨false, dest, writes⟩
      | some start => takeValue dest destsize start.tail bTrimSpace writes

/-- `RTMPGetKeyParameterWithOffset` behind the search for the key. -/
def takeValueWithOffset (dest : ℕ → Byte) (destsize : ℕ) (start : List Byte) (bTrimSpace : Bool)
    (writes : List Write) : Looked :=
  let line := upToEnd start
  let writes := writes ++
    [⟨.tempBuf2, 0, line.length⟩, ⟨.tempBuf2, line.length, 1⟩, ⟨.tempBuf1, 0, line.length + 1⟩]
  match rtstrstr line [equals] with
  | none => ⟨false, dest, writes⟩
  | some start =>
    let writes := writes ++ [⟨.tempBuf2, 0, start.tail.length + 1⟩]
    let ptr := trim bTrimSpace start.tail
    let len := ptr.length
    let n := if len ≥ destsize then destsize else len
    ⟨true, strncpy (memset dest destsize) ptr n, writes ++ [⟨.dest, 0, destsize⟩, ⟨.dest, 0, n⟩]⟩

/-- `RTMPGetKeyParameterWithOffset`, and the offset that it leaves. `memory1` and `memory2` say whether the
two buffers could be allocated. -/
def rtmpGetKeyParameterWithOffset (memory1 memory2 : Bool) (key : List Byte) (dest : ℕ → Byte)
    (endOffset : BitVec 16) (destsize : ℕ) (buffer : List Byte) (bTrimSpace : Bool) : Looked × BitVec 16 :=
  if endOffset.toNat ≥ maxIniBufferSize then (⟨false, dest, []⟩, endOffset)
  else if memory1 = false ∨ memory2 = false then (⟨false, dest, []⟩, endOffset)
  else
    let writes := if endOffset = 0 then [⟨.sectionBuf, 0, 8⟩] else []
    match if endOffset = 0 then rtmpFindSection buffer else some (buffer.drop endOffset.toNat) with
    | none => (⟨false, dest, writes⟩, endOffset)
    | some offset =>
      let writes := writes ++ patternWrites .tempBuf1 key
      match rtstrstr offset (pattern key) with
      | none => (⟨false, dest, writes⟩, endOffset)
      | some start =>
        -- What is left of the text behind the line.
        let rest := start.tail.drop (upToEnd start.tail).length
        (takeValueWithOffset dest destsize start.tail bTrimSpace writes,
          BitVec.ofNat 16 (buffer.length - rest.length))

end Mt7610u.Profile
