import Mt7610u.Lib.BlockMode

/-! # Counter mode with a CBC-MAC

The authenticated encryption CCM over any cipher of 16-byte blocks. The nonce of `N` bytes leaves `15 - N` for
the length of the message and for the counter. -/

namespace Mt7610u.Lib.Ccm

/-! ### Formatting -/

/-- `n` in `l` bytes, the highest first. -/
def beOctets (l n : ℕ) : List Byte := (List.range l).map fun i => BitVec.ofNat 8 (n / 256 ^ (l - 1 - i))

@[simp] theorem length_beOctets (l n : ℕ) : (beOctets l n).length = l := by simp [beOctets]

def firstBlock (nonce : List Byte) (messageLength aadLength macLength : ℕ) : List Byte :=
  let lengthField := 15 - nonce.length
  BitVec.ofNat 8 ((if 0 < aadLength then 64 else 0) + 8 * ((macLength - 2) / 2) + (lengthField - 1)) ::
    (nonce ++ beOctets lengthField messageLength)

def aadHead (aadLength : ℕ) : List Byte :=
  if aadLength = 0 then []
  else if aadLength < 2 ^ 16 - 2 ^ 8 then beOctets 2 aadLength
  else if aadLength < 2 ^ 32 then [0xff#8, 0xfe#8] ++ beOctets 4 aadLength
  else [0xff#8, 0xff#8] ++ beOctets 8 aadLength

/-- The counter block `i`. -/
def counterBlock (nonce : List Byte) (i : ℕ) : List Byte :=
  BitVec.ofNat 8 (15 - nonce.length - 1) :: (nonce ++ beOctets (15 - nonce.length) i)

/-! ### The mode -/

section Mode

variable (E : List Byte → List Byte) (nonce aad : List Byte) (macLength : ℕ)

/-- The authentication code: additional data and message are each padded to whole blocks. -/
def tag (message : List Byte) : List Byte :=
  let head := aadHead aad.length
  let x := E (firstBlock nonce message.length aad.length macLength)
  let x := absorb E (head ++ aad).length x (head ++ aad)
  (absorb E message.length x message).take macLength

def stream (i : ℕ) : Byte := (E (counterBlock nonce (i / 16 + 1))).getD (i % 16) 0

def mask (t : List Byte) : List Byte := (xorBlock t (E (counterBlock nonce 0))).take macLength

def encrypt (message : List Byte) : List Byte :=
  xorFrom (stream E nonce) 0 message ++ mask E nonce macLength (tag E nonce aad macLength message)

end Mode

/-! ### Chaining -/

section Chaining

variable {E : List Byte → List Byte}

theorem xorBlock_left_inj {a b c : List Byte} (ha : a.length = 16) (hb : b.length = 16)
    (h : xorBlock a c = xorBlock b c) : a = b := by
  refine List.ext_getElem (ha.trans hb.symm) fun i h1 h2 => ?_
  have hi : i < 16 := ha ▸ h1
  have hget := congrArg (fun bs => bs.getD i 0) h
  simp only [xorBlock, List.getD_eq_getElem?_getD, List.getElem?_map, List.getElem?_range hi, Option.map_some,
    Option.getD_some, List.getElem?_eq_getElem h1, List.getElem?_eq_getElem h2, BitVec.xor_left_inj] at hget
  exact hget

/-- **Chaining is injective** in the block that it starts with, if the cipher is. -/
theorem absorb_injective (hlen : ∀ bs, (E bs).length = 16)
    (hE : ∀ {a b : List Byte}, a.length = 16 → b.length = 16 → E a = E b → a = b) :
    ∀ (n : ℕ) {x y : List Byte} (bs : List Byte), x.length = 16 → y.length = 16 →
      absorb E n x bs = absorb E n y bs → x = y
  | 0, _, _, _, _, _, h => h
  | n + 1, x, y, bs, hx, hy, h => by
    by_cases hbs : bs = []
    · rw [hbs, absorb_nil, absorb_nil] at h
      exact h
    · rw [absorb_succ E n x hbs, absorb_succ E n y hbs] at h
      have hnext := absorb_injective hlen hE n _ (hlen _) (hlen _) h
      exact xorBlock_left_inj hx hy (hE (length_xorBlock _ _) (length_xorBlock _ _) hnext)

end Chaining

end Mt7610u.Lib.Ccm
