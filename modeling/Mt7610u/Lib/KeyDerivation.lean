import Mt7610u.Lib.Bytes

/-! # Keyed hashes and derived keys

Constructions over any hash function `H` on strings, or over any keyed pseudo-random function `prf`. -/

namespace Mt7610u.Lib.KeyDerivation

/-! ### The constructions -/

def keyBlock (H : List Byte → List Byte) (B : ℕ) (key : List Byte) : List Byte :=
  let k := if key.length ≤ B then key else H key
  k ++ List.replicate (B - k.length) 0

def hmac (H : List Byte → List Byte) (B : ℕ) (key text : List Byte) : List Byte :=
  H ((keyBlock H B key).map (· ^^^ 0x5c) ++ H ((keyBlock H B key).map (· ^^^ 0x36) ++ text))

/-- The first `len` bytes of as many blocks of `size` bytes as they need. -/
def expand (block : ℕ → List Byte) (size len : ℕ) : List Byte :=
  ((List.range ((len + size - 1) / size)).flatMap block).take len

def xorBytes (xs ys : List Byte) : List Byte := List.zipWith (· ^^^ ·) xs ys

/-- The iterated function: `U₁` of salt and block number, then of what came before. -/
def iterated (prf : List Byte → List Byte → List Byte) (password salted : List Byte) : ℕ → List Byte
  | 0 => prf password salted
  | n + 1 => prf password (iterated prf password salted n)

/-- The xor of the first `n + 1` of them. -/
def xorIterated (prf : List Byte → List Byte → List Byte) (password salted : List Byte) : ℕ → List Byte
  | 0 => iterated prf password salted 0
  | n + 1 => xorBytes (xorIterated prf password salted n) (iterated prf password salted (n + 1))

/-- PBKDF2 with `c` iterations; `int` encodes the number of a block, which starts with 1. -/
def pbkdf2 (prf : List Byte → List Byte → List Byte) (size : ℕ) (int : ℕ → List Byte) (password salt : List Byte)
    (c len : ℕ) : List Byte :=
  expand (fun i => xorIterated prf password (salt ++ int (i + 1)) (c - 1)) size len

/-! ### Writing blocks -/

variable {σ : Type*} {block : σ → Option (List Byte)} {next : σ → σ} {size : ℕ}

/-- `n` blocks into the buffer `out`, the first at `cur`; `block` computes one from the state, `next` changes the
state after each. -/
def fillBlocks (block : σ → Option (List Byte)) (next : σ → σ) (size : ℕ) :
    ℕ → ℕ → σ → (ℕ → Byte) → Option (ℕ → Byte)
  | 0, _, _, out => some out
  | n + 1, cur, s, out => do
    let bs ← block s
    fillBlocks block next size n (cur + size) (next s) (copy out cur bs)

/-- **The blocks follow each other**, and what is in front of them stays. -/
theorem fillBlocks_eq {n : ℕ} {b : ℕ → List Byte} (hlen : ∀ i, (b i).length = size) :
    ∀ (cur : ℕ) {s : σ} (out : ℕ → Byte), (∀ i < n, block (next^[i] s) = some (b i)) →
      ∃ out', fillBlocks block next size n cur s out = some out' ∧
        HoldsAt out' cur ((List.range n).flatMap b) ∧ ∀ i < cur, out' i = out i := by
  induction n generalizing b with
  | zero => exact fun _ _ _ _ => ⟨_, rfl, holdsAt_nil _ _, fun _ _ => rfl⟩
  | succ n ih =>
    intro cur s out hb
    obtain ⟨out', hout', hholds, hfront⟩ := ih (b := fun i => b (i + 1)) (fun i => hlen (i + 1))
      (cur + size) (s := next s) (copy out cur (b 0)) fun i hi => hb (i + 1) (by omega)
    refine ⟨out', ?_, ?_, fun i hi => ?_⟩
    · rw [fillBlocks, show block s = some (b 0) from hb 0 (by omega)]
      exact hout'
    · rw [List.range_succ_eq_map, List.flatMap_cons, List.flatMap_map, holdsAt_append, hlen]
      refine ⟨(holdsAt_copy out cur (b 0)).congr fun i _ hi => hfront i ?_, hholds⟩
      rwa [hlen] at hi
    · rw [hfront i (by omega)]
      exact copy_of_lt hi

theorem length_flatMap_blocks {b : ℕ → List Byte} (hlen : ∀ i, (b i).length = size) (n : ℕ) :
    ((List.range n).flatMap b).length = n * size := by
  rw [List.length_flatMap, List.map_congr_left fun i _ => hlen i, List.map_const', List.sum_replicate_nat,
    List.length_range]

theorem read_take {m : ℕ → Byte} {n len : ℕ} (h : len ≤ n) : (Lib.read m n).take len = Lib.read m len := by
  unfold Lib.read
  rw [← List.map_take, List.take_range, Nat.min_eq_left h]

/-- **As many blocks as `len` bytes need** begin with the expanded key. -/
theorem read_fillBlocks {b : ℕ → List Byte} {len : ℕ} {s : σ} {out : ℕ → Byte} (hsize : 0 < size)
    (hlen : ∀ i, (b i).length = size) (hb : ∀ i < (len + size - 1) / size, block (next^[i] s) = some (b i)) :
    ∃ out', fillBlocks block next size ((len + size - 1) / size) 0 s out = some out' ∧
      Lib.read out' len = expand b size len := by
  obtain ⟨out', hout', hholds, -⟩ := fillBlocks_eq hlen 0 out hb
  refine ⟨out', hout', ?_⟩
  have hcover : len ≤ (len + size - 1) / size * size := by
    have hdiv := Nat.div_add_mod (len + size - 1) size
    have hmod := Nat.mod_lt (len + size - 1) hsize
    rw [Nat.mul_comm] at hdiv
    omega
  have hread : Lib.read out' ((len + size - 1) / size * size) = (List.range ((len + size - 1) / size)).flatMap b := by
    have h := hholds
    unfold HoldsAt readAt at h
    rw [length_flatMap_blocks hlen] at h
    simpa only [Nat.zero_add] using h
  unfold expand
  rw [← hread, read_take hcover]

end Mt7610u.Lib.KeyDerivation
