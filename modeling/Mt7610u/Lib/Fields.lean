import Mt7610u.Lib.Bytes
import Mathlib.Data.List.GetD

/-! # Records with optional trailing fields

A record is a row of fields, each of a fixed size or a list with a count of two bytes in front, the low one
first. It may end behind any field; the fields in front say where a field lies. -/

namespace Mt7610u.Lib.Fields

inductive Field
  | fixed (size : ℕ)
  | counted (size : ℕ)
deriving DecidableEq, Repr

def word (bs : List Byte) (off : ℕ) : ℕ := (bs.getD off 0).toNat + 256 * (bs.getD (off + 1) 0).toNat

structure Place where
  count : ℕ
  start : ℕ
  size : ℕ
deriving DecidableEq, Repr

def Place.stop (p : Place) : ℕ := p.start + p.size * p.count

/-- The field at the place `off` of the record. -/
def Field.locate (bs : List Byte) (off : ℕ) : Field → Option Place
  | fixed size => if off + size ≤ bs.length then some ⟨1, off, size⟩ else none
  | counted size =>
    if off + 2 + size * word bs off ≤ bs.length then some ⟨word bs off, off + 2, size⟩ else none

/-- The field with number `i` of those from `off` on. -/
def locate (bs : List Byte) : ℕ → List Field → ℕ → Option Place
  | _, [], _ => none
  | off, f :: _, 0 => f.locate bs off
  | off, f :: fs, i + 1 => (f.locate bs off).bind fun p => locate bs p.stop fs i

variable {bs : List Byte} {off : ℕ}

theorem Field.locate_counted (size : ℕ) :
    (counted size).locate bs off =
      if off + 2 + size * word bs off ≤ bs.length then some ⟨word bs off, off + 2, size⟩ else none := rfl

@[simp] theorem locate_nil (i : ℕ) : locate bs off [] i = none := by
  simp [locate]

theorem locate_zero (f : Field) (fs : List Field) : locate bs off (f :: fs) 0 = f.locate bs off := rfl

theorem Field.locate_le {f : Field} {p : Place} (h : f.locate bs off = some p) :
    off ≤ p.start ∧ p.stop ≤ bs.length := by
  unfold Place.stop
  cases f with
  | fixed size =>
    rw [Field.locate, Option.ite_none_right_eq_some] at h
    obtain ⟨hle, heq⟩ := h
    obtain rfl := Option.some.inj heq
    exact ⟨le_rfl, by rwa [Nat.mul_one]⟩
  | counted size =>
    rw [Field.locate, Option.ite_none_right_eq_some] at h
    obtain ⟨hle, heq⟩ := h
    obtain rfl := Option.some.inj heq
    exact ⟨Nat.le_add_right _ _, hle⟩

/-- **The entries lie in the record.** -/
theorem locate_le : ∀ {off : ℕ} {fs : List Field} {i : ℕ} {p : Place}, locate bs off fs i = some p →
    off ≤ p.start ∧ p.stop ≤ bs.length
  | _, [], _, _, h => by simp at h
  | _, _ :: _, 0, _, h => Field.locate_le h
  | off, f :: fs, i + 1, p, h => by
    obtain ⟨q, hq, hp⟩ := Option.bind_eq_some_iff.1 h
    obtain ⟨hoff, -⟩ := Field.locate_le hq
    obtain ⟨hstop, hend⟩ := locate_le hp
    exact ⟨hoff.trans ((Nat.le_add_right _ _).trans hstop), hend⟩

theorem locate_succ {f : Field} {fs : List Field} {i : ℕ} {q : Place} (hq : f.locate bs off = some q) :
    locate bs off (f :: fs) (i + 1) = locate bs q.stop fs i := by
  rw [locate, hq, Option.bind_some]

theorem locate_succ_of_none {f : Field} {fs : List Field} {i : ℕ} (hq : f.locate bs off = none) :
    locate bs off (f :: fs) (i + 1) = none := by
  rw [locate, hq, Option.bind_none]

end Mt7610u.Lib.Fields
