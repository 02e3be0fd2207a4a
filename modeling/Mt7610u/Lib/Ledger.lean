import Mathlib.Data.List.Basic

/-! # A ledger of items that wait in a line

Items are accepted at the end of a line, taken from its front, some at a time, and settled; those in the line
may be dropped at once. -/

namespace Mt7610u.Lib

inductive Fate
  | served | dropped | held | waiting
deriving DecidableEq

def ofFate {α : Type*} (f : Fate) (l : List (α × Fate)) : List α := (l.filter fun x => x.2 = f).map Prod.fst

theorem ofFate_sublist {α : Type*} (f : Fate) (l : List (α × Fate)) : (ofFate f l).Sublist (l.map Prod.fst) :=
  List.filter_sublist.map Prod.fst

/-- The items in the order of acceptance. Those of `settled` are marked if they were served, those of
`current` if they are held; all others of the two were dropped. -/
structure Ledger (α : Type*) where
  settled : List (α × Bool)
  current : List (α × Bool)
  line : List α

namespace Ledger

variable {α : Type*}

def marked (m : Bool) (l : List (α × Bool)) : List α := (l.filter fun x => x.2 = m).map Prod.fst

@[simp] theorem marked_nil (m : Bool) : marked m ([] : List (α × Bool)) = [] := rfl

@[simp] theorem marked_append (m : Bool) (l l' : List (α × Bool)) :
    marked m (l ++ l') = marked m l ++ marked m l' := by
  unfold marked
  rw [List.filter_append, List.map_append]

@[simp] theorem map_fst_mark (m : Bool) (xs : List α) : (xs.map fun x => (x, m)).map Prod.fst = xs := by
  rw [List.map_map]
  exact List.map_id xs

@[simp] theorem marked_map_self (m : Bool) (xs : List α) : marked m (xs.map fun x => (x, m)) = xs := by
  induction xs with
  | nil => rfl
  | cons x xs ih =>
    unfold marked at *
    simp [ih]

@[simp] theorem marked_map_not (m : Bool) (xs : List α) : marked m (xs.map fun x => (x, !m)) = [] := by
  induction xs with
  | nil => rfl
  | cons x xs ih =>
    unfold marked at *
    simp

variable (L : Ledger α)

def accepted : List α := L.settled.map Prod.fst ++ L.current.map Prod.fst ++ L.line

def served : List α := marked true L.settled

def dropped : List α := marked false L.settled ++ marked false L.current

def held : List α := marked true L.current

def empty : Ledger α := ⟨[], [], []⟩

def accept (a : α) : Ledger α := { L with line := L.line ++ [a] }

/-- The first items of the line are taken; `ys` stay. -/
def take (xs ys : List α) : Ledger α := ⟨L.settled ++ L.current, xs.map fun x => (x, true), ys⟩

def settle : Ledger α := ⟨L.settled ++ L.current, [], L.line⟩

def drop : Ledger α := ⟨L.settled, L.current ++ L.line.map fun x => (x, false), []⟩

theorem accept_spec (a : α) : (L.accept a).accepted = L.accepted ++ [a] ∧ (L.accept a).served = L.served ∧
    (L.accept a).dropped = L.dropped ∧ (L.accept a).held = L.held ∧ (L.accept a).line = L.line ++ [a] := by
  refine ⟨?_, rfl, rfl, rfl, rfl⟩
  unfold accepted accept
  rw [← List.append_assoc]

theorem take_spec {xs ys : List α} (hline : L.line = xs ++ ys) (hheld : L.held = []) :
    (L.take xs ys).accepted = L.accepted ∧ (L.take xs ys).served = L.served ∧
      (L.take xs ys).dropped = L.dropped ∧ (L.take xs ys).held = xs ∧ (L.take xs ys).line = ys := by
  have hmark : marked false (xs.map fun x => (x, true)) = [] := marked_map_not false xs
  refine ⟨?_, ?_, ?_, marked_map_self true xs, rfl⟩
  · unfold accepted take
    rw [List.map_append, hline, map_fst_mark, ← List.append_assoc]
  · unfold served take
    rw [marked_append, show marked true L.current = [] from hheld, List.append_nil]
  · unfold dropped take
    rw [marked_append, hmark, List.append_nil]

theorem settle_spec : L.settle.accepted = L.accepted ∧ L.settle.served = L.served ++ L.held ∧
    L.settle.dropped = L.dropped ∧ L.settle.held = [] ∧ L.settle.line = L.line := by
  refine ⟨?_, marked_append _ _ _, ?_, rfl, rfl⟩
  · unfold accepted settle
    simp
  · unfold dropped settle
    rw [marked_append, marked_nil, List.append_nil]

theorem drop_spec : L.drop.accepted = L.accepted ∧ L.drop.served = L.served ∧
    L.drop.dropped = L.dropped ++ L.line ∧ L.drop.held = L.held ∧ L.drop.line = [] := by
  refine ⟨?_, rfl, ?_, ?_, rfl⟩
  · unfold accepted drop
    rw [List.map_append, map_fst_mark, List.append_nil, ← List.append_assoc]
  · unfold dropped drop
    rw [marked_append, marked_map_self, List.append_assoc]
  · unfold held drop
    rw [marked_append, show marked true (L.line.map fun x => (x, false)) = [] from marked_map_not true _,
      List.append_nil]

def fates : List (α × Fate) :=
  (L.settled.map fun x => (x.1, if x.2 then Fate.served else Fate.dropped)) ++
    (L.current.map fun x => (x.1, if x.2 then Fate.held else Fate.dropped)) ++ L.line.map fun x => (x, Fate.waiting)

theorem ofFate_append (f : Fate) (l l' : List (α × Fate)) : ofFate f (l ++ l') = ofFate f l ++ ofFate f l' := by
  unfold ofFate
  rw [List.filter_append, List.map_append]

theorem ofFate_map (f g h : Fate) (hgh : g ≠ h) (l : List (α × Bool)) :
    ofFate f (l.map fun x => (x.1, if x.2 then g else h)) =
      if f = g then marked true l else if f = h then marked false l else [] := by
  induction l with
  | nil =>
    split_ifs <;> rfl
  | cons x l ih =>
    obtain ⟨a, m⟩ := x
    unfold ofFate marked at *
    cases m <;> grind

theorem ofFate_line (f : Fate) (l : List α) :
    ofFate f (l.map fun x => (x, Fate.waiting)) = if f = Fate.waiting then l else [] := by
  induction l with
  | nil =>
    split_ifs <;> rfl
  | cons x l ih =>
    unfold ofFate at *
    grind

/-- **Every accepted item has one fate**, and the items of each fate are in the order of acceptance. -/
theorem exists_fates : ∃ l : List (α × Fate), l.map Prod.fst = L.accepted ∧
    ofFate Fate.served l = L.served ∧ ofFate Fate.dropped l = L.dropped ∧ ofFate Fate.held l = L.held ∧
      ofFate Fate.waiting l = L.line := by
  refine ⟨L.fates, ?_, ?_, ?_, ?_, ?_⟩
  · unfold fates accepted
    rw [List.map_append, List.map_append, List.map_map, List.map_map, List.map_map]
    exact congrArg₂ _ rfl (List.map_id _)
  · unfold fates
    rw [ofFate_append, ofFate_append, ofFate_map _ _ _ (by decide), ofFate_map _ _ _ (by decide), ofFate_line]
    simp [served]
  · unfold fates
    rw [ofFate_append, ofFate_append, ofFate_map _ _ _ (by decide), ofFate_map _ _ _ (by decide), ofFate_line]
    simp [dropped]
  · unfold fates
    rw [ofFate_append, ofFate_append, ofFate_map _ _ _ (by decide), ofFate_map _ _ _ (by decide), ofFate_line]
    simp [held]
  · unfold fates
    rw [ofFate_append, ofFate_append, ofFate_map _ _ _ (by decide), ofFate_map _ _ _ (by decide), ofFate_line]
    simp

end Ledger

end Mt7610u.Lib
