import Mathlib.Logic.Basic

/-! # Computations that may fail

`Yields x Q` says that the computation `x` ends without an error, in a value with `Q`. -/

namespace Mt7610u.Lib.Outcome

universe u v

variable {ε : Type u} {α β σ : Type v} {ι : Type*}

/-- The computation ends without an error, in a value with `Q`. -/
def Yields (x : Except ε α) (Q : α → Prop) : Prop := ∃ a, x = .ok a ∧ Q a

instance Yields.decidable {x : Except ε α} {Q : α → Prop} [DecidablePred Q] : Decidable (Yields x Q) :=
  match x with
  | .ok a => decidable_of_iff (Q a) ⟨fun h => ⟨a, rfl, h⟩, fun ⟨_, ha, h⟩ => Except.ok.inj ha ▸ h⟩
  | .error _ => isFalse fun ⟨_, h, _⟩ => by cases h

theorem yields_pure {a : α} {Q : α → Prop} (h : Q a) : Yields (pure a : Except ε α) Q := ⟨a, rfl, h⟩

theorem yields_ok {a : α} {Q : α → Prop} (h : Q a) : Yields (.ok a : Except ε α) Q := ⟨a, rfl, h⟩

theorem Yields.bind {x : Except ε α} {f : α → Except ε β} {Q : α → Prop} {R : β → Prop}
    (hx : Yields x Q) (hf : ∀ a, Q a → Yields (f a) R) : Yields (x >>= f) R := by
  obtain ⟨a, rfl, ha⟩ := hx
  exact hf a ha

theorem Yields.mono {x : Except ε α} {Q R : α → Prop} (hx : Yields x Q) (h : ∀ a, Q a → R a) : Yields x R := by
  obtain ⟨a, rfl, ha⟩ := hx
  exact ⟨a, rfl, h a ha⟩

theorem Yields.ite {c : Prop} [Decidable c] {x y : Except ε α} {Q : α → Prop}
    (hx : c → Yields x Q) (hy : ¬c → Yields y Q) : Yields (if c then x else y) Q := by
  split
  · next h => exact hx h
  · next h => exact hy h

theorem bind_eq_ok {x : Except ε α} {f : α → Except ε β} {b : β} (h : (x >>= f) = .ok b) :
    ∃ a, x = .ok a ∧ f a = .ok b := by
  cases x with
  | ok a => exact ⟨a, rfl, h⟩
  | error e => cases h

def error? : Except ε α → Option ε
  | .ok _ => none
  | .error e => some e

theorem eq_error {x : Except ε α} {e : ε} (h : error? x = some e) : x = .error e := by
  cases x with
  | ok a => cases h
  | error e' => exact congrArg _ (Option.some.inj h)

theorem not_yields_error {e : ε} {Q : α → Prop} : ¬Yields (.error e : Except ε α) Q := by
  rintro ⟨a, h, -⟩
  cases h

variable (step : σ → ι → Except ε σ) (ok : σ → ι → Prop)

/-- Every step of the run of `ops` from `s` is allowed by `ok` where it is taken. -/
def AlongM : σ → List ι → Prop
  | _, [] => True
  | s, op :: ops => ok s op ∧ ∀ s', step s op = .ok s' → AlongM s' ops

instance AlongM.decidable [∀ s op, Decidable (ok s op)] : ∀ s ops, Decidable (AlongM step ok s ops)
  | _, [] => isTrue trivial
  | s, op :: ops =>
    match inferInstanceAs (Decidable (ok s op)) with
    | isFalse h => isFalse fun hc => h hc.1
    | isTrue h =>
      match hs : step s op with
      | .error _ => isTrue ⟨h, fun s' hs' => by cases hs.symm.trans hs'⟩
      | .ok s' =>
        match AlongM.decidable s' ops with
        | isTrue h' => isTrue ⟨h, fun _ hs' => Except.ok.inj (hs.symm.trans hs') ▸ h'⟩
        | isFalse h' => isFalse fun hc => h' (hc.2 s' hs)

variable {step ok}

/-- **The invariant rule.** What every allowed step yields from the invariant, an allowed run yields. -/
theorem yields_foldlM {I : σ → Prop} (hstep : ∀ s op, I s → ok s op → Yields (step s op) I)
    (ops : List ι) (s : σ) (h : I s) (hok : AlongM step ok s ops) : Yields (ops.foldlM step s) I := by
  induction ops generalizing s with
  | nil => exact ⟨s, rfl, h⟩
  | cons op ops ih =>
    obtain ⟨hop, hrest⟩ := hok
    obtain ⟨s', hs', h'⟩ := hstep s op h hop
    rw [List.foldlM_cons, hs']
    exact ih s' h' (hrest s' hs')

end Mt7610u.Lib.Outcome
