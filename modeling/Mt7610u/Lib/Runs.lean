import Mathlib.Algebra.BigOperators.Group.List.Basic
import Mathlib.Data.List.Induction

/-! # Runs of a transition function

A system is a state type `σ`, a type `ι` of inputs and a total `step`. A run feeds it a list of
inputs; `Along ok s ops` says that every step of the run from `s` is taken in a state where `ok`
allows it. -/

namespace Mt7610u.Lib.Runs

variable {σ ι : Type*} (step : σ → ι → σ) (ok : σ → ι → Prop)

/-- The state after the inputs `ops`. -/
def run (s : σ) (ops : List ι) : σ := ops.foldl step s

/-- Every step of the run of `ops` from `s` is allowed by `ok` where it is taken. -/
def Along : σ → List ι → Prop
  | _, [] => True
  | s, op :: ops => ok s op ∧ Along (step s op) ops

instance Along.decidable [∀ s op, Decidable (ok s op)] : ∀ s ops, Decidable (Along step ok s ops)
  | _, [] => isTrue trivial
  | s, op :: ops =>
    match inferInstanceAs (Decidable (ok s op)), Along.decidable (step s op) ops with
    | isTrue h, isTrue h' => isTrue ⟨h, h'⟩
    | isFalse h, _ => isFalse fun hc => h hc.1
    | _, isFalse h => isFalse fun hc => h hc.2

@[simp] theorem run_nil (s : σ) : run step s [] = s := rfl

@[simp] theorem run_cons (s : σ) (op : ι) (ops : List ι) : run step s (op :: ops) = run step (step s op) ops := rfl

variable {step ok}

theorem run_append (s : σ) (xs ys : List ι) : run step s (xs ++ ys) = run step (run step s xs) ys :=
  List.foldl_append

theorem along_append {xs ys : List ι} {s : σ} :
    Along step ok s (xs ++ ys) ↔ Along step ok s xs ∧ Along step ok (run step s xs) ys := by
  induction xs generalizing s with
  | nil => simp [Along]
  | cons x xs ih =>
    simp only [List.cons_append, Along, run_cons]
    rw [ih, and_assoc]

/-- **The invariant rule.** What every allowed step keeps, every allowed run keeps. -/
theorem run_invariant {I : σ → Prop} (hstep : ∀ s op, I s → ok s op → I (step s op))
    (ops : List ι) (s : σ) (h : I s) (hok : Along step ok s ops) : I (run step s ops) := by
  induction ops generalizing s with
  | nil => exact h
  | cons op ops ih =>
    obtain ⟨h1, h2⟩ := hok
    exact ih (step s op) (hstep s op h h1) h2

theorem along_of_invariant {I : σ → Prop} {good : σ → ι → Prop}
    (hstep : ∀ s op, I s → ok s op → I (step s op)) (hgood : ∀ s op, I s → ok s op → good s op)
    (ops : List ι) (s : σ) (h : I s) (hok : Along step ok s ops) : Along step good s ops := by
  induction ops generalizing s with
  | nil => trivial
  | cons op ops ih =>
    obtain ⟨h1, h2⟩ := hok
    exact ⟨hgood s op h h1, ih (step s op) (hstep s op h h1) h2⟩

theorem along_of_forall {ops : List ι} (h : ∀ op ∈ ops, ∀ s, ok s op) (s : σ) : Along step ok s ops := by
  induction ops generalizing s with
  | nil => trivial
  | cons op ops ih => exact ⟨h op List.mem_cons_self s, ih (fun op' h' => h op' (List.mem_cons_of_mem _ h')) _⟩

/-- **The refinement rule.** What is seen of the state follows the abstract steps. -/
theorem run_refines {τ : Type*} {I : σ → Prop} {f : σ → τ} {astep : τ → ι → τ}
    (hstep : ∀ s op, I s → ok s op → I (step s op) ∧ f (step s op) = astep (f s) op) (ops : List ι) (s : σ) (h : I s)
    (hok : Along step ok s ops) : I (run step s ops) ∧ f (run step s ops) = run astep (f s) ops := by
  induction ops generalizing s with
  | nil => exact ⟨h, rfl⟩
  | cons op ops ih =>
    obtain ⟨hop, hrest⟩ := hok
    obtain ⟨hI, hf⟩ := hstep s op h hop
    rw [run_cons, run_cons, ← hf]
    exact ih (step s op) hI hrest

/-- **The exact invariant rule.** If, besides, a step that is not allowed breaks `P` at once, then the runs
with `P` in every state reached are the allowed ones. -/
theorem forall_prefix_iff_along {I P : σ → Prop} (hP : ∀ s, I s → P s)
    (hstep : ∀ s op, I s → ok s op → I (step s op)) (hbad : ∀ s op, I s → ¬ok s op → ¬P (step s op))
    (ops : List ι) (s : σ) (h : I s) : (∀ pre, pre <+: ops → P (run step s pre)) ↔ Along step ok s ops := by
  constructor
  · intro hall
    induction ops generalizing s with
    | nil => trivial
    | cons op ops ih =>
      have hop : ok s op := by
        by_contra hn
        exact hbad s op h hn (hall [op] ⟨ops, rfl⟩)
      refine ⟨hop, ih (step s op) (hstep s op h hop) ?_⟩
      rintro pre ⟨rest, rfl⟩
      exact hall (op :: pre) ⟨rest, rfl⟩
  · rintro hok pre ⟨rest, rfl⟩
    exact hP _ (run_invariant hstep pre s h (along_append.1 hok).1)

/-- **The exact refinement rule.** If exactly the allowed steps do to what is seen of the state what the
abstract step does, then the runs that the abstract run describes in every state reached are the allowed
ones. -/
theorem refines_prefix_iff_along {τ : Type*} {f : σ → τ} {astep : τ → ι → τ}
    (hstep : ∀ s op, f (step s op) = astep (f s) op ↔ ok s op) (ops : List ι) (s : σ) :
    (∀ pre, pre <+: ops → f (run step s pre) = run astep (f s) pre) ↔ Along step ok s ops := by
  induction ops generalizing s with
  | nil =>
    refine iff_of_true ?_ trivial
    rintro pre hpre
    obtain rfl := List.prefix_nil.1 hpre
    rfl
  | cons op ops ih =>
    constructor
    · intro hall
      have hop : f (step s op) = astep (f s) op := hall [op] ⟨ops, rfl⟩
      refine ⟨(hstep s op).1 hop, (ih (step s op)).1 ?_⟩
      rintro pre ⟨rest, rfl⟩
      rw [hop]
      exact hall (op :: pre) ⟨rest, rfl⟩
    · rintro ⟨hop, hrest⟩ pre hpre
      rcases List.prefix_cons_iff.1 hpre with rfl | ⟨pre, rfl, hrest'⟩
      · rfl
      · rw [run_cons, run_cons, ← (hstep s op).2 hop]
        exact (ih (step s op)).2 hrest pre hrest'

theorem run_invariant_all {I : σ → Prop} (hstep : ∀ s op, I s → I (step s op)) (ops : List ι)
    (s : σ) (h : I s) : I (run step s ops) := by
  induction ops generalizing s with
  | nil => exact h
  | cons op ops ih => exact ih (step s op) (hstep s op h)

/-- **The since rule.** What some steps bring about and some steps end, while all others leave it as it is,
holds after a run exactly if a step brought it about that no later step ended. -/
theorem run_since_iff {I Q : σ → Prop} {enters ends : σ → ι → Prop} (hstep : ∀ s op, I s → I (step s op))
    (hQ : ∀ s op, I s → (Q (step s op) ↔ enters s op ∨ Q s ∧ ¬ends s op))
    (ops : List ι) (s : σ) (h : I s) (h0 : ¬Q s) :
    Q (run step s ops) ↔ ∃ pre op post, ops = pre ++ op :: post ∧ enters (run step s pre) op ∧
      Along step (fun s op => ¬ends s op) (run step s (pre ++ [op])) post := by
  induction ops using List.reverseRecOn with
  | nil =>
    refine iff_of_false h0 ?_
    rintro ⟨pre, op, post, hnil, -⟩
    exact absurd hnil (by simp)
  | append_singleton ops op ih =>
    have hrun : run step s (ops ++ [op]) = step (run step s ops) op := run_append s ops [op]
    rw [hrun, hQ _ _ (run_invariant_all hstep ops s h), ih]
    constructor
    · rintro (hent | ⟨⟨pre, op', post, rfl, hent, hpost⟩, hend⟩)
      · exact ⟨ops, op, [], rfl, hent, trivial⟩
      · refine ⟨pre, op', post ++ [op], by simp, hent, along_append.2 ⟨hpost, ?_, trivial⟩⟩
        rw [← run_append, List.append_assoc, List.singleton_append]
        exact hend
    · rintro ⟨pre, op', post, heq, hent, hpost⟩
      rcases List.eq_nil_or_concat post with rfl | ⟨post, last, rfl⟩
      · obtain ⟨rfl, hop⟩ := List.append_inj' heq rfl
        obtain rfl : op = op' := by simpa using hop
        exact Or.inl hent
      · rw [List.concat_eq_append] at heq hpost
        have hsplit : ops ++ [op] = (pre ++ op' :: post) ++ [last] := by
          rw [heq]
          simp
        obtain ⟨rfl, hop⟩ := List.append_inj' hsplit rfl
        obtain rfl : op = last := by simpa using hop
        obtain ⟨hpost, hlast, -⟩ := along_append.1 hpost
        refine Or.inr ⟨⟨pre, op', post, rfl, hent, hpost⟩, ?_⟩
        rw [← run_append, List.append_assoc, List.singleton_append] at hlast
        exact hlast

/-- **The accounting rule.** What every step adds to a quantity sums up along the run. -/
theorem run_account {M : Type*} [AddMonoid M] {I : σ → Prop} {φ : σ → M} {g : ι → M}
    (hstep : ∀ s op, I s → I (step s op)) (hφ : ∀ s op, I s → φ (step s op) = φ s + g op)
    (ops : List ι) (s : σ) (h : I s) : φ (run step s ops) = φ s + (ops.map g).sum := by
  induction ops generalizing s with
  | nil => simp
  | cons op ops ih =>
    rw [run_cons, ih (step s op) (hstep s op h), hφ s op h, add_assoc, List.map_cons, List.sum_cons]

section contexts

variable {κ α : Type*} [DecidableEq κ] {loc : κ → α} {k k' : κ} {l l' : α}

theorem loc_update_cases (h : Function.update loc k l k' = l') : (k' = k ∧ l = l') ∨ (k' ≠ k ∧ loc k' = l') := by
  by_cases hk : k' = k
  · subst hk
    rw [Function.update_self] at h
    exact Or.inl ⟨rfl, h⟩
  · rw [Function.update_of_ne hk] at h
    exact Or.inr ⟨hk, h⟩

theorem loc_update (h : Function.update loc k l k' = l') (hne : l ≠ l') : k' ≠ k ∧ loc k' = l' := by
  rcases loc_update_cases h with ⟨-, hl⟩ | hold
  · exact absurd hl hne
  · exact hold

end contexts

end Mt7610u.Lib.Runs
