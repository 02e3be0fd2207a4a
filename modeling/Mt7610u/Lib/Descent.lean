import Mathlib.Logic.Relation
import Mathlib.Tactic.Common

/-! # Loops that end

A loop without a bound, by what one turn of it does: go on in another state, or leave with a result.

A loop that follows links from node to node, where the end of a chain links to itself, is an instance. -/

namespace Mt7610u.Lib.Descent

universe u v

/-! ### Loops -/

section loop

variable {σ : Type u} {β : Type v} {turn : σ → σ ⊕ β} {s : σ} {b b' : β}

/-- The loop ends with `b`. -/
inductive Ends (turn : σ → σ ⊕ β) : σ → β → Prop
  | leave {s : σ} {b : β} : turn s = .inr b → Ends turn s b
  | again {s s' : σ} {b : β} : turn s = .inl s' → Ends turn s' b → Ends turn s b

/-- **A loop with an invariant and a rank that every turn lowers ends.** -/
theorem ends_of_rank {I : σ → Prop} {Q : β → Prop} (rank : σ → ℕ)
    (hagain : ∀ s s', I s → turn s = .inl s' → I s' ∧ rank s' < rank s)
    (hleave : ∀ s b, I s → turn s = .inr b → Q b) (h : I s) : ∃ b, Ends turn s b ∧ Q b := by
  induction hn : rank s using Nat.strongRecOn generalizing s with
  | ind n ih =>
    match hs : turn s with
    | .inr b => exact ⟨b, .leave hs, hleave s b h hs⟩
    | .inl s' =>
      obtain ⟨h', hlt⟩ := hagain s s' h hs
      obtain ⟨b, hb, hQ⟩ := ih (rank s') (hn ▸ hlt) h' rfl
      exact ⟨b, .again hs hb, hQ⟩

end loop

/-! ### Links -/

variable {α : Type u} {link : α → α} {S : α → Prop} {rank : α → ℕ} {ok : α → Bool} {a b : α}

def Leads (link : α → α) (a b : α) : Prop := link a = b ∧ b ≠ a

/-- `b` is strictly below `a` along the links. -/
def Below (link : α → α) : α → α → Prop := Relation.TransGen (Leads link)

/-- The links stay among the nodes with `S`, and there every link to another node lowers the rank. -/
def Ranked (link : α → α) (S : α → Prop) (rank : α → ℕ) : Prop :=
  ∀ a, S a → S (link a) ∧ (link a ≠ a → rank (link a) < rank a)

theorem Ranked.below (hr : Ranked link S rank) (ha : S a) (h : Below link a b) : S b ∧ rank b < rank a := by
  induction h with
  | single hab =>
    obtain ⟨rfl, hne⟩ := hab
    exact ⟨(hr a ha).1, (hr a ha).2 hne⟩
  | tail _ hbc ih =>
    obtain ⟨rfl, hne⟩ := hbc
    obtain ⟨hb, hlt⟩ := ih
    exact ⟨(hr _ hb).1, Nat.lt_trans ((hr _ hb).2 hne) hlt⟩

/-- **There is no cycle.** -/
theorem Ranked.not_below (hr : Ranked link S rank) (ha : S a) : ¬Below link a a :=
  fun h => Nat.lt_irrefl _ (hr.below ha h).2

theorem below_of_link (hne : link a ≠ a) (h : b = link a ∨ Below link (link a) b) : Below link a b := by
  rcases h with rfl | h
  · exact .single ⟨rfl, hne⟩
  · exact .head ⟨rfl, hne⟩ h

theorem link_of_below (h : Below link a b) : b = link a ∨ Below link (link a) b := by
  obtain ⟨c, ⟨rfl, -⟩, h⟩ := Relation.TransGen.head'_iff.1 h
  exact Relation.reflTransGen_iff_eq_or_transGen.1 h

theorem not_below_of_end (hend : link a = a) : ¬Below link a b := by
  intro h
  obtain ⟨c, ⟨rfl, hne⟩, -⟩ := Relation.TransGen.head'_iff.1 h
  exact hne hend

variable [DecidableEq α]

/-- One turn of the search along the links: `none` if no node of the chain passes. -/
def seek (link : α → α) (ok : α → Bool) (a : α) : α ⊕ Option α :=
  if ok a then .inr (some a) else if a = link a then .inr none else .inl (link a)

/-- **The search ends.** It ends at a node of the chain that passes, or none of the chain passes. -/
theorem seek_ends (ok : α → Bool) (hr : Ranked link S rank) (ha : S a) :
    ∃ r, Ends (seek link ok) a r ∧
      ((∃ b, r = some b ∧ ok b = true ∧ (b = a ∨ Below link a b)) ∨
        (r = none ∧ ∀ b, b = a ∨ Below link a b → ok b = false)) := by
  -- the search is at a node of the chain, and all that is not at or below it has failed
  refine ends_of_rank (I := fun c => S c ∧ (c = a ∨ Below link a c) ∧
    ∀ b, b = a ∨ Below link a b → ok b = true → b = c ∨ Below link c b) rank ?_ ?_ ⟨ha, .inl rfl, fun _ hb _ => hb⟩
  · rintro c c' ⟨hc, hat, hrest⟩ hturn
    unfold seek at hturn
    split_ifs at hturn with hok hend
    cases hturn
    have hne : link c ≠ c := fun h => hend h.symm
    refine ⟨⟨(hr c hc).1, .inr ?_, fun b hb hpass => ?_⟩, (hr c hc).2 hne⟩
    · rcases hat with rfl | hat
      · exact below_of_link hne (.inl rfl)
      · exact .tail hat ⟨rfl, hne⟩
    · rcases hrest b hb hpass with rfl | hbelow
      · exact absurd hpass hok
      · exact link_of_below hbelow
  · rintro c r ⟨hc, hat, hrest⟩ hturn
    unfold seek at hturn
    split_ifs at hturn with hok hend
    · exact .inl ⟨c, (Sum.inr.inj hturn).symm, hok, hat⟩
    · refine .inr ⟨(Sum.inr.inj hturn).symm, fun b hb => Bool.eq_false_iff.2 fun hpass => ?_⟩
      rcases hrest b hb hpass with rfl | hbelow
      · exact hok hpass
      · exact not_below_of_end hend.symm hbelow

end Mt7610u.Lib.Descent
