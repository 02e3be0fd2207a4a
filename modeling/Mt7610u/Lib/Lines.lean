import Mathlib.Data.List.TakeWhile
import Mathlib.Data.List.Infix

/-! # Substring search and lines -/

namespace Mt7610u.Lib.Lines

variable {α : Type*} [DecidableEq α]

/-- What is left of a string from the first place on where `pat` stands. -/
def search (pat : List α) : List α → Option (List α)
  | [] => if pat <+: [] then some [] else none
  | c :: cs => if pat <+: c :: cs then some (c :: cs) else search pat cs

variable {pat p s t : List α} {sep x : α}

theorem search_cons (pat : List α) (c : α) (cs : List α) :
    search pat (c :: cs) = if pat <+: c :: cs then some (c :: cs) else search pat cs := rfl

theorem prefix_of_search (h : search pat s = some t) : pat <+: t := by
  induction s with
  | nil =>
    unfold search at h
    split at h
    · next hpre => exact (Option.some.inj h) ▸ hpre
    · exact absurd h (by simp)
  | cons c cs ih =>
    rw [search_cons] at h
    split at h
    · next hpre => exact (Option.some.inj h) ▸ hpre
    · exact ih h

theorem suffix_of_search (h : search pat s = some t) : t <:+ s := by
  induction s with
  | nil =>
    unfold search at h
    split at h
    · exact (Option.some.inj h) ▸ List.suffix_rfl
    · exact absurd h (by simp)
  | cons c cs ih =>
    rw [search_cons] at h
    split at h
    · exact (Option.some.inj h) ▸ List.suffix_rfl
    · exact (ih h).trans (List.suffix_cons c cs)

/-- **A search finds the pattern if it is there.** -/
theorem search_isSome_iff (pat s : List α) : (search pat s).isSome = true ↔ pat <:+: s := by
  constructor
  · intro h
    obtain ⟨t, ht⟩ := Option.isSome_iff_exists.1 h
    exact (prefix_of_search ht).isInfix.trans (suffix_of_search ht).isInfix
  · intro h
    induction s with
    | nil =>
      obtain rfl := List.eq_nil_of_infix_nil h
      rfl
    | cons c cs ih =>
      rw [search_cons]
      split
      · rfl
      · next hpre =>
        rcases List.infix_cons_iff.1 h with hpre' | hin
        · exact absurd hpre' hpre
        · exact ih hin

theorem search_singleton (x : α) (s : List α) :
    search [x] s = if x ∈ s then some (s.dropWhile (· ≠ x)) else none := by
  induction s with
  | nil => rfl
  | cons c cs ih =>
    rw [search_cons, ih]
    by_cases hc : x = c
    · subst hc
      simp
    · have hc' : c ≠ x := Ne.symm hc
      simp [hc, hc']

theorem search_append {xs : List α} (h : x ∉ xs) (p s : List α) :
    search (x :: p) (xs ++ s) = search (x :: p) s := by
  induction xs with
  | nil => rfl
  | cons c xs ih =>
    obtain ⟨hc, hxs⟩ := not_or.1 (List.mem_cons.not.1 h)
    rw [List.cons_append, search_cons, if_neg, ih hxs]
    rw [List.cons_prefix_cons]
    exact fun hpre => hc hpre.1

/-! ### Lines -/

def lineOf (sep : α) (s : List α) : List α := s.takeWhile (· ≠ sep)

def lines (sep : α) : List α → List (List α)
  | [] => []
  | c :: cs => if c = sep then lineOf sep cs :: lines sep cs else lines sep cs

theorem not_mem_lineOf (sep : α) (s : List α) : sep ∉ lineOf sep s := by
  intro h
  simpa using List.mem_takeWhile_imp h

theorem not_mem_of_mem_lines {l : List α} (h : l ∈ lines sep s) : sep ∉ l := by
  induction s with
  | nil => exact absurd h List.not_mem_nil
  | cons c cs ih =>
    unfold lines at h
    split at h
    · rcases List.mem_cons.1 h with rfl | hin
      · exact not_mem_lineOf sep cs
      · exact ih hin
    · exact ih h

theorem lineOf_append (h : sep ∉ p) (s : List α) : lineOf sep (p ++ s) = p ++ lineOf sep s := by
  refine List.takeWhile_append_of_pos fun c hc => ?_
  simp only [ne_eq, decide_not, Bool.not_eq_eq_eq_not, Bool.not_true, decide_eq_false_iff_not]
  rintro rfl
  exact h hc

theorem lineOf_of_prefix (hmem : sep ∈ p) (hpre : p <+: s) : lineOf sep s = lineOf sep p := by
  obtain ⟨rest, rfl⟩ := hpre
  induction p with
  | nil => exact absurd hmem List.not_mem_nil
  | cons c p ih =>
    unfold lineOf at ih ⊢
    rw [List.cons_append, List.takeWhile_cons, List.takeWhile_cons]
    by_cases hc : c = sep
    · simp [hc]
    · rw [ih ((List.mem_cons.1 hmem).resolve_left (Ne.symm hc))]

theorem prefix_lineOf_iff (h : sep ∉ p) : p <+: lineOf sep s ↔ p <+: s := by
  constructor
  · exact fun hp => hp.trans (List.takeWhile_prefix _)
  · rintro ⟨rest, rfl⟩
    rw [lineOf_append h]
    exact List.prefix_append _ _

/-- **A search for a line feed and a prefix finds the first line with that prefix.** -/
theorem search_cons_eq_find? (h : sep ∉ p) (s : List α) :
    (search (sep :: p) s).map (fun t => lineOf sep t.tail) = (lines sep s).find? (p <+: ·) := by
  induction s with
  | nil => rfl
  | cons c cs ih =>
    rw [search_cons, lines]
    by_cases hc : c = sep
    · subst hc
      have hpre : c :: p <+: c :: cs ↔ p <+: lineOf c cs := by
        rw [prefix_lineOf_iff h, List.cons_prefix_cons]
        exact and_iff_right rfl
      rw [if_pos rfl, List.find?_cons]
      by_cases hp : p <+: lineOf c cs
      · simp [hp, hpre.2 hp]
      · simp [hp, hpre, ← ih]
    · have hpre : ¬sep :: p <+: c :: cs := by
        rw [List.cons_prefix_cons]
        exact fun h => hc h.1.symm
      rw [if_neg hpre, if_neg hc, ih]

end Mt7610u.Lib.Lines
