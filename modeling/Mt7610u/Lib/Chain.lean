import Mathlib.Data.List.Nodup

/-! # Singly linked chains

Nodes of any type, each with a link to its successor or to nothing, and heads that start chains. -/

namespace Mt7610u.Lib.Chain

variable {α β : Type*} {next : α → Option α} {p : Option α} {l : List α}

/-- The pointer `p` leads to the nodes `l` and then to the end. -/
def Linked (next : α → Option α) : Option α → List α → Prop
  | p, [] => p = none
  | p, a :: l => p = some a ∧ Linked next (next a) l

@[simp] theorem linked_nil : Linked next p [] ↔ p = none := Iff.rfl

@[simp] theorem linked_cons {a : α} : Linked next p (a :: l) ↔ p = some a ∧ Linked next (next a) l := Iff.rfl

theorem Linked.unique {l' : List α} (h : Linked next p l) (h' : Linked next p l') : l = l' := by
  induction l generalizing p l' with
  | nil =>
    cases l' with
    | nil => rfl
    | cons b l' => rw [linked_nil.1 h] at h'; exact absurd h'.1 (by simp)
  | cons a l ih =>
    cases l' with
    | nil => rw [linked_nil.1 h'] at h; exact absurd h.1 (by simp)
    | cons b l' =>
      have hab : a = b := Option.some.inj (h.1.symm.trans h'.1)
      subst hab
      rw [ih h.2 h'.2]

theorem Linked.drop {l₁ l₂ : List α} {a : α} (h : Linked next p (l₁ ++ a :: l₂)) : Linked next (next a) l₂ := by
  induction l₁ generalizing p with
  | nil => exact h.2
  | cons b l₁ ih => exact ih h.2

/-- **A chain that ends is acyclic.** -/
theorem Linked.nodup (h : Linked next p l) : l.Nodup := by
  induction l generalizing p with
  | nil => exact List.nodup_nil
  | cons a l ih =>
    refine List.nodup_cons.2 ⟨?_, ih h.2⟩
    intro ha
    obtain ⟨l₁, l₂, rfl⟩ := List.append_of_mem ha
    have hlen := congrArg List.length (h.2.unique h.2.drop)
    simp only [List.length_append, List.length_cons] at hlen
    omega

/-- The pointer `p` leads along `l` and then to `q`. -/
def Leads (next : α → Option α) : Option α → List α → Option α → Prop
  | p, [], q => p = q
  | p, a :: l, q => p = some a ∧ Leads next (next a) l q

theorem Leads.linked {c : List α} {q : Option α} (hc : Leads next p c q) (h : Linked next p l) :
    ∃ l', l = c ++ l' ∧ Linked next q l' := by
  induction c generalizing p l with
  | nil =>
    refine ⟨l, rfl, ?_⟩
    rw [← show p = q from hc]
    exact h
  | cons a c ih =>
    cases l with
    | nil => exact absurd (hc.1.symm.trans (linked_nil.1 h)) (by simp)
    | cons b l =>
      have hab : b = a := Option.some.inj (h.1.symm.trans hc.1)
      subst hab
      obtain ⟨l', hl', hq⟩ := ih hc.2 h.2
      exact ⟨l', by rw [hl', List.cons_append], hq⟩

theorem not_linked_of_cycle {a : α} {c : List α} (hc : Leads next p (a :: c) p) : ¬ Linked next p l := by
  intro h
  obtain ⟨l', hl, hl'⟩ := hc.linked h
  have hlen := congrArg List.length (h.unique hl')
  rw [hl] at hlen
  simp only [List.length_append, List.length_cons] at hlen
  omega

theorem Linked.congr {next' : α → Option α} (h : Linked next p l)
    (heq : ∀ a ∈ l, next' a = next a) : Linked next' p l := by
  induction l generalizing p with
  | nil => exact h
  | cons a l ih =>
    refine ⟨h.1, ?_⟩
    rw [heq a List.mem_cons_self]
    exact ih h.2 fun b hb => heq b (List.mem_cons_of_mem a hb)

theorem Linked.next_last {c : α} (h : Linked next p (l ++ [c])) : next c = none := linked_nil.1 h.drop

variable [DecidableEq α]

theorem linked_update {a : α} {q : Option α} (h : Linked next p l) (ha : a ∉ l) :
    Linked (Function.update next a q) p l := by
  refine h.congr fun b hb => ?_
  have hba : b ≠ a := fun he => ha (he ▸ hb)
  exact Function.update_of_ne hba q next

theorem Linked.relink {l₁ l₂ l₃ : List α} {c : α} {q : Option α}
    (h : Linked next p (l₁ ++ c :: l₂)) (hq : Linked next q l₃) (hc : c ∉ l₃) :
    Linked (Function.update next c q) p (l₁ ++ c :: l₃) := by
  have hc₁ : c ∉ l₁ := by
    have := h.nodup
    rw [List.nodup_append] at this
    intro hm
    exact this.2.2 c hm c List.mem_cons_self rfl
  induction l₁ generalizing p with
  | nil =>
    refine ⟨h.1, ?_⟩
    rw [Function.update_self]
    exact linked_update hq hc
  | cons b l₁ ih =>
    have hbc : b ≠ c := fun hb => hc₁ (hb ▸ List.mem_cons_self)
    refine ⟨h.1, ?_⟩
    rw [Function.update_of_ne hbc]
    exact ih h.2 fun hm => hc₁ (List.mem_cons_of_mem b hm)

/-! ### Walks -/

/-- `while (p && !stop(p)) p = step(p)`: where the loop stops, `none` if it does not within `n`
rounds. -/
def walk (step : α → Option α) (stop : α → Bool) : ℕ → Option α → Option (Option α)
  | _, none => some none
  | 0, some _ => none
  | n + 1, some a => if stop a then some (some a) else walk step stop n (step a)

omit [DecidableEq α] in
/-- **A walk along a chain that ends.** -/
theorem walk_eq_find {stop : α → Bool} {n : ℕ} (h : Linked next p l) (hn : l.length ≤ n) :
    walk next stop n p = some (l.find? stop) := by
  induction l generalizing p n with
  | nil =>
    rw [linked_nil.1 h]
    simp [walk]
  | cons a l ih =>
    obtain ⟨n, rfl⟩ : ∃ m, n = m + 1 := ⟨n - 1, by simp only [List.length_cons] at hn; omega⟩
    rw [h.1]
    unfold walk
    by_cases hs : stop a = true
    · rw [if_pos hs, List.find?_cons_of_pos hs]
    · rw [if_neg hs, List.find?_cons_of_neg hs]
      exact ih h.2 (by simp only [List.length_cons] at hn; omega)

omit [DecidableEq α] in
theorem walk_last {c : α} {n : ℕ} (h : Linked next p (l ++ [c])) (hn : (l ++ [c]).length ≤ n) :
    walk next (fun a => (next a).isNone) n p = some (some c) := by
  rw [walk_eq_find h hn]
  refine congrArg some ?_
  clear hn
  induction l generalizing p with
  | nil => simp [h.next_last]
  | cons a l ih =>
    have ha : ¬ (next a).isNone = true := by
      have h2 := h.2
      cases l with
      | nil => simp [h2.1]
      | cons b l => simp [h2.1]
    have hskip : (a :: (l ++ [c])).find? (fun a => (next a).isNone) =
        (l ++ [c]).find? fun a => (next a).isNone := List.find?_cons_of_neg ha
    exact hskip.trans (ih h.2)

def stepPred (next : α → Option α) (x : Option α × α) : Option (Option α × α) :=
  (next x.2).map fun b => (some x.2, b)

omit [DecidableEq α] in
/-- **The walk to the first node to stop at, with its predecessor.** -/
theorem walk_pred_stop (stop : α → Bool) {l₁ l₂ : List α} {a : α} {n : ℕ} {q : Option α}
    (h : Linked next p (l₁ ++ a :: l₂)) (hn : l₁.length < n) (hl₁ : ∀ b ∈ l₁, stop b = false) (ha : stop a = true) :
    walk (stepPred next) (fun x => stop x.2) n (p.map fun b => (q, b)) =
      some (some (l₁.getLast?.or q, a)) := by
  induction l₁ generalizing p n q with
  | nil =>
    obtain ⟨n, rfl⟩ : ∃ m, n = m + 1 := ⟨n - 1, by omega⟩
    rw [h.1]
    simp [walk, ha]
  | cons b l₁ ih =>
    obtain ⟨n, rfl⟩ : ∃ m, n = m + 1 := ⟨n - 1, by omega⟩
    have hb : ¬ stop b = true := by simp [hl₁ b List.mem_cons_self]
    have hstep : stepPred next (q, b) = (next b).map fun c => (some b, c) := rfl
    rw [h.1, Option.map_some]
    unfold walk
    rw [if_neg hb, hstep]
    rw [ih h.2 (by simp only [List.length_cons] at hn; omega)
      fun c hc => hl₁ c (List.mem_cons_of_mem b hc)]
    cases l₁ with
    | nil => simp
    | cons c l₁ => simp [List.getLast?_cons]

omit [DecidableEq α] in
theorem walk_pred_none (stop : α → Bool) {n : ℕ} {q : Option α} (h : Linked next p l)
    (hn : l.length ≤ n) (hl : ∀ b ∈ l, stop b = false) :
    walk (stepPred next) (fun x => stop x.2) n (p.map fun b => (q, b)) = some none := by
  induction l generalizing p n q with
  | nil =>
    rw [linked_nil.1 h]
    simp [walk]
  | cons b l ih =>
    obtain ⟨n, rfl⟩ : ∃ m, n = m + 1 := ⟨n - 1, by simp only [List.length_cons] at hn; omega⟩
    have hb : ¬ stop b = true := by simp [hl b List.mem_cons_self]
    have hstep : stepPred next (q, b) = (next b).map fun c => (some b, c) := rfl
    rw [h.1, Option.map_some]
    unfold walk
    rw [if_neg hb, hstep]
    exact ih h.2 (by simp only [List.length_cons] at hn; omega)
      fun c hc => hl c (List.mem_cons_of_mem b hc)

/-- **The walk to a node, with its predecessor.** -/
theorem walk_pred {l₁ l₂ : List α} {a : α} {n : ℕ} {q : Option α}
    (h : Linked next p (l₁ ++ a :: l₂)) (hn : l₁.length < n) :
    walk (stepPred next) (fun x => decide (x.2 = a)) n (p.map fun b => (q, b)) =
      some (some (l₁.getLast?.or q, a)) := by
  have ha : a ∉ l₁ := by
    have := h.nodup
    rw [List.nodup_append] at this
    intro hm
    exact this.2.2 a hm a List.mem_cons_self rfl
  refine walk_pred_stop (fun b => decide (b = a)) h hn ?_ (by simp)
  intro b hb
  simp only [decide_eq_false_iff_not]
  rintro rfl
  exact ha hb

/-! ### Queues

A chain with a pointer to its last node; the nodes outside it form a chain of their own. -/

/-- The nodes `l` in order, `tail` the last of them. -/
def Queued (next : α → Option α) (head tail : Option α) (l : List α) : Prop :=
  Linked next head l ∧ tail = l.getLast?

/-- **A node put before a chain.** -/
theorem Linked.push {a : α} (h : Linked next p l) (ha : a ∉ l) :
    Linked (Function.update next a p) (some a) (a :: l) := by
  refine ⟨rfl, ?_⟩
  rw [Function.update_self]
  exact linked_update h ha

theorem linked_foldl_push (xs : List α) (h : Linked next p l) (hnd : (xs ++ l).Nodup) :
    Linked (xs.foldl (fun c a => (Function.update c.1 a c.2, some a)) (next, p)).1
      (xs.foldl (fun c a => (Function.update c.1 a c.2, some a)) (next, p)).2 (xs.reverse ++ l) := by
  induction xs generalizing next p l with
  | nil => exact h
  | cons a xs ih =>
    rw [List.cons_append, List.nodup_cons] at hnd
    have ha : a ∉ l := fun hm => hnd.1 (List.mem_append_right xs hm)
    have := ih (h.push ha) (by rw [List.nodup_middle, List.nodup_cons]; exact hnd)
    rw [List.reverse_cons, List.append_assoc]
    exact this

omit [DecidableEq α] in
theorem Queued.head_eq_none {h t : Option α} (hq : Queued next h t l) : h = none ↔ l = [] := by
  cases l with
  | nil => simpa using hq.1
  | cons a l => simp [hq.1.1]

/-- The pointers after a node `k` has been put behind the last one. -/
def snocNext (next : α → Option α) (tail : Option α) (k : α) : α → Option α :=
  match tail with
  | none => Function.update next k none
  | some c => Function.update (Function.update next k none) c (some k)

/-- **A node entering behind the last one.** -/
theorem Queued.snoc {h t : Option α} {k : α} (hq : Queued next h t l) (hk : k ∉ l) :
    Queued (snocNext next t k) (if h = none then some k else h) (some k) (l ++ [k]) := by
  refine ⟨?_, by simp⟩
  obtain ⟨hl, ht⟩ := hq
  rcases List.eq_nil_or_concat l with rfl | ⟨l, c, rfl⟩
  · rw [if_pos (linked_nil.1 hl), ht]
    simp [snocNext]
  · have hh : h ≠ none := by
      intro hn
      cases l with
      | nil => exact absurd (hl.1.symm.trans hn) (by simp)
      | cons b l => exact absurd (hl.1.symm.trans hn) (by simp)
    rw [if_neg hh, ht, List.concat_eq_append, List.getLast?_append, List.getLast?_singleton]
    rw [List.concat_eq_append] at hl hk
    have hck : c ≠ k := fun he => hk (by simp [he])
    have hone : Linked (Function.update next k none) (some k) [k] := by simp
    have := (linked_update hl hk).relink (q := some k) hone (by simpa using hck)
    rw [List.append_assoc]
    exact this

omit [DecidableEq α] in
theorem linked_snocNext [DecidableEq α] {t : Option α} {k : α} (h : Linked next p l) (hk : k ∉ l)
    (ht : ∀ c, t = some c → c ∉ l) : Linked (snocNext next t k) p l := by
  cases t with
  | none => exact linked_update h hk
  | some c => exact linked_update (linked_update h hk) (ht c rfl)

/-- **The first node leaving.** -/
theorem Queued.pop {a : α} {t : Option α} (hq : Queued next (some a) t l) :
    ∃ l', l = a :: l' ∧ Queued next (next a) (if some a = t then none else t) l' := by
  obtain ⟨hl, ht⟩ := hq
  cases l with
  | nil => exact absurd hl (by simp)
  | cons b l =>
    have hb : a = b := Option.some.inj hl.1
    subst hb
    refine ⟨l, rfl, hl.2, ?_⟩
    have hnd := hl.nodup
    rcases List.eq_nil_or_concat l with rfl | ⟨l, c, rfl⟩
    · rw [ht]
      simp
    · rw [List.concat_eq_append] at ht hnd ⊢
      have hac : a ≠ c := by
        rintro rfl
        exact (List.nodup_cons.1 hnd).1 (by simp)
      have htc : t = some c := by
        rw [ht, ← List.cons_append, List.getLast?_append]
        rfl
      rw [htc, if_neg (by simpa using hac), List.getLast?_append]
      rfl

/-- The pointers after the node `a` has been taken out from behind `pred`. -/
def unlinkNext (next : α → Option α) (pred : Option α) (a : α) : α → Option α :=
  match pred with
  | none => next
  | some c => Function.update next c (next a)

/-- **A node leaving from behind its predecessor, or as the first.** -/
theorem Queued.unlink {h t : Option α} {l₁ l₂ : List α} {a : α} (hq : Queued next h t (l₁ ++ a :: l₂)) :
    Queued (unlinkNext next l₁.getLast? a) (if some a = h then next a else h)
      (if some a = t then l₁.getLast? else t) (l₁ ++ l₂) := by
  obtain ⟨hl, ht⟩ := hq
  have hnd := hl.nodup
  have ha := (List.nodup_cons.1 (List.nodup_middle.1 hnd)).1
  have hrest : Linked next (next a) l₂ := hl.drop
  refine ⟨?_, ?_⟩
  · rcases List.eq_nil_or_concat l₁ with rfl | ⟨l₁, c, rfl⟩
    · rw [if_pos hl.1.symm]
      exact hrest
    · rw [List.concat_eq_append] at hl hnd ha ⊢
      have hh : some a ≠ h := by
        intro he
        cases l₁ with
        | nil => exact ha (by rw [Option.some.inj (he.trans hl.1)]; simp)
        | cons b l₁ => exact ha (by rw [Option.some.inj (he.trans hl.1)]; simp)
      rw [if_neg hh, List.getLast?_append, List.getLast?_singleton]
      have hc : c ∉ l₂ := by
        rw [List.append_assoc, List.singleton_append, List.nodup_middle, List.nodup_cons] at hnd
        intro hm
        exact hnd.1 (by simp [hm])
      rw [List.append_assoc] at hl ⊢
      exact hl.relink hrest hc
  · rcases List.eq_nil_or_concat l₂ with rfl | ⟨l₂, c, rfl⟩
    · rw [ht, List.getLast?_append, if_pos (by simp)]
      simp
    · rw [List.concat_eq_append] at ht ha ⊢
      have hac : a ≠ c := by
        rintro rfl
        exact ha (by simp)
      have htc : t = some c := by
        rw [ht, ← List.cons_append, ← List.append_assoc, List.getLast?_append]
        rfl
      rw [htc, if_neg (by simpa using hac), ← List.append_assoc, List.getLast?_append]
      rfl

omit [DecidableEq α] in
theorem linked_unlinkNext [DecidableEq α] {pred : Option α} {a : α} (h : Linked next p l)
    (hp : ∀ c, pred = some c → c ∉ l) : Linked (unlinkNext next pred a) p l := by
  cases pred with
  | none => exact h
  | some c => exact linked_update h (hp c rfl)

/-! ### Buckets -/

variable {head : β → Option α} {bucket : α → Option β} {b : β} {k : α}

/-- Every head leads to the nodes of its bucket, and `bucket` says to which bucket a node belongs. -/
def Bucketed (head : β → Option α) (next : α → Option α) (bucket : α → Option β) : Prop :=
  ∀ b, ∃ l, Linked next (head b) l ∧ ∀ a, a ∈ l ↔ bucket a = some b

variable [DecidableEq β]

omit [DecidableEq β] in
theorem Bucketed.update_next (h : Bucketed head next bucket) (hk : bucket k = none) (q : Option α) :
    Bucketed head (Function.update next k q) bucket := by
  intro b
  obtain ⟨l, hl, hmem⟩ := h b
  refine ⟨l, linked_update hl ?_, hmem⟩
  intro hm
  rw [(hmem k).1 hm] at hk
  exact absurd hk (by simp)

omit [DecidableEq β] in
theorem mem_of_other {b' : β} (hb : b' ≠ b) (hk : bucket k = none) (h : ∀ a, a ∈ l ↔ bucket a = some b') (a : α) :
    a ∈ l ↔ Function.update bucket k (some b) a = some b' := by
  by_cases hak : a = k
  · subst hak
    rw [Function.update_self, h a, hk]
    simp [Ne.symm hb]
  · rw [Function.update_of_ne hak]
    exact h a

omit [DecidableEq β] in
theorem mem_snoc (h : ∀ a, a ∈ l ↔ bucket a = some b) (a : α) :
    a ∈ l ++ [k] ↔ Function.update bucket k (some b) a = some b := by
  by_cases hak : a = k
  · subst hak
    simp
  · rw [Function.update_of_ne hak, ← h a]
    simp [hak]

/-- **A node entering an empty bucket.** -/
theorem Bucketed.snoc_nil (h : Bucketed head next bucket) (hb : head b = none)
    (hnext : next k = none) (hk : bucket k = none) :
    Bucketed (Function.update head b (some k)) next (Function.update bucket k (some b)) := by
  intro b'
  obtain ⟨l, hl, hmem⟩ := h b'
  by_cases hbb : b' = b
  · subst hbb
    have hnil : l = [] := hl.unique (linked_nil.2 hb)
    subst hnil
    refine ⟨[k], ?_, mem_snoc hmem⟩
    rw [Function.update_self]
    exact ⟨rfl, hnext⟩
  · rw [Function.update_of_ne hbb]
    exact ⟨l, hl, mem_of_other hbb hk hmem⟩

omit [DecidableEq β] in
/-- **A node entering behind the last node of its bucket.** -/
theorem Bucketed.snoc_last {c : α} (h : Bucketed head next bucket) (hl : Linked next (head b) (l ++ [c]))
    (hnext : next k = none) (hk : bucket k = none) :
    Bucketed head (Function.update next c (some k)) (Function.update bucket k (some b)) := by
  have hmem : ∀ a, a ∈ l ++ [c] ↔ bucket a = some b := by
    obtain ⟨l', hl', hmem'⟩ := h b
    rw [hl.unique hl']
    exact hmem'
  have hc : bucket c = some b := (hmem c).1 (by simp)
  have hck : c ≠ k := by
    rintro rfl
    rw [hc] at hk
    exact absurd hk (by simp)
  intro b'
  by_cases hbb : b' = b
  · subst hbb
    refine ⟨l ++ [c] ++ [k], ?_, mem_snoc hmem⟩
    rw [List.append_assoc]
    exact hl.relink ⟨rfl, hnext⟩ (by simpa using hck)
  · obtain ⟨l', hl', hmem'⟩ := h b'
    refine ⟨l', linked_update hl' ?_, mem_of_other hbb hk hmem'⟩
    intro hm
    have := (hmem' c).1 hm
    rw [hc] at this
    exact hbb (Option.some.inj this).symm

omit [DecidableEq β] in
theorem mem_unlink {b' : β} (h : ∀ a, a ∈ l ↔ bucket a = some b') (hk : k ∉ l) (a : α) :
    a ∈ l ↔ Function.update bucket k none a = some b' := by
  by_cases hak : a = k
  · subst hak
    rw [Function.update_self]
    simp [hk]
  · rw [Function.update_of_ne hak]
    exact h a

omit [DecidableEq β] in
theorem mem_erase_node {l₁ l₂ : List α} (hnd : (l₁ ++ k :: l₂).Nodup)
    (h : ∀ a, a ∈ l₁ ++ k :: l₂ ↔ bucket a = some b) (a : α) :
    a ∈ l₁ ++ l₂ ↔ Function.update bucket k none a = some b := by
  by_cases hak : a = k
  · subst hak
    rw [Function.update_self]
    rw [List.nodup_middle, List.nodup_cons] at hnd
    simp [List.mem_append.not.1 hnd.1]
  · rw [Function.update_of_ne hak, ← h a]
    simp [hak]

/-- **The first node of a bucket leaving.** -/
theorem Bucketed.unlink_head (h : Bucketed head next bucket) (hb : head b = some k) (hk : bucket k = some b) :
    Bucketed (Function.update head b (next k)) next (Function.update bucket k none) := by
  intro b'
  obtain ⟨l, hl, hmem⟩ := h b'
  by_cases hbb : b' = b
  · subst hbb
    cases l with
    | nil => exact absurd (hb.symm.trans hl) (by simp)
    | cons a l =>
      have hak : a = k := Option.some.inj (hl.1.symm.trans hb)
      subst hak
      have hrest : ∀ x, x ∈ [] ++ l ↔ Function.update bucket a none x = some b' := mem_erase_node hl.nodup hmem
      refine ⟨l, ?_, hrest⟩
      rw [Function.update_self]
      exact hl.2
  · rw [Function.update_of_ne hbb]
    refine ⟨l, hl, mem_unlink hmem ?_⟩
    intro hm
    have := (hmem k).1 hm
    rw [hk] at this
    exact hbb (Option.some.inj this).symm

omit [DecidableEq β] in
/-- **A node leaving from behind its predecessor.** -/
theorem Bucketed.unlink_pred {c : α} {l₁ l₂ : List α} (h : Bucketed head next bucket)
    (hl : Linked next (head b) (l₁ ++ c :: k :: l₂)) :
    Bucketed head (Function.update next c (next k)) (Function.update bucket k none) := by
  have hmem : ∀ a, a ∈ l₁ ++ c :: k :: l₂ ↔ bucket a = some b := by
    obtain ⟨l', hl', hmem'⟩ := h b
    rw [hl.unique hl']
    exact hmem'
  have hsplit : l₁ ++ c :: k :: l₂ = (l₁ ++ [c]) ++ k :: l₂ := by simp
  have hrest : Linked next (next k) l₂ := by
    rw [hsplit] at hl
    exact hl.drop
  intro b'
  by_cases hbb : b' = b
  · subst hbb
    have hc : c ∉ l₂ := by
      have := hl.nodup
      rw [List.nodup_middle, List.nodup_cons] at this
      intro hm
      exact this.1 (by simp [hm])
    refine ⟨l₁ ++ c :: l₂, hl.relink hrest hc, ?_⟩
    have hnd := hl.nodup
    rw [hsplit] at hmem hnd
    have := mem_erase_node hnd hmem
    simpa using this
  · obtain ⟨l', hl', hmem'⟩ := h b'
    have hother : ∀ a ∈ l₁ ++ c :: k :: l₂, a ∉ l' := by
      intro a ha ha'
      have := (hmem' a).1 ha'
      rw [(hmem a).1 ha] at this
      exact hbb (Option.some.inj this).symm
    exact ⟨l', linked_update hl' (hother c (by simp)), mem_unlink hmem' (hother k (by simp))⟩

end Mt7610u.Lib.Chain
