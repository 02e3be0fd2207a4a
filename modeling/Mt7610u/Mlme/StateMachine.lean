import Mathlib.Algebra.Ring.Nat
import Mathlib.Data.List.Basic

/-! # Table-driven state machines

A state machine has a table of functions, one for each state and message, kept as an array of rows. The
functions are of any type. -/

namespace Mt7610u.Mlme

variable {α : Type*}

structure StateMachine (α : Type*) where
  base : ℕ
  nrState : ℕ
  nrMsg : ℕ
  transFunc : List (Option α)
  currState : ℕ

def ulongSub (a b : ℕ) : ℕ := (a + 2 ^ 64 - b) % 2 ^ 64

def stateMachineInit (trans : List (Option α)) (stNr msgNr : ℕ) (defFunc : α) (initState base : ℕ) :
    StateMachine α where
  base := base
  nrState := stNr
  nrMsg := msgNr
  transFunc := (List.range stNr).foldl
    (fun tr i => (List.range msgNr).foldl (fun tr j => tr.set (i * msgNr + j) (some defFunc)) tr) trans
  currState := initState

def stateMachineSetAction (S : StateMachine α) (st msg : ℕ) (func : α) : StateMachine α :=
  let msgIdx := ulongSub msg S.base
  if st < S.nrState ∧ msgIdx < S.nrMsg then
    { S with transFunc := S.transFunc.set (st * S.nrMsg + msgIdx) (some func) }
  else S

/-- The index at which `StateMachinePerformAction` finds the function. -/
def actionIndex (S : StateMachine α) (currState msgType : ℕ) : ℕ := ulongSub (currState * S.nrMsg + msgType) S.base

/-- A call of `StateMachineSetAction`. -/
structure Action (α : Type*) where
  st : ℕ
  msg : ℕ
  func : α

structure Config (α : Type*) where
  nrState : ℕ
  nrMsg : ℕ
  defFunc : α
  initState : ℕ
  base : ℕ
  actions : List (Action α)

/-- `StateMachineInit` on a table of null pointers, and then the actions. -/
def Config.build (c : Config α) : StateMachine α :=
  c.actions.foldl (fun S a => stateMachineSetAction S a.st a.msg a.func)
    (stateMachineInit (List.replicate (c.nrState * c.nrMsg) none) c.nrState c.nrMsg c.defFunc c.initState
      c.base)

def Config.installed (c : Config α) (st msg : ℕ) : α :=
  c.actions.foldl (fun f a => if a.st = st ∧ a.msg = msg then a.func else f) c.defFunc

def Config.IsMsg (c : Config α) (msg : ℕ) : Prop := c.base ≤ msg ∧ msg < c.base + c.nrMsg

instance (c : Config α) (msg : ℕ) : Decidable (c.IsMsg msg) := inferInstanceAs (Decidable (_ ∧ _))

structure Config.Wf (c : Config α) : Prop where
  base_lt : c.base < 2 ^ 32
  size_lt : c.nrState * c.nrMsg < 2 ^ 32
  msg_lt : ∀ a ∈ c.actions, a.msg < 2 ^ 64

/-! ### Filling the table -/

/-- The first `n` entries of a table of `size` hold `d`. -/
def Filled (d : α) (size n : ℕ) (tr : List (Option α)) : Prop := tr.length = size ∧ ∀ k < n, tr[k]? = some (some d)

theorem Filled.set {d : α} {size n : ℕ} {tr : List (Option α)} (h : Filled d size n tr)
    (hn : n < size) : Filled d size (n + 1) (tr.set n (some d)) := by
  obtain ⟨hlen, hd⟩ := h
  refine ⟨by rw [List.length_set, hlen], fun k hk => ?_⟩
  by_cases hkn : k = n
  · subst hkn
    rw [List.getElem?_set_self (by omega)]
  · rw [List.getElem?_set_ne (Ne.symm hkn)]
    exact hd k (by omega)

theorem Filled.row {d : α} {size n m : ℕ} {tr : List (Option α)} (h : Filled d size n tr) (hm : n + m ≤ size) :
    Filled d size (n + m) ((List.range m).foldl (fun tr j => tr.set (n + j) (some d)) tr) := by
  induction m with
  | zero => exact h
  | succ m ih =>
    rw [List.range_succ, List.foldl_append]
    exact (ih (by omega)).set (by omega)

theorem filled_init (trans : List (Option α)) (stNr msgNr : ℕ) (d : α) (initState base : ℕ)
    (hlen : trans.length = stNr * msgNr) :
    Filled d (stNr * msgNr) (stNr * msgNr)
      (stateMachineInit trans stNr msgNr d initState base).transFunc := by
  have hrows : ∀ n ≤ stNr, Filled d (stNr * msgNr) (n * msgNr)
      ((List.range n).foldl
        (fun tr i => (List.range msgNr).foldl (fun tr j => tr.set (i * msgNr + j) (some d)) tr) trans) := by
    intro n hn
    induction n with
    | zero => exact ⟨hlen, fun k hk => absurd hk (by omega)⟩
    | succ n ih =>
      have hle : (n + 1) * msgNr ≤ stNr * msgNr := Nat.mul_le_mul_right msgNr hn
      rw [List.range_succ, List.foldl_append, Nat.add_mul, Nat.one_mul]
      rw [Nat.add_mul, Nat.one_mul] at hle
      exact (ih (by omega)).row hle
  exact hrows stNr (Nat.le_refl stNr)

/-! ### Setting actions -/

theorem ulongSub_eq {a b : ℕ} (h : b ≤ a) (ha : a < 2 ^ 64) : ulongSub a b = a - b := by
  unfold ulongSub
  omega

theorem index_inj {nr st st' idx idx' : ℕ} (hi : idx < nr) (hi' : idx' < nr)
    (h : st * nr + idx = st' * nr + idx') : st = st' ∧ idx = idx' := by
  have hst : st = st' := by
    have hdiv : (st * nr + idx) / nr = (st' * nr + idx') / nr := by rw [h]
    rw [Nat.mul_comm st, Nat.mul_comm st', Nat.mul_add_div (by omega), Nat.mul_add_div (by omega),
      Nat.div_eq_of_lt hi, Nat.div_eq_of_lt hi'] at hdiv
    omega
  subst hst
  exact ⟨rfl, by omega⟩

theorem index_lt {nr n st idx : ℕ} (hst : st < n) (hi : idx < nr) : st * nr + idx < n * nr := by
  have := Nat.mul_le_mul_right nr (show st + 1 ≤ n by omega)
  rw [Nat.add_mul, Nat.one_mul] at this
  omega

variable {c : Config α} {S : StateMachine α} {g : ℕ → ℕ → α}

/-- The machine has the dimensions of `c`, and its table holds `g`. -/
structure Tabulates (c : Config α) (S : StateMachine α) (g : ℕ → ℕ → α) : Prop where
  base_eq : S.base = c.base
  nrState_eq : S.nrState = c.nrState
  nrMsg_eq : S.nrMsg = c.nrMsg
  length_eq : S.transFunc.length = c.nrState * c.nrMsg
  cell : ∀ st < c.nrState, ∀ msg, c.IsMsg msg → S.transFunc[st * c.nrMsg + (msg - c.base)]? = some (some (g st msg))

theorem Tabulates.setAction (h : Tabulates c S g) (hc : c.Wf) (a : Action α) (ha : a.msg < 2 ^ 64) :
    Tabulates c (stateMachineSetAction S a.st a.msg a.func)
      fun st msg => if a.st = st ∧ a.msg = msg then a.func else g st msg := by
  have hbase := hc.base_lt
  unfold stateMachineSetAction
  simp only
  rw [h.base_eq, h.nrState_eq, h.nrMsg_eq]
  split
  · next hok =>
    refine ⟨rfl, rfl, rfl, by rw [List.length_set]; exact h.length_eq, ?_⟩
    intro st hst msg hmsg
    obtain ⟨hlo, hhi⟩ := hmsg
    have hnr : c.nrMsg ≤ c.nrState * c.nrMsg := Nat.le_mul_of_pos_left _ (by omega)
    have hsize := hc.size_lt
    by_cases heq : a.st = st ∧ a.msg = msg
    · obtain ⟨rfl, rfl⟩ := heq
      rw [if_pos ⟨rfl, rfl⟩, ulongSub_eq hlo ha, List.getElem?_set_self]
      rw [h.length_eq]
      exact index_lt hst (by omega)
    · -- another cell, since the numbers of its message and its state are not both the same
      have hne : a.st * c.nrMsg + ulongSub a.msg c.base ≠ st * c.nrMsg + (msg - c.base) := by
        intro hc'
        obtain ⟨h1, h2⟩ := index_inj hok.2 (by omega) hc'
        unfold ulongSub at h2
        exact heq ⟨h1, by omega⟩
      rw [if_neg heq, List.getElem?_set_ne hne]
      exact h.cell st hst msg ⟨hlo, hhi⟩
  · next hbad =>
    refine ⟨h.base_eq, h.nrState_eq, h.nrMsg_eq, h.length_eq, ?_⟩
    intro st hst msg hmsg
    have heq : ¬ (a.st = st ∧ a.msg = msg) := by
      rintro ⟨rfl, rfl⟩
      obtain ⟨hlo, hhi⟩ := hmsg
      exact hbad ⟨hst, by rw [ulongSub_eq hlo ha]; omega⟩
    rw [if_neg heq]
    exact h.cell st hst msg hmsg

theorem Tabulates.foldl (hc : c.Wf) (acts : List (Action α)) (hacts : ∀ a ∈ acts, a.msg < 2 ^ 64) :
    ∀ {S : StateMachine α} {g : ℕ → ℕ → α}, Tabulates c S g →
      Tabulates c (acts.foldl (fun S a => stateMachineSetAction S a.st a.msg a.func) S)
        fun st msg => acts.foldl (fun f a => if a.st = st ∧ a.msg = msg then a.func else f) (g st msg) := by
  induction acts with
  | nil => exact fun h => h
  | cons a acts ih =>
    intro S g h
    simp only [List.foldl_cons]
    exact ih (fun b hb => hacts b (List.mem_cons_of_mem a hb))
      (h.setAction hc a (hacts a List.mem_cons_self))

/-- **The table of a configured machine** holds what has been installed. -/
theorem tabulates_build (hc : c.Wf) : Tabulates c c.build c.installed := by
  have hfill := filled_init (List.replicate (c.nrState * c.nrMsg) none) c.nrState c.nrMsg c.defFunc
    c.initState c.base (by rw [List.length_replicate])
  refine Tabulates.foldl hc c.actions hc.msg_lt (g := fun _ _ => c.defFunc) ⟨rfl, rfl, rfl, hfill.1, ?_⟩
  intro st hst msg hmsg
  obtain ⟨hlo, hhi⟩ := hmsg
  exact hfill.2 _ (index_lt hst (by omega))

/-- **The action that is performed** in a state and on a message of the machine is the one that has been
installed for the two. -/
theorem transFunc_configured (hc : c.Wf) {st msg : ℕ} (hst : st < c.nrState) (hmsg : c.IsMsg msg) :
    actionIndex c.build st msg < c.build.transFunc.length ∧
      c.build.transFunc[actionIndex c.build st msg]? = some (some (c.installed st msg)) := by
  have h := tabulates_build hc
  have hsize := hc.size_lt
  obtain ⟨hlo, hhi⟩ := hmsg
  have hlt : st * c.nrMsg + (msg - c.base) < c.nrState * c.nrMsg := index_lt hst (by omega)
  have hidx : actionIndex c.build st msg = st * c.nrMsg + (msg - c.base) := by
    have hbase := hc.base_lt
    unfold actionIndex
    rw [h.base_eq, h.nrMsg_eq, ulongSub_eq (by omega) (by omega)]
    omega
  rw [hidx, h.length_eq]
  exact ⟨hlt, h.cell st hst msg ⟨hlo, hhi⟩⟩

end Mt7610u.Mlme
