import Mt7610u.Mcu.CmdMsg

/-! # The send loop by itself

One call of `andes_dequeue_and_kick_out_cmd_msgs`, with no other context of execution between its steps. The
loop puts a message back to the head of `txq` while `ackq` has one, and goes on; when sending is forbidden it
frees the messages that want no response and forgets the others. -/

namespace Mt7610u.Mcu.SendLoop

variable {μ : Type} [DecidableEq μ]

/-! ### The code -/

/-- What does not change during a call: the flags, which messages want a response (and have a sender that waits
for it, as every caller of `andes_init_cmd_msg` has it), and what `RTUSB_SUBMIT_URB` returns for each. -/
structure Env (μ : Type) where
  sendInBandCmd : Bool
  nicNotExist : Bool
  suspend : Bool
  mcuInit : Bool
  needRsp : μ → Bool
  submit : μ → ℤ

def Env.forbidden (env : Env μ) : Bool := !env.sendInBandCmd || env.nicNotExist || env.suspend

/-- The queues before a call; a message is in one of them, once. -/
structure Queues (μ : Type) where
  txq : List μ
  ackq : List μ
  kickq : List μ
  txDoneq : List μ
  seq : μ → ℕ
  state : μ → CmdMsgState
  cmdSeq : ℕ
  nodup : (txq ++ ackq ++ kickq ++ txDoneq).Nodup

structure Sending (μ : Type) where
  txq : List μ
  ackq : List μ
  kickq : List μ
  txDoneq : List μ
  seq : μ → ℕ
  state : μ → CmdMsgState
  cmdSeq : ℕ
  submitted : List μ
  completed : List μ
  freed : List μ

def Queues.begin (q : Queues μ) : Sending μ :=
  { txq := q.txq, ackq := q.ackq, kickq := q.kickq, txDoneq := q.txDoneq, seq := q.seq, state := q.state
    cmdSeq := q.cmdSeq, submitted := [], completed := [], freed := [] }

def usbKickOutCmdMsg (env : Env μ) (m : μ) (s : Sending μ) : Sending μ × ℤ :=
  let linked :=
    if env.needRsp m then
      { s with ackq := s.ackq ++ [m], state := Function.update s.state m .waitCmdOutAndAck }
    else { s with kickq := s.kickq ++ [m], state := Function.update s.state m .waitCmdOut }
  if !env.mcuInit then (linked, -1)
  else if env.submit m = 0 then ({ linked with submitted := linked.submitted ++ [m] }, 0)
  else if !env.needRsp m then
    ({ linked with
        kickq := linked.kickq.erase m
        txDoneq := linked.txDoneq ++ [m]
        state := Function.update linked.state m .txKickoutFail }, env.submit m)
  else
    ({ linked with
        ackq := linked.ackq.erase m
        state := Function.update linked.state m .txKickoutFail
        completed := linked.completed ++ [m] }, env.submit m)

/-- The number of the message; a search of more than `n` turns has no result. -/
def number (env : Env μ) (n : ℕ) (m : μ) (s : Sending μ) : Option (Sending μ) :=
  if env.needRsp m then
    (getCmdMsgSeq (s.ackq.map s.seq) n s.cmdSeq).map fun k =>
      { s with seq := Function.update s.seq m k, cmdSeq := k }
  else some { s with seq := Function.update s.seq m 0 }

/-- The loop of `andes_dequeue_and_kick_out_cmd_msgs` with `ret`; a loop of more than `n` turns has no result. -/
def kickOutCmdMsgs (env : Env μ) : ℕ → Sending μ → ℤ → Option (Sending μ × ℤ)
  | 0, _, _ => none
  | n + 1, s, ret =>
    match s.txq with
    | [] => some (s, ret)
    | m :: rest =>
      let s := { s with txq := rest }
      if env.forbidden then
        kickOutCmdMsgs env n (if env.needRsp m then s else { s with freed := s.freed ++ [m] }) ret
      else if 0 < s.ackq.length then
        kickOutCmdMsgs env n { s with txq := m :: s.txq } ndisStatusFailure
      else
        match number env (n + 1) m s with
        | none => none
        | some s =>
          let kicked := usbKickOutCmdMsg env m s
          if kicked.2 ≠ 0 then some kicked else kickOutCmdMsgs env n kicked.1 kicked.2

/-! ### What a call should do -/

/-- What has become of a message: it is at the host controller or back in `txq`, its sender was woken up, or
nobody waits for it and it was freed or failed to the tasklet that frees it. -/
def Accounted (env : Env μ) (s : Sending μ) (m : μ) : Prop :=
  m ∈ s.submitted ∨ m ∈ s.txq ∨ m ∈ s.completed ∨ env.needRsp m = false ∧ (m ∈ s.freed ∨ m ∈ s.txDoneq)

/-- The call ends, and all messages that were in `txq` are accounted for. -/
def SendsWell (env : Env μ) (q : Queues μ) : Prop :=
  ∃ n r, kickOutCmdMsgs env n q.begin ndisStatusSuccess = some r ∧ ∀ m ∈ q.txq, Accounted env r.1 m

def Sendable (env : Env μ) (q : Queues μ) : Prop :=
  if env.forbidden then ∀ m ∈ q.txq, env.needRsp m = false
  else q.txq ≠ [] → env.mcuInit = true ∧ q.ackq = [] ∧
    ∀ pre m post, q.txq = pre ++ m :: post → env.needRsp m = true → post ≠ [] → ∃ x ∈ pre ++ [m], env.submit x ≠ 0

/-- The search ends with a number from 1 to 15 that no command in `ackq` has. -/
def SearchEnds (q : Queues μ) : Prop :=
  ∃ n k, getCmdMsgSeq (q.ackq.map q.seq) n q.cmdSeq = some k ∧ 1 ≤ k ∧ k ≤ 15 ∧ ∀ m ∈ q.ackq, q.seq m ≠ k

/-! ### The search -/

theorem nextSeq_bounds (c : ℕ) : 1 ≤ nextSeq c ∧ nextSeq c ≤ 15 := by
  unfold nextSeq
  split_ifs <;> omega

theorem getCmdMsgSeq_spec {used : List ℕ} {n c k : ℕ} (h : getCmdMsgSeq used n c = some k) :
    1 ≤ k ∧ k ≤ 15 ∧ k ∉ used := by
  induction n generalizing c with
  | zero => cases h
  | succ n ih =>
    rw [getCmdMsgSeq] at h
    split_ifs at h with hused
    · exact ih h
    · obtain rfl := Option.some.inj h
      exact ⟨(nextSeq_bounds c).1, (nextSeq_bounds c).2, hused⟩

theorem getCmdMsgSeq_isSome {used : List ℕ} {j c : ℕ} (h : nextSeq^[j + 1] c ∉ used) :
    ∃ k, getCmdMsgSeq used (j + 1) c = some k := by
  induction j generalizing c with
  | zero => exact ⟨nextSeq c, if_neg h⟩
  | succ j ih =>
    rw [getCmdMsgSeq]
    split_ifs with hused
    · exact ih h
    · exact ⟨_, rfl⟩

theorem iterate_nextSeq {c j : ℕ} (h : c + j ≤ 15) : nextSeq^[j] c = c + j := by
  induction j with
  | zero => rfl
  | succ j ih =>
    rw [Function.iterate_succ_apply', ih (by omega), nextSeq, if_neg (by omega)]
    omega

theorem exists_iterate_nextSeq (c : ℕ) {k : ℕ} (hk : 1 ≤ k) (hk' : k ≤ 15) : ∃ j, nextSeq^[j + 1] c = k := by
  by_cases hc : c < k
  · refine ⟨k - c - 1, ?_⟩
    rw [iterate_nextSeq (by omega)]
    omega
  · -- to 15 first, and round
    have hround : ∀ c, 15 ≤ c → nextSeq^[k - 1 + 1] c = k := by
      intro c hc
      rw [Function.iterate_succ_apply, nextSeq, if_pos hc, iterate_nextSeq (by omega)]
      omega
    by_cases hbig : 15 ≤ c
    · exact ⟨_, hround c hbig⟩
    · refine ⟨k - 1 + (15 - c), ?_⟩
      rw [Nat.add_right_comm, Function.iterate_add_apply, iterate_nextSeq (c := c) (by omega)]
      exact hround _ (by omega)

omit [DecidableEq μ] in
theorem searchEnds_iff (q : Queues μ) : SearchEnds q ↔ ∃ k, 1 ≤ k ∧ k ≤ 15 ∧ ∀ m ∈ q.ackq, q.seq m ≠ k := by
  constructor
  · rintro ⟨n, k, -, hk⟩
    exact ⟨k, hk⟩
  · rintro ⟨k, hk, hk', hfree⟩
    obtain ⟨j, hj⟩ := exists_iterate_nextSeq q.cmdSeq hk hk'
    have hunused : nextSeq^[j + 1] q.cmdSeq ∉ q.ackq.map q.seq := by
      rw [hj, List.mem_map]
      rintro ⟨m, hm, hseq⟩
      exact hfree m hm hseq
    obtain ⟨k', hfound⟩ := getCmdMsgSeq_isSome hunused
    obtain ⟨h1, h2, h3⟩ := getCmdMsgSeq_spec hfound
    exact ⟨_, k', hfound, h1, h2, fun m hm hseq => h3 (List.mem_map.2 ⟨m, hm, hseq⟩)⟩

/-! ### The loop -/

variable {env : Env μ} {s : Sending μ} {m : μ} {rest : List μ}

theorem kickOutCmdMsgs_nil (h : s.txq = []) (n : ℕ) (ret : ℤ) :
    kickOutCmdMsgs env (n + 1) s ret = some (s, ret) := by
  rw [kickOutCmdMsgs, h]

theorem kickOutCmdMsgs_forbidden (hf : env.forbidden = true) (h : s.txq = m :: rest) (n : ℕ) (ret : ℤ) :
    kickOutCmdMsgs env (n + 1) s ret =
      kickOutCmdMsgs env n
        (if env.needRsp m then { s with txq := rest }
          else { s with txq := rest, freed := s.freed ++ [m] }) ret := by
  rw [kickOutCmdMsgs, h]
  exact if_pos hf

theorem kickOutCmdMsgs_putBack (hf : env.forbidden = false) (h : s.txq ≠ []) (hack : s.ackq ≠ []) (n : ℕ)
    (ret : ℤ) : kickOutCmdMsgs env (n + 1) s ret = kickOutCmdMsgs env n s ndisStatusFailure := by
  obtain ⟨m, rest, htxq⟩ := List.exists_cons_of_ne_nil h
  have hsame : { s with txq := m :: rest } = s := by rw [← htxq]
  rw [kickOutCmdMsgs, htxq]
  simp only [hf, Bool.false_eq_true, if_false, List.length_pos_of_ne_nil hack, if_true, hsame]

def numbered (env : Env μ) (m : μ) (s : Sending μ) : Sending μ :=
  if env.needRsp m then
    { s with seq := Function.update s.seq m (nextSeq s.cmdSeq), cmdSeq := nextSeq s.cmdSeq }
  else { s with seq := Function.update s.seq m 0 }

theorem number_eq (hack : s.ackq = []) (n : ℕ) : number env (n + 1) m s = some (numbered env m s) := by
  unfold number numbered
  rw [hack]
  simp only [List.map_nil, getCmdMsgSeq, List.not_mem_nil, if_false, Option.map_some]
  split_ifs <;> rfl

def kicked (env : Env μ) (m : μ) (rest : List μ) (s : Sending μ) : Sending μ × ℤ :=
  usbKickOutCmdMsg env m (numbered env m { s with txq := rest })

theorem kickOutCmdMsgs_kick (hf : env.forbidden = false) (h : s.txq = m :: rest) (hack : s.ackq = []) (n : ℕ)
    (ret : ℤ) :
    kickOutCmdMsgs env (n + 1) s ret =
      if (kicked env m rest s).2 ≠ 0 then some (kicked env m rest s)
      else kickOutCmdMsgs env n (kicked env m rest s).1 (kicked env m rest s).2 := by
  have hnumber : number env (n + 1) m { s with txq := rest } = some (numbered env m { s with txq := rest }) :=
    number_eq (s := { s with txq := rest }) hack n
  have hlen : ¬0 < s.ackq.length := by simp [hack]
  rw [kickOutCmdMsgs, h]
  simp only [hf, Bool.false_eq_true, if_false, hlen, hnumber]
  rfl

theorem kicked_spec (env : Env μ) (m : μ) (rest : List μ) (hack : s.ackq = []) :
    (kicked env m rest s).1.txq = rest ∧
    (env.mcuInit = false → (kicked env m rest s).2 = -1 ∧ (kicked env m rest s).1.submitted = s.submitted ∧
      (kicked env m rest s).1.completed = s.completed ∧ (kicked env m rest s).1.freed = s.freed ∧
      (kicked env m rest s).1.txDoneq = s.txDoneq) ∧
    (env.mcuInit = true → (kicked env m rest s).2 = env.submit m ∧
      (env.submit m = 0 → (kicked env m rest s).1.submitted = s.submitted ++ [m] ∧
        (kicked env m rest s).1.ackq = if env.needRsp m then [m] else []) ∧
      (env.submit m ≠ 0 → if env.needRsp m then m ∈ (kicked env m rest s).1.completed
        else m ∈ (kicked env m rest s).1.txDoneq)) := by
  unfold kicked numbered usbKickOutCmdMsg
  cases hrsp : env.needRsp m <;> cases hinit : env.mcuInit <;> by_cases hsub : env.submit m = 0 <;>
    simp [hsub, hack]

theorem kicked_submitted (env : Env μ) (m : μ) (rest : List μ) (s : Sending μ) {x : μ}
    (h : x ∈ s.submitted) : x ∈ (kicked env m rest s).1.submitted := by
  unfold kicked numbered usbKickOutCmdMsg
  cases hrsp : env.needRsp m <;> cases hinit : env.mcuInit <;> by_cases hsub : env.submit m = 0 <;>
    simp [hsub, h]

/-! ### More turns -/

theorem getCmdMsgSeq_mono {used : List ℕ} {n c k : ℕ} (h : getCmdMsgSeq used n c = some k) :
    getCmdMsgSeq used (n + 1) c = some k := by
  induction n generalizing c with
  | zero => cases h
  | succ n ih =>
    rw [getCmdMsgSeq] at h ⊢
    split_ifs at h ⊢ with hused
    · exact ih h
    · exact h

theorem number_mono {n : ℕ} {s' : Sending μ} (h : number env n m s = some s') :
    number env (n + 1) m s = some s' := by
  unfold number at h ⊢
  split_ifs at h ⊢ with hrsp
  · obtain ⟨k, hk, heq⟩ := Option.map_eq_some_iff.1 h
    rw [getCmdMsgSeq_mono hk]
    exact congrArg some heq
  · exact h

theorem loop_mono {n : ℕ} {s : Sending μ} {ret : ℤ} {r : Sending μ × ℤ}
    (h : kickOutCmdMsgs env n s ret = some r) : kickOutCmdMsgs env (n + 1) s ret = some r := by
  induction n generalizing s ret with
  | zero => cases h
  | succ n ih =>
    rw [kickOutCmdMsgs] at h ⊢
    cases htxq : s.txq with
    | nil =>
      rw [htxq] at h
      exact h
    | cons m rest =>
      rw [htxq] at h
      dsimp only at h ⊢
      split_ifs at h ⊢ with hf hrsp hack
      · exact ih h
      · exact ih h
      · exact ih h
      · cases hnumber : number env (n + 1) m { s with txq := rest } with
        | none =>
          rw [hnumber] at h
          cases h
        | some s' =>
          rw [hnumber] at h
          rw [number_mono hnumber]
          dsimp only at h ⊢
          split_ifs at h ⊢
          · exact h
          · exact ih h

theorem loop_unique {n n' : ℕ} {s : Sending μ} {ret : ℤ} {r r' : Sending μ × ℤ}
    (h : kickOutCmdMsgs env n s ret = some r) (h' : kickOutCmdMsgs env n' s ret = some r') : r = r' := by
  have hle : ∀ {n : ℕ} {r : Sending μ × ℤ} (k : ℕ), kickOutCmdMsgs env n s ret = some r →
      kickOutCmdMsgs env (n + k) s ret = some r := by
    intro n r k hn
    induction k with
    | zero => exact hn
    | succ k ih => exact loop_mono ih
  have h1 := hle n' h
  have h2 := hle n h'
  rw [Nat.add_comm n' n, h1] at h2
  exact Option.some.inj h2

/-! ### Calls that end -/

theorem loop_forbidden (hf : env.forbidden = true) (s : Sending μ) (ret : ℤ) {n : ℕ} (hn : s.txq.length < n) :
    kickOutCmdMsgs env n s ret =
      some ({ s with txq := [], freed := s.freed ++ s.txq.filter fun m => !env.needRsp m }, ret) := by
  obtain ⟨n, rfl⟩ := Nat.exists_eq_succ_of_ne_zero (Nat.ne_zero_of_lt hn)
  induction htxq : s.txq generalizing s n with
  | nil =>
    have hsame : { s with txq := [], freed := s.freed ++ [] } = s := by rw [List.append_nil, ← htxq]
    rw [kickOutCmdMsgs_nil htxq, List.filter_nil, hsame]
  | cons m rest ih =>
    rw [htxq, List.length_cons] at hn
    obtain ⟨n, rfl⟩ := Nat.exists_eq_succ_of_ne_zero (show n ≠ 0 by omega)
    rw [kickOutCmdMsgs_forbidden hf htxq]
    cases hrsp : env.needRsp m with
    | true =>
      have hrest := ih { s with txq := rest } n (show rest.length < n + 1 by omega) rfl
      simp only [if_true, hrest, List.filter_cons, hrsp, Bool.not_true, Bool.false_eq_true, if_false]
    | false =>
      have hrest := ih { s with txq := rest, freed := s.freed ++ [m] } n (show rest.length < n + 1 by omega) rfl
      simp only [Bool.false_eq_true, if_false, hrest, List.filter_cons, hrsp, Bool.not_false, if_true,
        List.append_assoc, List.singleton_append]

theorem loop_stuck (hf : env.forbidden = false) (h : s.txq ≠ []) (hack : s.ackq ≠ []) (n : ℕ) (ret : ℤ) :
    kickOutCmdMsgs env n s ret = none := by
  induction n generalizing ret with
  | zero => rfl
  | succ n ih => rw [kickOutCmdMsgs_putBack hf h hack, ih]

def Goes (env : Env μ) : List μ → Prop
  | [] => True
  | m :: rest => env.submit m ≠ 0 ∨ (env.needRsp m = true → rest = []) ∧ Goes env rest

omit [DecidableEq μ] in
theorem goes_iff (l : List μ) : Goes env l ↔
    ∀ pre m post, l = pre ++ m :: post → env.needRsp m = true → post ≠ [] → ∃ x ∈ pre ++ [m], env.submit x ≠ 0 := by
  induction l with
  | nil =>
    refine iff_of_true trivial fun pre m post heq => ?_
    simp at heq
  | cons m rest ih =>
    rw [Goes, ih]
    constructor
    · rintro (hrefused | ⟨hlast, hrest⟩) pre x post heq hrsp hpost
      · refine ⟨m, ?_, hrefused⟩
        cases pre with
        | nil => simp [(List.cons.inj heq).1]
        | cons y pre => simp [(List.cons.inj heq).1]
      · cases pre with
        | nil =>
          obtain ⟨rfl, rfl⟩ := List.cons.inj heq
          exact absurd (hlast hrsp) hpost
        | cons y pre =>
          obtain ⟨rfl, htail⟩ := List.cons.inj heq
          obtain ⟨z, hz, hrefused⟩ := hrest pre x post htail hrsp hpost
          exact ⟨z, List.mem_cons_of_mem _ hz, hrefused⟩
    · intro h
      by_cases hrefused : env.submit m ≠ 0
      · exact .inl hrefused
      · refine .inr ⟨fun hrsp => ?_, fun pre x post heq hrsp hpost => ?_⟩
        · by_contra hrest
          obtain ⟨x, hx, hsub⟩ := h [] m rest rfl hrsp hrest
          obtain rfl : x = m := by simpa using hx
          exact hrefused hsub
        · obtain ⟨z, hz, hsub⟩ := h (m :: pre) x post (by rw [heq]; rfl) hrsp hpost
          rcases List.mem_cons.1 hz with rfl | hz
          · exact absurd hsub hrefused
          · exact ⟨z, hz, hsub⟩

/-- **A call ends well**, with the controller up and no command in `ackq`, if the messages go. -/
theorem loop_goes (hf : env.forbidden = false) (hinit : env.mcuInit = true) (s : Sending μ) (hack : s.ackq = [])
    (hgoes : Goes env s.txq) (ret : ℤ) :
    ∃ n r, kickOutCmdMsgs env n s ret = some r ∧ (∀ m ∈ s.submitted, m ∈ r.1.submitted) ∧
      ∀ m ∈ s.txq, Accounted env r.1 m := by
  induction htxq : s.txq generalizing s ret with
  | nil => exact ⟨1, _, kickOutCmdMsgs_nil htxq 0 ret, fun m hm => hm, fun m hm => by cases hm⟩
  | cons m rest ih =>
    obtain ⟨hrest, -, hup⟩ := kicked_spec env m rest hack
    obtain ⟨hret, haccepted, hrefused⟩ := hup hinit
    by_cases hsub : env.submit m = 0
    · rw [htxq, Goes] at hgoes
      obtain ⟨hlast, hgoes⟩ := hgoes.resolve_left fun h => h hsub
      obtain ⟨hsubmitted, hackq⟩ := haccepted hsub
      have hm : m ∈ (kicked env m rest s).1.submitted := by
        rw [hsubmitted]
        exact List.mem_append_right _ List.mem_cons_self
      have hkick : ∀ n, kickOutCmdMsgs env (n + 1) s ret =
          kickOutCmdMsgs env n (kicked env m rest s).1 (kicked env m rest s).2 := by
        intro n
        rw [kickOutCmdMsgs_kick hf htxq hack, if_neg (by rw [hret, hsub]; decide)]
      by_cases hrsp : env.needRsp m = true
      · -- the last message
        have hempty : (kicked env m rest s).1.txq = [] := hrest.trans (hlast hrsp)
        refine ⟨2, _, (hkick 1).trans (kickOutCmdMsgs_nil hempty 0 _),
          fun x hx => kicked_submitted env m rest s hx, fun x hx => .inl ?_⟩
        rw [hlast hrsp, List.mem_singleton] at hx
        exact hx ▸ hm
      · have hackq' : (kicked env m rest s).1.ackq = [] := by
          rw [hackq]
          exact if_neg hrsp
        obtain ⟨n, r, heq, hkeep, hall⟩ := ih (kicked env m rest s).1 hackq' (hrest.symm ▸ hgoes)
          (kicked env m rest s).2 hrest
        refine ⟨n + 1, r, (hkick n).trans heq, fun x hx => hkeep x (kicked_submitted env m rest s hx),
          fun x hx => ?_⟩
        rcases List.mem_cons.1 hx with rfl | hx
        · exact .inl (hkeep x hm)
        · exact hall x hx
    · have hkick : kickOutCmdMsgs env 1 s ret = some (kicked env m rest s) := by
        rw [kickOutCmdMsgs_kick hf htxq hack, if_pos (by rw [hret]; exact hsub)]
      refine ⟨1, _, hkick, fun x hx => kicked_submitted env m rest s hx, fun x hx => ?_⟩
      rcases List.mem_cons.1 hx with rfl | hx
      · have hm := hrefused hsub
        cases hrsp : env.needRsp x with
        | true =>
          rw [hrsp, if_pos rfl] at hm
          exact .inr (.inr (.inl hm))
        | false =>
          rw [hrsp] at hm
          exact .inr (.inr (.inr ⟨hrsp, .inr hm⟩))
      · exact .inr (.inl (hrest.symm ▸ hx))

theorem loop_not_goes (hf : env.forbidden = false) (hinit : env.mcuInit = true) (n : ℕ) (s : Sending μ)
    (hack : s.ackq = []) (hgoes : ¬Goes env s.txq) (ret : ℤ) : kickOutCmdMsgs env n s ret = none := by
  induction n generalizing s ret with
  | zero => rfl
  | succ n ih =>
    cases htxq : s.txq with
    | nil => exact absurd (htxq ▸ trivial) hgoes
    | cons m rest =>
      rw [htxq, Goes, not_or, not_not] at hgoes
      obtain ⟨hsub, hgoes⟩ := hgoes
      obtain ⟨hrest, -, hup⟩ := kicked_spec env m rest hack
      obtain ⟨hret, haccepted, -⟩ := hup hinit
      obtain ⟨-, hackq⟩ := haccepted hsub
      rw [kickOutCmdMsgs_kick hf htxq hack, if_neg (by rw [hret, hsub]; decide)]
      by_cases hrsp : env.needRsp m = true
      · by_cases hlast : rest = []
        · exact absurd ⟨fun _ => hlast, hlast ▸ trivial⟩ hgoes
        · have htxq' : (kicked env m rest s).1.txq ≠ [] := by rwa [hrest]
          refine loop_stuck hf htxq' ?_ n _
          rw [hackq, if_pos hrsp]
          exact List.cons_ne_nil _ _
      · refine ih _ (hackq.trans (if_neg hrsp)) ?_ _
        rw [hrest]
        exact fun h => hgoes ⟨fun hr => absurd hr hrsp, h⟩

/-! ### Which calls -/

theorem loop_down (hf : env.forbidden = false) (hinit : env.mcuInit = false) (hack : s.ackq = [])
    (h : s.txq = m :: rest) (n : ℕ) (ret : ℤ) : kickOutCmdMsgs env (n + 1) s ret = some (kicked env m rest s) := by
  obtain ⟨-, hdown, -⟩ := kicked_spec env m rest hack
  rw [kickOutCmdMsgs_kick hf h hack, if_pos (by rw [(hdown hinit).1]; decide)]

theorem sendsWell_forbidden {q : Queues μ} (hf : env.forbidden = true) :
    SendsWell env q ↔ ∀ m ∈ q.txq, env.needRsp m = false := by
  have hloop := loop_forbidden hf q.begin ndisStatusSuccess (Nat.lt_succ_self q.txq.length)
  constructor
  · rintro ⟨n, r, hr, hall⟩ m hm
    obtain rfl := loop_unique hr hloop
    rcases hall m hm with h | h | h | ⟨h, -⟩
    · cases h
    · cases h
    · cases h
    · exact h
  · intro h
    refine ⟨_, _, hloop, fun m hm => .inr (.inr (.inr ⟨h m hm, .inl ?_⟩))⟩
    refine List.mem_append_right _ (List.mem_filter.2 ⟨hm, ?_⟩)
    rw [h m hm]
    rfl

theorem sendsWell_nil {q : Queues μ} (h : q.txq = []) : SendsWell env q :=
  ⟨1, _, kickOutCmdMsgs_nil h 0 _, fun m hm => by rw [h] at hm; cases hm⟩

theorem not_sendsWell_down {q : Queues μ} (hf : env.forbidden = false) (hinit : env.mcuInit = false)
    (hack : q.ackq = []) (h : q.txq ≠ []) : ¬SendsWell env q := by
  rintro ⟨n, r, hr, hall⟩
  obtain ⟨m, rest, htxq⟩ := List.exists_cons_of_ne_nil h
  obtain rfl := loop_unique hr (loop_down hf hinit hack htxq 0 ndisStatusSuccess)
  obtain ⟨hrest, hdown, -⟩ := kicked_spec (s := q.begin) env m rest hack
  obtain ⟨-, hsub, hcomp, hfreed, hdone⟩ := hdown hinit
  have hnodup := q.nodup
  rw [htxq, List.cons_append, List.cons_append, List.cons_append, List.nodup_cons] at hnodup
  obtain ⟨hm, -⟩ := hnodup
  simp only [List.mem_append, not_or] at hm
  rcases hall m (htxq ▸ List.mem_cons_self) with h | h | h | ⟨-, h | h⟩
  · rw [hsub] at h
    cases h
  · rw [hrest] at h
    exact hm.1.1.1 h
  · rw [hcomp] at h
    cases h
  · rw [hfreed] at h
    cases h
  · rw [hdone] at h
    exact hm.2 h

theorem sendsWell_allowed {q : Queues μ} (hf : env.forbidden = false) (h : q.txq ≠ []) :
    SendsWell env q ↔ env.mcuInit = true ∧ q.ackq = [] ∧ Goes env q.txq := by
  constructor
  · intro hwell
    obtain ⟨n, r, hr, -⟩ := id hwell
    have hack : q.ackq = [] := by
      by_contra hack
      have hstuck := loop_stuck (s := q.begin) hf h hack n ndisStatusSuccess
      rw [hr] at hstuck
      cases hstuck
    have hinit : env.mcuInit = true := by
      by_contra hinit
      exact not_sendsWell_down hf (Bool.eq_false_iff.2 hinit) hack h hwell
    refine ⟨hinit, hack, ?_⟩
    by_contra hgoes
    have hnone := loop_not_goes hf hinit n q.begin hack hgoes ndisStatusSuccess
    rw [hr] at hnone
    cases hnone
  · rintro ⟨hinit, hack, hgoes⟩
    obtain ⟨n, r, hr, -, hall⟩ := loop_goes hf hinit q.begin hack hgoes ndisStatusSuccess
    exact ⟨n, r, hr, hall⟩

/-- **The send loop.** A call ends with every message accounted for exactly in the states of `Sendable`, and the
search for a number ends with a free one exactly if `ackq` does not have them all. -/
theorem sendsWell_iff (env : Env μ) (q : Queues μ) :
    (SendsWell env q ↔ Sendable env q) ∧
      (SearchEnds q ↔ ∃ k, 1 ≤ k ∧ k ≤ 15 ∧ ∀ m ∈ q.ackq, q.seq m ≠ k) := by
  refine ⟨?_, searchEnds_iff q⟩
  unfold Sendable
  cases hf : env.forbidden with
  | true =>
    rw [if_pos rfl]
    exact sendsWell_forbidden hf
  | false =>
    rw [if_neg (by decide)]
    by_cases h : q.txq = []
    · exact iff_of_true (sendsWell_nil h) fun hn => absurd h hn
    · rw [sendsWell_allowed hf h, goes_iff]
      exact ⟨fun hs _ => hs, fun hs => hs h⟩

/-- A device that sends, with the given messages for which a response is wanted. -/
def sending (needRsp : ℕ → Bool) : Env ℕ := ⟨true, false, false, true, needRsp, fun _ => 0⟩

/-- Two commands that want responses: the second is put back for ever. And a command that wants one when
sending is forbidden: it is in no queue afterwards. -/
theorem not_sendsWell :
    ¬SendsWell (sending fun _ => true)
        ⟨[0, 1], [], [], [], fun _ => 0, fun _ => .txStart, 0, by decide⟩ ∧
      ¬SendsWell { sending fun _ => true with suspend := true }
        ⟨[0], [], [], [], fun _ => 0, fun _ => .txStart, 0, by decide⟩ ∧
      ¬SearchEnds (μ := ℕ)
        ⟨[], List.range 15, [], [], fun m => m + 1, fun _ => .waitAck, 0, by decide⟩ := by
  refine ⟨?_, ?_, ?_⟩
  · intro h
    obtain ⟨-, -, hgoes⟩ := (sendsWell_allowed rfl (by decide)).1 h
    rcases hgoes with h | ⟨h, -⟩
    · exact h rfl
    · exact absurd (h rfl) (by decide)
  · intro h
    exact absurd ((sendsWell_forbidden rfl).1 h 0 (by decide)) (by decide)
  · intro h
    obtain ⟨k, h1, h15, hfree⟩ := (searchEnds_iff _).1 h
    exact hfree (k - 1) (List.mem_range.2 (by omega)) (by show k - 1 + 1 = k; omega)

end Mt7610u.Mcu.SendLoop
