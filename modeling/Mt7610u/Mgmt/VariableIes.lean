import Mt7610u.Mgmt.BeaconBounds

/-! # The variable-IE buffer as a list of elements

What the beacon parser leaves in the buffer is read again by code that steps from element to element. -/

namespace Mt7610u.Mgmt.Beacon

open Mt7610u.Lib Mt7610u.Mlme

/-! ### Elements in a row -/

def Tlv (e : List Byte) : Prop := 2 ≤ e.length ∧ (mem e 1).toNat + 2 = e.length

/-- The elements of a frame begin at these positions. -/
inductive Begins (a : Arrival) : ℕ → Prop
  | first : Begins a firstElement
  | next {p : ℕ} (h : Begins a p) (hin : p + 2 + a.len p ≤ a.msgLen) : Begins a (p + 2 + a.len p)

def Occurs (a : Arrival) (e : List Byte) : Prop := ∃ p, Begins a p ∧ p + 2 + a.len p ≤ a.msgLen ∧ e = a.element p

def wscPayload (a : Arrival) (w : Walk) : List Byte := (w.gathered.reverse.map (payload a)).flatten

def wscWhole (a : Arrival) (w : Walk) : List Byte :=
  [0xdd, BitVec.ofNat 8 (w.wscLen a + 4), 0x00, 0x50, 0xf2, 0x04] ++ wscPayload a w

/-- The octets are whole elements in a row, each of the frame or the one that is put together. -/
def Splits (a : Arrival) (w : Walk) (bs : List Byte) : Prop :=
  ∃ es : List (List Byte), bs = es.flatten ∧ ∀ e ∈ es, Tlv e ∧ (Occurs a e ∨ e = wscWhole a w)

section

variable {a : Arrival} {w : Walk}

theorem tlv_element (p : ℕ) : Tlv (a.element p) := by
  have hlen : (a.element p).length = a.len p + 2 := length_readAt _ _ _
  refine ⟨by omega, ?_⟩
  rw [hlen]
  have hsecond : mem (a.element p) 1 = a.msg (p + 1) := mem_read (by omega)
  rw [hsecond]
  rfl

theorem Tlv.eq_of_append {e e' bs bs' : List Byte} (h : Tlv e) (h' : Tlv e') (heq : e ++ bs = e' ++ bs') :
    e = e' ∧ bs = bs' := by
  have hsecond : mem e 1 = mem e' 1 :=
    calc mem e 1 = mem (e ++ bs) 1 := (mem_append_left bs h.1).symm
      _ = mem (e' ++ bs') 1 := by rw [heq]
      _ = mem e' 1 := mem_append_left bs' h'.1
  have hlen : e.length = e'.length := by
    rw [← h.2, ← h'.2, hsecond]
  exact List.append_inj heq hlen

theorem splits_append_iff {e bs : List Byte} (h : Tlv e) (hocc : Occurs a e ∨ e = wscWhole a w) :
    Splits a w (e ++ bs) ↔ Splits a w bs := by
  constructor
  · rintro ⟨es, heq, hes⟩
    cases es with
    | nil =>
      have hlen := congrArg List.length heq
      rw [List.length_append, List.flatten_nil, List.length_nil] at hlen
      have := h.1
      omega
    | cons e' es =>
      rw [List.flatten_cons] at heq
      obtain ⟨-, hbs⟩ := h.eq_of_append (hes e' List.mem_cons_self).1 heq
      exact ⟨es, hbs, fun x hx => hes x (List.mem_cons_of_mem _ hx)⟩
  · rintro ⟨es, rfl, hes⟩
    exact ⟨e :: es, rfl, List.forall_mem_cons.2 ⟨⟨h, hocc⟩, hes⟩⟩

theorem splits_flatten_append_iff {es : List (List Byte)} {bs : List Byte}
    (h : ∀ e ∈ es, Tlv e ∧ (Occurs a e ∨ e = wscWhole a w)) : Splits a w (es.flatten ++ bs) ↔ Splits a w bs := by
  induction es with
  | nil => rfl
  | cons e es ih =>
    obtain ⟨⟨htlv, hocc⟩, hes⟩ := List.forall_mem_cons.1 h
    rw [List.flatten_cons, List.append_assoc, splits_append_iff htlv hocc, ih hes]

theorem length_wscPayload (w : Walk) : (wscPayload a w).length = w.wscLen a := by
  unfold wscPayload Walk.wscLen
  rw [List.length_flatten, List.map_map, List.map_reverse, List.sum_reverse]
  congr 1
  exact List.map_congr_left fun p _ => length_readAt _ _ _

theorem length_wscWhole (w : Walk) : (wscWhole a w).length = w.wscLen a + 6 := by
  rw [wscWhole, List.length_append, length_wscPayload, Nat.add_comm]
  rfl

theorem tlv_wscWhole (h : w.wscLen a ≤ 251) : Tlv (wscWhole a w) := by
  have hlen := length_wscWhole (a := a) w
  refine ⟨by omega, ?_⟩
  have hsecond : mem (wscWhole a w) 1 = BitVec.ofNat 8 (w.wscLen a + 4) := rfl
  rw [hlen, hsecond, BitVec.toNat_ofNat]
  omega

end

/-! ### The kept elements -/

theorem walkArm_kept (pAd : Adapter) (a : Arrival) (p : ℕ) (w : Walk) :
    (walkArm pAd a p w).kept = w.kept ∨ (walkArm pAd a p w).kept = p :: w.kept := by
  unfold walkArm
  cases Eid.ofByte (a.eid p) <;> dsimp only <;> (try split_ifs) <;> first
    | exact Or.inl rfl
    | exact Or.inr rfl

theorem occurs_kept (pAd : Adapter) (a : Arrival) (turns : ℕ) : ∀ {w : Walk}, Begins a w.pos →
    (∀ p ∈ w.kept, Occurs a (a.element p)) → ∀ p ∈ (walk pAd a turns w).kept, Occurs a (a.element p) := by
  induction turns with
  | zero =>
    intro w _ h
    exact h
  | succ turns ih =>
    intro w hpos h
    have harm (htest : w.pos + 2 + a.len w.pos ≤ a.msgLen) :
        ∀ p ∈ (walkArm pAd a w.pos (w.look a)).kept, Occurs a (a.element p) := by
      rcases walkArm_kept pAd a w.pos (w.look a) with hk | hk
      · rw [hk]
        exact h
      · rw [hk]
        exact List.forall_mem_cons.2 ⟨⟨w.pos, hpos, htest, rfl⟩, h⟩
    rw [walk_succ]
    split_ifs with htest hroom hjump
    · exact h
    · exact harm htest
    · refine ih ?_ (harm htest)
      rw [(walkArm_pos_looked pAd a w.pos (w.look a)).1]
      exact hpos.next htest
    · exact h

/-! ### The buffer of an accepted frame -/

section

variable (pAd : Adapter) (a : Arrival) (ieList : BcnIeList) (vie : ℕ → Byte)

/-- **What is asked of the buffer**: for an accepted frame it holds whole elements in a row. -/
def ElementsWhole : Prop :=
  ∀ n, peerBeaconAndProbeRspSanity pAd a ieList vie = some (true, some n) →
    Splits a (walkFrame pAd a (ieList.htCapabilityLen ≠ 0)) (Lib.read n.vie n.loc.lengthVIE)

end

def AppendsWsc (pAd : Adapter) (a : Arrival) (w : Walk) : Prop :=
  w.jumped = false ∧ (w.ssid && w.rates && (w.channel || 14 < pAd.latchRfChannel.toNat)) = true ∧
    a.peerWscIe = true ∧ 0 < w.wscLen a ∧ w.wscLen a < 512

theorem tracks_latchChannel (pAd : Adapter) {a : Arrival} {n : NewState} {w : Walk} (h : Tracks a n w) :
    Tracks a (n.latchChannel pAd a) { w with channel := w.channel || 14 < pAd.latchRfChannel.toNat } := by
  have hmissing : n.loc.sanity &&& 4#8 = 0#8 ↔ w.channel = false := by
    rw [h.sanity]
    exact sanityBits_channel
  unfold NewState.latchChannel
  by_cases hlatch : 14 < pAd.latchRfChannel.toNat ∧ n.loc.sanity &&& 4#8 = 0#8
  · have hset : (w.channel || decide (14 < pAd.latchRfChannel.toNat)) = true := by simp [hlatch.1]
    rw [if_pos hlatch, hset]
    refine { h with sanity := ?_ }
    show n.loc.sanity ||| 4#8 = _
    rw [h.sanity, sanityBits_or_four]
  · rw [hmissing] at hlatch
    have hset : (w.channel || decide (14 < pAd.latchRfChannel.toNat)) = w.channel := by
      cases hc : w.channel with
      | true => rfl
      | false => simpa [hc] using hlatch
    rw [← hmissing] at hlatch
    rw [if_neg hlatch, hset]
    exact h

section

variable {pAd : Adapter} {a : Arrival} {n : NewState} {w : Walk}

theorem Tracks.read_vie (h : Tracks a n w) :
    Lib.read n.vie n.loc.lengthVIE = (w.kept.reverse.map a.element).flatten := by
  rw [h.lengthVIE, h.vie]

theorem Tracks.read_newTail (h : Tracks a n w) :
    Lib.read (newTail pAd a n).vie (newTail pAd a n).loc.lengthVIE =
      (w.kept.reverse.map a.element).flatten ++
        if a.peerWscIe ∧ 0 < w.wscLen a ∧ w.wscLen a < 512 then wscWhole a w else [] := by
  have ht := tracks_latchChannel pAd h
  unfold newTail
  generalize n.latchChannel pAd a = t at ht ⊢
  have hlen : t.loc.peerWscIeLen = w.wscLen a := ht.wscLen
  have hsome := ht.peerWscIe
  have hwsc := ht.wsc
  unfold NewState.appendWsc
  cases hm : t.loc.pPeerWscIe with
  | none =>
    rw [hm] at hsome
    rw [if_neg (fun hc => by simp [← hsome] at hc), List.append_nil]
    exact ht.read_vie
  | some m =>
    rw [hm] at hsome
    dsimp only
    rw [hlen]
    by_cases hc : 0 < w.wscLen a ∧ w.wscLen a < 512
    · rw [if_pos hc, if_pos ⟨hsome.symm, hc⟩]
      have hpayload : Lib.read m (w.wscLen a) = wscPayload a w := hwsc m hm
      have helement : wscElement m (w.wscLen a) = wscWhole a w := by
        rw [wscElement, hpayload]
        rfl
      have hlength := length_wscWhole (a := a) w
      show Lib.read (copy t.vie t.loc.lengthVIE (wscElement m (w.wscLen a))) (t.loc.lengthVIE + (w.wscLen a + 6)) = _
      rw [helement, ← hlength, read_copy_append, ht.read_vie]
    · rw [if_neg hc, if_neg fun h' => hc h'.2, List.append_nil]
      exact ht.read_vie

theorem Tracks.sanity_newTail (h : Tracks a n w) :
    (newTail pAd a n).loc.sanity = 7 ↔
      (w.ssid && w.rates && (w.channel || decide (14 < pAd.latchRfChannel.toNat))) = true := by
  have ht := tracks_latchChannel pAd h
  have happend (t : NewState) : t.appendWsc.loc.sanity = t.loc.sanity := by
    unfold NewState.appendWsc
    cases t.loc.pPeerWscIe with
    | none => rfl
    | some m =>
      dsimp only
      split <;> rfl
  unfold newTail
  rw [happend, ht.sanity]
  exact sanityBits_eq_seven

end

section

variable (pAd : Adapter) (a : Arrival) (ieList : BcnIeList) (vie : ℕ → Byte)

theorem kept_whole : ∀ e ∈ (walkFrame pAd a (ieList.htCapabilityLen ≠ 0)).kept.reverse.map a.element,
    Tlv e ∧ (Occurs a e ∨ e = wscWhole a (walkFrame pAd a (ieList.htCapabilityLen ≠ 0))) := by
  rw [List.forall_mem_map]
  intro p hp
  have hkept : ∀ p ∈ (walkFrame pAd a (ieList.htCapabilityLen ≠ 0)).kept, Occurs a (a.element p) :=
    occurs_kept pAd a a.msgLen .first (List.forall_mem_nil _)
  exact ⟨tlv_element p, Or.inl (hkept p (List.mem_reverse.1 hp))⟩

theorem ElementsWhole.splits (h : ElementsWhole pAd a ieList vie)
    (happ : AppendsWsc pAd a (walkFrame pAd a (ieList.htCapabilityLen ≠ 0))) :
    Splits a (walkFrame pAd a (ieList.htCapabilityLen ≠ 0))
      (wscWhole a (walkFrame pAd a (ieList.htCapabilityLen ≠ 0))) := by
  have hlead := leads_frame pAd a ieList vie
  have hes := kept_whole pAd a ieList
  unfold ElementsWhole peerBeaconAndProbeRspSanity at h
  generalize walkFrame pAd a (ieList.htCapabilityLen ≠ 0) = w at hlead hes happ h ⊢
  generalize elements a (fun s => s.loc.lengthVIE) (newArm pAd a) a.msgLen firstElement
    ⟨ieList.start a, vie, Locals.start a⟩ = r at hlead h
  cases hlead with
  | @next n hn _ =>
    have hread := @Tracks.read_newTail pAd _ _ _ hn
    rw [if_pos happ.2.2] at hread
    have hsplits := h (newTail pAd a n) (by simp [hn.sanity_newTail.2 happ.2.1])
    rw [hread] at hsplits
    exact (splits_flatten_append_iff hes).1 hsplits
  | sanityCheck _ hj => exact absurd (happ.1.symm.trans hj) nofun
  | reject hj => exact absurd (happ.1.symm.trans hj) nofun
  | fault hj => exact absurd (happ.1.symm.trans hj) nofun

theorem elementsWhole_of_splits
    (h : AppendsWsc pAd a (walkFrame pAd a (ieList.htCapabilityLen ≠ 0)) →
      Splits a (walkFrame pAd a (ieList.htCapabilityLen ≠ 0))
        (wscWhole a (walkFrame pAd a (ieList.htCapabilityLen ≠ 0)))) : ElementsWhole pAd a ieList vie := by
  have hlead := leads_frame pAd a ieList vie
  have hes := kept_whole pAd a ieList
  unfold ElementsWhole peerBeaconAndProbeRspSanity
  generalize walkFrame pAd a (ieList.htCapabilityLen ≠ 0) = w at hlead hes h ⊢
  have hloop : Splits a w (w.kept.reverse.map a.element).flatten := ⟨_, rfl, hes⟩
  generalize elements a (fun s => s.loc.lengthVIE) (newArm pAd a) a.msgLen firstElement
    ⟨ieList.start a, vie, Locals.start a⟩ = r at hlead
  intro n hn
  cases hlead with
  | @next n' hn' hj =>
    obtain ⟨hs, rfl⟩ : (newTail pAd a n').loc.sanity = 7 ∧ newTail pAd a n' = n := by simpa using hn
    rw [hn'.read_newTail]
    split_ifs with hc
    · exact (splits_flatten_append_iff hes).2 (h ⟨hj, hn'.sanity_newTail.1 hs, hc⟩)
    · rw [List.append_nil]
      exact hloop
  | @sanityCheck n' hn' hj =>
    obtain ⟨-, rfl⟩ : _ ∧ n' = n := by simpa using hn
    rw [hn'.read_vie]
    exact hloop
  | reject hj => simp at hn
  | fault hj => simp at hn

/-- **When the buffer is whole.** It is so on every frame, unless the gathered WSC octets are more than 251, so that
the length octet of the element put together wraps; what is then appended is a row of elements only if the carried
octets happen to be elements of the same frame. -/
theorem elementsWhole_iff :
    ElementsWhole pAd a ieList vie ↔
      (AppendsWsc pAd a (walkFrame pAd a (ieList.htCapabilityLen ≠ 0)) →
        (walkFrame pAd a (ieList.htCapabilityLen ≠ 0)).wscLen a ≤ 251 ∨
          Splits a (walkFrame pAd a (ieList.htCapabilityLen ≠ 0))
            (wscWhole a (walkFrame pAd a (ieList.htCapabilityLen ≠ 0)))) := by
  constructor
  · intro h happ
    exact Or.inr (h.splits pAd a ieList vie happ)
  · intro h
    refine elementsWhole_of_splits pAd a ieList vie fun happ => (h happ).elim (fun hle => ?_) id
    exact ⟨[wscWhole a _], List.flatten_singleton.symm, List.forall_mem_singleton.2 ⟨tlv_wscWhole hle, Or.inr rfl⟩⟩

end

def longWscBeacon : Arrival :=
  beaconWith ((List.range 2).flatMap fun _ => [221, 204, 0x00, 0x50, 0xf2, 0x04] ++ List.replicate 200 0)

set_option maxRecDepth 2000 in
theorem begins_longWscBeacon {p : ℕ} (h : Begins longWscBeacon p) : p ∈ [36, 39, 42, 45, 251, 457] := by
  induction h with
  | first => decide
  | @next p _ hin ih =>
    have hall : ∀ q ∈ [36, 39, 42, 45, 251, 457], q + 2 + longWscBeacon.len q ≤ longWscBeacon.msgLen →
        q + 2 + longWscBeacon.len q ∈ [36, 39, 42, 45, 251, 457] := by decide
    exact hall p ih hin

set_option maxRecDepth 2000 in
/-- The element put together has 404 octets behind its header, and says that it has 148. -/
theorem not_elementsWhole : ¬ ElementsWhole station longWscBeacon .zero zeroMemory := by
  intro h
  have hw := h.splits station longWscBeacon .zero zeroMemory
  have hnoHt : decide (BcnIeList.zero.htCapabilityLen ≠ 0) = false := rfl
  rw [hnoHt] at hw
  generalize hwalk : walkFrame station longWscBeacon false = w at hw
  have hlen : w.wscLen longWscBeacon = 400 := by
    rw [← hwalk]
    decide
  have happ : AppendsWsc station longWscBeacon w := by
    refine ⟨?_, ?_, rfl, by omega, by omega⟩
    · rw [← hwalk]
      decide
    · rw [← hwalk]
      decide
  obtain ⟨es, heq, hes⟩ := hw happ
  cases es with
  | nil => exact absurd heq nofun
  | cons e es =>
    obtain ⟨htlv, hocc⟩ := hes e List.mem_cons_self
    rw [List.flatten_cons] at heq
    have hsecond : mem e 1 = 148#8 :=
      calc mem e 1 = mem (e ++ es.flatten) 1 := (mem_append_left _ htlv.1).symm
        _ = mem (wscWhole longWscBeacon w) 1 := by rw [heq]
        _ = BitVec.ofNat 8 (w.wscLen longWscBeacon + 4) := rfl
        _ = 148#8 := by
          rw [hlen]
          decide
    have hshort : e.length = 150 := by
      rw [← htlv.2, hsecond]
      rfl
    rcases hocc with ⟨p, hp, -, rfl⟩ | rfl
    · have hnone : ∀ q ∈ [36, 39, 42, 45, 251, 457], longWscBeacon.len q + 2 ≠ 150 := by decide
      exact hnone p (begins_longWscBeacon hp) ((length_readAt _ _ _).symm.trans hshort)
    · have hwhole := length_wscWhole (a := longWscBeacon) w
      omega

end Mt7610u.Mgmt.Beacon
