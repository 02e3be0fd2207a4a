import Mathlib.Data.List.GetD
import Mt7610u.Lib.Lines
import Mt7610u.Profile.KeyParameter

/-! # What the profile says about a key -/

namespace Mt7610u.Profile

open Lib Lib.Lines

/-- A string in C: no octet before the terminating NUL is a NUL. -/
structure CString where
  octets : List Byte
  noNul : 0 ∉ octets

/-! ### What is looked up -/

/-- The text behind the first `Default`. -/
def behindMarker (text : List Byte) : Option (List Byte) :=
  (search defaultWord text).map fun t => t.drop defaultWord.length

/-- The first line `key=value` behind the marker. -/
def firstLine (key text : List Byte) : Option (List Byte) :=
  (behindMarker text).bind fun rest => (lines lineFeed rest).find? (key ++ [equals] <+: ·)

def valueOf (key line : List Byte) : List Byte := line.drop (key.length + 1)

def Stored (dest : ℕ → Byte) (destsize : ℕ) (value : List Byte) : Prop :=
  0 < destsize ∧ Lib.read dest (min value.length (destsize - 1) + 1) = value.take (destsize - 1) ++ [0]

/-- **The lookup is right**: it succeeds if there is a line, stores the value of the first one, and writes
nowhere but inside its buffers. -/
structure LooksUp (key text : List Byte) (destsize : ℕ) (bTrimSpace : Bool) (r : Looked) : Prop where
  succeeds : r.ret = true ↔ (firstLine key text).isSome = true
  stores : ∀ line, firstLine key text = some line → r.ret = true →
    Stored r.dest destsize (trim bTrimSpace (valueOf key line))
  inside : ∀ w ∈ r.writes, w.Inside destsize

/-- Line, value and key fit: memory is there if it is needed, the key fits the buffer that it is written to,
the line is shorter than its buffer and the value than the destination, and the key has no `=`. A key with a
line feed, which is in no line, is not in the text with `=` behind it, or what stands before its line feed
has no `=` and is shorter than a buffer. -/
structure Fits (bound : ℕ) (memory : Bool) (key text : List Byte) (destsize : ℕ) (bTrimSpace : Bool) :
    Prop where
  lineFits : ∀ line, firstLine key text = some line →
    memory = true ∧ equals ∉ key ∧ line.length < maxParamBufferSize ∧
      (trim bTrimSpace (valueOf key line)).length < destsize
  keyFits : memory = true → ∀ rest, behindMarker text = some rest → key.length + 3 ≤ bound
  feedFits : memory = true → lineFeed ∈ key → ∀ rest, behindMarker text = some rest → pattern key <:+: rest →
    equals ∉ lineOf lineFeed key ∧ (lineOf lineFeed key).length < maxParamBufferSize

/-! ### The searches -/

theorem rtstrstrLoop_eq {s2 : List Byte} (h : s2 ≠ []) (s1 : List Byte) : rtstrstrLoop s2 s1 = search s2 s1 := by
  induction s1 with
  | nil =>
    unfold rtstrstrLoop search
    rw [if_neg (by rwa [List.prefix_nil])]
  | cons c cs ih =>
    have hpre : (c :: cs).take s2.length = s2 ↔ s2 <+: c :: cs := by
      rw [List.prefix_iff_eq_take, eq_comm]
    rw [search_cons]
    unfold rtstrstrLoop
    split
    · simp only [hpre, ih]
    · next hshort =>
      have hno : ∀ t : List Byte, t.length < s2.length → search s2 t = none := by
        intro t ht
        rw [← Option.not_isSome_iff_eq_none, search_isSome_iff]
        exact fun hin => absurd hin.length_le (by omega)
      have hlt : (c :: cs).length < s2.length := by omega
      rw [if_neg (fun hin => absurd hin.length_le (by omega)), hno cs]
      rw [List.length_cons] at hlt
      omega

theorem rtstrstr_eq {s2 : List Byte} (h : s2 ≠ []) (s1 : List Byte) : rtstrstr s1 s2 = search s2 s1 := by
  unfold rtstrstr
  rw [if_neg (by rwa [List.length_eq_zero_iff]), rtstrstrLoop_eq h]

theorem upToEnd_eq (start : List Byte) : upToEnd start = lineOf lineFeed start := by
  unfold upToEnd lineOf
  rw [rtstrstr_eq (by simp), search_singleton]
  have hsplit := List.takeWhile_append_dropWhile (p := (· ≠ lineFeed)) (l := start)
  by_cases h : lineFeed ∈ start
  · rw [if_pos h]
    have hlen := congrArg List.length hsplit
    rw [List.length_append] at hlen
    have hpre := List.prefix_iff_eq_take.1 (List.takeWhile_prefix (· ≠ lineFeed) (l := start))
    simp only []
    rw [show start.length - (start.dropWhile (· ≠ lineFeed)).length =
      (start.takeWhile (· ≠ lineFeed)).length by omega]
    exact hpre.symm
  · rw [if_neg h]
    refine (List.takeWhile_eq_self_iff.2 fun c hc => ?_).symm
    simp only [ne_eq, decide_not, Bool.not_eq_eq_eq_not, Bool.not_true, decide_eq_false_iff_not]
    rintro rfl
    exact h hc

theorem search_section (key text : List Byte) :
    ((rtmpFindSection text).bind fun offset => rtstrstr offset (pattern key)) =
      (behindMarker text).bind fun rest => search (pattern key) rest := by
  unfold rtmpFindSection behindMarker
  rw [rtstrstr_eq (by decide)]
  cases hfind : search defaultWord text with
  | none => rfl
  | some t =>
    obtain ⟨rest, rfl⟩ := prefix_of_search hfind
    have hword : lineFeed ∉ defaultWord.tail := by decide
    have htail : (defaultWord ++ rest).tail = defaultWord.tail ++ rest := rfl
    have hdrop : (defaultWord ++ rest).drop defaultWord.length = rest := List.drop_left
    simp only [Option.map_some, Option.bind_some]
    rw [htail, hdrop, rtstrstr_eq (by simp [pattern])]
    exact search_append hword _ _

/-! ### What the functions do -/

/-- What is behind the first `=` of a line. -/
def behindEquals (line : List Byte) : List Byte := (line.dropWhile (· ≠ equals)).tail

def Refuses (destsize : ℕ) (r : Looked) : Prop := r.ret = false ∧ ∀ w ∈ r.writes, w.Inside destsize

/-- A value was taken from a text that goes on with `start`. -/
structure Takes (dest : ℕ → Byte) (destsize : ℕ) (start : List Byte) (bTrimSpace : Bool) (fits : Prop)
    (r : Looked) : Prop where
  ret : r.ret = true ↔ equals ∈ lineOf lineFeed start
  dest : r.ret = true → r.dest = fun i =>
    if i < destsize then (trim bTrimSpace (behindEquals (lineOf lineFeed start))).getD i 0 else dest i
  inside : (∀ w ∈ r.writes, w.Inside destsize) ↔ fits ∧ (lineOf lineFeed start).length < maxParamBufferSize

/-- What a lookup does, by what it comes to: `bound` is the room for the key. -/
inductive Follows (bound : ℕ) (memory : Bool) (key text : List Byte) (dest : ℕ → Byte) (destsize : ℕ)
    (bTrimSpace : Bool) (r : Looked) : Prop
  | noMemory (hmemory : memory = false) (h : Refuses destsize r)
  | noMarker (hmemory : memory = true) (hmarker : behindMarker text = none) (h : Refuses destsize r)
  | noLine (hmemory : memory = true) {rest : List Byte} (hmarker : behindMarker text = some rest)
      (hsearch : search (pattern key) rest = none) (hret : r.ret = false)
      (hinside : (∀ w ∈ r.writes, w.Inside destsize) ↔ key.length + 3 ≤ bound)
  | line (hmemory : memory = true) {rest start : List Byte} (hmarker : behindMarker text = some rest)
      (hsearch : search (pattern key) rest = some (lineFeed :: start))
      (h : Takes dest destsize start bTrimSpace (key.length + 3 ≤ bound) r)

theorem rtstrstr_equals (line : List Byte) :
    rtstrstr line [equals] = if equals ∈ line then some (line.dropWhile (· ≠ equals)) else none := by
  rw [rtstrstr_eq (by simp), search_singleton]

theorem strncpy_memset (dest : ℕ → Byte) {destsize n len : ℕ} {value : List Byte} (hlen : value.length ≤ len)
    (hn : n = if len ≥ destsize then destsize else len) :
    strncpy (memset dest destsize) value n =
      fun i => if i < destsize then value.getD i 0 else dest i := by
  funext i
  unfold strncpy memset
  split_ifs at hn with hge
  · subst hn
    split_ifs <;> rfl
  · subst hn
    by_cases hi : i < n
    · rw [if_pos hi, if_pos (by omega)]
    · rw [if_neg hi]
      split_ifs with hlt
      · exact (List.getD_eq_default value 0 (by omega)).symm
      · rfl

theorem length_trim_le (bTrimSpace : Bool) (s : List Byte) : (trim bTrimSpace s).length ≤ s.length :=
  (List.dropWhile_sublist _).length_le

theorem length_behindEquals_lt {line : List Byte} (h : equals ∈ line) :
    (behindEquals line).length < (line.dropWhile (· ≠ equals)).length ∧
      (line.dropWhile (· ≠ equals)).length ≤ line.length := by
  refine ⟨?_, (List.dropWhile_sublist _).length_le⟩
  have hne : line.dropWhile (· ≠ equals) ≠ [] := by
    rw [Ne, List.dropWhile_eq_nil_iff]
    intro hall
    simpa using hall equals h
  have hpos := List.length_pos_iff.2 hne
  rw [behindEquals, List.length_tail]
  omega

theorem dest_inside (destsize len : ℕ) :
    ∀ w ∈ [(⟨.dest, 0, destsize⟩ : Write), ⟨.dest, 0, if len ≥ destsize then destsize else len⟩],
      w.Inside destsize := by
  simp only [List.forall_mem_cons, Write.Inside, Buf.size]
  refine ⟨by omega, ?_, List.forall_mem_nil _⟩
  split_ifs <;> omega

theorem takes_takeValue (dest : ℕ → Byte) (destsize : ℕ) (start : List Byte) (bTrimSpace : Bool)
    (writes : List Write) :
    Takes dest destsize start bTrimSpace (∀ w ∈ writes, w.Inside destsize)
      (takeValue dest destsize start bTrimSpace writes) := by
  unfold takeValue
  simp only [upToEnd_eq, rtstrstr_equals]
  have hline : (∀ w ∈ [(⟨.pMemBuf, maxParamBufferSize, (lineOf lineFeed start).length⟩ : Write),
      ⟨.pMemBuf, maxParamBufferSize + (lineOf lineFeed start).length, 1⟩], w.Inside destsize) ↔
      (lineOf lineFeed start).length < maxParamBufferSize := by
    simp only [List.forall_mem_cons, Write.Inside, Buf.size, maxParamBufferSize]
    constructor
    · rintro ⟨-, h, -⟩
      omega
    · intro h
      exact ⟨by omega, by omega, List.forall_mem_nil _⟩
  by_cases h : equals ∈ lineOf lineFeed start
  · have hlen := length_behindEquals_lt h
    rw [if_pos h]
    refine ⟨iff_of_true rfl h, fun _ => strncpy_memset dest ?_ rfl, ?_⟩
    · exact (length_trim_le _ _).trans hlen.1.le
    · rw [List.forall_mem_append, List.forall_mem_append, hline]
      exact and_iff_left (dest_inside destsize _)
  · rw [if_neg h]
    refine ⟨iff_of_false (by simp) h, fun hno => absurd hno (by simp), ?_⟩
    rw [List.forall_mem_append, hline]

theorem takes_takeValueWithOffset (dest : ℕ → Byte) (destsize : ℕ) (start : List Byte) (bTrimSpace : Bool)
    (writes : List Write) :
    Takes dest destsize start bTrimSpace (∀ w ∈ writes, w.Inside destsize)
      (takeValueWithOffset dest destsize start bTrimSpace writes) := by
  unfold takeValueWithOffset
  simp only [upToEnd_eq, rtstrstr_equals]
  have hline : (∀ w ∈ [(⟨.tempBuf2, 0, (lineOf lineFeed start).length⟩ : Write),
      ⟨.tempBuf2, (lineOf lineFeed start).length, 1⟩, ⟨.tempBuf1, 0, (lineOf lineFeed start).length + 1⟩],
      w.Inside destsize) ↔ (lineOf lineFeed start).length < maxParamBufferSize := by
    simp only [List.forall_mem_cons, Write.Inside, Buf.size, maxParamBufferSize]
    constructor
    · rintro ⟨-, h, -⟩
      omega
    · intro h
      exact ⟨by omega, by omega, by omega, List.forall_mem_nil _⟩
  by_cases h : equals ∈ lineOf lineFeed start
  · have hlen := length_behindEquals_lt h
    rw [if_pos h]
    refine ⟨iff_of_true rfl h, fun _ => strncpy_memset dest le_rfl rfl, ?_⟩
    simp only [List.forall_mem_append, hline]
    constructor
    · rintro ⟨⟨hin, -⟩, -⟩
      exact hin
    · rintro ⟨hin, hlt⟩
      refine ⟨⟨⟨hin, hlt⟩, ?_⟩, dest_inside destsize _⟩
      simp only [List.forall_mem_cons, Write.Inside, Buf.size]
      refine ⟨?_, List.forall_mem_nil _⟩
      have hshort := hlen.1
      rw [behindEquals] at hshort
      omega
  · rw [if_neg h]
    refine ⟨iff_of_false (by simp) h, fun hno => absurd hno (by simp), ?_⟩
    rw [List.forall_mem_append, hline]

theorem patternWrites_inside (buf : Buf) (key : List Byte) {destsize : ℕ} (hsize : 2 ≤ buf.size destsize) :
    (∀ w ∈ patternWrites buf key, w.Inside destsize) ↔ key.length + 3 ≤ buf.size destsize := by
  simp only [patternWrites, List.forall_mem_cons, Write.Inside]
  constructor
  · rintro ⟨-, -, h, -⟩
    omega
  · intro h
    exact ⟨by omega, by omega, by omega, List.forall_mem_nil _⟩

section follows

variable (key text : List Byte) (dest : ℕ → Byte) (destsize : ℕ) (bTrimSpace : Bool)

theorem search_cases : (rtmpFindSection text = none ∧ behindMarker text = none) ∨
    ∃ offset rest, rtmpFindSection text = some offset ∧ behindMarker text = some rest ∧
      rtstrstr offset (pattern key) = search (pattern key) rest := by
  have hboth := search_section key text
  unfold rtmpFindSection behindMarker at hboth ⊢
  rw [rtstrstr_eq (by decide)] at hboth ⊢
  cases hfind : search defaultWord text with
  | none => exact Or.inl ⟨rfl, rfl⟩
  | some t =>
    rw [hfind] at hboth
    exact Or.inr ⟨_, _, rfl, rfl, hboth⟩

theorem search_pattern {rest t : List Byte} (h : search (pattern key) rest = some t) : t = lineFeed :: t.tail := by
  obtain ⟨u, rfl⟩ := prefix_of_search h
  rfl

theorem follows_rtmpGetKeyParameter (memory : Bool) :
    Follows (maxParamBufferSize * 2) memory key text dest destsize bTrimSpace
      (rtmpGetKeyParameter memory key dest destsize text bTrimSpace) := by
  have hfirst : ∀ w ∈ [(⟨.pMemBuf, 0, maxParamBufferSize * 2⟩ : Write), ⟨.sectionBuf, 0, 8⟩],
      w.Inside destsize := by
    simp [Write.Inside, Buf.size]
  have hkey : (∀ w ∈ [(⟨.pMemBuf, 0, maxParamBufferSize * 2⟩ : Write), ⟨.sectionBuf, 0, 8⟩] ++
      patternWrites .pMemBuf key, w.Inside destsize) ↔ key.length + 3 ≤ maxParamBufferSize * 2 := by
    rw [List.forall_mem_append, patternWrites_inside .pMemBuf key (show 2 ≤ maxParamBufferSize * 2 by decide)]
    exact and_iff_right hfirst
  cases memory with
  | false => exact .noMemory rfl ⟨rfl, List.forall_mem_nil _⟩
  | true =>
    unfold rtmpGetKeyParameter
    rw [if_neg (by simp)]
    rcases search_cases key text with ⟨hsection, hmarker⟩ | ⟨offset, rest, hsection, hmarker, hsearch⟩
    · rw [hsection]
      exact .noMarker rfl hmarker ⟨rfl, hfirst⟩
    · rw [hsection]
      simp only []
      cases hfound : rtstrstr offset (pattern key) with
      | none => exact .noLine rfl hmarker (hsearch.symm.trans hfound) rfl hkey
      | some t =>
        have hstart := hsearch.symm.trans hfound
        have ht := search_pattern key hstart
        rw [ht] at hstart
        have htakes := takes_takeValue dest destsize t.tail bTrimSpace
          ([(⟨.pMemBuf, 0, maxParamBufferSize * 2⟩ : Write), ⟨.sectionBuf, 0, 8⟩] ++ patternWrites .pMemBuf key)
        rw [hkey] at htakes
        exact .line rfl hmarker hstart htakes

theorem follows_rtmpGetKeyParameterWithOffset (memory1 memory2 : Bool) :
    Follows maxParamBufferSize (memory1 && memory2) key text dest destsize bTrimSpace
      (rtmpGetKeyParameterWithOffset memory1 memory2 key dest 0 destsize text bTrimSpace).1 := by
  have hfirst : ∀ w ∈ [(⟨.sectionBuf, 0, 8⟩ : Write)], w.Inside destsize := by
    simp [Write.Inside, Buf.size]
  have hkey : (∀ w ∈ [(⟨.sectionBuf, 0, 8⟩ : Write)] ++ patternWrites .tempBuf1 key, w.Inside destsize) ↔
      key.length + 3 ≤ maxParamBufferSize := by
    rw [List.forall_mem_append, patternWrites_inside .tempBuf1 key (show 2 ≤ maxParamBufferSize by decide)]
    exact and_iff_right hfirst
  unfold rtmpGetKeyParameterWithOffset
  rw [if_neg (by decide)]
  by_cases hmemory : memory1 = false ∨ memory2 = false
  · rw [if_pos hmemory]
    refine .noMemory ?_ ⟨rfl, List.forall_mem_nil _⟩
    rcases hmemory with rfl | rfl
    · rfl
    · exact Bool.and_false _
  · have hboth : (memory1 && memory2) = true := by simpa using hmemory
    rw [if_neg hmemory, if_pos rfl, if_pos rfl]
    rcases search_cases key text with ⟨hsection, hmarker⟩ | ⟨offset, rest, hsection, hmarker, hsearch⟩
    · rw [hsection]
      exact .noMarker hboth hmarker ⟨rfl, hfirst⟩
    · rw [hsection]
      simp only []
      cases hfound : rtstrstr offset (pattern key) with
      | none => exact .noLine hboth hmarker (hsearch.symm.trans hfound) rfl hkey
      | some t =>
        have hstart := hsearch.symm.trans hfound
        have ht := search_pattern key hstart
        rw [ht] at hstart
        have htakes := takes_takeValueWithOffset dest destsize t.tail bTrimSpace
          ([(⟨.sectionBuf, 0, 8⟩ : Write)] ++ patternWrites .tempBuf1 key)
        rw [hkey] at htakes
        exact .line hboth hmarker hstart htakes

end follows

/-! ### Values -/

theorem length_lt_trim (bTrimSpace : Bool) (xs value : List Byte) :
    value.length < (trim bTrimSpace (xs ++ equals :: value)).length := by
  unfold trim
  induction xs with
  | nil =>
    rw [List.nil_append, List.dropWhile_cons_of_neg (by decide +revert)]
    exact Nat.lt_succ_self _
  | cons c xs ih =>
    rw [List.cons_append, List.dropWhile_cons]
    split_ifs
    · exact ih
    · simp only [List.length_cons, List.length_append]
      omega

theorem length_le_of_stored {dest d : ℕ → Byte} {destsize : ℕ} {x y : List Byte} (hx : 0 ∉ x)
    (hd : dest = fun i => if i < destsize then x.getD i 0 else d i) (h : Stored dest destsize y) :
    x.length ≤ y.length ∧ x.length < destsize := by
  obtain ⟨hpos, hread⟩ := h
  have hget := congrArg (fun l => l.getD (min y.length (destsize - 1)) 0) hread
  have hlen : (y.take (destsize - 1)).length = min y.length (destsize - 1) := by
    rw [List.length_take, min_comm]
  have hnul : dest (min y.length (destsize - 1)) = 0 := by
    simp only [Lib.read, List.getD_eq_getElem?_getD, List.getElem?_map,
      List.getElem?_range (Nat.lt_succ_self _), Option.map_some, Option.getD_some] at hget
    rw [hget, List.getElem?_append_right hlen.le, hlen, Nat.sub_self]
    rfl
  rw [hd] at hnul
  simp only [] at hnul
  rw [if_pos (by omega)] at hnul
  by_contra hlong
  have hlt : min y.length (destsize - 1) < x.length := by omega
  rw [List.getD_eq_getElem _ _ hlt] at hnul
  exact hx (hnul ▸ List.getElem_mem hlt)

theorem stored_iff {dest d : ℕ → Byte} {destsize : ℕ} {x : List Byte} (hx : 0 ∉ x)
    (hd : dest = fun i => if i < destsize then x.getD i 0 else d i) :
    Stored dest destsize x ↔ x.length < destsize := by
  refine ⟨fun h => (length_le_of_stored hx hd h).2, fun h => ⟨by omega, ?_⟩⟩
  have hmin : min x.length (destsize - 1) = x.length := by omega
  rw [hmin, List.take_of_length_le (by omega)]
  apply List.ext_getElem
  · simp [length_read]
  · intro i hi _
    rw [length_read] at hi
    have hget : dest i = x.getD i 0 := by
      rw [hd]
      simp only []
      rw [if_pos (by omega)]
    simp only [Lib.read, List.getElem_map, List.getElem_range, hget, List.getElem_append]
    split
    · next hlt => exact List.getD_eq_getElem _ _ hlt
    · next hge =>
      rw [List.getD_eq_default x 0 (by omega)]
      simp

theorem behindEquals_append {key : List Byte} (h : equals ∉ key) (value : List Byte) :
    behindEquals (key ++ equals :: value) = value := by
  unfold behindEquals
  rw [List.dropWhile_append_of_pos]
  · simp
  · intro c hc
    simp only [ne_eq, decide_not, Bool.not_eq_eq_eq_not, Bool.not_true, decide_eq_false_iff_not]
    rintro rfl
    exact h hc

theorem exists_behindEquals {key : List Byte} (h : equals ∈ key) (value : List Byte) :
    ∃ xs, behindEquals (key ++ equals :: value) = xs ++ equals :: value := by
  unfold behindEquals
  induction key with
  | nil => exact absurd h List.not_mem_nil
  | cons c key ih =>
    rw [List.cons_append, List.dropWhile_cons]
    by_cases hc : c = equals
    · exact ⟨key, by simp [hc]⟩
    · simpa [hc] using ih ((List.mem_cons.1 h).resolve_left (Ne.symm hc))

/-! ### When a lookup is right -/

section iff

variable {bound : ℕ} {memory : Bool} {key text : List Byte} {dest : ℕ → Byte} {destsize : ℕ}
  {bTrimSpace : Bool} {r : Looked} {rest start line : List Byte}

theorem firstLine_eq (hkey : lineFeed ∉ key) (hmarker : behindMarker text = some rest) :
    firstLine key text = (search (pattern key) rest).map fun t => lineOf lineFeed t.tail := by
  have hpattern : lineFeed ∉ key ++ [equals] := by
    rw [List.mem_append, not_or]
    exact ⟨hkey, by decide⟩
  unfold firstLine pattern
  rw [hmarker, Option.bind_some, search_cons_eq_find? hpattern]

theorem firstLine_of_mem (hkey : lineFeed ∈ key) : firstLine key text = none := by
  unfold firstLine
  rw [Option.bind_eq_none_iff]
  intro rest _
  rw [List.find?_eq_none]
  intro line hline hpre
  have hpre' : key ++ [equals] <+: line := by simpa using hpre
  exact not_mem_of_mem_lines hline (hpre'.subset (List.mem_append_left _ hkey))

theorem line_of_search (hkey : lineFeed ∉ key) (hsearch : search (pattern key) rest = some (lineFeed :: start)) :
    lineOf lineFeed start = key ++ equals :: valueOf key (lineOf lineFeed start) := by
  have hpre : key ++ [equals] <+: start := (List.cons_prefix_cons.1 (prefix_of_search hsearch)).2
  have hpattern : lineFeed ∉ key ++ [equals] := by
    rw [List.mem_append, not_or]
    exact ⟨hkey, by decide⟩
  obtain ⟨value, hvalue⟩ := (prefix_lineOf_iff hpattern).2 hpre
  have hsplit : lineOf lineFeed start = key ++ equals :: value := by
    rw [← hvalue]
    simp
  rw [hsplit]
  unfold valueOf
  simp

theorem noNul_behindEquals (htext : 0 ∉ text) (hmarker : behindMarker text = some rest)
    (hsearch : search (pattern key) rest = some (lineFeed :: start)) :
    0 ∉ trim bTrimSpace (behindEquals (lineOf lineFeed start)) := by
  intro hmem
  have hline : 0 ∈ lineOf lineFeed start :=
    (List.dropWhile_sublist _).subset (List.mem_of_mem_tail ((List.dropWhile_sublist _).subset hmem))
  have hstart : 0 ∈ lineFeed :: start := List.mem_cons_of_mem _ ((List.takeWhile_sublist _).subset hline)
  have hrest : 0 ∈ rest := (suffix_of_search hsearch).subset hstart
  unfold behindMarker at hmarker
  obtain ⟨t, ht, rfl⟩ := Option.map_eq_some_iff.1 hmarker
  exact htext ((suffix_of_search ht).subset (List.mem_of_mem_drop hrest))

theorem looksUp_iff_of_line (htext : 0 ∉ text) (hkey : lineFeed ∉ key) (hmarker : behindMarker text = some rest)
    (hsearch : search (pattern key) rest = some (lineFeed :: start))
    (h : Takes dest destsize start bTrimSpace (key.length + 3 ≤ bound) r) :
    LooksUp key text destsize bTrimSpace r ↔ key.length + 3 ≤ bound ∧ equals ∉ key ∧
      (lineOf lineFeed start).length < maxParamBufferSize ∧
      (trim bTrimSpace (valueOf key (lineOf lineFeed start))).length < destsize := by
  have hfirst : firstLine key text = some (lineOf lineFeed start) := by
    rw [firstLine_eq hkey hmarker, hsearch]
    rfl
  have hline := line_of_search hkey hsearch
  have hret : r.ret = true := by
    rw [h.ret, hline]
    simp
  have hnul := @noNul_behindEquals key text bTrimSpace rest start htext hmarker hsearch
  have hdest := h.dest hret
  have hstored : Stored r.dest destsize (trim bTrimSpace (valueOf key (lineOf lineFeed start))) ↔
      equals ∉ key ∧ (trim bTrimSpace (valueOf key (lineOf lineFeed start))).length < destsize := by
    by_cases hequals : equals ∈ key
    · refine iff_of_false (fun hstored => ?_) fun hno => hno.1 hequals
      obtain ⟨xs, hxs⟩ := exists_behindEquals hequals (valueOf key (lineOf lineFeed start))
      have hle := (length_le_of_stored hnul hdest hstored).1
      rw [hline, hxs, ← hline] at hle
      have hlt := length_lt_trim bTrimSpace xs (valueOf key (lineOf lineFeed start))
      have htrim := length_trim_le bTrimSpace (valueOf key (lineOf lineFeed start))
      omega
    · have hvalue : behindEquals (lineOf lineFeed start) = valueOf key (lineOf lineFeed start) := by
        rw [hline, behindEquals_append hequals, ← hline]
      rw [hvalue] at hnul hdest
      rw [stored_iff hnul hdest]
      exact (and_iff_right hequals).symm
  constructor
  · intro hlooks
    have hfits := h.inside.1 hlooks.inside
    obtain ⟨hno, hroom⟩ := hstored.1 (hlooks.stores _ hfirst hret)
    exact ⟨hfits.1, hno, hfits.2, hroom⟩
  · rintro ⟨hfits, hno, hlen, hroom⟩
    refine ⟨iff_of_true hret (by rw [hfirst]; rfl), fun line hl _ => ?_, h.inside.2 ⟨hfits, hlen⟩⟩
    obtain rfl := Option.some.inj (hfirst.symm.trans hl)
    exact hstored.2 ⟨hno, hroom⟩

theorem looksUp_iff_of_feed (hkey : lineFeed ∈ key) (hsearch : search (pattern key) rest = some (lineFeed :: start))
    (h : Takes dest destsize start bTrimSpace (key.length + 3 ≤ bound) r) :
    LooksUp key text destsize bTrimSpace r ↔ key.length + 3 ≤ bound ∧ equals ∉ lineOf lineFeed key ∧
      (lineOf lineFeed key).length < maxParamBufferSize := by
  have hfirst : firstLine key text = none := firstLine_of_mem hkey
  have hpre : key <+: start :=
    (List.prefix_append key [equals]).trans (List.cons_prefix_cons.1 (prefix_of_search hsearch)).2
  have hline : lineOf lineFeed start = lineOf lineFeed key := lineOf_of_prefix hkey hpre
  have hret := h.ret
  have hinside := h.inside
  rw [hline] at hret hinside
  constructor
  · intro hlooks
    have hfits := hinside.1 hlooks.inside
    refine ⟨hfits.1, fun hmem => ?_, hfits.2⟩
    have hsome := hlooks.succeeds.1 (hret.2 hmem)
    rw [hfirst] at hsome
    exact absurd hsome (by simp)
  · rintro ⟨hfits, hno, hlen⟩
    refine ⟨iff_of_false (fun hr => hno (hret.1 hr)) (by rw [hfirst]; simp), fun line hl => ?_,
      hinside.2 ⟨hfits, hlen⟩⟩
    rw [hfirst] at hl
    exact absurd hl (by simp)

theorem looksUp_of_none (hfirst : firstLine key text = none) (hret : r.ret = false)
    (hinside : ∀ w ∈ r.writes, w.Inside destsize) : LooksUp key text destsize bTrimSpace r := by
  refine ⟨iff_of_false (by simp [hret]) (by simp [hfirst]), fun line hl => ?_, hinside⟩
  rw [hfirst] at hl
  exact absurd hl (by simp)

theorem looksUp_iff_of_follows (htext : 0 ∉ text) (h : Follows bound memory key text dest destsize bTrimSpace r) :
    LooksUp key text destsize bTrimSpace r ↔ Fits bound memory key text destsize bTrimSpace := by
  cases h with
  | noMemory hmemory h =>
    obtain ⟨hret, hinside⟩ := h
    constructor
    · intro hlooks
      refine ⟨fun line hl => ?_, fun hno => absurd hno (by simp [hmemory]),
        fun hno => absurd hno (by simp [hmemory])⟩
      have htrue := hlooks.succeeds.2 (by rw [hl]; rfl)
      rw [hret] at htrue
      exact absurd htrue (by simp)
    · intro hfits
      refine looksUp_of_none ?_ hret hinside
      rw [Option.eq_none_iff_forall_not_mem]
      intro line hl
      have htrue := (hfits.lineFits line hl).1
      rw [hmemory] at htrue
      exact absurd htrue (by simp)
  | noMarker hmemory hmarker h =>
    have hfirst : firstLine key text = none := by
      unfold firstLine
      rw [hmarker]
      rfl
    refine iff_of_true (looksUp_of_none hfirst h.1 h.2) ⟨fun line hl => ?_, fun _ rest hrest => ?_,
      fun _ _ rest hrest => ?_⟩
    · rw [hfirst] at hl
      exact absurd hl (by simp)
    · rw [hmarker] at hrest
      exact absurd hrest (by simp)
    · rw [hmarker] at hrest
      exact absurd hrest (by simp)
  | @noLine hmemory rest hmarker hsearch hret hinside =>
    have hfirst : firstLine key text = none := by
      by_cases hkey : lineFeed ∈ key
      · exact firstLine_of_mem hkey
      · rw [firstLine_eq hkey hmarker, hsearch]
        rfl
    constructor
    · intro hlooks
      refine ⟨fun line hl => ?_, fun _ _ _ => hinside.1 hlooks.inside, fun _ _ rest' hrest' hin => ?_⟩
      · rw [hfirst] at hl
        exact absurd hl (by simp)
      · obtain rfl := Option.some.inj (hmarker.symm.trans hrest')
        have hsome := (search_isSome_iff _ _).2 hin
        rw [hsearch] at hsome
        exact absurd hsome (by simp)
    · exact fun hfits => looksUp_of_none hfirst hret (hinside.2 (hfits.keyFits hmemory rest hmarker))
  | @line hmemory rest start hmarker hsearch h =>
    have hin : pattern key <:+: rest := by
      rw [← search_isSome_iff, hsearch]
      rfl
    by_cases hkey : lineFeed ∈ key
    · rw [looksUp_iff_of_feed hkey hsearch h]
      constructor
      · rintro ⟨hbound, hfeed⟩
        refine ⟨fun line hl => ?_, fun _ _ _ => hbound, fun _ _ _ _ _ => hfeed⟩
        rw [firstLine_of_mem hkey] at hl
        exact absurd hl (by simp)
      · exact fun hfits => ⟨hfits.keyFits hmemory rest hmarker, hfits.feedFits hmemory hkey rest hmarker hin⟩
    · have hfirst : firstLine key text = some (lineOf lineFeed start) := by
        rw [firstLine_eq hkey hmarker, hsearch]
        rfl
      rw [looksUp_iff_of_line htext hkey hmarker hsearch h]
      constructor
      · rintro ⟨hbound, hno, hlen, hroom⟩
        refine ⟨fun line hl => ?_, fun _ _ _ => hbound, fun _ hfeed => absurd hfeed hkey⟩
        obtain rfl := Option.some.inj (hfirst.symm.trans hl)
        exact ⟨hmemory, hno, hlen, hroom⟩
      · intro hfits
        obtain ⟨-, hno, hlen, hroom⟩ := hfits.lineFits _ hfirst
        exact ⟨hfits.keyFits hmemory rest hmarker, hno, hlen, hroom⟩

end iff

/-- **Looking up a key.** Both functions are right exactly where the line, the value and the key fit; the key
has the room of both buffers in `RTMPGetKeyParameter`, and of one in the other. -/
theorem looksUpKey_iff (key text : CString) (dest : ℕ → Byte) (destsize : ℕ) (bTrimSpace : Bool)
    (memory memory1 memory2 : Bool) :
    (LooksUp key.octets text.octets destsize bTrimSpace
        (rtmpGetKeyParameter memory key.octets dest destsize text.octets bTrimSpace) ↔
      Fits (maxParamBufferSize * 2) memory key.octets text.octets destsize bTrimSpace) ∧
    (LooksUp key.octets text.octets destsize bTrimSpace
        (rtmpGetKeyParameterWithOffset memory1 memory2 key.octets dest 0 destsize text.octets bTrimSpace).1 ↔
      Fits maxParamBufferSize (memory1 && memory2) key.octets text.octets destsize bTrimSpace) :=
  ⟨looksUp_iff_of_follows text.noNul (follows_rtmpGetKeyParameter _ _ _ _ _ _),
    looksUp_iff_of_follows text.noNul (follows_rtmpGetKeyParameterWithOffset _ _ _ _ _ _ _)⟩

/-- `"Default\nSSID=abcd"`. -/
def sampleText : CString where
  octets := [68, 101, 102, 97, 117, 108, 116, 10, 83, 83, 73, 68, 61, 97, 98, 99, 100]
  noNul := by decide

/-- `"SSID"`. -/
def sampleKey : CString where
  octets := [83, 83, 73, 68]
  noNul := by decide

/-- Four octets are no room for four letters and a NUL. -/
theorem not_looksUp_four :
    ¬LooksUp sampleKey.octets sampleText.octets 4 false
      (rtmpGetKeyParameter true sampleKey.octets (fun _ => 0) 4 sampleText.octets false) := by
  intro h
  have hstored := h.stores [83, 83, 73, 68, 61, 97, 98, 99, 100] (by decide) (by decide)
  exact absurd hstored.2 (by decide)

end Mt7610u.Profile
