import Qsmp.Server.Connections
/-!
# The laws of the connection table

The functions of the table in any order, and the callers' writes between
them, keep two facts: the length is within the maximum, and the record of
slot `i` bears the number `i`, as far as 32 bits count. On a table of no
more than `2^32` slots these make the functions do what they are for.
-/

namespace Qsmp

/-- An operation on the table. A caller may write to a record, but not its
instance number. -/
inductive TableOp where
  | initializes (count maximum : ℕ)
  | nexts
  | adds
  | resets (instanceCount : UInt32)
  | clears
  | disposes
  | writes (slot : ℕ) (cns : QsmpConnectionState)

/-- The table after an operation. -/
def TableOp.step (set : QsmpConnectionSet) : TableOp → QsmpConnectionSet
  | initializes count maximum => qsmpConnectionsInitialize set count maximum
  | nexts => (qsmpConnectionsNext set).1
  | adds => (qsmpConnectionsAdd set).1
  | resets instanceCount => qsmpConnectionsReset set instanceCount
  | clears => qsmpConnectionsClear set
  | disposes => qsmpConnectionsDispose
  | writes slot cns => set.modify slot fun r => { cns with instanceCount := r.instanceCount }

namespace QsmpConnectionSet

variable {set set' : QsmpConnectionSet} {i j k : ℕ}

/-- The table after a sequence of operations on the static variable, which
is zero at first. -/
def run (ops : List TableOp) : QsmpConnectionSet := ops.foldl TableOp.step qsmpConnectionsDispose

/-! ## The laws -/

/-- **Slot `k` is handed out** between two tables: it was not active, and is
now; it is a slot of the table, left as it was, if one was not active, and
otherwise a new one, cleared; no other slot changes. -/
structure HandsOut (set set' : QsmpConnectionSet) (k : ℕ) : Prop where
  free : qsmpConnectionsActive set k = false
  old : (∃ i < set.length, qsmpConnectionsActive set i = false) →
    set'.length = set.length ∧ k < set.length ∧
      qsmpConnectionsIndex set' k = qsmpConnectionsIndex set k
  new : (∀ i < set.length, qsmpConnectionsActive set i = true) →
    set'.length = set.length + 1 ∧ k = set.length ∧
      qsmpConnectionsIndex set' k = some (.cleared k)
  marked : ∀ i, qsmpConnectionsActive set' i = true ↔ qsmpConnectionsActive set i = true ∨ i = k
  others : ∀ i, i ≠ k → qsmpConnectionsIndex set' i = qsmpConnectionsIndex set i
  maximum : set'.maximum = set.maximum

/-- **The law of `qsmp_connections_next`**: it hands out nothing, and changes
nothing, just if as many slots as there may be are active. -/
structure NextLaw (set : QsmpConnectionSet) : Prop where
  none_iff : (qsmpConnectionsNext set).2 = none ↔
    ∀ i < set.maximum, qsmpConnectionsActive set i = true
  unchanged : (qsmpConnectionsNext set).2 = none → (qsmpConnectionsNext set).1 = set
  handed : ∀ k, (qsmpConnectionsNext set).2 = some k →
    set.HandsOut (qsmpConnectionsNext set).1 k

/-- **The law of `qsmp_connections_reset`**: exactly the slot with the number
is freed, if there is one, and once is as good as twice. -/
structure ResetLaw (set : QsmpConnectionSet) : Prop where
  frees : ∀ n : UInt32, n.toNat < set.length →
    set.Frees (qsmpConnectionsReset set n) n.toNat ∧
      (qsmpConnectionsReset set n).maximum = set.maximum
  absent : ∀ n : UInt32, set.length ≤ n.toNat → qsmpConnectionsReset set n = set
  idempotent : ∀ n : UInt32,
    qsmpConnectionsReset (qsmpConnectionsReset set n) n = qsmpConnectionsReset set n

/-- **The laws of the table.** -/
structure Laws (set : QsmpConnectionSet) : Prop where
  length_le : set.length ≤ set.maximum
  number : ∀ i r, qsmpConnectionsIndex set i = some r → r.instanceCount.toNat = i
  index_none : ∀ i, qsmpConnectionsIndex set i = none ↔ set.length ≤ i
  get_eq : ∀ n : UInt32,
    qsmpConnectionsGet set n = if n.toNat < set.length then some n.toNat else none
  next : set.NextLaw
  reset : set.ResetLaw
  available : qsmpConnectionsAvailable set =
    (List.range set.length).countP fun i => qsmpConnectionsActive set i = false
  full : qsmpConnectionsFull set = true ↔ qsmpConnectionsAvailable set = 0

/-! ## What every operation keeps -/

/-- **The invariant of the table.** -/
structure Sound (set : QsmpConnectionSet) : Prop where
  length_le : set.length ≤ set.maximum
  numbered : set.Numbered

theorem Numbered.activated (h : set.Numbered) : (set.activated k).Numbered := h

theorem numbered_clear : (qsmpConnectionsClear set).Numbered := by
  intro i r hr
  simp only [qsmpConnectionsIndex, qsmpConnectionsClear, List.getElem?_map] at hr
  obtain ⟨j, hj, rfl⟩ := Option.map_eq_some_iff.1 hr
  obtain ⟨hlt, hji⟩ := List.getElem?_eq_some_iff.1 hj
  rw [List.getElem_range] at hji
  rw [← hji]
  rfl

theorem length_clear : (qsmpConnectionsClear set).length = set.length := by
  rw [length, qsmpConnectionsClear, List.length_map, List.length_range]

theorem Sound.add (h : set.Sound) : (qsmpConnectionsAdd set).1.Sound := by
  rw [qsmpConnectionsAdd]
  split
  · rename_i hroom
    refine ⟨?_, h.numbered.extended⟩
    rw [length_extended]
    exact hroom
  · exact h

theorem Sound.freed (h : set.Sound) : (set.freed k).Sound :=
  ⟨length_freed.trans_le h.length_le, h.numbered.freed⟩

theorem Sound.step (h : set.Sound) (op : TableOp) : (op.step set).Sound := by
  cases op with
  | initializes count maximum =>
    refine ⟨?_, numbered_initialized h.numbered⟩
    by_cases hargs : count ≠ 0 ∧ maximum ≠ 0 ∧ count ≤ maximum
    · rw [TableOp.step, length_initialized hargs, maximum_initialized hargs]
      exact hargs.2.2
    · rw [TableOp.step, qsmpConnectionsInitialize, if_neg hargs]
      exact h.length_le
  | nexts =>
    rcases next_cases set with ⟨k, -, -, -, heq⟩ | ⟨-, hroom, heq⟩ | ⟨-, -, heq⟩
    · rw [TableOp.step, heq]
      exact ⟨h.length_le, h.numbered⟩
    · rw [TableOp.step, heq]
      refine ⟨?_, h.numbered.extended⟩
      rw [length_extended]
      exact hroom
    · rw [TableOp.step, heq]
      exact h
  | adds => exact h.add
  | resets n =>
    rw [TableOp.step, qsmpConnectionsReset]
    split
    · exact h.freed
    · exact h
  | clears => exact ⟨length_clear.trans_le h.length_le, numbered_clear⟩
  | disposes => exact ⟨le_rfl, numbered_dispose⟩
  | writes slot cns =>
    exact ⟨length_modify.trans_le h.length_le, h.numbered.modify fun _ _ => rfl⟩

/-- **Every table that is reached is sound.** -/
theorem sound_run (ops : List TableOp) : (run ops).Sound := by
  have hfold : ∀ set : QsmpConnectionSet, set.Sound → (ops.foldl TableOp.step set).Sound := by
    induction ops with
    | nil => exact fun _ h => h
    | cons op ops ih => exact fun set h => ih _ (h.step op)
  exact hfold _ ⟨le_rfl, numbered_dispose⟩

/-! ## The laws of a sound table -/

theorem index_eq_none : qsmpConnectionsIndex set i = none ↔ set.length ≤ i :=
  List.getElem?_eq_none_iff

theorem exists_index (h : i < set.length) : ∃ r, qsmpConnectionsIndex set i = some r :=
  ⟨_, List.getElem?_eq_getElem h⟩

/-- In a table of no more than `2^32` slots a record bears its number. -/
theorem Sound.number (h : set.Sound) (hlen : set.length ≤ 2 ^ 32) {r : QsmpConnectionState}
    (hr : qsmpConnectionsIndex set i = some r) : r.instanceCount.toNat = i := by
  have hi : i < set.length := by
    by_contra hge
    exact Option.some_ne_none r (hr.symm.trans (index_eq_none.2 (Nat.le_of_not_lt hge)))
  rw [h.numbered i r hr, UInt32.toNat_ofNat', Nat.mod_eq_of_lt (by omega)]

/-- The slot with a number is the slot of that index. -/
theorem Sound.get_eq (h : set.Sound) (hlen : set.length ≤ 2 ^ 32) (n : UInt32) :
    qsmpConnectionsGet set n = if n.toNat < set.length then some n.toNat else none := by
  cases hget : qsmpConnectionsGet set n with
  | some j =>
    have hmem := List.mem_of_find?_eq_some hget
    have hbears := List.find?_some hget
    rw [List.mem_reverse, List.mem_range] at hmem
    obtain ⟨r, hr⟩ := exists_index hmem
    have hn : r.instanceCount = n := by
      rw [qsmpConnectionsIndex] at hr
      simpa only [hr, Option.any_some, decide_eq_true_eq] using hbears
    have hj := h.number hlen hr
    rw [hn] at hj
    rw [hj, if_pos hmem]
  | none =>
    rw [qsmpConnectionsGet, List.find?_eq_none] at hget
    rw [if_neg]
    intro hlt
    obtain ⟨r, hr⟩ := exists_index hlt
    have hno := hget n.toNat (List.mem_reverse.2 (List.mem_range.2 hlt))
    have hn : r.instanceCount = n := UInt32.toNat_inj.1 (h.number hlen hr)
    rw [qsmpConnectionsIndex] at hr
    simp only [hr, Option.any_some, hn, decide_true, not_true] at hno

/-- An old slot is handed out with the record it was left with. -/
theorem handsOut_activated (hk : k < set.length) (hfree : qsmpConnectionsActive set k = false) :
    set.HandsOut (set.activated k) k where
  free := hfree
  old _ := ⟨length_activated, hk, rfl⟩
  new hall := absurd (hfree.symm.trans (hall k hk)) Bool.false_ne_true
  marked _ := active_activated hk
  others _ _ := rfl
  maximum := rfl

/-- A new slot is handed out cleared. -/
theorem handsOut_extended (hall : ∀ i < set.length, qsmpConnectionsActive set i = true) :
    set.HandsOut set.extended set.length where
  free := active_length
  old := fun ⟨i, hi, hfree⟩ => absurd (hfree.symm.trans (hall i hi)) Bool.false_ne_true
  new _ := ⟨length_extended, rfl, List.getElem?_concat_length⟩
  marked _ := active_extended
  others i hi := by
    rw [qsmpConnectionsIndex, qsmpConnectionsIndex, extended]
    rcases Nat.lt_or_gt_of_ne hi with hlt | hgt
    · exact List.getElem?_append_left hlt
    · rw [List.getElem?_eq_none (Nat.le_of_lt hgt), List.getElem?_eq_none]
      rw [List.length_append, List.length_singleton]
      exact hgt
  maximum := rfl

theorem Sound.nextLaw (h : set.Sound) : set.NextLaw := by
  rcases next_cases set with ⟨k, hk, -, hfree, heq⟩ | ⟨hfull, hroom, heq⟩ | ⟨hfull, hmax, heq⟩
  · refine ⟨?_, ?_, fun k' hk' => ?_⟩
    · rw [heq]
      refine iff_of_false (Option.some_ne_none k) fun hall => ?_
      have hlt := Nat.lt_of_lt_of_le hk h.length_le
      exact Bool.false_ne_true (hfree.symm.trans (hall k hlt))
    · rw [heq]
      exact fun hnone => absurd hnone (Option.some_ne_none k)
    · rw [heq] at hk' ⊢
      obtain rfl := Option.some.inj hk'
      exact handsOut_activated hk hfree
  · refine ⟨?_, ?_, fun k' hk' => ?_⟩
    · rw [heq]
      refine iff_of_false (Option.some_ne_none _) fun hall => ?_
      exact Bool.false_ne_true (active_length.symm.trans (hall set.length hroom))
    · rw [heq]
      exact fun hnone => absurd hnone (Option.some_ne_none _)
    · rw [heq] at hk' ⊢
      obtain rfl := Option.some.inj hk'
      exact handsOut_extended (full_iff.1 hfull)
  · refine ⟨?_, fun _ => by rw [heq], fun k' hk' => ?_⟩
    · rw [heq]
      exact iff_of_true rfl fun i hi => full_iff.1 hfull i (Nat.lt_of_lt_of_le hi hmax)
    · rw [heq] at hk'
      exact absurd hk'.symm (Option.some_ne_none k')

theorem freed_freed : (set.freed k).freed k = set.freed k :=
  QsmpConnectionSet.ext (List.set_set _) (List.set_set _) rfl

/-- A number that no record bears frees nothing. -/
theorem Sound.reset_absent (h : set.Sound) (hlen : set.length ≤ 2 ^ 32) {n : UInt32}
    (hn : set.length ≤ n.toNat) : qsmpConnectionsReset set n = set := by
  have hfind : set.conset.findIdx? (·.instanceCount = n) = none := by
    rw [List.findIdx?_eq_none_iff]
    intro r hr
    obtain ⟨i, hi⟩ := List.mem_iff_getElem?.1 hr
    obtain ⟨hlt, -⟩ := List.getElem?_eq_some_iff.1 hi
    have hnumber := h.number hlen hi
    rw [decide_eq_false_iff_not]
    rintro rfl
    have hlt' : i < set.length := hlt
    omega
  rw [qsmpConnectionsReset, hfind]

theorem Sound.reset_eq (h : set.Sound) (hlen : set.length ≤ 2 ^ 32) {n : UInt32}
    (hn : n.toNat < set.length) : qsmpConnectionsReset set n = set.freed n.toNat := by
  have hreset := h.numbered.reset hlen hn
  rwa [UInt32.ofNat_toNat] at hreset

theorem Sound.resetLaw (h : set.Sound) (hlen : set.length ≤ 2 ^ 32) : set.ResetLaw where
  frees n hn := by
    rw [h.reset_eq hlen hn]
    exact ⟨frees_freed hn, rfl⟩
  absent n hn := h.reset_absent hlen hn
  idempotent n := by
    rcases Nat.lt_or_ge n.toNat set.length with hn | hn
    · rw [h.reset_eq hlen hn, h.freed.reset_eq (length_freed.trans_le hlen)
        (length_freed.symm ▸ hn), freed_freed]
    · rw [h.reset_absent hlen hn, h.reset_absent hlen hn]

/-- The flags of a table, one for each slot. -/
theorem active_eq_map : set.active = (List.range set.length).map (qsmpConnectionsActive set) := by
  refine List.ext_getElem ?_ fun i hi _ => ?_
  · rw [List.length_map, List.length_range]
    exact set.length_active
  · rw [List.getElem_map, List.getElem_range, qsmpConnectionsActive, List.getD_eq_getElem _ _ hi]

theorem available_eq : qsmpConnectionsAvailable set =
    (List.range set.length).countP fun i => qsmpConnectionsActive set i = false := by
  rw [qsmpConnectionsAvailable, active_eq_map, List.count, List.countP_map]
  refine List.countP_congr fun i _ => ?_
  simp

theorem full_iff_available :
    qsmpConnectionsFull set = true ↔ qsmpConnectionsAvailable set = 0 := by
  rw [full_iff, available_eq, List.countP_eq_zero]
  simp only [List.mem_range, decide_eq_true_eq, Bool.not_eq_false]

/-- **The laws of the connection table**: they hold in every state that the
functions of the table, in any order and with any writes of their callers,
lead to, as long as the slots can be numbered in 32 bits. -/
theorem connection_table_laws (ops : List TableOp) (hlen : (run ops).length ≤ 2 ^ 32) :
    (run ops).Laws where
  length_le := (sound_run ops).length_le
  number _ _ hr := (sound_run ops).number hlen hr
  index_none _ := index_eq_none
  get_eq n := (sound_run ops).get_eq hlen n
  next := (sound_run ops).nextLaw
  reset := (sound_run ops).resetLaw hlen
  available := available_eq
  full := full_iff_available

/-- The script of the self-test: one slot, nine handed out, one released. -/
theorem connection_table_laws_script :
    (run (.initializes 1 10 :: List.replicate 9 .nexts ++ [.resets 1])).Laws :=
  connection_table_laws _ (by decide)

/-- One slot more than there are numbers: the last bears the number of the
first. -/
theorem not_laws_overfull : ¬ ∀ ops : List TableOp, (run ops).Laws := by
  intro hlaws
  have hnumber := (hlaws [.initializes (2 ^ 32 + 1) (2 ^ 32 + 1)]).number (2 ^ 32)
    (.cleared (2 ^ 32)) (index_initialized ⟨by omega, by omega, le_rfl⟩ (by omega))
  have hzero : (QsmpConnectionState.cleared (2 ^ 32)).instanceCount.toNat = 0 := by decide
  rw [hzero] at hnumber
  omega

end QsmpConnectionSet

end Qsmp
