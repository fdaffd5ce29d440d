import Qsmp.Channel.Connection
/-!
# The server's connection table

The table keeps a record and a flag for each slot. A slot is named by its
index, and the functions that free one find it by the instance number its
record holds. Where the table is stored is left to the storage model: here
every allocation succeeds.
-/

namespace Qsmp

/-- `QSMP_CONNECTIONS_INIT` -/
def connectionsInit : ℕ := 1000
/-- `QSMP_CONNECTIONS_MAX` -/
def connectionsMax : ℕ := 50000

theorem connections_sizes :
    connectionsInit ≠ 0 ∧ connectionsMax ≠ 0 ∧ connectionsInit ≤ connectionsMax := by
  simp [connectionsInit, connectionsMax]

/-- A record whose bytes are zero, but for the instance number it is then
given. Zero names no cipher type; like the name of RCS-512 it differs from
that of RCS-256, which is all it is compared with. -/
def QsmpConnectionState.cleared (i : ℕ) : QsmpConnectionState where
  rtcs := Octets.zero _
  target := ⟨.none⟩
  rxcpr := { qscRcsDispose with ctype := .cipher512 }
  txcpr := { qscRcsDispose with ctype := .cipher512 }
  rxseq := 0
  txseq := 0
  instanceCount := UInt32.ofNat i
  exflag := .none
  receiver := false
  mode := .simplex

/-- `qsmp_connection_set`: the two arrays have one length. -/
@[ext] structure QsmpConnectionSet where
  conset : List QsmpConnectionState
  active : List Bool
  maximum : ℕ
  length_active : active.length = conset.length

namespace QsmpConnectionSet

/-- The `length` field: `qsmp_connections_size`. -/
def length (set : QsmpConnectionSet) : ℕ := set.conset.length

/-- The record of slot `i` is written. -/
def modify (set : QsmpConnectionSet) (i : ℕ) (f : QsmpConnectionState → QsmpConnectionState) :
    QsmpConnectionSet where
  conset := set.conset.modify i f
  active := set.active
  maximum := set.maximum
  length_active := by rw [List.length_modify, set.length_active]

/-- Slot `i` is marked active. -/
def activated (set : QsmpConnectionSet) (i : ℕ) : QsmpConnectionSet where
  conset := set.conset
  active := set.active.set i true
  maximum := set.maximum
  length_active := by rw [List.length_set, set.length_active]

/-- A slot is added, cleared and active. -/
def extended (set : QsmpConnectionSet) : QsmpConnectionSet where
  conset := set.conset ++ [.cleared set.length]
  active := set.active ++ [true]
  maximum := set.maximum
  length_active := by
    rw [List.length_append, List.length_append, set.length_active, List.length_singleton,
      List.length_singleton]

/-- Slot `i` is cleared and marked free. -/
def freed (set : QsmpConnectionSet) (i : ℕ) : QsmpConnectionSet where
  conset := set.conset.set i (.cleared i)
  active := set.active.set i false
  maximum := set.maximum
  length_active := by rw [List.length_set, List.length_set, set.length_active]

end QsmpConnectionSet

/-! ## The functions of the table -/

variable (set : QsmpConnectionSet)

/-- `qsmp_connections_active` -/
def qsmpConnectionsActive (index : ℕ) : Bool := set.active.getD index false

/-- `qsmp_connections_add`: the table, and the slot added. -/
def qsmpConnectionsAdd : QsmpConnectionSet × Option ℕ :=
  if set.length + 1 ≤ set.maximum then (set.extended, some set.length) else (set, none)

/-- `qsmp_connections_available` -/
def qsmpConnectionsAvailable : ℕ := set.active.count false

/-- `qsmp_connections_clear` -/
def qsmpConnectionsClear : QsmpConnectionSet where
  conset := (List.range set.length).map .cleared
  active := List.replicate set.length false
  maximum := set.maximum
  length_active := by rw [List.length_replicate, List.length_map, List.length_range]

/-- `qsmp_connections_dispose` -/
def qsmpConnectionsDispose : QsmpConnectionSet := ⟨[], [], 0, rfl⟩

/-- `qsmp_connections_index` -/
def qsmpConnectionsIndex (index : ℕ) : Option QsmpConnectionState := set.conset[index]?

/-- `qsmp_connections_full` -/
def qsmpConnectionsFull : Bool := set.active.all id

/-- `qsmp_connections_get`: the last record with the number, as its slot. -/
def qsmpConnectionsGet (instanceCount : UInt32) : Option ℕ :=
  (List.range set.length).reverse.find? fun i =>
    (set.conset[i]?).any (·.instanceCount = instanceCount)

/-- `qsmp_connections_initialize` -/
def qsmpConnectionsInitialize (count maximum : ℕ) : QsmpConnectionSet :=
  if count ≠ 0 ∧ maximum ≠ 0 ∧ count ≤ maximum then
    { conset := (List.range count).map .cleared
      active := List.replicate count false
      maximum
      length_active := by rw [List.length_replicate, List.length_map, List.length_range] }
  else set

/-- `qsmp_connections_next`: the table, and the slot handed out. A slot in
use before keeps the record it was left with. -/
def qsmpConnectionsNext : QsmpConnectionSet × Option ℕ :=
  if qsmpConnectionsFull set = false then
    match set.active.idxOf? false with
    | some i => (set.activated i, some i)
    | none => (set, none)
  else qsmpConnectionsAdd set

/-- `qsmp_connections_reset`: the first record with the number is freed. -/
def qsmpConnectionsReset (instanceCount : UInt32) : QsmpConnectionSet :=
  match set.conset.findIdx? (·.instanceCount = instanceCount) with
  | some i => set.freed i
  | none => set

namespace QsmpConnectionSet

variable {set} {i j k : ℕ} {r : QsmpConnectionState} {f : QsmpConnectionState → QsmpConnectionState}

/-! ## What the writes leave -/

@[simp] theorem length_modify : (set.modify i f).length = set.length := List.length_modify ..

@[simp] theorem length_activated : (set.activated i).length = set.length := rfl

@[simp] theorem length_extended : set.extended.length = set.length + 1 :=
  List.length_append.trans (by rw [List.length_singleton, length])

@[simp] theorem length_freed : (set.freed i).length = set.length := List.length_set ..

@[simp] theorem active_modify :
    qsmpConnectionsActive (set.modify i f) = qsmpConnectionsActive set := rfl

/-- An active slot is one of the table. -/
theorem lt_of_active (h : qsmpConnectionsActive set i = true) : i < set.length := by
  by_contra hge
  have hlen : set.active.length ≤ i := by
    rw [set.length_active]
    exact Nat.le_of_not_lt hge
  rw [qsmpConnectionsActive, List.getD_eq_default _ _ hlen] at h
  exact absurd h Bool.false_ne_true

theorem active_activated (hk : k < set.length) :
    qsmpConnectionsActive (set.activated k) i = true ↔
      qsmpConnectionsActive set i = true ∨ i = k := by
  have hlen : k < set.active.length := by
    rw [set.length_active]
    exact hk
  simp only [qsmpConnectionsActive, activated, List.getD_eq_getElem?_getD, List.getElem?_set]
  by_cases hik : k = i
  · rw [if_pos hik, if_pos hlen]
    exact iff_of_true rfl (.inr hik.symm)
  · rw [if_neg hik]
    exact ⟨.inl, fun h => h.resolve_right fun h => hik h.symm⟩

theorem active_extended :
    qsmpConnectionsActive set.extended i = true ↔
      qsmpConnectionsActive set i = true ∨ i = set.length := by
  simp only [qsmpConnectionsActive, extended, List.getD_eq_getElem?_getD, List.getElem?_append]
  rcases Nat.lt_trichotomy i set.active.length with hlt | heq | hgt
  · rw [if_pos hlt]
    rw [set.length_active] at hlt
    exact ⟨.inl, fun h => h.resolve_right (Nat.ne_of_lt hlt)⟩
  · subst heq
    rw [if_neg (Nat.lt_irrefl _), Nat.sub_self]
    exact iff_of_true rfl (.inr set.length_active)
  · have hne : i ≠ set.length := by
      rw [length, ← set.length_active]
      omega
    rw [if_neg (Nat.not_lt_of_gt hgt), List.getElem?_eq_none (by simp; omega),
      List.getElem?_eq_none (Nat.le_of_lt hgt)]
    exact ⟨.inl, fun h => h.resolve_right hne⟩

theorem active_freed :
    qsmpConnectionsActive (set.freed k) i = true ↔ qsmpConnectionsActive set i = true ∧ i ≠ k := by
  simp only [qsmpConnectionsActive, freed, List.getD_eq_getElem?_getD, List.getElem?_set]
  by_cases hik : k = i
  · rw [if_pos hik]
    refine iff_of_false ?_ fun h => h.2 hik.symm
    split <;> exact Bool.false_ne_true
  · rw [if_neg hik]
    exact ⟨fun h => ⟨h, fun h => hik h.symm⟩, And.left⟩

theorem length_initialized {count maximum : ℕ} (h : count ≠ 0 ∧ maximum ≠ 0 ∧ count ≤ maximum) :
    (qsmpConnectionsInitialize set count maximum).length = count := by
  rw [qsmpConnectionsInitialize, if_pos h, length, List.length_map, List.length_range]

theorem maximum_initialized {count maximum : ℕ} (h : count ≠ 0 ∧ maximum ≠ 0 ∧ count ≤ maximum) :
    (qsmpConnectionsInitialize set count maximum).maximum = maximum := by
  rw [qsmpConnectionsInitialize, if_pos h]

theorem active_initialized {count maximum : ℕ} (h : count ≠ 0 ∧ maximum ≠ 0 ∧ count ≤ maximum) :
    qsmpConnectionsActive (qsmpConnectionsInitialize set count maximum) i = false := by
  rw [qsmpConnectionsInitialize, if_pos h, qsmpConnectionsActive, List.getD_eq_getElem?_getD,
    List.getElem?_replicate]
  split <;> rfl

theorem index_initialized {count maximum : ℕ} (h : count ≠ 0 ∧ maximum ≠ 0 ∧ count ≤ maximum)
    (hi : i < count) :
    qsmpConnectionsIndex (qsmpConnectionsInitialize set count maximum) i = some (.cleared i) := by
  rw [qsmpConnectionsInitialize, if_pos h, qsmpConnectionsIndex, List.getElem?_map,
    List.getElem?_range hi]
  rfl

/-! ## Tables whose records bear their numbers -/

/-- **Numbered**: the record of slot `i` has the instance number `i`. -/
def Numbered (set : QsmpConnectionSet) : Prop :=
  ∀ i r, qsmpConnectionsIndex set i = some r → r.instanceCount = UInt32.ofNat i

theorem numbered_dispose : qsmpConnectionsDispose.Numbered := fun _ _ h =>
  absurd (List.mem_of_getElem? h) List.not_mem_nil

theorem numbered_initialized {count maximum : ℕ} (h : set.Numbered) :
    (qsmpConnectionsInitialize set count maximum).Numbered := by
  rw [qsmpConnectionsInitialize]
  split
  · intro i r hr
    simp only [qsmpConnectionsIndex, List.getElem?_map] at hr
    obtain ⟨j, hj, rfl⟩ := Option.map_eq_some_iff.1 hr
    obtain ⟨hlt, hji⟩ := List.getElem?_eq_some_iff.1 hj
    rw [List.getElem_range] at hji
    rw [← hji]
    rfl
  · exact h

theorem Numbered.extended (h : set.Numbered) : set.extended.Numbered := by
  intro i r hr
  simp only [qsmpConnectionsIndex, QsmpConnectionSet.extended, List.getElem?_append] at hr
  split at hr
  · exact h i r hr
  · rename_i hge
    obtain ⟨hlt, hri⟩ := List.getElem?_eq_some_iff.1 hr
    rw [List.length_singleton] at hlt
    obtain rfl : i = set.length := by
      rw [length]
      omega
    rw [List.getElem_singleton] at hri
    rw [← hri]
    rfl

theorem Numbered.modify (h : set.Numbered)
    (hf : ∀ r, qsmpConnectionsIndex set i = some r → (f r).instanceCount = r.instanceCount) :
    (set.modify i f).Numbered := by
  intro j r hr
  simp only [qsmpConnectionsIndex, QsmpConnectionSet.modify, List.getElem?_modify] at hr
  obtain ⟨r₀, hr₀, rfl⟩ := Option.map_eq_some_iff.1 hr
  split
  · rename_i hij
    rw [hf r₀ (by rw [hij]; exact hr₀)]
    exact h j r₀ hr₀
  · exact h j r₀ hr₀

theorem Numbered.freed (h : set.Numbered) : (set.freed k).Numbered := by
  intro i r hr
  simp only [qsmpConnectionsIndex, QsmpConnectionSet.freed, List.getElem?_set] at hr
  split at hr
  · rename_i hki
    split at hr
    · obtain rfl := Option.some.inj hr
      rw [hki]
      rfl
    · exact absurd hr.symm (Option.some_ne_none r)
  · exact h i r hr

/-- The slot that is reset is the first whose record has the number. -/
theorem reset_eq {n : UInt32} (hr : qsmpConnectionsIndex set k = some r) (hn : r.instanceCount = n)
    (hlt : ∀ j < k, ∀ r', qsmpConnectionsIndex set j = some r' → r'.instanceCount ≠ n) :
    qsmpConnectionsReset set n = set.freed k := by
  obtain ⟨hk, hrk⟩ := List.getElem?_eq_some_iff.1 hr
  have hfind : set.conset.findIdx? (·.instanceCount = n) = some k := by
    rw [List.findIdx?_eq_some_iff_getElem]
    refine ⟨hk, decide_eq_true (hrk ▸ hn), fun j hj => ?_⟩
    rw [decide_eq_true_eq]
    exact hlt j hj _ (List.getElem?_eq_getElem (Nat.lt_trans hj hk))
  rw [qsmpConnectionsReset, hfind]

/-- **A number finds its slot**: in a numbered table of at most `2^32`
slots, resetting the number of a slot frees that slot. -/
theorem Numbered.reset (h : set.Numbered) (hlen : set.length ≤ 2 ^ 32) (hk : k < set.length) :
    qsmpConnectionsReset set (UInt32.ofNat k) = set.freed k := by
  have hr : qsmpConnectionsIndex set k = some set.conset[k] := List.getElem?_eq_getElem hk
  refine reset_eq hr (h k _ hr) fun j hj r' hr' heq => ?_
  rw [h j r' hr'] at heq
  have hjk := congrArg UInt32.toNat heq
  rw [UInt32.toNat_ofNat', UInt32.toNat_ofNat', Nat.mod_eq_of_lt (by omega),
    Nat.mod_eq_of_lt (by omega)] at hjk
  omega

/-- **Exactly slot `k` is freed** between two tables: it is cleared and
marked free, and no other record or flag changes. -/
structure Frees (set set' : QsmpConnectionSet) (k : ℕ) : Prop where
  record : qsmpConnectionsIndex set' k = some (.cleared k)
  flag : qsmpConnectionsActive set' k = false
  others : ∀ i, i ≠ k → qsmpConnectionsIndex set' i = qsmpConnectionsIndex set i ∧
    qsmpConnectionsActive set' i = qsmpConnectionsActive set i

theorem frees_freed (hk : k < set.length) : set.Frees (set.freed k) k where
  record := List.getElem?_set_self hk
  flag := by
    rw [← Bool.not_eq_true, active_freed]
    exact fun h => h.2 rfl
  others i hi := by
    refine ⟨List.getElem?_set_ne hi.symm, Bool.eq_iff_iff.2 ?_⟩
    rw [active_freed, and_iff_left hi]

/-- What was written to a slot is gone when it is freed. -/
theorem freed_modify : (set.modify k f).freed k = set.freed k := by
  refine QsmpConnectionSet.ext (List.ext_getElem? fun i => ?_) rfl rfl
  simp only [freed, modify, List.getElem?_set, List.length_modify]
  split
  · rfl
  · rename_i hne
    exact List.getElem?_modify_ne f set.conset hne

/-! ## The slot handed out -/

theorem full_iff :
    qsmpConnectionsFull set = true ↔ ∀ i < set.length, qsmpConnectionsActive set i = true := by
  have hlen : set.length = set.active.length := set.length_active.symm
  rw [qsmpConnectionsFull, List.all_eq_true]
  constructor
  · intro h i hi
    rw [qsmpConnectionsActive, List.getD_eq_getElem _ _ (hlen ▸ hi)]
    exact h _ (List.getElem_mem _)
  · intro h x hx
    obtain ⟨i, hi, rfl⟩ := List.getElem_of_mem hx
    have := h i (hlen.symm ▸ hi)
    rwa [qsmpConnectionsActive, List.getD_eq_getElem _ _ hi] at this

/-- The slot handed out is the first that is not active. -/
theorem next_eq (hk : k < set.length) (hfree : qsmpConnectionsActive set k = false)
    (hlt : ∀ j < k, qsmpConnectionsActive set j = true) :
    qsmpConnectionsNext set = (set.activated k, some k) := by
  have hlen : k < set.active.length := by
    rw [set.length_active]
    exact hk
  have hfull : qsmpConnectionsFull set = false := by
    rw [← Bool.not_eq_true, full_iff]
    exact fun h => Bool.false_ne_true (hfree.symm.trans (h k hk))
  rw [qsmpConnectionsActive, List.getD_eq_getElem _ _ hlen] at hfree
  have hidx : set.active.idxOf? false = some k := by
    refine List.findIdx?_eq_some_iff_getElem.2 ⟨hlen, beq_iff_eq.2 hfree, fun j hj => ?_⟩
    have hj' := hlt j hj
    rw [qsmpConnectionsActive, List.getD_eq_getElem _ _ (Nat.lt_trans hj hlen)] at hj'
    rw [hj']
    decide
  rw [qsmpConnectionsNext, if_pos hfull, hidx]

/-- **Handing out a slot**: `qsmp_connections_next` hands out the first
slot that is not active; where all are, a new one, if there is room. -/
theorem next_cases (set : QsmpConnectionSet) :
    (∃ k < set.length, qsmpConnectionsFull set = false ∧ qsmpConnectionsActive set k = false ∧
      qsmpConnectionsNext set = (set.activated k, some k)) ∨
    (qsmpConnectionsFull set = true ∧ set.length < set.maximum ∧
      qsmpConnectionsNext set = (set.extended, some set.length)) ∨
    (qsmpConnectionsFull set = true ∧ set.maximum ≤ set.length ∧
      qsmpConnectionsNext set = (set, none)) := by
  cases hfull : qsmpConnectionsFull set with
  | false =>
    have hex : ∃ k, k < set.length ∧ qsmpConnectionsActive set k = false := by
      by_contra hno
      rw [← Bool.not_eq_true, full_iff] at hfull
      refine hfull fun i hi => ?_
      rw [← Bool.not_eq_false]
      exact fun h => hno ⟨i, hi, h⟩
    obtain ⟨hk, hfree⟩ := Nat.find_spec hex
    refine .inl ⟨Nat.find hex, hk, rfl, hfree, next_eq hk hfree fun j hj => ?_⟩
    rw [← Bool.not_eq_false]
    exact fun h => Nat.find_min hex hj ⟨Nat.lt_trans hj hk, h⟩
  | true =>
    rcases Nat.lt_or_ge set.length set.maximum with hroom | hfilled
    · refine .inr (.inl ⟨rfl, hroom, ?_⟩)
      rw [qsmpConnectionsNext, if_neg (by rw [hfull]; decide), qsmpConnectionsAdd,
        if_pos (Nat.succ_le_of_lt hroom)]
    · refine .inr (.inr ⟨rfl, hfilled, ?_⟩)
      rw [qsmpConnectionsNext, if_neg (by rw [hfull]; decide), qsmpConnectionsAdd,
        if_neg (by omega)]

/-- A slot that is not one of the table's is not active. -/
theorem active_length : qsmpConnectionsActive set set.length = false := by
  rw [← Bool.not_eq_true]
  exact fun h => Nat.lt_irrefl _ (lt_of_active h)

end QsmpConnectionSet

end Qsmp
