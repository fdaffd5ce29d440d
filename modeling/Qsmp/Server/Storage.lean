import Mathlib.Logic.Function.Basic
import Qsmp.Common.Histories
import Qsmp.Common.Leases
import Qsmp.Server.Connections
/-!
# Where the table is stored, and the handles into it

The records of the table lie in a block of the heap. When the table grows
`qsc_memutils_realloc` returns a block with the records, which is the old
one or another, and then the old one is freed. What
`qsmp_connections_next` returns is a pointer into the block of the moment,
which the receive thread keeps: a lease of the slot, at that block.
-/

namespace Qsmp

/-- The records a pointer to a block finds: none where there is no block. -/
def records (heap : ℕ → Option (List QsmpConnectionState)) (conset : Option ℕ) :
    List QsmpConnectionState := (conset.bind heap).getD []

/-- **The table in memory**: the blocks of the heap by their identity, and
`qsmp_connection_set` with the identity of its block. -/
structure Storage where
  heap : ℕ → Option (List QsmpConnectionState)
  conset : Option ℕ
  active : List Bool
  maximum : ℕ
  length_active : active.length = (records heap conset).length

namespace Storage

/-- The table that the functions on it see. -/
def table (s : Storage) : QsmpConnectionSet where
  conset := records s.heap s.conset
  active := s.active
  maximum := s.maximum
  length_active := s.length_active

/-- Block `b` of a heap holds the table. -/
def hold (heap : ℕ → Option (List QsmpConnectionState)) (set : QsmpConnectionSet) (b : ℕ) :
    Storage where
  heap := Function.update heap b (some set.conset)
  conset := some b
  active := set.active
  maximum := set.maximum
  length_active := by
    rw [records, Option.bind_some, Function.update_self, Option.getD_some, set.length_active]

/-- The heap without the block of the table. -/
def released (s : Storage) : ℕ → Option (List QsmpConnectionState) :=
  match s.conset with
  | some a => Function.update s.heap a none
  | none => s.heap

/-- What a pointer to the record of slot `i` in block `b` reads. -/
def deref (s : Storage) (b i : ℕ) : Option QsmpConnectionState := (s.heap b).bind (·[i]?)

theorem length_records_set {heap : ℕ → Option (List QsmpConnectionState)} {b i : ℕ}
    {cns : QsmpConnectionState} {conset : Option ℕ} :
    (records (Function.update heap b ((heap b).map (·.set i cns))) conset).length =
      (records heap conset).length := by
  cases conset with
  | none => rfl
  | some a =>
    simp only [records, Option.bind_some]
    by_cases hab : a = b
    · subst hab
      rw [Function.update_self]
      cases heap a with
      | none => rfl
      | some recs => exact List.length_set
    · rw [Function.update_of_ne hab]

/-- A pointer to the record of slot `i` in block `b` writes. -/
def write (s : Storage) (b i : ℕ) (cns : QsmpConnectionState) : Storage :=
  { s with
    heap := Function.update s.heap b ((s.heap b).map (·.set i cns))
    length_active := s.length_active.trans length_records_set.symm }

/-- **The handle denotes the record of its slot**: what is read through it
is what `qsmp_connections_index` finds for the slot, and so is what is
written through it. -/
structure Denotes (s : Storage) (l : Lease ℕ) : Prop where
  read : ∃ cns, s.deref l.stage l.slot = some cns ∧ qsmpConnectionsIndex s.table l.slot = some cns
  write : ∀ cns, qsmpConnectionsIndex (s.write l.stage l.slot cns).table l.slot = some cns

end Storage

/-- The table in memory, and the pointers that `qsmp_connections_next` has
returned, each ended once its slot has been reset. -/
structure Handles extends Storage where
  handles : List (Lease ℕ)

/-- A call of the table's functions, with the block that the allocator
returns if it is asked; or a write through the handle numbered `n`. -/
inductive StorageOp where
  | initializes (b : ℕ)
  | next (b : ℕ)
  | reset (instanceCount : UInt32)
  | writes (n : ℕ) (cns : QsmpConnectionState)

namespace Handles

/-- **A step on the table in memory.** The allocator returns a block that
is not in use, or from `realloc` the same block; a write into a freed block
is no step. -/
def step (s : Handles) : StorageOp → Option Handles
  | .initializes b =>
      if s.heap b = none then
        some ⟨.hold s.heap (qsmpConnectionsInitialize s.table connectionsInit connectionsMax) b,
          s.handles⟩
      else none
  | .next b =>
      match qsmpConnectionsNext s.table with
      | (set, some k) =>
          if qsmpConnectionsFull s.table then
            -- `qsmp_connections_add` has reallocated the records.
            if s.conset = some b ∨ s.heap b = none then
              some ⟨.hold s.released set b, s.handles ++ [⟨k, b, false⟩]⟩
            else none
          else s.conset.map fun a => ⟨.hold s.released set a, s.handles ++ [⟨k, a, false⟩]⟩
      | (_, none) => some s
  | .reset n =>
      match s.conset, s.table.conset.findIdx? (·.instanceCount = n) with
      | some a, some i =>
          some ⟨.hold s.released (qsmpConnectionsReset s.table n) a, Lease.revoke s.handles i⟩
      | _, _ => some s
  | .writes n cns =>
      match s.handles[n]? with
      | some l =>
          if (s.heap l.stage).isSome then some ⟨s.write l.stage l.slot cns, s.handles⟩ else none
      | none => none

theorem length_records_none {heap : ℕ → Option (List QsmpConnectionState)} :
    ([] : List Bool).length = (records heap none).length := rfl

/-- Nothing is allocated. -/
def initial : Handles := ⟨⟨fun _ => none, none, [], 0, length_records_none⟩, []⟩

/-- Every live handle denotes the record of its slot. -/
def Denote (s : Handles) : Prop := ∀ l ∈ s.handles, l.ended = false → s.Denotes l

/-- **When the handles stay good**: the table is not initialised again
while one is live, and no growth moves its block. -/
def Meets (s : Handles) : StorageOp → Prop
  | .initializes _ => ∀ l ∈ s.handles, l.ended = true
  | .next b => qsmpConnectionsFull s.table = true → s.table.length < s.table.maximum →
      s.conset = some b
  | _ => True

end Handles

namespace Storage

variable {s : Storage} {set : QsmpConnectionSet} {l : Lease ℕ} {a b i : ℕ}
variable {cns : QsmpConnectionState} {heap : ℕ → Option (List QsmpConnectionState)}

@[simp] theorem table_hold : (hold heap set b).table = set := by
  refine QsmpConnectionSet.ext ?_ rfl rfl
  simp only [table, hold, records, Option.bind_some, Function.update_self, Option.getD_some]

@[simp] theorem conset_hold : (hold heap set b).conset = some b := rfl

/-- A record of the table is one its block holds. -/
theorem deref_of_conset (h : s.conset = some b) :
    s.deref b i = qsmpConnectionsIndex s.table i := by
  simp only [deref, qsmpConnectionsIndex, table, records, h, Option.bind_some]
  cases s.heap b with
  | none => rfl
  | some recs => rfl

theorem index_write_of_conset (h : s.conset = some b) (hi : i < s.table.length) :
    qsmpConnectionsIndex (s.write b i cns).table i = some cns := by
  have hlen : i < (records s.heap s.conset).length := hi
  simp only [qsmpConnectionsIndex, table, write, records, h, Option.bind_some,
    Function.update_self] at hlen ⊢
  cases hb : s.heap b with
  | none =>
    rw [hb] at hlen
    exact absurd hlen (Nat.not_lt_zero i)
  | some recs =>
    rw [hb] at hlen
    exact List.getElem?_set_self hlen

/-- What is written into another block the table does not see. -/
theorem table_write_of_ne (h : s.conset ≠ some b) : (s.write b i cns).table = s.table := by
  refine QsmpConnectionSet.ext ?_ rfl rfl
  cases hc : s.conset with
  | none => simp only [table, write, records, hc, Option.bind_none]
  | some a =>
    have hab : a ≠ b := by
      rintro rfl
      exact h hc
    simp only [table, write, records, hc, Option.bind_some, Function.update_of_ne hab]

/-- A handle that denotes a record points into the table's block. -/
theorem Denotes.conset (h : s.Denotes l) : s.conset = some l.stage := by
  by_contra hne
  -- Two different records cannot both be what the table has.
  have h₀ := h.write (.cleared 0)
  have h₁ := h.write (.cleared 1)
  rw [table_write_of_ne hne] at h₀ h₁
  have heq := Option.some.inj (h₀.symm.trans h₁)
  exact absurd (congrArg QsmpConnectionState.instanceCount heq) (by decide)

theorem denotes_of_conset (h : s.conset = some l.stage) (hi : l.slot < s.table.length) :
    s.Denotes l where
  read := ⟨s.table.conset[l.slot], (deref_of_conset h).trans (List.getElem?_eq_getElem hi),
    List.getElem?_eq_getElem hi⟩
  write _ := index_write_of_conset h hi

theorem table_write_length : (s.write b i cns).table.length = s.table.length :=
  length_records_set

end Storage

namespace Handles

variable {s s' : Handles} {op : StorageOp} {a b i k n : ℕ} {l : Lease ℕ} {set : QsmpConnectionSet}

/-! ## The invariant -/

/-- **What holds while no handle is lost**: the live handles point at slots
of the table, in its block, and there is one for each active slot. -/
structure Sound (s : Handles) : Prop where
  live : ∀ l ∈ s.handles, l.ended = false →
    s.conset = some l.stage ∧ l.slot < s.table.length
  held : ∀ i, qsmpConnectionsActive s.table i = true → Lease.Held s.handles i
  stored : (s.conset.isSome ∧ 0 < s.table.length) ∨ (s.conset = none ∧ s.table.maximum = 0)

theorem Sound.denote (hs : s.Sound) : s.Denote := by
  intro l hl hended
  obtain ⟨hconset, hlt⟩ := hs.live l hl hended
  exact Storage.denotes_of_conset hconset hlt

theorem sound_initial : initial.Sound where
  live _ hl := absurd hl List.not_mem_nil
  held i hi := absurd (QsmpConnectionSet.lt_of_active hi) (Nat.not_lt_zero i)
  stored := .inr ⟨rfl, rfl⟩

/-- The block of a table with records is in use. -/
theorem Sound.heap_ne_none (hs : s.Sound) (hb : s.conset = some b) : s.heap b ≠ none := by
  rcases hs.stored with ⟨-, hpos⟩ | ⟨hnone, -⟩
  · intro hfree
    simp only [QsmpConnectionSet.length, Storage.table, records, hb, Option.bind_some,
      hfree] at hpos
    exact absurd hpos (Nat.not_lt_zero 0)
  · exact absurd (hnone.symm.trans hb) (Option.some_ne_none b).symm

/-! ## What the steps leave -/

/-- A slot is handed out, and the table stays in its block. -/
theorem Sound.grants (hs : s.Sound) (hb : s.conset = some b)
    {heap : ℕ → Option (List QsmpConnectionState)}
    (hactive : ∀ i, qsmpConnectionsActive set i = true →
      qsmpConnectionsActive s.table i = true ∨ i = k)
    (hk : k < set.length) (hle : s.table.length ≤ set.length) :
    Handles.Sound ⟨.hold heap set b, s.handles ++ [⟨k, b, false⟩]⟩ where
  live l hl hended := by
    rw [Storage.conset_hold, Storage.table_hold]
    rcases List.mem_append.1 hl with hl | hl
    · obtain ⟨hconset, hlt⟩ := hs.live l hl hended
      exact ⟨hb.symm.trans hconset, Nat.lt_of_lt_of_le hlt hle⟩
    · rw [List.mem_singleton] at hl
      rw [hl]
      exact ⟨rfl, hk⟩
  held i hi := by
    rw [Storage.table_hold] at hi
    exact Lease.held_grant.2 ((hactive i hi).imp_left (hs.held i))
  stored := by
    rw [Storage.table_hold]
    exact .inl ⟨rfl, Nat.lt_of_le_of_lt (Nat.zero_le k) hk⟩

theorem Sound.frees (hs : s.Sound) (ha : s.conset = some a)
    {heap : ℕ → Option (List QsmpConnectionState)} :
    Handles.Sound ⟨.hold heap (s.table.freed i) a, Lease.revoke s.handles i⟩ where
  live l hl hended := by
    rw [Storage.conset_hold, Storage.table_hold, QsmpConnectionSet.length_freed]
    obtain ⟨x, hx, rfl⟩ := List.mem_map.1 hl
    split at hended
    · exact absurd hended.symm Bool.false_ne_true
    · rename_i hne
      rw [if_neg hne, ← ha]
      exact hs.live x hx hended
  held j hj := by
    rw [Storage.table_hold, QsmpConnectionSet.active_freed] at hj
    exact Lease.held_revoke.2 ⟨hs.held j hj.1, hj.2⟩
  stored := by
    rw [Storage.table_hold, QsmpConnectionSet.length_freed]
    refine .inl ⟨rfl, ?_⟩
    rcases hs.stored with ⟨-, hpos⟩ | ⟨hnone, -⟩
    · exact hpos
    · exact absurd (hnone.symm.trans ha) (Option.some_ne_none a).symm

theorem Sound.writes (hs : s.Sound) {cns : QsmpConnectionState} :
    Handles.Sound ⟨s.write b i cns, s.handles⟩ where
  live := by
    rw [Storage.table_write_length]
    exact hs.live
  held j hj := hs.held j hj
  stored := by
    rw [Storage.table_write_length]
    exact hs.stored

/-- A table that is initialised while no handle is live. -/
theorem Sound.initializes (hended : ∀ l ∈ s.handles, l.ended = true)
    {heap : ℕ → Option (List QsmpConnectionState)} :
    Handles.Sound ⟨.hold heap (qsmpConnectionsInitialize set connectionsInit connectionsMax) b,
      s.handles⟩ where
  live l hl hfalse := absurd (hfalse.symm.trans (hended l hl)) Bool.false_ne_true
  held i hi := by
    rw [Storage.table_hold, QsmpConnectionSet.active_initialized connections_sizes] at hi
    exact absurd hi Bool.false_ne_true
  stored := by
    rw [Storage.table_hold, QsmpConnectionSet.length_initialized connections_sizes]
    exact .inl ⟨rfl, Nat.pos_of_ne_zero connections_sizes.1⟩

/-! ## One step -/

/-- A slot there was is handed out, and the table stays in its block. -/
theorem step_next_free (hfull : qsmpConnectionsFull s.table = false)
    (hnext : qsmpConnectionsNext s.table = (s.table.activated k, some k))
    (h : s.step (.next b) = some s') : ∃ a, s.conset = some a ∧
      s' = ⟨.hold s.released (s.table.activated k) a, s.handles ++ [⟨k, a, false⟩]⟩ := by
  simp only [step, hnext, hfull, Bool.false_eq_true, if_false] at h
  obtain ⟨a, ha, rfl⟩ := Option.map_eq_some_iff.1 h
  exact ⟨a, ha, rfl⟩

/-- A slot is added, in the block that the allocator returns. -/
theorem step_next_full (hfull : qsmpConnectionsFull s.table = true)
    (hnext : qsmpConnectionsNext s.table = (s.table.extended, some s.table.length))
    (h : s.step (.next b) = some s') : (s.conset = some b ∨ s.heap b = none) ∧
      s' = ⟨.hold s.released s.table.extended b, s.handles ++ [⟨s.table.length, b, false⟩]⟩ := by
  simp only [step, hnext, hfull, if_true] at h
  split at h
  · rename_i hb
    exact ⟨hb, (Option.some.inj h).symm⟩
  · exact absurd h.symm (Option.some_ne_none s')

/-- **A step that meets the condition** keeps the invariant. -/
theorem Sound.step (hs : s.Sound) (h : s.step op = some s') (hm : s.Meets op) : s'.Sound := by
  cases op with
  | initializes b =>
    rw [Handles.step] at h
    split at h
    · obtain rfl := Option.some.inj h
      exact Sound.initializes hm
    · exact absurd h.symm (Option.some_ne_none s')
  | next b =>
    rcases QsmpConnectionSet.next_cases s.table with
      ⟨k, hk, hfull, -, hnext⟩ | ⟨hfull, hroom, hnext⟩ | ⟨-, -, hnext⟩
    · obtain ⟨a, ha, rfl⟩ := step_next_free hfull hnext h
      exact hs.grants ha (fun i => (QsmpConnectionSet.active_activated hk).1) hk (Nat.le_refl _)
    · obtain ⟨-, rfl⟩ := step_next_full hfull hnext h
      refine hs.grants (hm hfull hroom) (fun i => QsmpConnectionSet.active_extended.1) ?_ ?_
      all_goals rw [QsmpConnectionSet.length_extended]
      · exact Nat.lt_succ_self _
      · exact Nat.le_succ _
    · simp only [Handles.step, hnext] at h
      obtain rfl := Option.some.inj h
      exact hs
  | reset n =>
    rw [Handles.step] at h
    split at h
    · rename_i a i ha hi
      obtain rfl := Option.some.inj h
      rw [qsmpConnectionsReset, hi]
      exact hs.frees ha
    · obtain rfl := Option.some.inj h
      exact hs
  | writes n cns =>
    rw [Handles.step] at h
    split at h
    · split at h
      · obtain rfl := Option.some.inj h
        exact hs.writes
      · exact absurd h.symm (Option.some_ne_none s')
    · exact absurd h.symm (Option.some_ne_none s')

/-- **Only such a step loses no handle.** -/
theorem Sound.meets (hs : s.Sound) (h : s.step op = some s') (hd : s'.Denote) : s.Meets op := by
  cases op with
  | initializes b =>
    rw [Handles.step] at h
    split at h
    · rename_i hfree
      obtain rfl := Option.some.inj h
      intro l hl
      by_contra hended
      rw [Bool.not_eq_true] at hended
      have hconset := (hs.live l hl hended).1
      -- The block of the table is in use, so that the new one is another.
      have hb : some b = some l.stage := (hd l hl hended).conset
      exact hs.heap_ne_none (hconset.trans hb.symm) hfree
    · exact absurd h.symm (Option.some_ne_none s')
  | next b =>
    intro hfull hroom
    rcases QsmpConnectionSet.next_cases s.table with
      ⟨k, -, hnot, -⟩ | ⟨-, -, hnext⟩ | ⟨-, hfilled, -⟩
    · exact absurd (hnot.symm.trans hfull) Bool.false_ne_true
    · obtain ⟨-, rfl⟩ := step_next_full hfull hnext h
      have hpos : 0 < s.table.length := by
        rcases hs.stored with ⟨-, hpos⟩ | ⟨-, hmax⟩
        · exact hpos
        · omega
      -- All slots are active, and the handle of the first is lost if the block moves.
      obtain ⟨l, hl, -, hended⟩ := hs.held 0 (QsmpConnectionSet.full_iff.1 hfull 0 hpos)
      have hconset := (hs.live l hl hended).1
      have hb : some b = some l.stage := (hd l (List.mem_append_left _ hl) hended).conset
      exact hconset.trans hb.symm
    · omega
  | reset n => trivial
  | writes n cns => trivial

end Handles

/-- **When the handles hold**, over every history of the table: each live
handle denotes the record of its slot throughout, exactly when no growth
moves the block and the table is not initialised again while a handle is
live. -/
theorem handles_denote_iff (ops : List StorageOp) :
    (∀ s, Visits Handles.step .initial ops s → s.Denote) ↔
      Along Handles.step (fun s op _ => s.Meets op) .initial ops := by
  rw [← along_iff_visits Handles.sound_initial.denote]
  exact along_iff_along (fun _ _ _ hs h hd => hs.step h (hs.meets h hd))
    (fun _ _ _ hs h => ⟨hs.meets h, fun hm => (hs.step h hm).denote⟩) Handles.sound_initial

/-! ## The first growth that moves the block -/

namespace Handles

variable {s : Handles} {k : ℕ}

/-- Each slot of the first table is handed out, and then one more, for
which the allocator returns another block. -/
def growth : List StorageOp :=
  .initializes 0 :: (List.replicate connectionsInit (.next 0) ++ [.next 1])

/-- The state of a table of which the first `k` slots are handed out. -/
structure Filled (s : Handles) (k : ℕ) : Prop where
  sound : s.Sound
  conset : s.conset = some 0
  others : ∀ b, b ≠ 0 → s.heap b = none
  length : s.table.length = connectionsInit
  maximum : s.table.maximum = connectionsMax
  active : ∀ i, qsmpConnectionsActive s.table i = true ↔ i < k

theorem filled_initialized : ∃ s, initial.step (.initializes 0) = some s ∧ s.Filled 0 := by
  have hstep : initial.step (.initializes 0) = some ⟨.hold initial.heap
      (qsmpConnectionsInitialize initial.table connectionsInit connectionsMax) 0,
        initial.handles⟩ := by
    rw [step, if_pos]
    rfl
  refine ⟨_, hstep, sound_initial.step hstep fun l hl => absurd hl List.not_mem_nil, rfl, ?_, ?_,
    ?_, ?_⟩
  · intro b hb
    exact Function.update_of_ne hb _ _
  · rw [Storage.table_hold, QsmpConnectionSet.length_initialized connections_sizes]
  · rw [Storage.table_hold, QsmpConnectionSet.maximum_initialized connections_sizes]
  · intro i
    rw [Storage.table_hold, QsmpConnectionSet.active_initialized connections_sizes]
    exact iff_of_false Bool.false_ne_true (Nat.not_lt_zero i)

theorem Filled.next (hs : s.Filled k) (hk : k < connectionsInit) :
    ∃ s', s.step (.next 0) = some s' ∧ s'.Filled (k + 1) := by
  have hlt : k < s.table.length := hk.trans_eq hs.length.symm
  have hfree : qsmpConnectionsActive s.table k = false := by
    rw [← Bool.not_eq_true, hs.active]
    exact Nat.lt_irrefl k
  have hnext := QsmpConnectionSet.next_eq hlt hfree fun j hj => (hs.active j).2 hj
  have hfull : qsmpConnectionsFull s.table = false := by
    rw [← Bool.not_eq_true, QsmpConnectionSet.full_iff]
    exact fun h => Bool.false_ne_true (hfree.symm.trans (h k hlt))
  have hstep : s.step (.next 0) =
      some ⟨.hold s.released (s.table.activated k) 0, s.handles ++ [⟨k, 0, false⟩]⟩ := by
    simp only [step, hnext, hfull, Bool.false_eq_true, if_false, hs.conset, Option.map_some]
  refine ⟨_, hstep, hs.sound.step hstep fun h => absurd (hfull.symm.trans h) Bool.false_ne_true,
    rfl, ?_, ?_, ?_, ?_⟩
  · intro b hb
    have hreleased : s.released b = s.heap b := by
      rw [Storage.released, hs.conset]
      exact Function.update_of_ne hb _ _
    exact (Function.update_of_ne hb _ _).trans (hreleased.trans (hs.others b hb))
  · rw [Storage.table_hold]
    exact hs.length
  · rw [Storage.table_hold]
    exact hs.maximum
  · intro i
    rw [Storage.table_hold, QsmpConnectionSet.active_activated hlt, hs.active i]
    omega

theorem Filled.run {m : ℕ} (hs : s.Filled k) (hm : k + m ≤ connectionsInit) :
    ∃ s', (List.replicate m (StorageOp.next 0)).foldlM step s = some s' ∧ s'.Filled (k + m) := by
  induction m generalizing s k with
  | zero => exact ⟨s, rfl, hs⟩
  | succ m ih =>
    obtain ⟨s₁, hstep, hs₁⟩ := hs.next (by omega)
    obtain ⟨s', hrun, hs'⟩ := ih hs₁ (by omega)
    refine ⟨s', ?_, by rwa [Nat.add_comm m 1, ← Nat.add_assoc]⟩
    rw [List.replicate_succ, List.foldlM_cons, hstep]
    exact hrun

end Handles

/-- The handle of the first slot is lost when the table grows into another
block. -/
theorem not_denote_growth : ¬ ∀ s, Visits Handles.step .initial Handles.growth s → s.Denote := by
  intro h
  obtain ⟨s₀, hinit, hs₀⟩ := Handles.filled_initialized
  obtain ⟨s, hrun, hs⟩ := hs₀.run (m := connectionsInit) (by omega)
  have hfull : qsmpConnectionsFull s.table = true := by
    refine QsmpConnectionSet.full_iff.2 fun i hi => (hs.active i).2 ?_
    rwa [Nat.zero_add, ← hs.length]
  have hpos : 0 < s.table.length := hs.length ▸ Nat.pos_of_ne_zero connections_sizes.1
  have hroom : s.table.length < s.table.maximum := by
    rw [hs.length, hs.maximum]
    simp [connectionsInit, connectionsMax]
  have hstep : s.step (.next 1) =
      some ⟨.hold s.released s.table.extended 1, s.handles ++ [⟨s.table.length, 1, false⟩]⟩ := by
    have hnext : qsmpConnectionsNext s.table = (s.table.extended, some s.table.length) := by
      rw [qsmpConnectionsNext, if_neg (by rw [hfull]; decide), qsmpConnectionsAdd,
        if_pos (Nat.succ_le_of_lt hroom)]
    simp only [Handles.step, hnext, hfull, if_true, hs.others 1 Nat.one_ne_zero, or_true]
  obtain ⟨l, hl, -, hended⟩ := hs.sound.held 0 (QsmpConnectionSet.full_iff.1 hfull 0 hpos)
  have hvisits : Visits Handles.step .initial Handles.growth
      ⟨.hold s.released s.table.extended 1, s.handles ++ [⟨s.table.length, 1, false⟩]⟩ := by
    refine .later hinit (Visits.of_run ?_)
    rw [List.foldlM_append, hrun, Option.bind_eq_bind, Option.bind_some, List.foldlM_cons, hstep]
    rfl
  -- The handle points into block 0, the table lies in block 1.
  have hzero := hs.conset.symm.trans (hs.sound.live l hl hended).1
  have hone : some 1 = some l.stage := (h _ hvisits l (List.mem_append_left _ hl) hended).conset
  exact absurd (Option.some.inj (hzero.trans hone.symm)) Nat.zero_ne_one

end Qsmp
