import Qsmp.Common.Heap
/-!
# Memory helpers

The allocator of the library answers a request of no bytes with a null
pointer, before it asks the system. What the system answers is an
argument: the memory it grants, or nothing.
-/

namespace Qsmp

/-- `qsc_memutils_malloc` -/
def qscMemutilsMalloc (length : ℕ) (grant : Option Mem) : Option Block :=
  if length ≠ 0 then grant.map (Block.mk length) else none

/-- `qsc_memutils_realloc` -/
def qscMemutilsRealloc (block : Block) (length : ℕ) (grant : Option Mem) : Option Block :=
  if length ≠ 0 then grant.map (block.resize length) else none

variable {block : Block} {length : ℕ} {grant : Option Mem}

theorem qscMemutilsMalloc_eq_none : qscMemutilsMalloc length grant = none ↔
    length = 0 ∨ grant = none := by
  by_cases h : length = 0 <;> simp [qscMemutilsMalloc, h]

theorem qscMemutilsRealloc_eq_none : qscMemutilsRealloc block length grant = none ↔
    length = 0 ∨ grant = none := by
  by_cases h : length = 0 <;> simp [qscMemutilsRealloc, h]

/-- What is granted has the length asked for. -/
theorem qscMemutilsMalloc_size {b : Block} (h : qscMemutilsMalloc length grant = some b) :
    b.size = length := by
  rw [qscMemutilsMalloc] at h
  split at h
  · obtain ⟨m, -, rfl⟩ := Option.map_eq_some_iff.1 h
    rfl
  · exact nomatch h

theorem qscMemutilsRealloc_size {b : Block} (h : qscMemutilsRealloc block length grant = some b) :
    b.size = length := by
  rw [qscMemutilsRealloc] at h
  split at h
  · obtain ⟨m, -, rfl⟩ := Option.map_eq_some_iff.1 h
    rfl
  · exact nomatch h

end Qsmp
