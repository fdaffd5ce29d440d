import Qsmp.Common.Memory
/-!
# Blocks of a heap, and what is touched in them

A block is memory of a size. Memory is total, so an access past the end
of a block goes through; that it should not have is said of the access: it
records where it begins, how long it is, and the size of the block at the
time. A function that is given a pointer has a footprint, the bytes it
looks at, and memories that agree on those are all one to it.
-/

namespace Qsmp

/-- A block of the heap: its size, and the memory its pointer addresses. -/
structure Block where
  size : ℕ
  mem : Mem

/-- An access to `len` bytes from offset `off` on, in a block of `size`
bytes. -/
structure Access where
  size : ℕ
  off : ℕ
  len : ℕ
deriving DecidableEq, Repr

namespace Block

variable {b : Block} {n : ℕ} {bs : Bytes} {rest : Mem}

/-- The block made `n` bytes long: the bytes it had are kept as far as they
fit, and `rest` is what lies behind them. -/
def resize (b : Block) (n : ℕ) (rest : Mem) : Block :=
  ⟨n, fun i => if i < min b.size n then b.mem i else rest i⟩

/-- The block after its first `n` bytes are cleared. -/
def clear (b : Block) (n : ℕ) : Block := { b with mem := b.mem.clear 0 n }

/-- The block after `bs` is stored at its start. -/
def store (b : Block) (bs : Bytes) : Block := { b with mem := b.mem.write 0 bs }

@[simp] theorem resize_size : (b.resize n rest).size = n := rfl

@[simp] theorem clear_size : (b.clear n).size = b.size := rfl

@[simp] theorem store_size : (b.store bs).size = b.size := rfl

/-- **A block that shrinks or grows keeps what it held** below both sizes. -/
theorem resize_read {off k : ℕ} (h : off + k ≤ min b.size n) :
    (b.resize n rest).mem.read off k = b.mem.read off k :=
  Mem.read_congr fun i hi => if_pos (by omega)

/-- What is stored at the start is read from the start. -/
theorem store_read {k m : ℕ} (h : k + m ≤ bs.length) :
    (b.store bs).mem.read k m = (bs.drop k).take m := by
  have hread : (b.mem.write 0 bs).read (0 + k) m = (bs.drop k).take m := Mem.read_write_inside h
  rwa [Nat.zero_add] at hread

end Block

namespace Access

variable {a : Access} {l m : List Access}

/-- **Every byte of the access lies in the block.** -/
def Inside (a : Access) : Prop := ∀ i, i < a.len → a.off + i < a.size

/-- The bound on the last byte bounds them all. -/
theorem inside_iff : a.Inside ↔ a.len = 0 ∨ a.off + a.len ≤ a.size := by
  constructor
  · intro h
    rcases Nat.eq_zero_or_pos a.len with hzero | hpos
    · exact .inl hzero
    · have hlast := h (a.len - 1) (by omega)
      exact .inr (by omega)
  · rintro (hzero | hle) i hi
    · omega
    · omega

instance : Decidable a.Inside := decidable_of_iff _ inside_iff.symm

/-- An access of some bytes. -/
theorem inside_iff_of_pos (h : 0 < a.len) : a.Inside ↔ a.off + a.len ≤ a.size := by
  rw [inside_iff]
  exact or_iff_right (by omega)

/-- An access from the start of the block. -/
theorem inside_iff_of_off (h : a.off = 0) : a.Inside ↔ a.len ≤ a.size := by
  rw [inside_iff]
  omega

/-- No access of a sequence leaves its block. -/
def AllInside (l : List Access) : Prop := ∀ a ∈ l, a.Inside

@[simp] theorem allInside_nil : AllInside [] := fun _ h => absurd h List.not_mem_nil

@[simp] theorem allInside_cons : AllInside (a :: l) ↔ a.Inside ∧ AllInside l :=
  List.forall_mem_cons

@[simp] theorem allInside_append : AllInside (l ++ m) ↔ AllInside l ∧ AllInside m :=
  List.forall_mem_append

end Access

end Qsmp
