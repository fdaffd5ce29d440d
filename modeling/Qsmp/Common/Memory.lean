import Mathlib.Data.List.GetD
import Mathlib.Tactic.Common
/-!
# Memory behind a pointer

A pointer is what a C function sees through it: the byte at every offset.
Reads and writes are total, so an access past an object reads whatever
lies there and a write past it lands there; whether an access stays
inside the object is a statement about offsets, made where it is needed.
-/

namespace Qsmp

/-- A string of bytes. -/
abbrev Bytes := List UInt8

/-- The contents of a fixed array of `n` bytes. -/
abbrev Octets (n : ℕ) := {bs : Bytes // bs.length = n}

/-- The cleared array. -/
def Octets.zero (n : ℕ) : Octets n := ⟨List.replicate n 0, List.length_replicate⟩

/-- An array that repeats one byte. -/
def Octets.repeated (n : ℕ) (b : UInt8) : Octets n := ⟨List.replicate n b, List.length_replicate⟩

/-- The memory one pointer addresses, by offset. -/
abbrev Mem := ℕ → UInt8

namespace Mem

/-- Cleared memory. -/
def zero : Mem := fun _ => 0

/-- The pointer `p + k`. -/
def shift (p : Mem) (k : ℕ) : Mem := fun i => p (k + i)

/-- The memory after what the pointer `p + k` addresses has become `q`. -/
def unshift (p : Mem) (k : ℕ) (q : Mem) : Mem := fun i => if i < k then p i else q (i - k)

/-- The `n` bytes from offset `off` on. -/
def read (p : Mem) (off n : ℕ) : Bytes := (List.range n).map fun i => p (off + i)

/-- The memory after `bs` is stored from offset `off` on. -/
def write (p : Mem) (off : ℕ) (bs : Bytes) : Mem :=
  fun i => if off ≤ i ∧ i < off + bs.length then bs.getD (i - off) 0 else p i

/-- The memory after single bytes are stored one after the other, each at
its place. -/
def storeAll (p : Mem) (stores : List (ℕ × UInt8)) : Mem :=
  stores.foldl (fun p s => p.write s.1 [s.2]) p

/-- The memory after `n` bytes from `off` on are cleared. -/
def clear (p : Mem) (off n : ℕ) : Mem := p.write off (List.replicate n 0)

variable {p : Mem} {off k n m : ℕ} {bs cs : Bytes}

@[simp] theorem length_read : (p.read off n).length = n := by simp [read]

@[simp] theorem read_zero_len : p.read off 0 = [] := rfl

@[simp] theorem getElem_read {i : ℕ} (h : i < (p.read off n).length) :
    (p.read off n)[i] = p (off + i) := by simp [read]

/-- Equal reads are of equal bytes. -/
theorem eq_of_read {q : Mem} {off' i : ℕ} (h : p.read off n = q.read off' n) (hi : i < n) :
    p (off + i) = q (off' + i) := by
  have hget : (p.read off n)[i]? = (q.read off' n)[i]? := by rw [h]
  rw [List.getElem?_eq_getElem (by simpa using hi), List.getElem?_eq_getElem (by simpa using hi),
    getElem_read, getElem_read] at hget
  exact Option.some.inj hget

theorem mem_read {i : ℕ} (h : i < n) : p (off + i) ∈ p.read off n :=
  List.mem_map.mpr ⟨i, List.mem_range.mpr h, rfl⟩

@[simp] theorem shift_apply {i : ℕ} : p.shift k i = p (k + i) := rfl

@[simp] theorem shift_read : (p.shift k).read off n = p.read (k + off) n := by
  simp [read, Nat.add_assoc]

/-- The array of `n` bytes from offset `off` on. -/
def octets (p : Mem) (off n : ℕ) : Octets n := ⟨p.read off n, length_read⟩

@[simp] theorem octets_val : (p.octets off n).val = p.read off n := rfl

theorem read_add : p.read off (m + n) = p.read off m ++ p.read (off + m) n := by
  simp only [read, List.range_add, List.map_append, List.map_map, List.append_cancel_left_eq]
  exact List.map_congr_left fun i _ => by simp [Nat.add_assoc]

theorem read_succ : p.read off (n + 1) = p off :: p.read (off + 1) n := by
  rw [Nat.add_comm n 1, read_add]
  simp [read]

/-- Two reads agree when the memories agree on the bytes read. -/
theorem read_congr {q : Mem} {off' : ℕ} (h : ∀ i, i < n → p (off + i) = q (off' + i)) :
    p.read off n = q.read off' n :=
  List.map_congr_left fun i hi => h i (List.mem_range.1 hi)

theorem write_of_lt {i : ℕ} (h : i < off) : p.write off bs i = p i := by
  rw [write, if_neg]; omega

theorem write_of_ge {i : ℕ} (h : off + bs.length ≤ i) : p.write off bs i = p i := by
  rw [write, if_neg]; omega

theorem write_add {i : ℕ} (h : i < bs.length) : p.write off bs (off + i) = bs[i] := by
  rw [write, if_pos ⟨by omega, by omega⟩, Nat.add_sub_cancel_left, List.getD_eq_getElem _ _ h]

/-- A byte among those cleared. -/
theorem clear_of_lt {i : ℕ} (h : i < n) : p.clear off n (off + i) = 0 := by
  rw [clear, write_add (by rwa [List.length_replicate]), List.getElem_replicate]

theorem clear_of_ge {i : ℕ} (h : off + n ≤ i) : p.clear off n i = p i :=
  write_of_ge (by rwa [List.length_replicate])

@[simp] theorem write_nil : p.write off [] = p := by
  funext i
  rw [write, if_neg]
  simp only [List.length_nil, Nat.add_zero]
  omega

/-- Storing a string is storing its two parts one after the other. -/
theorem write_append :
    p.write off (bs ++ cs) = (p.write off bs).write (off + bs.length) cs := by
  funext i
  simp only [write, List.length_append]
  by_cases h₁ : off ≤ i ∧ i < off + bs.length
  · rw [if_pos (by omega), if_neg (by omega), if_pos h₁, List.getD_append _ _ _ _ (by omega)]
  · by_cases h₂ : off + bs.length ≤ i ∧ i < off + bs.length + cs.length
    · rw [if_pos (by omega), if_pos h₂, List.getD_append_right _ _ _ _ (by omega)]
      congr 1; omega
    · rw [if_neg (by omega), if_neg h₂, if_neg h₁]

@[simp] theorem storeAll_nil : p.storeAll [] = p := rfl

@[simp] theorem storeAll_cons {s : ℕ × UInt8} {l : List (ℕ × UInt8)} :
    p.storeAll (s :: l) = (p.write s.1 [s.2]).storeAll l := rfl

@[simp] theorem storeAll_append {l l' : List (ℕ × UInt8)} :
    p.storeAll (l ++ l') = (p.storeAll l).storeAll l' := List.foldl_append

/-- Storing a string byte by byte. -/
theorem write_cons (b : UInt8) (bs : Bytes) :
    p.write off (b :: bs) = (p.write off [b]).write (off + 1) bs := by
  rw [← List.singleton_append, write_append, List.length_singleton]

/-- **What was stored is what is read**, at any place inside it. -/
theorem read_write_inside (h : k + n ≤ bs.length) :
    (p.write off bs).read (off + k) n = (bs.drop k).take n := by
  refine List.ext_getElem (by simp; omega) fun i h₁ h₂ => ?_
  simp only [length_read] at h₁
  rw [getElem_read, Nat.add_assoc, write_add (by omega)]
  simp

/-- A read from the place of the store, no longer than the store. -/
theorem read_write_start (h : n ≤ bs.length) : (p.write off bs).read off n = bs.take n := by
  have hin : (p.write off bs).read (off + 0) n = (bs.drop 0).take n :=
    read_write_inside (by omega)
  rwa [List.drop_zero] at hin

/-- The whole of the store. -/
@[simp] theorem read_write_self : (p.write off bs).read off bs.length = bs := by
  rw [read_write_start (Nat.le_refl _), List.take_length]

/-- The whole of a store whose length is known. -/
theorem read_write_of_length (h : bs.length = n) : (p.write off bs).read off n = bs := by
  rw [← h, read_write_self]

/-- A string laid out right behind another. -/
theorem write_behind (h : bs.length = n) : (p.write 0 bs).write n cs = p.write 0 (bs ++ cs) := by
  rw [write_append, Nat.zero_add, h]

/-- A read below the store does not see it. -/
theorem read_write_below (h : k + n ≤ off) : (p.write off bs).read k n = p.read k n :=
  read_congr fun i hi => write_of_lt (by omega)

/-- Nor does one above it. -/
theorem read_write_above (h : off + bs.length ≤ k) :
    (p.write off bs).read k n = p.read k n :=
  read_congr fun i _ => write_of_ge (by omega)

/-- What is written behind a text is read behind it. -/
theorem read_write_behind (h : p.read 0 off = cs) (hk : k ≤ bs.length) :
    (p.write off bs).read 0 (off + k) = cs ++ bs.take k := by
  rw [read_add, Nat.zero_add, read_write_below (by omega), h, read_write_start hk]

/-- The whole of it. -/
theorem read_write_next (h : p.read 0 off = cs) :
    (p.write off bs).read 0 (off + bs.length) = cs ++ bs := by
  rw [read_write_behind h (Nat.le_refl _), List.take_length]

/-- **A store through a shifted pointer** is a store further on. -/
theorem shift_write : (p.shift k).write off bs = (p.write (k + off) bs).shift k := by
  funext i
  simp only [write, shift_apply]
  by_cases hin : off ≤ i ∧ i < off + bs.length
  · rw [if_pos hin, if_pos (by omega), show k + i - (k + off) = i - off by omega]
  · rw [if_neg hin, if_neg (by omega)]

/-- Going back to the unshifted pointer. -/
theorem unshift_shift {q : Mem} (h : ∀ i, i < k → p i = q i) : p.unshift k (q.shift k) = q := by
  funext i
  rw [unshift]
  split
  · rename_i hi
    exact h i hi
  · rw [shift_apply, show k + (i - k) = i by omega]

theorem unshift_write : p.unshift k ((p.shift k).write off bs) = p.write (k + off) bs := by
  rw [shift_write, unshift_shift fun i hi => (write_of_lt (by omega)).symm]

theorem read_unshift_below {q : Mem} (h : m + n ≤ k) : (p.unshift k q).read m n = p.read m n :=
  read_congr fun i hi => if_pos (by omega)

theorem read_unshift {q : Mem} : (p.unshift k q).read k n = q.read 0 n :=
  read_congr fun i _ => by
    rw [unshift, if_neg (by omega), Nat.add_sub_cancel_left, Nat.zero_add]

/-- A part of what is read. -/
theorem read_of_read (h : p.read 0 m = bs) (hle : k + n ≤ m) :
    p.read k n = (bs.drop k).take n := by
  rw [← h]
  refine List.ext_getElem (by simp; omega) fun i h₁ h₂ => ?_
  rw [getElem_read, List.getElem_take, List.getElem_drop, getElem_read, Nat.zero_add]

/-- A part that stands between two others. -/
theorem read_middle {as : Bytes} (h : p.read 0 m = as ++ (bs ++ cs)) (has : as.length = k)
    (hbs : bs.length = n) : p.read k n = bs := by
  have hm : k + n ≤ m := by
    have hlength := congrArg List.length h
    rw [length_read, List.length_append, List.length_append] at hlength
    omega
  rw [read_of_read h hm, List.drop_left' has, List.take_left' hbs]

end Mem

end Qsmp
