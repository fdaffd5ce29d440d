import Mathlib.Algebra.Group.Fin.Basic
import Mathlib.Algebra.GroupWithZero.Nat
import Mathlib.Data.FinEnum
import Mathlib.Data.LawfulXor.Basic
import Mathlib.GroupTheory.Perm.List
import Mathlib.Logic.Equiv.Fin.Basic
import Qsmp.Common.Memory
/-!
# The layers of a Rijndael cipher

A round of the cipher substitutes every byte, moves bytes along rows,
mixes each column of four and adds a key. Nothing here knows the block
length or the key schedule. Each layer is shown to be a permutation of
the states: the substitution from the values of its table, the movement
of bytes along a list of places as a cycle of those places, the mixing
because four of them are none, the key addition because two are none.
-/

namespace Qsmp

/-! ## Blocks as functions of the place -/

namespace Octets

variable {n : ℕ}

/-- The byte at a place. -/
def get (s : Octets n) (i : Fin n) : UInt8 := s.val.get (i.cast s.property.symm)

/-- The block with a given byte at every place. -/
def ofFn (f : Fin n → UInt8) : Octets n := ⟨List.ofFn f, List.length_ofFn⟩

@[simp] theorem get_ofFn (f : Fin n → UInt8) : (ofFn f).get = f := by
  funext i
  rw [get, ofFn, List.get_ofFn]
  rfl

@[simp] theorem ofFn_get (s : Octets n) : ofFn s.get = s := by
  obtain ⟨bs, rfl⟩ := s
  exact Subtype.ext (List.ofFn_get bs)

theorem get_eq_getD (s : Octets n) (i : Fin n) : s.get i = s.val.getD i 0 := by
  rw [List.getD_eq_getElem _ _ (by rw [s.property]; exact i.isLt)]
  rfl

/-- A block is its bytes. -/
theorem get_bijective : Function.Bijective (get : Octets n → Fin n → UInt8) :=
  Function.bijective_iff_has_inverse.2 ⟨ofFn, ofFn_get, get_ofFn⟩

/-- A step on the bytes, as a step on blocks. -/
def lift (f : (Fin n → UInt8) → Fin n → UInt8) (s : Octets n) : Octets n := ofFn (f s.get)

@[simp] theorem get_lift (f : (Fin n → UInt8) → Fin n → UInt8) (s : Octets n) :
    (lift f s).get = f s.get := get_ofFn _

theorem bijective_lift {f : (Fin n → UInt8) → Fin n → UInt8} (hf : Function.Bijective f) :
    Function.Bijective (lift f) := by
  have hcomp : get ∘ lift f = f ∘ get := funext fun s => get_lift f s
  refine (Function.Bijective.of_comp_iff' get_bijective (lift f)).1 ?_
  rw [hcomp]
  exact hf.comp get_bijective

end Octets

namespace Rijndael

/-- There are rows. -/
instance neZeroFour : NeZero 4 := ⟨by decide⟩

/-! ## Moving bytes along a list of places -/

section Rows

variable {ι A : Type*} [DecidableEq ι]

/-- `s[a] = s[b]; s[b] = s[c]; …`, and at the last place `tmp`. -/
def moveDown : ι → List ι → A → (ι → A) → ι → A
  | a, [], tmp, s => Function.update s a tmp
  | a, b :: places, tmp, s => moveDown b places tmp (Function.update s a (s b))

/-- `tmp = s[a]`, then every place takes the byte of the next one, and the
last takes `tmp`. -/
def rotateThrough : List ι → (ι → A) → ι → A
  | [], s => s
  | a :: places, s => moveDown a places (s a) s

/-- The state after its bytes have been moved along one list of places
after the other. -/
def rotateAll (rows : List (List ι)) (s : ι → A) : ι → A :=
  rows.foldl (fun s row => rotateThrough row s) s

/-- Moving down reads the state, `tmp` in the place of its first byte,
along the cycle of the places. -/
theorem moveDown_eq : ∀ (places : List ι) (a : ι) (tmp : A) (s : ι → A), (a :: places).Nodup →
    moveDown a places tmp s = Function.update s a tmp ∘ (a :: places).formPerm := by
  intro places
  induction places with
  | nil => intro a tmp s _; simp [moveDown]
  | cons b places ih =>
      intro a tmp s h
      have hab : a ≠ b := by
        rintro rfl
        simp at h
      rw [moveDown, ih b tmp _ h.of_cons, List.formPerm_cons_cons]
      funext i
      simp only [Function.comp_apply, Equiv.Perm.coe_mul]
      generalize (b :: places).formPerm i = j
      -- The swap in front of the cycle takes `a` and `b` apart from the rest.
      by_cases hja : j = a
      · subst hja
        simp [hab, hab.symm]
      · by_cases hjb : j = b
        · subst hjb
          simp
        · simp [Equiv.swap_apply_of_ne_of_ne hja hjb, hja, hjb]

/-- **A row moves along its cycle.** -/
theorem rotateThrough_eq {row : List ι} (h : row.Nodup) (s : ι → A) :
    rotateThrough row s = s ∘ row.formPerm := by
  cases row with
  | nil => simp [rotateThrough]
  | cons a places => rw [rotateThrough, moveDown_eq _ _ _ _ h, Function.update_eq_self]

theorem bijective_rotateThrough {row : List ι} (h : row.Nodup) :
    Function.Bijective (rotateThrough row : (ι → A) → ι → A) := by
  rw [funext fun s : ι → A => rotateThrough_eq h s]
  exact ((row.formPerm.arrowCongr (Equiv.refl A)).symm).bijective

/-- **Any rows that repeat no place** permute the states. -/
theorem bijective_rotateAll {rows : List (List ι)} (h : ∀ row ∈ rows, row.Nodup) :
    Function.Bijective (rotateAll rows : (ι → A) → ι → A) := by
  induction rows with
  | nil => exact Function.bijective_id
  | cons row rows ih =>
      rw [List.forall_mem_cons] at h
      exact (ih h.2).comp (bijective_rotateThrough h.1)

end Rows

/-! ## Substituting bytes by a table -/

/-- The values of a table, as the set bits of a number. -/
def tableMask (table : List UInt8) : ℕ := table.foldl (fun mask b => mask ||| 1 <<< b.toNat) 0

/-- The value of a table at a byte. -/
def lookup (table : List UInt8) (b : UInt8) : UInt8 := table.getD b.toNat 0

theorem testBit_foldl_mask (i : ℕ) : ∀ (table : List UInt8) (mask : ℕ),
    (table.foldl (fun mask b => mask ||| 1 <<< b.toNat) mask).testBit i = true →
      mask.testBit i = true ∨ ∃ b ∈ table, b.toNat = i := by
  intro table
  induction table with
  | nil => intro mask h; exact Or.inl h
  | cons b table ih =>
      intro mask h
      obtain hmask | ⟨c, hc, hci⟩ := ih _ h
      · rw [Nat.testBit_or, Bool.or_eq_true, Nat.one_shiftLeft, Nat.testBit_two_pow,
          decide_eq_true_eq] at hmask
        obtain hmask | hb := hmask
        · exact Or.inl hmask
        · exact Or.inr ⟨b, by simp, hb⟩
      · exact Or.inr ⟨c, by simp [hc], hci⟩

/-- **A table of 256 entries that takes every value** is a permutation of
the bytes. -/
theorem bijective_lookup {table : List UInt8} (hlen : table.length = 256)
    (hmask : tableMask table = 2 ^ 256 - 1) : Function.Bijective (lookup table) := by
  refine Finite.surjective_iff_bijective.1 fun c => ?_
  have hbit : (tableMask table).testBit c.toNat = true := by
    rw [hmask, Nat.testBit_two_pow_sub_one, decide_eq_true_eq]
    exact c.toNat_lt
  obtain hzero | ⟨b, hb, hbc⟩ := testBit_foldl_mask _ _ _ hbit
  · simp at hzero
  · obtain ⟨i, hi, hib⟩ := List.getElem_of_mem hb
    have hi8 : i < 2 ^ 8 := by omega
    refine ⟨UInt8.ofNat i, ?_⟩
    rw [lookup, UInt8.toNat_ofNat_of_lt' hi8, List.getD_eq_getElem _ _ hi, hib]
    exact UInt8.toNat_inj.1 hbc

/-! ## Mixing columns -/

section Mixing

variable {A : Type*} [XorOp A]

/-- The column times `{02} {03} {01} {01}` and its rotations, where `double`
is the product with `{02}`. -/
def mixColumn (double : A → A) (s : Fin 4 → A) : Fin 4 → A := fun i =>
  double (s i) ^^^ (double (s (i + 1)) ^^^ s (i + 1)) ^^^ s (i + 2) ^^^ s (i + 3)

variable [Zero A] [LawfulXor A] {double : A → A}

theorem xor_swap (a b c : A) : a ^^^ (b ^^^ c) = b ^^^ (a ^^^ c) := by
  rw [← xor_assoc, LawfulXor.xor_comm a b, xor_assoc]

/-- Mixing twice: what is left of the products that meet. -/
theorem mixColumn_twice (hadd : ∀ a b, double (a ^^^ b) = double a ^^^ double b)
    (s : Fin 4 → A) (i : Fin 4) :
    mixColumn double (mixColumn double s) i =
      s i ^^^ double (double (s i)) ^^^ double (double (s (i + 2))) := by
  unfold mixColumn
  simp only [hadd, add_assoc, Fin.reduceAdd, add_zero]
  generalize s i = a, s (i + 1) = b, s (i + 2) = c, s (i + 3) = d
  simp only [LawfulXor.xor_comm, xor_swap, xor_cancel_left]

/-- **Mixing four times is mixing not at all**, whatever the doubling, if
only it is additive. -/
theorem mixColumn_four_times (hadd : ∀ a b, double (a ^^^ b) = double a ^^^ double b)
    (s : Fin 4 → A) :
    mixColumn double (mixColumn double (mixColumn double (mixColumn double s))) = s := by
  funext i
  rw [mixColumn_twice hadd]
  simp only [mixColumn_twice hadd s, hadd, add_assoc, Fin.reduceAdd, add_zero]
  simp only [xor_assoc, xor_swap, xor_cancel_left, LawfulXor.xor_self, xor_zero]

theorem bijective_mixColumn (hadd : ∀ a b, double (a ^^^ b) = double a ^^^ double b) :
    Function.Bijective (mixColumn double) :=
  Function.bijective_iff_has_inverse.2
    ⟨fun s => mixColumn double (mixColumn double (mixColumn double s)),
      mixColumn_four_times hadd, mixColumn_four_times hadd⟩

end Mixing

/-- The product with `{02}`: the high bit, when it is shifted out, is
reduced away. -/
def xtime (b : UInt8) : UInt8 := b <<< 1 ^^^ if b >>> 7 = 0 then 0 else 0x1B

/-- Doubling is additive: the high bits add like the bytes. -/
theorem xtime_xor (a b : UInt8) : xtime (a ^^^ b) = xtime a ^^^ xtime b := by
  have hhigh : ∀ c : UInt8, c >>> 7 = 0 ∨ c >>> 7 = 1 := by decide +kernel
  unfold xtime
  rw [UInt8.shiftLeft_xor, UInt8.shiftRight_xor]
  rcases hhigh a with ha | ha <;> rcases hhigh b with hb | hb <;>
    simp [ha, hb, xor_assoc, xor_swap, LawfulXor.xor_comm]

/-! ## Columns of a state -/

section Columns

variable {A : Type*} {m : ℕ}

/-- Column `c` of a state of `m` columns. -/
def column (s : Fin (m * 4) → A) (c : Fin m) : Fin 4 → A := fun r => s (finProdFinEquiv (c, r))

/-- The same function applied to every column. -/
def byColumns (f : (Fin 4 → A) → Fin 4 → A) (s : Fin (m * 4) → A) : Fin (m * 4) → A := fun i =>
  f (column s (finProdFinEquiv.symm i).1) (finProdFinEquiv.symm i).2

@[simp] theorem column_byColumns (f : (Fin 4 → A) → Fin 4 → A) (s : Fin (m * 4) → A)
    (c : Fin m) : column (byColumns f s) c = f (column s c) := by
  funext r
  simp [column, byColumns]

/-- A state is its columns. -/
theorem column_bijective : Function.Bijective (column : (Fin (m * 4) → A) → Fin m → Fin 4 → A) :=
  ((finProdFinEquiv.symm.arrowCongr (Equiv.refl A)).trans (Equiv.curry _ _ _)).bijective

theorem bijective_byColumns {f : (Fin 4 → A) → Fin 4 → A} (hf : Function.Bijective f) :
    Function.Bijective (byColumns f : (Fin (m * 4) → A) → Fin (m * 4) → A) := by
  have hcomp : column ∘ byColumns f = (Pi.map fun _ : Fin m => f) ∘ column :=
    funext fun s => funext fun c => column_byColumns f s c
  refine (Function.Bijective.of_comp_iff' column_bijective _).1 ?_
  rw [hcomp]
  exact (Function.Bijective.piMap fun _ => hf).comp column_bijective

end Columns

/-! ## Keys and rounds -/

/-- Adding a key is undone by adding it again. -/
theorem bijective_addKey {ι A : Type*} [XorOp A] [Zero A] [LawfulXor A] (key : ι → A) :
    Function.Bijective (fun (s : ι → A) i => s i ^^^ key i) :=
  Function.Involutive.bijective fun s => funext fun i => xor_cancel_right (s i) (key i)

/-- **Rounds that are permutations make a permutation.** -/
theorem bijective_foldl {S R : Type*} {round : S → R → S}
    (h : ∀ r, Function.Bijective fun s => round s r) :
    ∀ rounds : List R, Function.Bijective fun s => rounds.foldl round s := by
  intro rounds
  induction rounds with
  | nil => exact Function.bijective_id
  | cons r rounds ih => exact ih.comp (h r)

end Rijndael

end Qsmp
