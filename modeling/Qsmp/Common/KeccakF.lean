import Mathlib.Algebra.Group.Fin.Basic
import Mathlib.Algebra.GroupWithZero.Nat
import Mathlib.Data.Fintype.EquivFin
import Mathlib.Data.Fintype.Pi
import Mathlib.Logic.Function.Iterate
import Mathlib.Tactic.FinCases
/-!
# The Keccak permutations

The state is five by five lanes of `w` bits, and a round is the composition
of five maps of it. Each map loses nothing, so the permutation is one. That
the first does not is the only fact that depends on the number of bits of a
lane, which has to be a power of two: the parities of the columns go through
a linear map whose square is a map of the same shape.
-/

namespace Qsmp

namespace KeccakF

/-- There are columns, and rows. -/
instance neZeroFive : NeZero 5 := ⟨by decide⟩

/-- A state: the bit `z` of the lane in column `x` of row `y`. -/
abbrev Lanes (w : ℕ) := Fin 5 → Fin 5 → Fin w → Bool

variable {w : ℕ} [NeZero w]

/-! ## The five maps -/

/-- The parities of the columns. -/
def parity (A : Lanes w) (x : Fin 5) (z : Fin w) : Bool :=
  A x 0 z ^^ A x 1 z ^^ A x 2 z ^^ A x 3 z ^^ A x 4 z

/-- θ: the parities of two columns are added to each bit. -/
def theta (A : Lanes w) : Lanes w := fun x y z =>
  A x y z ^^ (parity A (x - 1) z ^^ parity A (x + 1) (z - 1))

/-- The place of a lane after a step of ρ's walk, which begins at `(1, 0)`. -/
def walk (p : Fin 5 × Fin 5) : Fin 5 × Fin 5 := (p.2, 2 * p.1 + 3 * p.2)

/-- By how much ρ rotates a lane: by the triangular number of the step of
the walk that meets it, and not at all in the middle. -/
def offset (x y : Fin 5) : ℕ :=
  ((List.iterate walk (1, 0) 24).findIdx? (· = (x, y))).elim 0 fun t => (t + 1) * (t + 2) / 2

/-- ρ: the lanes are rotated. -/
def rho (A : Lanes w) : Lanes w := fun x y z => A x y (z - Fin.ofNat w (offset x y))

/-- π: the lanes change places. -/
def pi (A : Lanes w) : Lanes w := fun x y => A (x + 3 * y) x

/-- χ, of one row of bits. -/
def chiRow (r : Fin 5 → Bool) (x : Fin 5) : Bool := r x ^^ (!r (x + 1) && r (x + 2))

/-- χ: the only map that is not linear. -/
def chi (A : Lanes w) : Lanes w := fun x y z => chiRow (fun x => A x y z) x

/-- ι: a constant is added to the first lane. -/
def iota (rc : Fin w → Bool) (A : Lanes w) : Lanes w := fun x y z =>
  if x = 0 ∧ y = 0 then A x y z ^^ rc z else A x y z

/-- **A round**, with its constant. -/
def round (rc : Fin w → Bool) (A : Lanes w) : Lanes w := iota rc (chi (pi (rho (theta A))))

/-- Rounds one after the other. -/
def rounds (rcs : List (Fin w → Bool)) (A : Lanes w) : Lanes w :=
  rcs.foldl (fun A rc => round rc A) A

/-! ## The constants -/

/-- A step of the shift register, of eight bits. -/
def lfsrStep (r : ℕ) : ℕ := if r * 2 < 256 then r * 2 else (r * 2) ^^^ 0x171

/-- Its output bit after `t` steps. -/
def lfsrBit (t : ℕ) : Bool := lfsrStep^[t] 1 % 2 = 1

/-- The constant of round `i`: seven bits of the register, at the places
one less than a power of two. -/
def constant (i : ℕ) (z : Fin w) : Bool :=
  (List.range 7).any fun j => z.val + 1 = 2 ^ j && lfsrBit (j + 7 * i)

/-! ## θ -/

/-- What θ does to the parities, for a distance of columns and of bits. -/
def spread (a : Fin 5) (n : Fin w) (C : Fin 5 → Fin w → Bool) (x : Fin 5) (z : Fin w) : Bool :=
  C x z ^^ (C (x - a) z ^^ C (x + a) (z - n))

theorem xor_cancel (a b c d e f : Bool) :
    ((a ^^ (b ^^ c)) ^^ ((b ^^ (d ^^ e)) ^^ (c ^^ (e ^^ f)))) = (a ^^ (d ^^ f)) := by
  cases a <;> cases b <;> cases c <;> cases d <;> cases e <;> cases f <;> rfl

/-- **Twice a spread is a spread**, twice as far. -/
theorem spread_spread {a : Fin 5} {n : Fin w} {C : Fin 5 → Fin w → Bool} :
    spread a n (spread a n C) = spread (a + a) (n + n) C := by
  funext x z
  unfold spread
  rw [sub_add_cancel, add_sub_cancel_right, xor_cancel, sub_sub, sub_sub, add_assoc]

/-- A spread that is not across bits undoes itself in three times: there
are five columns, and three steps either way are two the other. -/
theorem spread_zero_cube {a : Fin 5} {C : Fin 5 → Fin w → Bool} :
    spread (a + a) 0 (spread a 0 C) = C := by
  have hcolumns : ∀ a x : Fin 5, x - (a + a) - a = x + (a + a) ∧ x - (a + a) + a = x - a ∧
      x + (a + a) - a = x + a ∧ x + (a + a) + a = x - (a + a) := by decide
  have hbits : ∀ c₀ c₁ c₂ c₃ c₄ : Bool,
      ((c₀ ^^ (c₁ ^^ c₂)) ^^ ((c₃ ^^ (c₄ ^^ c₁)) ^^ (c₄ ^^ (c₂ ^^ c₃)))) = c₀ := by decide
  funext x z
  obtain ⟨h₁, h₂, h₃, h₄⟩ := hcolumns a x
  unfold spread
  rw [sub_zero, sub_zero, h₁, h₂, h₃, h₄, hbits]

/-- **A spread loses nothing**, where a lane has a power of two bits: it
is undone once its distance in bits has come around. -/
theorem spread_injective {l : ℕ} (hw : w = 2 ^ l) (a : Fin 5) (n : Fin w) :
    Function.Injective (spread a n) := by
  have hdouble : ∀ (k : ℕ) (a : Fin 5) (n : Fin w), 2 ^ k * n.val % w = 0 →
      Function.Injective (spread a n) := by
    intro k
    induction k with
    | zero =>
      intro a n hn
      have hzero : n = 0 := by
        rw [pow_zero, Nat.one_mul, Nat.mod_eq_of_lt n.isLt] at hn
        exact Fin.ext hn
      exact hzero ▸ Function.LeftInverse.injective fun C => spread_zero_cube
    | succ k ih =>
      intro a n hn
      have htwice : spread a n ∘ spread a n = spread (a + a) (n + n) :=
        funext fun C => spread_spread
      have hnext := ih (a + a) (n + n) (by
        rw [Fin.val_add, Nat.mul_mod_mod, ← Nat.two_mul, ← Nat.mul_assoc, ← pow_succ, hn])
      rw [← htwice] at hnext
      exact hnext.of_comp
  exact hdouble l a n (by rw [← hw, Nat.mul_mod_right])

theorem theta_eq {A : Lanes w} {x y : Fin 5} {z : Fin w} :
    theta A x y z = (A x y z ^^ (parity A x z ^^ spread 1 1 (parity A) x z)) := by
  have hcancel : ∀ p d : Bool, (p ^^ (p ^^ d)) = d := by decide
  rw [theta, spread, hcancel]

/-- The parities after θ: what is added to a column is added five times. -/
theorem parity_theta {A : Lanes w} : parity (theta A) = spread 1 1 (parity A) := by
  have hfive : ∀ a b c d e p s : Bool, (a ^^ b ^^ c ^^ d ^^ e) = p →
      ((a ^^ (p ^^ s)) ^^ (b ^^ (p ^^ s)) ^^ (c ^^ (p ^^ s)) ^^ (d ^^ (p ^^ s)) ^^
        (e ^^ (p ^^ s))) = s := by decide
  funext x z
  rw [parity]
  simp only [theta_eq]
  exact hfive _ _ _ _ _ _ _ rfl

/-- **θ loses nothing.** -/
theorem theta_injective {l : ℕ} (hw : w = 2 ^ l) : Function.Injective (theta (w := w)) := by
  intro A B h
  have hparity : parity A = parity B := by
    refine spread_injective hw 1 1 ?_
    rw [← parity_theta, ← parity_theta, h]
  funext x y z
  have hbit := congrFun (congrFun (congrFun h x) y) z
  rw [theta_eq, theta_eq, hparity] at hbit
  exact Bool.xor_left_inj.1 hbit

/-! ## The other maps -/

theorem rho_injective : Function.Injective (rho (w := w)) := by
  intro A B h
  funext x y z
  have hbit := congrFun (congrFun (congrFun h x) y) (z + Fin.ofNat w (offset x y))
  rw [rho, rho, add_sub_cancel_right] at hbit
  exact hbit

omit [NeZero w] in
theorem pi_injective : Function.Injective (pi (w := w)) := by
  have hplace : ∀ u v : Fin 5, v + 3 * (2 * (u - v)) = u := by decide
  intro A B h
  funext u v
  have hlane := congrFun (congrFun h v) (2 * (u - v))
  rw [pi, pi, hplace] at hlane
  exact hlane

/-- A row of five bits has five equations, which have one solution. -/
theorem chiRow_injective : Function.Injective chiRow := by
  have hsolve : ∀ a₀ a₁ a₂ a₃ a₄ b₀ b₁ b₂ b₃ b₄ : Bool,
      (a₀ ^^ (!a₁ && a₂)) = (b₀ ^^ (!b₁ && b₂)) → (a₁ ^^ (!a₂ && a₃)) = (b₁ ^^ (!b₂ && b₃)) →
      (a₂ ^^ (!a₃ && a₄)) = (b₂ ^^ (!b₃ && b₄)) → (a₃ ^^ (!a₄ && a₀)) = (b₃ ^^ (!b₄ && b₀)) →
      (a₄ ^^ (!a₀ && a₁)) = (b₄ ^^ (!b₀ && b₁)) →
      a₀ = b₀ ∧ a₁ = b₁ ∧ a₂ = b₂ ∧ a₃ = b₃ ∧ a₄ = b₄ := by decide
  intro r s h
  obtain ⟨h₀, h₁, h₂, h₃, h₄⟩ := hsolve (r 0) (r 1) (r 2) (r 3) (r 4) (s 0) (s 1) (s 2) (s 3) (s 4)
    (congrFun h 0) (congrFun h 1) (congrFun h 2) (congrFun h 3) (congrFun h 4)
  funext x
  fin_cases x
  · exact h₀
  · exact h₁
  · exact h₂
  · exact h₃
  · exact h₄

omit [NeZero w] in
theorem chi_injective : Function.Injective (chi (w := w)) := by
  intro A B h
  funext x y z
  have hrow : (fun x => A x y z) = fun x => B x y z :=
    chiRow_injective (funext fun x => congrFun (congrFun (congrFun h x) y) z)
  exact congrFun hrow x

omit [NeZero w] in
theorem iota_injective {rc : Fin w → Bool} : Function.Injective (iota rc) := by
  intro A B h
  funext x y z
  have hbit := congrFun (congrFun (congrFun h x) y) z
  unfold iota at hbit
  split at hbit
  · exact Bool.xor_left_inj.1 hbit
  · exact hbit

/-- **A round is a permutation of the states**, and so are all rounds
together. -/
theorem rounds_bijective {l : ℕ} (hw : w = 2 ^ l) :
    ∀ rcs : List (Fin w → Bool), Function.Bijective (rounds rcs)
  | [] => Function.bijective_id
  | rc :: rcs => by
    have hround : Function.Injective (round rc) :=
      iota_injective.comp (chi_injective.comp (pi_injective.comp
        (rho_injective.comp (theta_injective hw))))
    exact (rounds_bijective hw rcs).comp (Finite.injective_iff_bijective.1 hround)

end KeccakF

end Qsmp
