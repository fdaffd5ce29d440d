import Mathlib.Data.Nat.Notation
/-!
# Schedules of steps that commute

A relation in which any two steps out of a state lead to one state again.
Whichever step is taken first, a terminal state that some schedule reaches
is reached by all of them, in the same number of steps.
-/

namespace Qsmp

variable {α : Type} {R : α → α → Prop} {n m : ℕ} {a b t : α}

/-- A schedule of `n` steps. -/
inductive Steps (R : α → α → Prop) : ℕ → α → α → Prop
  | refl (a : α) : Steps R 0 a a
  | head {n : ℕ} {a b c : α} (step : R a b) (rest : Steps R n b c) : Steps R (n + 1) a c

/-- Two steps out of a state are the same step, or each can be followed by
the other. -/
def Commutes (R : α → α → Prop) : Prop :=
  ∀ a b c, R a b → R a c → b = c ∨ ∃ d, R b d ∧ R c d

/-- No step is left. -/
def Terminal (R : α → α → Prop) (a : α) : Prop := ∀ b, ¬ R a b

theorem Steps.trans {c : α} (h₁ : Steps R n a b) (h₂ : Steps R m b c) :
    Steps R (n + m) a c := by
  induction h₁ with
  | refl a =>
    rw [Nat.zero_add]
    exact h₂
  | head step rest ih =>
    rw [Nat.add_right_comm]
    exact .head step (ih h₂)

/-- A step off a schedule to a terminal state joins it again, one step
shorter. -/
theorem Steps.after_step (hR : Commutes R) (h : Steps R n a t) (ht : Terminal R t)
    (hb : R a b) : ∃ k, n = k + 1 ∧ Steps R k b t := by
  -- The step off the schedule is pushed through it, one diamond at a time.
  induction h generalizing b with
  | refl a => exact absurd hb (ht b)
  | @head n a c t step rest ih =>
    obtain rfl | ⟨d, hbd, hcd⟩ := hR a b c hb step
    · exact ⟨n, rfl, rest⟩
    · obtain ⟨k, rfl, hdt⟩ := ih ht hcd
      exact ⟨k + 1, rfl, .head hbd hdt⟩

/-- **Every schedule joins.** -/
theorem Steps.after_steps (hR : Commutes R) (h : Steps R n a t) (ht : Terminal R t)
    (hb : Steps R m a b) : ∃ k, n = m + k ∧ Steps R k b t := by
  induction hb generalizing n with
  | refl a => exact ⟨n, (Nat.zero_add n).symm, h⟩
  | head step rest ih =>
    obtain ⟨k, rfl, hk⟩ := h.after_step hR ht step
    obtain ⟨j, rfl, hj⟩ := ih hk
    exact ⟨j, by omega, hj⟩

/-- Every schedule comes to an end, and where it ends `Q` holds. -/
def Inevitably (R : α → α → Prop) (Q : α → Prop) (a : α) : Prop :=
  (∃ n, ∀ m b, Steps R m a b → m ≤ n) ∧ ∀ m b, Steps R m a b → Terminal R b → Q b

/-- **One schedule decides.** Where steps commute, what holds at the end of
one schedule holds at the end of each. -/
theorem inevitably_of_steps {Q : α → Prop} (hR : Commutes R) (h : Steps R n a t)
    (ht : Terminal R t) (hQ : Q t) : Inevitably R Q a := by
  refine ⟨⟨n, fun m b hb => ?_⟩, fun m b hb hterm => ?_⟩
  · obtain ⟨k, hk, -⟩ := h.after_steps hR ht hb
    omega
  · obtain ⟨k, -, hbt⟩ := h.after_steps hR ht hb
    cases hbt with
    | refl => exact hQ
    | head step rest => exact absurd step (hterm _)

end Qsmp
