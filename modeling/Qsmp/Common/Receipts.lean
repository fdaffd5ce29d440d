import Qsmp.Common.Dialogue
/-!
# What a program makes of one of the things it receives

`OnReceipt bad p i Q R` follows a program to its receive number `i`: where
what comes is `bad` the program returns a value of `Q`, whatever else
happens; where it returns before that receive, `R` holds of the value and
of how many receives it is away.
-/

namespace Qsmp

namespace Dialogue

variable {α β : Type} {bad : ℕ → Bytes → Prop} {p : Dialogue α} {i : ℕ}
variable {Q Q' : α → Prop} {R R' : ℕ → α → Prop}

/-- The receives of an execution, complete or not: the number of bytes asked
for, and the bytes that came. -/
def receipts : List Event → List (ℕ × Bytes)
  | [] => []
  | .received n bs :: tr => (n, bs) :: receipts tr
  | _ :: tr => receipts tr

/-- The program returns, and a value of `Q`. -/
def Returns : Dialogue α → (α → Prop) → Prop
  | done a, Q => Q a
  | fault, _ => False
  | send _ k, Q => ∀ n, Returns (k n) Q
  | recv _ k, Q => ∀ bs, Returns (k bs) Q
  | poll k, Q => ∀ b, Returns (k b) Q
  | shut k, Q => Returns k Q

/-- The program returns a value of `Q` if receive number `i` is `bad`. -/
def OnReceipt (bad : ℕ → Bytes → Prop) : Dialogue α → ℕ → (α → Prop) → (ℕ → α → Prop) → Prop
  | done a, i, _, R => R i a
  | fault, _, _, _ => True
  | send _ k, i, Q, R => ∀ n, OnReceipt bad (k n) i Q R
  | recv n k, 0, Q, _ => ∀ bs, bad n bs → Returns (k bs) Q
  | recv _ k, i + 1, Q, R => ∀ bs, OnReceipt bad (k bs) i Q R
  | poll k, i, Q, R => ∀ b, OnReceipt bad (k b) i Q R
  | shut k, i, Q, R => OnReceipt bad k i Q R

theorem returns_mono (h : ∀ a, Q a → Q' a) : Returns p Q → Returns p Q' := by
  induction p with
  | done a => exact h a
  | fault => exact id
  | send bs k ih => exact fun hp n => ih n (hp n)
  | recv n k ih => exact fun hp bs => ih bs (hp bs)
  | poll k ih => exact fun hp b => ih b (hp b)
  | shut k ih => exact ih

theorem returns_bind {f : α → Dialogue β} {Q : β → Prop} :
    Returns (p.bind f) Q ↔ Returns p fun a => Returns (f a) Q := by
  induction p with
  | done a => exact Iff.rfl
  | fault => exact Iff.rfl
  | send bs k ih => exact forall_congr' ih
  | recv n k ih => exact forall_congr' ih
  | poll k ih => exact forall_congr' ih
  | shut k ih => exact ih

theorem onReceipt_mono (hQ : ∀ a, Q a → Q' a) (hR : ∀ j a, R j a → R' j a) :
    OnReceipt bad p i Q R → OnReceipt bad p i Q' R' := by
  induction p generalizing i with
  | done a => exact hR i a
  | fault => exact id
  | send bs k ih => exact fun hp n => ih n (hp n)
  | recv n k ih =>
    cases i with
    | zero => exact fun hp bs hbad => returns_mono hQ (hp bs hbad)
    | succ i => exact fun hp bs => ih bs (hp bs)
  | poll k ih => exact fun hp b => ih b (hp b)
  | shut k ih => exact ih

/-- **The receive is in the first part of a sequence or in the second**,
where it is nearer by the receives of the first. -/
theorem onReceipt_bind {f : α → Dialogue β} {Q : β → Prop} {R : ℕ → β → Prop} :
    OnReceipt bad (p.bind f) i Q R ↔
      OnReceipt bad p i (fun a => Returns (f a) Q) fun j a => OnReceipt bad (f a) j Q R := by
  induction p generalizing i with
  | done a => exact Iff.rfl
  | fault => exact Iff.rfl
  | send bs k ih => exact forall_congr' fun n => ih n
  | recv n k ih =>
    cases i with
    | zero => exact forall_congr' fun bs => forall_congr' fun _ => returns_bind
    | succ i => exact forall_congr' fun bs => ih bs
  | poll k ih => exact forall_congr' fun b => ih b
  | shut k ih => exact ih

theorem runs_of_returns {tr : List Event} {r : Option α} (h : Runs p tr r) (hp : Returns p Q) :
    ∃ a, r = some a ∧ Q a := by
  induction h with
  | done a => exact ⟨a, rfl, hp⟩
  | fault => exact hp.elim
  | send _ _ ih => exact ih (hp _)
  | recv _ _ ih => exact ih (hp _)
  | poll _ ih => exact ih (hp _)
  | shut _ ih => exact ih hp

/-- **In an execution** whose receive number `i` is bad, the program has
returned a value of `Q`. -/
theorem runs_of_onReceipt {tr : List Event} {r : Option α} (h : Runs p tr r) {i n : ℕ} {bs : Bytes}
    (hp : OnReceipt bad p i Q R) (hi : (receipts tr)[i]? = some (n, bs)) (hbad : bad n bs) :
    ∃ a, r = some a ∧ Q a := by
  induction h generalizing i with
  | done a => exact absurd hi.symm (Option.some_ne_none _)
  | fault => exact absurd hi.symm (Option.some_ne_none _)
  | send _ _ ih => exact ih (hp _) hi
  | recv _ hrest ih =>
    cases i with
    | zero =>
      obtain ⟨rfl, rfl⟩ := Prod.mk.inj (Option.some.inj hi)
      exact runs_of_returns hrest (hp _ hbad)
    | succ i => exact ih (hp _) hi
  | poll _ ih => exact ih (hp _) hi
  | shut _ ih => exact ih hp hi

end Dialogue

end Qsmp
