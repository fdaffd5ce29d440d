import Qsmp.Common.Dialogue
/-!
# Preconditions of dialogues

`wp ok asks p Q` says, by recursion on the program, that whatever the other
side does `p` offers only strings that are `ok`, asks only for lengths that
are in `asks`, and returns only values of `Q`. There is a rule for each way
of putting programs together, and `runs_of_wp` reads the precondition back
on executions.
-/

namespace Qsmp

namespace Dialogue

variable {α β : Type} {ok : Bytes → Prop} {asks : ℕ → Prop} {p : Dialogue α} {Q R : α → Prop}

/-- The weakest precondition of a program for the strings it may offer, the
lengths it may ask for and the values it may return. -/
def wp (ok : Bytes → Prop) (asks : ℕ → Prop) : Dialogue α → (α → Prop) → Prop
  | done a, Q => Q a
  | fault, _ => True
  | send bs k, Q => ok bs ∧ ∀ n, wp ok asks (k n) Q
  | recv n k, Q => asks n ∧ ∀ bs, wp ok asks (k bs) Q
  | poll k, Q => ∀ b, wp ok asks (k b) Q
  | shut k, Q => wp ok asks k Q

/-- An event that shows nothing else: a string offered is `ok`, a length
asked for is in `asks`. -/
def Shows (ok : Bytes → Prop) (asks : ℕ → Prop) : Event → Prop
  | .sent bs _ => ok bs
  | .received n bs => asks n ∧ bs.length ≤ n
  | _ => True

/-- A weaker postcondition. -/
theorem wp_mono (h : ∀ a, Q a → R a) : wp ok asks p Q → wp ok asks p R := by
  induction p with
  | done a => exact h a
  | fault => exact id
  | send bs k ih => exact fun hp => ⟨hp.1, fun n => ih n (hp.2 n)⟩
  | recv n k ih => exact fun hp => ⟨hp.1, fun bs => ih bs (hp.2 bs)⟩
  | poll k ih => exact fun hp b => ih b (hp b)
  | shut k ih => exact ih

/-- **The precondition of a sequence** is that of its first part for the
precondition of the second. -/
theorem wp_bind {f : α → Dialogue β} {Q : β → Prop} :
    wp ok asks (p.bind f) Q ↔ wp ok asks p fun a => wp ok asks (f a) Q := by
  induction p with
  | done a => exact Iff.rfl
  | fault => exact Iff.rfl
  | send bs k ih => exact and_congr_right fun _ => forall_congr' ih
  | recv n k ih => exact and_congr_right fun _ => forall_congr' ih
  | poll k ih => exact forall_congr' ih
  | shut k ih => exact ih

/-- The rule of sequence: `R` holds in between. -/
theorem wp_seq {f : α → Dialogue β} {Q : β → Prop} (hp : wp ok asks p R)
    (hf : ∀ a, R a → wp ok asks (f a) Q) : wp ok asks (p.bind f) Q :=
  wp_bind.2 (wp_mono hf hp)

/-- **The precondition is sound.** -/
theorem runs_of_wp {tr : List Event} {r : Option α} (h : Runs p tr r) (hp : wp ok asks p Q) :
    (∀ e ∈ tr, Shows ok asks e) ∧ ∀ a, r = some a → Q a := by
  induction h with
  | done a =>
    refine ⟨List.forall_mem_nil _, fun b hb => ?_⟩
    rw [← Option.some.inj hb]
    exact hp
  | fault => exact ⟨List.forall_mem_nil _, fun b hb => absurd hb.symm (Option.some_ne_none b)⟩
  | send _ _ ih =>
    obtain ⟨hshows, hret⟩ := ih (hp.2 _)
    exact ⟨List.forall_mem_cons.2 ⟨hp.1, hshows⟩, hret⟩
  | recv hle _ ih =>
    obtain ⟨hshows, hret⟩ := ih (hp.2 _)
    exact ⟨List.forall_mem_cons.2 ⟨⟨hp.1, hle⟩, hshows⟩, hret⟩
  | poll _ ih =>
    obtain ⟨hshows, hret⟩ := ih (hp _)
    exact ⟨List.forall_mem_cons.2 ⟨trivial, hshows⟩, hret⟩
  | shut _ ih =>
    obtain ⟨hshows, hret⟩ := ih hp
    exact ⟨List.forall_mem_cons.2 ⟨trivial, hshows⟩, hret⟩

end Dialogue

end Qsmp
