import Mathlib.Logic.Function.Basic
import Mathlib.Data.Nat.Notation
/-!
# Parties that share a store

Several parties take turns on one machine: each has a state of its own, and
all of them write to and read from one store. What a party gets out of its
operations then depends on what the others have left in the store. A party
that finds there, at each of its operations, what its own operations would
have left of what the operation reads, gets what it would get alone.
-/

namespace Qsmp

/-- The machine: the store all share, and the state of each party. -/
structure Sharing (ι κ σ : Type*) where
  store : κ
  parties : ι → σ

variable {ι κ σ ο ρ ν : Type*} [DecidableEq ι]

/-- What an operation comes to: what the party gets, the store, and the
state of the party. -/
structure Shared (κ σ ρ : Type*) where
  got : ρ
  store : κ
  party : σ

namespace Sharing

/-- A party takes an operation. -/
def step (act : ο → κ → σ → Shared κ σ ρ) (s : Sharing ι κ σ) (i : ι) (o : ο) : Sharing ι κ σ :=
  ⟨(act o s.store (s.parties i)).store,
    Function.update s.parties i (act o s.store (s.parties i)).party⟩

/-- What party `c` gets over a history. -/
def outcomes (act : ο → κ → σ → Shared κ σ ρ) (c : ι) : Sharing ι κ σ → List (ι × ο) → List ρ
  | _, [] => []
  | s, (i, o) :: l =>
    if i = c then (act o s.store (s.parties i)).got :: outcomes act c (s.step act i o) l
    else outcomes act c (s.step act i o) l

/-- What a party gets that is alone with its store. -/
def alone (act : ο → κ → σ → Shared κ σ ρ) : κ → σ → List ο → List ρ
  | _, _, [] => []
  | k, x, o :: l => (act o k x).got :: alone act (act o k x).store (act o k x).party l

/-- The operations of party `c`. -/
def own (c : ι) : List (ι × ο) → List ο
  | [] => []
  | (i, o) :: l => if i = c then o :: own c l else own c l

/-- **The party finds its own**: at each of its operations the store shows
the operation what the store `mine`, which only the party's operations
write to, would show it. -/
def FindsOwn (act : ο → κ → σ → Shared κ σ ρ) (view : ο → σ → κ → ν) (c : ι) :
    κ → Sharing ι κ σ → List (ι × ο) → Prop
  | _, _, [] => True
  | mine, s, (i, o) :: l =>
    if i = c then
      view o (s.parties i) s.store = view o (s.parties i) mine ∧
        FindsOwn act view c (act o mine (s.parties i)).store (s.step act i o) l
    else FindsOwn act view c mine (s.step act i o) l

variable {act : ο → κ → σ → Shared κ σ ρ} {view : ο → σ → κ → ν} {c : ι} {s : Sharing ι κ σ}
variable {l l' : List (ι × ο)}

/-- An operation moves the party that takes it, -/
theorem step_self {o : ο} :
    (s.step act c o).parties c = (act o s.store (s.parties c)).party :=
  Function.update_self ..

/-- and no other. -/
theorem step_of_ne {i : ι} (h : i ≠ c) {o : ο} : (s.step act i o).parties c = s.parties c :=
  Function.update_of_ne h.symm ..

/-- **A party that finds its own** gets what it would get alone, if an
operation depends on the store by what it reads of it. -/
theorem outcomes_eq_alone (hview : ∀ o x k k', view o x k = view o x k' →
    (act o k x).got = (act o k' x).got ∧ (act o k x).party = (act o k' x).party)
    {mine : κ} (h : FindsOwn act view c mine s l) :
    outcomes act c s l = alone act mine (s.parties c) (own c l) := by
  induction l generalizing mine s with
  | nil => rfl
  | cons head l ih =>
    obtain ⟨i, o⟩ := head
    by_cases hi : i = c
    · subst hi
      rw [FindsOwn, if_pos rfl] at h
      obtain ⟨hsame, hrest⟩ := h
      obtain ⟨hgot, hparty⟩ := hview o (s.parties i) s.store mine hsame
      rw [outcomes, if_pos rfl, own, if_pos rfl, alone, hgot, ih hrest, step_self, hparty]
    · rw [FindsOwn, if_neg hi] at h
      rw [outcomes, if_neg hi, own, if_neg hi, ih h, step_of_ne hi]

/-- **Isolation**: the operations of the others make no difference to a
party that finds its own in both histories. -/
theorem outcomes_eq (hview : ∀ o x k k', view o x k = view o x k' →
    (act o k x).got = (act o k' x).got ∧ (act o k x).party = (act o k' x).party)
    (hown : own c l = own c l') (h : FindsOwn act view c s.store s l)
    (h' : FindsOwn act view c s.store s l') : outcomes act c s l = outcomes act c s l' := by
  rw [outcomes_eq_alone hview h, outcomes_eq_alone hview h', hown]

end Sharing

end Qsmp
