import Mathlib.Data.List.Basic
/-!
# Leases of numbered slots

A slot is leased, and the lease ends; after that the slot may be leased
again. All leases ever made are kept, in the order they were made, so that
one is named by its place in the list. A slot is held while a lease of it
has not ended, and what a lease carries besides (`α`) is left open.
-/

namespace Qsmp

/-- A lease of a slot, and what its holder is at. -/
structure Lease (α : Type*) where
  slot : ℕ
  stage : α
  ended : Bool
deriving DecidableEq

namespace Lease

variable {α : Type*}

/-- A lease of the slot has not ended. -/
def Held (ls : List (Lease α)) (i : ℕ) : Prop := ∃ l ∈ ls, l.slot = i ∧ l.ended = false

instance {ls : List (Lease α)} {i : ℕ} : Decidable (Held ls i) :=
  inferInstanceAs (Decidable (∃ l ∈ ls, l.slot = i ∧ l.ended = false))

/-- **One at a time**: no slot has two leases that have not ended. -/
def Single (ls : List (Lease α)) : Prop :=
  ∀ (n m : ℕ) (l l' : Lease α), ls[n]? = some l → ls[m]? = some l' → l.slot = l'.slot →
    l.ended = false → l'.ended = false → n = m

/-- The slot is taken back: what leases of it there are end. -/
def revoke (ls : List (Lease α)) (i : ℕ) : List (Lease α) :=
  ls.map fun l => if l.slot = i then { l with ended := true } else l

variable {ls : List (Lease α)} {l l' : Lease α} {i j n : ℕ} {a : α}

theorem held_iff :
    Held ls i ↔ ∃ (n : ℕ) (l : Lease α), ls[n]? = some l ∧ l.slot = i ∧ l.ended = false := by
  constructor
  · rintro ⟨l, hl, h⟩
    obtain ⟨n, hn⟩ := List.mem_iff_getElem?.1 hl
    exact ⟨n, l, hn, h⟩
  · rintro ⟨n, l, hn, h⟩
    exact ⟨l, List.mem_of_getElem? hn, h⟩

/-- A lease changes: what is found at a place is the new one there and the
old one elsewhere. -/
theorem getElem?_set (hn : ls[n]? = some l) {m : ℕ} {x : Lease α}
    (hx : (ls.set n l')[m]? = some x) : (m = n ∧ x = l') ∨ (m ≠ n ∧ ls[m]? = some x) := by
  rw [List.getElem?_set] at hx
  split at hx
  · rename_i hnm
    rw [if_pos (List.getElem?_eq_some_iff.1 hn).1] at hx
    exact .inl ⟨hnm.symm, (Option.some.inj hx).symm⟩
  · rename_i hnm
    exact .inr ⟨fun h => hnm h.symm, hx⟩

theorem getElem?_set_self (hn : ls[n]? = some l) : (ls.set n l')[n]? = some l' :=
  List.getElem?_set_self (List.getElem?_eq_some_iff.1 hn).1

/-! ## A new lease -/

theorem held_grant : Held (ls ++ [⟨i, a, false⟩]) j ↔ Held ls j ∨ j = i := by
  simp only [Held, List.mem_append, List.mem_singleton]
  constructor
  · rintro ⟨l, hl | rfl, hslot, hended⟩
    · exact .inl ⟨l, hl, hslot, hended⟩
    · exact .inr hslot.symm
  · rintro (⟨l, hl, h⟩ | rfl)
    · exact ⟨l, .inl hl, h⟩
    · exact ⟨_, .inr rfl, rfl, rfl⟩

/-- What is found in a longer list is the new lease, at its end, or was
there. -/
theorem getElem?_grant (h : (ls ++ [l])[n]? = some l') :
    (n = ls.length ∧ l' = l) ∨ ls[n]? = some l' := by
  rw [List.getElem?_append] at h
  split at h
  · exact .inr h
  · obtain ⟨hlt, heq⟩ := List.getElem?_eq_some_iff.1 h
    rw [List.length_singleton] at hlt
    rw [List.getElem_singleton] at heq
    exact .inl ⟨by omega, heq.symm⟩

theorem Single.grant (h : Single ls) (hi : ¬ Held ls i) : Single (ls ++ [⟨i, a, false⟩]) := by
  intro n m l l' hn hm hslot hl hl'
  rcases getElem?_grant hn with ⟨rfl, rfl⟩ | hn <;> rcases getElem?_grant hm with ⟨rfl, rfl⟩ | hm
  · rfl
  · exact absurd (held_iff.2 ⟨m, l', hm, hslot.symm, hl'⟩) hi
  · exact absurd (held_iff.2 ⟨n, l, hn, hslot, hl⟩) hi
  · exact h n m l l' hn hm hslot hl hl'

/-! ## A lease whose holder goes on -/

theorem held_set (hn : ls[n]? = some l) (hslot : l'.slot = l.slot) (hended : l'.ended = l.ended) :
    Held (ls.set n l') j ↔ Held ls j := by
  simp only [held_iff]
  constructor
  · rintro ⟨m, x, hx, hj, hfalse⟩
    rcases getElem?_set hn hx with ⟨rfl, rfl⟩ | ⟨-, hx⟩
    · exact ⟨m, l, hn, hslot ▸ hj, hended ▸ hfalse⟩
    · exact ⟨m, x, hx, hj, hfalse⟩
  · rintro ⟨m, x, hx, hj, hfalse⟩
    by_cases hmn : m = n
    · subst hmn
      obtain rfl := Option.some.inj (hn.symm.trans hx)
      exact ⟨m, l', getElem?_set_self hn, hslot.trans hj, hended.trans hfalse⟩
    · exact ⟨m, x, (List.getElem?_set_ne fun h => hmn h.symm).trans hx, hj, hfalse⟩

/-- A change that keeps the slots and revives no lease keeps them single. -/
theorem Single.set (h : Single ls) (hn : ls[n]? = some l) (hslot : l'.slot = l.slot)
    (hended : l'.ended = false → l.ended = false) : Single (ls.set n l') := by
  have old : ∀ {m : ℕ} {x : Lease α}, (ls.set n l')[m]? = some x → x.ended = false →
      ∃ y, ls[m]? = some y ∧ y.slot = x.slot ∧ y.ended = false := by
    intro m x hx hfalse
    rcases getElem?_set hn hx with ⟨rfl, rfl⟩ | ⟨-, hx⟩
    · exact ⟨l, hn, hslot.symm, hended hfalse⟩
    · exact ⟨x, hx, rfl, hfalse⟩
  intro m m' x x' hx hx' hslot hfalse hfalse'
  obtain ⟨y, hy, hyx, hyf⟩ := old hx hfalse
  obtain ⟨y', hy', hyx', hyf'⟩ := old hx' hfalse'
  exact h m m' y y' hy hy' (by rw [hyx, hyx', hslot]) hyf hyf'

/-! ## A lease that ends -/

/-- A lease that ends gives its slot free. -/
theorem held_end (h : Single ls) (hn : ls[n]? = some l) (hl : l.ended = false)
    (hended : l'.ended = true) : Held (ls.set n l') j ↔ Held ls j ∧ j ≠ l.slot := by
  simp only [held_iff]
  constructor
  · rintro ⟨m, x, hx, hj, hfalse⟩
    rcases getElem?_set hn hx with ⟨rfl, rfl⟩ | ⟨hmn, hx⟩
    · exact absurd (hfalse.symm.trans hended) Bool.false_ne_true
    · refine ⟨⟨m, x, hx, hj, hfalse⟩, fun hjl => hmn ?_⟩
      exact h m n x l hx hn (hj.trans hjl) hfalse hl
  · rintro ⟨⟨m, x, hx, hj, hfalse⟩, hjl⟩
    have hmn : n ≠ m := by
      rintro rfl
      obtain rfl := Option.some.inj (hn.symm.trans hx)
      exact hjl hj.symm
    exact ⟨m, x, (List.getElem?_set_ne hmn).trans hx, hj, hfalse⟩

theorem held_revoke : Held (revoke ls i) j ↔ Held ls j ∧ j ≠ i := by
  simp only [Held, revoke, List.mem_map]
  constructor
  · rintro ⟨x, ⟨l, hl, rfl⟩, hj, hfalse⟩
    by_cases hi : l.slot = i
    · rw [if_pos hi] at hfalse
      exact absurd hfalse.symm Bool.false_ne_true
    · rw [if_neg hi] at hj hfalse
      exact ⟨⟨l, hl, hj, hfalse⟩, fun h => hi (hj.trans h)⟩
  · rintro ⟨⟨l, hl, hj, hfalse⟩, hne⟩
    refine ⟨l, ⟨l, hl, ?_⟩, hj, hfalse⟩
    rw [if_neg fun h => hne (hj.symm.trans h)]

theorem getElem?_revoke {x : Lease α} (h : (revoke ls i)[n]? = some x) :
    ∃ l, ls[n]? = some l ∧ x = if l.slot = i then { l with ended := true } else l := by
  rw [revoke, List.getElem?_map] at h
  obtain ⟨l, hl, rfl⟩ := Option.map_eq_some_iff.1 h
  exact ⟨l, hl, rfl⟩

theorem Single.revoke (h : Single ls) : Single (revoke ls i) := by
  have old : ∀ {m : ℕ} {x : Lease α}, (Lease.revoke ls i)[m]? = some x → x.ended = false →
      ls[m]? = some x := by
    intro m x hx hfalse
    obtain ⟨l, hl, rfl⟩ := getElem?_revoke hx
    split at hfalse
    · exact absurd hfalse.symm Bool.false_ne_true
    · rename_i hne
      rw [if_neg hne]
      exact hl
  intro m m' x x' hx hx' hslot hfalse hfalse'
  exact h m m' x x' (old hx hfalse) (old hx' hfalse') hslot hfalse hfalse'

end Lease

end Qsmp
