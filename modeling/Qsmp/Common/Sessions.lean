import Mathlib.Data.Set.Insert
import Mathlib.Logic.Relation
import Mathlib.Tactic.Common
/-!
# Sessions over a network an attacker controls

Any number of sessions of one machine run side by side. What a session
sends the attacker learns, and what a session receives the attacker
delivers. The world keeps a log of the steps taken; in a reachable world
every state in the log was opened or stepped into from another one, and no
session is twice at the same rank.
-/

namespace Qsmp

variable {σ μ : Type}

/-- **A machine**: the states a session may open in, with the message it
sends then, and what the session numbered `i` does with a message. A step
raises the rank. -/
structure Machine (σ μ : Type) where
  opens : σ → Option μ → Prop
  receive : ℕ → σ → μ → Option (σ × Option μ)
  rank : σ → ℕ
  rank_receive : ∀ {i s m s' out}, receive i s m = some (s', out) → rank s' = rank s + 1

/-- **An attacker**: the messages it can deliver, having seen a set of
them. It forgets nothing. -/
structure Attacker (μ : Type) where
  delivers : Set μ → μ → Prop
  mono : ∀ {K K' m}, K ⊆ K' → delivers K m → delivers K' m

/-- A step in the log: the session, what it received and in which state, if
it was open already, and the state it went to with the message it sent. -/
structure LogEntry (σ μ : Type) where
  id : ℕ
  before : Option (σ × μ)
  after : σ
  sent : Option μ

/-- **The world**: the state of each session and whether it still runs, and
the log. -/
structure World (σ μ : Type) where
  slots : List (σ × Bool)
  log : List (LogEntry σ μ)

namespace World

/-- Nothing has happened. -/
def empty : World σ μ := ⟨[], []⟩

/-- The messages the attacker has seen. -/
def sent (w : World σ μ) : Set μ := {m | ∃ e ∈ w.log, e.sent = some m}

/-- The session numbered `i` is in the state `s`. -/
def At (w : World σ μ) (i : ℕ) (s : σ) : Prop := ∃ running, w.slots[i]? = some (s, running)

/-- The session numbered `i` has been in the state `s`. -/
def Reached (w : World σ μ) (i : ℕ) (s : σ) : Prop := ∃ e ∈ w.log, e.id = i ∧ e.after = s

/-- A session opens. -/
def opened (w : World σ μ) (s : σ) (out : Option μ) : World σ μ :=
  ⟨w.slots ++ [(s, true)], ⟨w.slots.length, none, s, out⟩ :: w.log⟩

/-- A session takes a message. -/
def stepped (w : World σ μ) (i : ℕ) (s : σ) (m : μ) (s' : σ) (out : Option μ) : World σ μ :=
  ⟨w.slots.set i (s', true), ⟨i, some (s, m), s', out⟩ :: w.log⟩

/-- A session refuses a message, and closes. -/
def refused (w : World σ μ) (i : ℕ) (s : σ) : World σ μ := ⟨w.slots.set i (s, false), w.log⟩

end World

/-- **A step of the world**: a session opens, or takes what the attacker
delivers, or refuses it and closes. -/
inductive World.Step (M : Machine σ μ) (T : Attacker μ) : World σ μ → World σ μ → Prop
  | opens {w : World σ μ} {s : σ} {out : Option μ} (h : M.opens s out) :
      World.Step M T w (w.opened s out)
  | takes {w : World σ μ} {i : ℕ} {s s' : σ} {m : μ} {out : Option μ}
      (running : w.slots[i]? = some (s, true)) (delivered : T.delivers w.sent m)
      (h : M.receive i s m = some (s', out)) : World.Step M T w (w.stepped i s m s' out)
  | refuses {w : World σ μ} {i : ℕ} {s : σ} {m : μ} (running : w.slots[i]? = some (s, true))
      (delivered : T.delivers w.sent m) (h : M.receive i s m = none) :
      World.Step M T w (w.refused i s)

/-- The worlds that can come about. -/
def World.Reachable (M : Machine σ μ) (T : Attacker μ) (w : World σ μ) : Prop :=
  Relation.ReflTransGen (World.Step M T) .empty w

variable {M : Machine σ μ} {T : Attacker μ} {w w' : World σ μ} {i : ℕ} {s s' : σ} {m : μ}
variable {out : Option μ}

/-! ## What a step adds -/

@[simp] theorem World.reached_empty : ¬ (World.empty : World σ μ).Reached i s := by
  rintro ⟨e, he, -⟩
  exact absurd he List.not_mem_nil

theorem World.reached_opened {s₀ : σ} :
    (w.opened s₀ out).Reached i s ↔ (i = w.slots.length ∧ s = s₀) ∨ w.Reached i s := by
  simp only [Reached, opened, List.mem_cons, exists_eq_or_imp]
  exact or_congr_left ⟨fun h => ⟨h.1.symm, h.2.symm⟩, fun h => ⟨h.1.symm, h.2.symm⟩⟩

theorem World.reached_stepped {j : ℕ} {s₀ : σ} :
    (w.stepped j s₀ m s' out).Reached i s ↔ (i = j ∧ s = s') ∨ w.Reached i s := by
  simp only [Reached, stepped, List.mem_cons, exists_eq_or_imp]
  exact or_congr_left ⟨fun h => ⟨h.1.symm, h.2.symm⟩, fun h => ⟨h.1.symm, h.2.symm⟩⟩

/-- The log only grows. -/
theorem World.Step.log_subset (h : World.Step M T w w') : ∀ e ∈ w.log, e ∈ w'.log := by
  intro e he
  cases h with
  | opens h => exact List.mem_cons_of_mem _ he
  | takes running delivered h => exact List.mem_cons_of_mem _ he
  | refuses running delivered h => exact he

theorem World.Step.sent_subset (h : World.Step M T w w') : w.sent ⊆ w'.sent := by
  rintro m ⟨e, he, hm⟩
  exact ⟨e, h.log_subset e he, hm⟩

theorem World.Step.reached (h : World.Step M T w w') (hs : w.Reached i s) : w'.Reached i s := by
  obtain ⟨e, he, hi⟩ := hs
  exact ⟨e, h.log_subset e he, hi⟩

/-! ## The state a session is in -/

theorem World.at_opened {s₀ : σ} (h : (w.opened s₀ out).At i s) :
    (i = w.slots.length ∧ s = s₀) ∨ w.At i s := by
  obtain ⟨running, hslot⟩ := h
  rw [opened, List.getElem?_append] at hslot
  split at hslot
  · exact .inr ⟨running, hslot⟩
  · rename_i hge
    obtain ⟨hlt, heq⟩ := List.getElem?_eq_some_iff.1 hslot
    rw [List.length_singleton] at hlt
    rw [List.getElem_singleton] at heq
    exact .inl ⟨by omega, (congrArg Prod.fst heq).symm⟩

/-- Setting a slot sets its state and leaves the others. -/
theorem World.at_set {j : ℕ} {s₀ : σ} {b : Bool} {log : List (LogEntry σ μ)}
    (h : World.At ⟨w.slots.set j (s₀, b), log⟩ i s) : (i = j ∧ s = s₀) ∨ w.At i s := by
  obtain ⟨running, hslot⟩ := h
  rw [List.getElem?_set] at hslot
  split at hslot
  · rename_i hji
    split at hslot
    · exact .inl ⟨hji.symm, (congrArg Prod.fst (Option.some.inj hslot)).symm⟩
    · exact absurd hslot.symm (Option.some_ne_none _)
  · exact .inr ⟨running, hslot⟩

/-- **A session is in a state it has reached.** -/
theorem World.Reachable.reached (h : World.Reachable M T w) (hs : w.At i s) : w.Reached i s := by
  induction h generalizing i s with
  | refl =>
    obtain ⟨running, hslot⟩ := hs
    exact absurd hslot.symm (Option.some_ne_none _)
  | tail _ hstep ih =>
    cases hstep with
    | opens h => exact World.reached_opened.2 ((World.at_opened hs).imp_right ih)
    | takes running delivered h => exact World.reached_stepped.2 ((World.at_set hs).imp_right ih)
    | refuses running delivered h =>
      obtain ⟨rfl, rfl⟩ | hs := World.at_set hs
      · exact ih ⟨true, running⟩
      · exact ih hs

/-! ## Histories -/

/-- **An entry with a past**: its session opened, or took a message the
attacker could deliver in a state it had reached. -/
inductive World.Justified (M : Machine σ μ) (T : Attacker μ) (w : World σ μ) :
    LogEntry σ μ → Prop
  | opened {i : ℕ} {s : σ} {out : Option μ} (h : M.opens s out) :
      World.Justified M T w ⟨i, none, s, out⟩
  | stepped {i : ℕ} {s s' : σ} {m : μ} {out : Option μ} (reached : w.Reached i s)
      (delivered : T.delivers w.sent m) (h : M.receive i s m = some (s', out)) :
      World.Justified M T w ⟨i, some (s, m), s', out⟩

theorem World.Justified.mono {e : LogEntry σ μ} (h : w.Justified M T e)
    (hstep : World.Step M T w w') : w'.Justified M T e := by
  cases h with
  | opened h => exact .opened h
  | stepped reached delivered h =>
    exact .stepped (hstep.reached reached) (T.mono hstep.sent_subset delivered) h

/-- **Every entry of the log has a past.** -/
theorem World.Reachable.justified (h : World.Reachable M T w) : ∀ e ∈ w.log, w.Justified M T e := by
  induction h with
  | refl => exact fun e he => absurd he List.not_mem_nil
  | @tail w w' hw hstep ih =>
    have hold : ∀ e ∈ w.log, w'.Justified M T e := fun e he => (ih e he).mono hstep
    intro e he
    cases hstep with
    | opens h =>
      obtain rfl | he := List.mem_cons.1 he
      · exact .opened h
      · exact hold e he
    | takes running delivered h =>
      obtain rfl | he := List.mem_cons.1 he
      · have hreached := World.Reachable.reached hw ⟨true, running⟩
        exact (World.Justified.stepped hreached delivered h).mono (.takes running delivered h)
      · exact hold e he
    | refuses running delivered h => exact hold e he

/-! ## Rules

What holds of the states reached, read off the log. -/

/-- **Where a state came from**: its session opened in it, or stepped into
it from a state reached before. -/
theorem World.Reachable.origin (h : World.Reachable M T w) (hs : w.Reached i s) :
    (∃ out, M.opens s out) ∨ ∃ s₀ m out, w.Reached i s₀ ∧ T.delivers w.sent m ∧
      M.receive i s₀ m = some (s, out) := by
  obtain ⟨e, he, rfl, rfl⟩ := hs
  cases h.justified e he with
  | opened h => exact .inl ⟨_, h⟩
  | stepped reached delivered h => exact .inr ⟨_, _, _, reached, delivered, h⟩

/-- **Where a message came from.** -/
theorem World.Reachable.sender (h : World.Reachable M T w) (hm : m ∈ w.sent) :
    ∃ i s, w.Reached i s ∧ (M.opens s (some m) ∨ ∃ s₀ m₀, w.Reached i s₀ ∧
      T.delivers w.sent m₀ ∧ M.receive i s₀ m₀ = some (s, some m)) := by
  obtain ⟨e, he, hsent⟩ := hm
  refine ⟨e.id, e.after, ⟨e, he, rfl, rfl⟩, ?_⟩
  cases h.justified e he with
  | opened h => exact .inl (hsent ▸ h)
  | stepped reached delivered h => exact .inr ⟨_, _, reached, delivered, hsent ▸ h⟩

/-- **Invariants of a session.** What holds when a session opens, and is
kept by its steps, holds in every state reached. -/
theorem World.Reachable.invariant {Q : ℕ → σ → Prop} (h : World.Reachable M T w)
    (hopens : ∀ i s out, M.opens s out → Q i s)
    (hstep : ∀ i s m s' out, Q i s → M.receive i s m = some (s', out) → Q i s')
    (hs : w.Reached i s) : Q i s := by
  induction h generalizing i s with
  | refl => exact absurd hs World.reached_empty
  | tail hw hst ih =>
    cases hst with
    | opens h =>
      obtain ⟨rfl, rfl⟩ | hs := World.reached_opened.1 hs
      · exact hopens _ _ _ h
      · exact ih hs
    | takes running delivered h =>
      obtain ⟨rfl, rfl⟩ | hs := World.reached_stepped.1 hs
      · exact hstep _ _ _ _ _ (ih (World.Reachable.reached hw ⟨true, running⟩)) h
      · exact ih hs
    | refuses running delivered h => exact ih hs

theorem World.At.eq {running : Bool} (hs : w.At i s) (h : w.slots[i]? = some (s', running)) :
    s = s' := by
  obtain ⟨b, hslot⟩ := hs
  exact congrArg Prod.fst (Option.some.inj (hslot.symm.trans h))

theorem World.At.lt (hs : w.At i s) : i < w.slots.length := by
  obtain ⟨b, hslot⟩ := hs
  exact (List.getElem?_eq_some_iff.1 hslot).1

/-- Setting the slot of a session puts it in the state set, and leaves the
others where they are. -/
theorem World.At.set {j : ℕ} {s₀ : σ} {b : Bool} {log : List (LogEntry σ μ)} (hs : w.At i s) :
    (i = j ∧ World.At ⟨w.slots.set j (s₀, b), log⟩ i s₀) ∨
      World.At ⟨w.slots.set j (s₀, b), log⟩ i s := by
  by_cases hij : j = i
  · subst hij
    exact .inl ⟨rfl, b, List.getElem?_set_self hs.lt⟩
  · obtain ⟨b', hslot⟩ := hs
    exact .inr ⟨b', (List.getElem?_set_ne hij).trans hslot⟩

/-- No state reached outranks the one its session is in. -/
theorem World.Reachable.rank_le (h : World.Reachable M T w) (hs : w.Reached i s) :
    ∃ s', w.At i s' ∧ M.rank s ≤ M.rank s' := by
  induction h generalizing i s with
  | refl => exact absurd hs World.reached_empty
  | @tail w w' hw hst ih =>
    cases hst with
    | opens h =>
      obtain ⟨rfl, rfl⟩ | hs := World.reached_opened.1 hs
      · exact ⟨s, ⟨true, List.getElem?_concat_length⟩, Nat.le_refl _⟩
      · obtain ⟨s', hat, hle⟩ := ih hs
        obtain ⟨b, hslot⟩ := hat
        have hlt : i < w.slots.length := (List.getElem?_eq_some_iff.1 hslot).1
        exact ⟨s', ⟨b, (List.getElem?_append_left hlt).trans hslot⟩, hle⟩
    | @takes j s₀ s₁ m out running delivered h =>
      -- The state reached may be the new one, one of this session, or of another.
      obtain ⟨rfl, rfl⟩ | hs := World.reached_stepped.1 hs
      · exact ⟨_, ⟨true, List.getElem?_set_self (World.At.lt ⟨true, running⟩)⟩, Nat.le_refl _⟩
      · obtain ⟨s', hat, hle⟩ := ih hs
        obtain ⟨rfl, hset⟩ | hset : (i = j ∧ (w.stepped j s₀ m s₁ out).At i s₁) ∨
            (w.stepped j s₀ m s₁ out).At i s' := hat.set
        · rw [hat.eq running] at hle
          exact ⟨s₁, hset, by rw [M.rank_receive h]; omega⟩
        · exact ⟨s', hset, hle⟩
    | @refuses j s₀ m running delivered h =>
      obtain ⟨s', hat, hle⟩ := ih hs
      obtain ⟨rfl, hset⟩ | hset : (i = j ∧ (w.refused j s₀).At i s₀) ∨ (w.refused j s₀).At i s' :=
        hat.set
      · rw [hat.eq running] at hle
        exact ⟨s₀, hset, hle⟩
      · exact ⟨s', hset, hle⟩

/-- **A session is once at each rank.** -/
theorem World.Reachable.eq_of_rank (h : World.Reachable M T w) (hs : w.Reached i s)
    (hs' : w.Reached i s') (hrank : M.rank s = M.rank s') : s = s' := by
  induction h generalizing i s s' with
  | refl => exact absurd hs World.reached_empty
  | @tail w w' hw hst ih =>
    cases hst with
    | opens h =>
      -- The new number is one no session had.
      have hnew : ∀ s, ¬ w.Reached w.slots.length s := by
        intro s hs
        obtain ⟨_, hat, -⟩ := World.Reachable.rank_le hw hs
        exact absurd hat.lt (Nat.lt_irrefl _)
      rcases World.reached_opened.1 hs with ⟨rfl, rfl⟩ | hold <;>
        rcases World.reached_opened.1 hs' with ⟨hi, rfl⟩ | hold'
      · rfl
      · exact absurd hold' (hnew _)
      · exact absurd (hi ▸ hold) (hnew _)
      · exact ih hold hold' hrank
    | @takes j s₀ s₁ m out running delivered h =>
      -- The new state outranks all the session has reached.
      have htop : ∀ s, w.Reached j s → M.rank s < M.rank s₁ := by
        intro s hs
        obtain ⟨s', hat, hle⟩ := World.Reachable.rank_le hw hs
        rw [hat.eq running] at hle
        rw [M.rank_receive h]
        omega
      rcases World.reached_stepped.1 hs with ⟨rfl, rfl⟩ | hold <;>
        rcases World.reached_stepped.1 hs' with ⟨hi, rfl⟩ | hold'
      · rfl
      · exact absurd hrank.symm (Nat.ne_of_lt (htop _ hold'))
      · exact absurd hrank (Nat.ne_of_lt (htop _ (hi ▸ hold)))
      · exact ih hold hold' hrank
    | refuses running delivered h => exact ih hs hs' hrank

end Qsmp
