import Mathlib.Data.Nat.Notation
/-!
# Histories of a machine, and the steps that keep them good

A machine takes one operation after another and refuses those it cannot
take. What a history shows is said step by step: `Along` holds of a history
when each step it takes has a property. A property of steps that some
condition decides, wherever the property has held so far, is decided along
a whole history by the condition holding along it.
-/

namespace Qsmp

variable {σ ι : Type*} {step : σ → ι → Option σ}

/-- **Every step of a history** has the property `Q` of the state before
it, the operation and the state after it. The operations after a refused
one are not taken. -/
def Along (step : σ → ι → Option σ) (Q : σ → ι → σ → Prop) : σ → List ι → Prop
  | _, [] => True
  | s, a :: l => ∀ s', step s a = some s' → Q s a s' ∧ Along step Q s' l

/-- **The states of a history**: those some first part of it leads to. -/
inductive Visits (step : σ → ι → Option σ) : σ → List ι → σ → Prop
  | here (s : σ) (l : List ι) : Visits step s l s
  | later {s s' t : σ} {a : ι} {l : List ι} (taken : step s a = some s')
      (rest : Visits step s' l t) : Visits step s (a :: l) t

variable {Q R : σ → ι → σ → Prop} {I : σ → Prop} {s t : σ} {l : List ι}

/-- A step that is taken, in front of a history. -/
theorem Along.cons {a : ι} (hstep : step s a = some t) (hQ : Q s a t) (hl : Along step Q t l) :
    Along step Q s (a :: l) := by
  intro s' hs'
  obtain rfl : t = s' := Option.some.inj (hstep.symm.trans hs')
  exact ⟨hQ, hl⟩

theorem Along.imp (h : ∀ s a s', step s a = some s' → Q s a s' → R s a s')
    (hl : Along step Q s l) : Along step R s l := by
  induction l generalizing s with
  | nil => trivial
  | cons a l ih =>
    intro s' hs'
    obtain ⟨hQ, hrest⟩ := hl s' hs'
    exact ⟨h s a s' hs' hQ, ih hrest⟩

/-- **The invariant rule**: steps that keep an invariant, wherever a
condition on them is met, have along a history what they have in a state
with the invariant. -/
theorem Along.of_invariant (h : ∀ s a s', I s → step s a = some s' → R s a s' → I s' ∧ Q s a s')
    (hs : I s) (hl : Along step R s l) : Along step Q s l := by
  induction l generalizing s with
  | nil => trivial
  | cons a l ih =>
    intro s' hs'
    obtain ⟨hR, hrest⟩ := hl s' hs'
    obtain ⟨hI, hQ⟩ := h s a s' hs hs' hR
    exact ⟨hQ, ih hI hrest⟩

/-- **A condition decides a history**: where the invariant holds the
condition is met by exactly the steps with the property, and these keep the
invariant. -/
theorem along_iff_along (keep : ∀ s a s', I s → step s a = some s' → Q s a s' → I s')
    (exact : ∀ s a s', I s → step s a = some s' → (Q s a s' ↔ R s a s')) (hs : I s) :
    Along step Q s l ↔ Along step R s l := by
  constructor
  · exact Along.of_invariant (fun s a s' hI hstep hQ =>
      ⟨keep s a s' hI hstep hQ, (exact s a s' hI hstep).1 hQ⟩) hs
  · refine Along.of_invariant (fun s a s' hI hstep hR => ?_) hs
    have hQ := (exact s a s' hI hstep).2 hR
    exact ⟨keep s a s' hI hstep hQ, hQ⟩

theorem along_and :
    Along step (fun s a s' => Q s a s' ∧ R s a s') s l ↔ Along step Q s l ∧ Along step R s l := by
  refine ⟨fun h => ⟨h.imp fun _ _ _ _ => And.left, h.imp fun _ _ _ _ => And.right⟩, ?_⟩
  induction l generalizing s with
  | nil => exact fun _ => trivial
  | cons a l ih =>
    rintro ⟨hQ, hR⟩ s' hs'
    obtain ⟨hQs, hQl⟩ := hQ s' hs'
    obtain ⟨hRs, hRl⟩ := hR s' hs'
    exact ⟨⟨hQs, hRs⟩, ih ⟨hQl, hRl⟩⟩

/-- What holds at the start holds after each step just if it holds wherever
the history passes. -/
theorem along_iff_visits (hs : I s) :
    Along step (fun _ _ s' => I s') s l ↔ ∀ t, Visits step s l t → I t := by
  constructor
  · intro hl t ht
    induction ht with
    | here s l => exact hs
    | later taken rest ih =>
      obtain ⟨hI, hrest⟩ := hl _ taken
      exact ih hI hrest
  · intro h
    induction l generalizing s with
    | nil => trivial
    | cons a l ih =>
      intro s' hs'
      have hI := h s' (.later hs' (.here s' l))
      exact ⟨hI, ih hI fun t ht => h t (.later hs' ht)⟩

/-- A history that is taken to its end visits the state it ends in. -/
theorem Visits.of_run (h : l.foldlM step s = some t) : Visits step s l t := by
  induction l generalizing s with
  | nil =>
    obtain rfl := Option.some.inj h
    exact .here s []
  | cons a l ih =>
    rw [List.foldlM_cons] at h
    obtain ⟨s', hs', h⟩ := Option.bind_eq_some_iff.1 h
    exact .later hs' (ih h)

end Qsmp
