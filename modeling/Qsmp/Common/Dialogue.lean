import Qsmp.Common.Memory
/-!
# Programs that talk over a byte stream

A dialogue is a program whose only effects are those of a stream socket:
it sends bytes and learns how many went out, asks for bytes and gets as
many or fewer, asks whether the peer is still there, and shuts the stream
down. `Runs` relates a dialogue to the events of one execution, whatever
the other side does.
-/

namespace Qsmp

/-- A program over a stream socket that returns an `α`. -/
inductive Dialogue (α : Type) where
  | done (a : α)
  /-- Undefined behaviour: the program does not return. -/
  | fault
  | send (bs : Bytes) (k : ℕ → Dialogue α)
  | recv (n : ℕ) (k : Bytes → Dialogue α)
  | poll (k : Bool → Dialogue α)
  | shut (k : Dialogue α)

/-- What an execution shows on the socket. -/
inductive Event where
  /-- The bytes offered, and how many of them were taken. -/
  | sent (bs : Bytes) (n : ℕ)
  /-- The number of bytes asked for, and the bytes that came. -/
  | received (n : ℕ) (bs : Bytes)
  | polled (connected : Bool)
  | shut
deriving DecidableEq

/-- A string sent in full. -/
def Event.sentAll (bs : Bytes) : Event := .sent bs bs.length

/-- A string received in full. -/
def Event.receivedAll (bs : Bytes) : Event := .received bs.length bs

namespace Dialogue

variable {α β : Type}

/-- Sequencing. -/
def bind : Dialogue α → (α → Dialogue β) → Dialogue β
  | done a, f => f a
  | fault, _ => fault
  | send bs k, f => send bs fun n => (k n).bind f
  | recv n k, f => recv n fun bs => (k bs).bind f
  | poll k, f => poll fun b => (k b).bind f
  | shut k, f => shut (k.bind f)

/-- One execution: its events, and the value returned, or `none` when the
program faults. A send takes at most the bytes offered, a receive yields at
most the bytes asked for. -/
inductive Runs : Dialogue α → List Event → Option α → Prop
  | done (a : α) : Runs (done a) [] (some a)
  | fault : Runs fault [] none
  | send {bs : Bytes} {k : ℕ → Dialogue α} {n : ℕ} {tr : List Event} {r : Option α}
      (le : n ≤ bs.length) (rest : Runs (k n) tr r) : Runs (send bs k) (.sent bs n :: tr) r
  | recv {n : ℕ} {k : Bytes → Dialogue α} {bs : Bytes} {tr : List Event} {r : Option α}
      (le : bs.length ≤ n) (rest : Runs (k bs) tr r) : Runs (recv n k) (.received n bs :: tr) r
  | poll {k : Bool → Dialogue α} {b : Bool} {tr : List Event} {r : Option α}
      (rest : Runs (k b) tr r) : Runs (poll k) (.polled b :: tr) r
  | shut {k : Dialogue α} {tr : List Event} {r : Option α} (rest : Runs k tr r) :
      Runs (shut k) (.shut :: tr) r

variable {p : Dialogue α} {f : α → Dialogue β} {tr : List Event}

@[simp] theorem runs_done {a : α} {r : Option α} :
    Runs (done a) tr r ↔ tr = [] ∧ r = some a := by
  constructor
  · rintro ⟨⟩
    exact ⟨rfl, rfl⟩
  · rintro ⟨rfl, rfl⟩
    exact .done a

@[simp] theorem runs_fault {r : Option α} :
    Runs (fault : Dialogue α) tr r ↔ tr = [] ∧ r = none := by
  constructor
  · rintro ⟨⟩
    exact ⟨rfl, rfl⟩
  · rintro ⟨rfl, rfl⟩
    exact .fault

theorem runs_send {bs : Bytes} {k : ℕ → Dialogue α} {r : Option α} :
    Runs (send bs k) tr r ↔
      ∃ n rest, n ≤ bs.length ∧ tr = .sent bs n :: rest ∧ Runs (k n) rest r := by
  constructor
  · rintro ⟨⟩
    exact ⟨_, _, ‹_›, rfl, ‹_›⟩
  · rintro ⟨n, rest, hle, rfl, h⟩
    exact .send hle h

theorem runs_recv {n : ℕ} {k : Bytes → Dialogue α} {r : Option α} :
    Runs (recv n k) tr r ↔
      ∃ bs rest, bs.length ≤ n ∧ tr = .received n bs :: rest ∧ Runs (k bs) rest r := by
  constructor
  · rintro ⟨⟩
    exact ⟨_, _, ‹_›, rfl, ‹_›⟩
  · rintro ⟨bs, rest, hle, rfl, h⟩
    exact .recv hle h

theorem runs_poll {k : Bool → Dialogue α} {r : Option α} :
    Runs (poll k) tr r ↔ ∃ b rest, tr = .polled b :: rest ∧ Runs (k b) rest r := by
  constructor
  · rintro ⟨⟩
    exact ⟨_, _, rfl, ‹_›⟩
  · rintro ⟨b, rest, rfl, h⟩
    exact .poll h

theorem runs_shut {k : Dialogue α} {r : Option α} :
    Runs (shut k) tr r ↔ ∃ rest, tr = .shut :: rest ∧ Runs k rest r := by
  constructor
  · rintro ⟨⟩
    exact ⟨_, rfl, ‹_›⟩
  · rintro ⟨rest, rfl, h⟩
    exact .shut h

/-- **A run of a sequence** is a run of the first part, and of what it
returned if it did. -/
theorem runs_bind {r : Option β} : Runs (p.bind f) tr r ↔
    (∃ a tr₁ tr₂, Runs p tr₁ (some a) ∧ Runs (f a) tr₂ r ∧ tr = tr₁ ++ tr₂) ∨
      (Runs p tr none ∧ r = none) := by
  induction p generalizing tr with
  | done a => simp [bind]
  | fault => simp [bind]
  | send bs k ih =>
    simp only [bind, runs_send, ih]
    constructor
    · rintro ⟨n, rest, hle, rfl, ⟨a, t₁, t₂, h₁, h₂, rfl⟩ | ⟨h, rfl⟩⟩
      · exact .inl ⟨a, _, t₂, ⟨n, t₁, hle, rfl, h₁⟩, h₂, rfl⟩
      · exact .inr ⟨⟨n, rest, hle, rfl, h⟩, rfl⟩
    · rintro (⟨a, _, t₂, ⟨n, t₁, hle, rfl, h₁⟩, h₂, rfl⟩ | ⟨⟨n, rest, hle, rfl, h⟩, rfl⟩)
      · exact ⟨n, t₁ ++ t₂, hle, rfl, .inl ⟨a, t₁, t₂, h₁, h₂, rfl⟩⟩
      · exact ⟨n, rest, hle, rfl, .inr ⟨h, rfl⟩⟩
  | recv n k ih =>
    simp only [bind, runs_recv, ih]
    constructor
    · rintro ⟨bs, rest, hle, rfl, ⟨a, t₁, t₂, h₁, h₂, rfl⟩ | ⟨h, rfl⟩⟩
      · exact .inl ⟨a, _, t₂, ⟨bs, t₁, hle, rfl, h₁⟩, h₂, rfl⟩
      · exact .inr ⟨⟨bs, rest, hle, rfl, h⟩, rfl⟩
    · rintro (⟨a, _, t₂, ⟨bs, t₁, hle, rfl, h₁⟩, h₂, rfl⟩ | ⟨⟨bs, rest, hle, rfl, h⟩, rfl⟩)
      · exact ⟨bs, t₁ ++ t₂, hle, rfl, .inl ⟨a, t₁, t₂, h₁, h₂, rfl⟩⟩
      · exact ⟨bs, rest, hle, rfl, .inr ⟨h, rfl⟩⟩
  | poll k ih =>
    simp only [bind, runs_poll, ih]
    constructor
    · rintro ⟨b, rest, rfl, ⟨a, t₁, t₂, h₁, h₂, rfl⟩ | ⟨h, rfl⟩⟩
      · exact .inl ⟨a, _, t₂, ⟨b, t₁, rfl, h₁⟩, h₂, rfl⟩
      · exact .inr ⟨⟨b, rest, rfl, h⟩, rfl⟩
    · rintro (⟨a, _, t₂, ⟨b, t₁, rfl, h₁⟩, h₂, rfl⟩ | ⟨⟨b, rest, rfl, h⟩, rfl⟩)
      · exact ⟨b, t₁ ++ t₂, rfl, .inl ⟨a, t₁, t₂, h₁, h₂, rfl⟩⟩
      · exact ⟨b, rest, rfl, .inr ⟨h, rfl⟩⟩
  | shut k ih =>
    simp only [bind, runs_shut, ih]
    constructor
    · rintro ⟨rest, rfl, ⟨a, t₁, t₂, h₁, h₂, rfl⟩ | ⟨h, rfl⟩⟩
      · exact .inl ⟨a, _, t₂, ⟨t₁, rfl, h₁⟩, h₂, rfl⟩
      · exact .inr ⟨⟨rest, rfl, h⟩, rfl⟩
    · rintro (⟨a, _, t₂, ⟨t₁, rfl, h₁⟩, h₂, rfl⟩ | ⟨⟨rest, rfl, h⟩, rfl⟩)
      · exact ⟨t₁ ++ t₂, rfl, .inl ⟨a, t₁, t₂, h₁, h₂, rfl⟩⟩
      · exact ⟨rest, rfl, .inr ⟨h, rfl⟩⟩

/-- A run that returns, and a run of what follows. -/
theorem Runs.bind {tr₁ tr₂ : List Event} {a : α} {r : Option β} (h₁ : Runs p tr₁ (some a))
    (h₂ : Runs (f a) tr₂ r) : Runs (p.bind f) (tr₁ ++ tr₂) r :=
  runs_bind.2 (.inl ⟨a, tr₁, tr₂, h₁, h₂, rfl⟩)

/-- The byte strings an execution received in full, in order. -/
def received : List Event → List Bytes
  | [] => []
  | .received n bs :: tr => if bs.length = n then bs :: received tr else received tr
  | _ :: tr => received tr

theorem received_complete {bs : Bytes} :
    received (.received bs.length bs :: tr) = bs :: received tr := if_pos rfl

@[simp] theorem received_append {tr₁ tr₂ : List Event} :
    received (tr₁ ++ tr₂) = received tr₁ ++ received tr₂ := by
  induction tr₁ with
  | nil => rfl
  | cons e tr₁ ih =>
    cases e with
    | received n bs =>
      rw [List.cons_append, received, received, ih]
      split <;> rfl
    | _ => exact ih

/-! ## Running a dialogue -/

/-- What the other side does at one call: it takes all the bytes offered, or
gives some, or answers a poll. -/
inductive Reply where
  | all
  | bytes (bs : Bytes)
  | status (connected : Bool)

/-- The execution a list of replies determines; a list that does not fit
determines none. -/
def play : Dialogue α → List Reply → Option (List Event × Option α)
  | done a, _ => some ([], some a)
  | fault, _ => some ([], none)
  | send bs k, .all :: rs => (play (k bs.length) rs).map fun x => (.sent bs bs.length :: x.1, x.2)
  | recv n k, .bytes bs :: rs =>
      if bs.length ≤ n then (play (k bs) rs).map fun x => (.received n bs :: x.1, x.2) else none
  | poll k, .status b :: rs => (play (k b) rs).map fun x => (.polled b :: x.1, x.2)
  | shut k, rs => (play k rs).map fun x => (.shut :: x.1, x.2)
  | _, _ => none

/-- **Playing a dialogue is a run of it.** -/
theorem runs_of_play : ∀ {p : Dialogue α} {rs : List Reply} {x : List Event × Option α},
    play p rs = some x → Runs p x.1 x.2
  | done a, _, _, h => by
      obtain rfl := Option.some.inj h
      exact .done a
  | fault, _, _, h => by
      obtain rfl := Option.some.inj h
      exact .fault
  | send bs k, rs, x, h => by
      cases rs with
      | nil => simp [play] at h
      | cons r rs =>
        cases r with
        | all =>
          obtain ⟨y, hy, rfl⟩ := Option.map_eq_some_iff.1 h
          exact .send (Nat.le_refl _) (runs_of_play hy)
        | _ => simp [play] at h
  | recv n k, rs, x, h => by
      cases rs with
      | nil => simp [play] at h
      | cons r rs =>
        cases r with
        | bytes bs =>
          rw [play] at h
          split at h
          · rename_i hle
            obtain ⟨y, hy, rfl⟩ := Option.map_eq_some_iff.1 h
            exact .recv hle (runs_of_play hy)
          · simp at h
        | _ => simp [play] at h
  | poll k, rs, x, h => by
      cases rs with
      | nil => simp [play] at h
      | cons r rs =>
        cases r with
        | status b =>
          obtain ⟨y, hy, rfl⟩ := Option.map_eq_some_iff.1 h
          exact .poll (runs_of_play hy)
        | _ => simp [play] at h
  | shut k, rs, x, h => by
      rw [play] at h
      obtain ⟨y, hy, rfl⟩ := Option.map_eq_some_iff.1 h
      exact .shut (runs_of_play hy)

/-- What playing computes of the value returned holds of a run. -/
theorem exists_of_play {p : Dialogue α} {rs : List Reply} {f : α → β} {b : β}
    (h : ((play p rs).bind fun x => x.2).map f = some b) :
    ∃ tr a, Runs p tr (some a) ∧ f a = b := by
  obtain ⟨a, ha, hf⟩ := Option.map_eq_some_iff.1 h
  obtain ⟨x, hx, hxa⟩ := Option.bind_eq_some_iff.1 ha
  exact ⟨x.1, a, hxa ▸ runs_of_play hx, hf⟩

end Dialogue

end Qsmp
