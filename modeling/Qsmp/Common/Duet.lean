import Qsmp.Common.Dialogue
import Qsmp.Common.Schedules
/-!
# Two dialogues over one stream

A duet runs two dialogues against each other over an in-order, loss-free
stream: a send appends to the queue of the other side, a receive waits for
the bytes it asks for, or for the other side to shut the stream down. The
only choice is whose turn it is, and turns commute.
-/

namespace Qsmp

variable {α β : Type}

/-- What one turn of a dialogue leaves: the rest of the dialogue, the bytes
still queued for it, the bytes it sends, and whether it shut the stream
down. -/
structure Turn (α : Type) where
  next : Dialogue α
  rest : Bytes
  out : Bytes
  shuts : Bool

/-- One turn over the bytes queued; `eof` says that no more will come. A
send takes all its bytes, and a poll finds the peer connected. -/
def Dialogue.turn (inp : Bytes) (eof : Bool) : Dialogue α → Option (Turn α)
  | .done _ => none
  | .fault => none
  | .send bs k => some ⟨k bs.length, inp, bs, false⟩
  | .recv n k =>
      if n ≤ inp.length then some ⟨k (inp.take n), inp.drop n, [], false⟩
      else if eof then some ⟨k inp, [], [], false⟩
      else none
  | .poll k => some ⟨k true, inp, [], false⟩
  | .shut k => some ⟨k, inp, [], true⟩

/-- A turn that is possible stays so, with the same effect, when more bytes
arrive; and none arrive once the other side is shut down. -/
theorem Dialogue.turn_append {p : Dialogue α} {inp : Bytes} {eof : Bool} {x : Turn α}
    (more : Bytes) (eof' : Bool) (h : p.turn inp eof = some x)
    (hmore : eof = true → eof' = true ∧ more = []) :
    p.turn (inp ++ more) eof' = some { x with rest := x.rest ++ more } := by
  cases p with
  | done a => simp [turn] at h
  | fault => simp [turn] at h
  | send bs k =>
    obtain rfl := Option.some.inj h
    rfl
  | recv n k =>
    rw [turn] at h ⊢
    split at h
    · rename_i hle
      obtain rfl := Option.some.inj h
      rw [if_pos (by rw [List.length_append]; omega), List.take_append_of_le_length hle,
        List.drop_append_of_le_length hle]
    · rename_i hlt
      split at h
      · rename_i heof
        obtain rfl := Option.some.inj h
        obtain ⟨rfl, rfl⟩ := hmore heof
        rw [List.append_nil, if_neg hlt, if_pos rfl]
        rfl
      · simp at h
  | poll k =>
    obtain rfl := Option.some.inj h
    rfl
  | shut k =>
    obtain rfl := Option.some.inj h
    rfl

/-- Two dialogues, the bytes queued for each, and who has shut down. -/
structure Duet (α β : Type) where
  left : Dialogue α
  right : Dialogue β
  toLeft : Bytes
  toRight : Bytes
  leftShut : Bool
  rightShut : Bool

namespace Duet

/-- Two dialogues that have not begun, over empty queues. -/
def start (p : Dialogue α) (q : Dialogue β) : Duet α β := ⟨p, q, [], [], false, false⟩

/-- The left dialogue's turn. What it sends after a shutdown is lost. -/
def turnLeft (c : Duet α β) : Option (Duet α β) :=
  (c.left.turn c.toLeft c.rightShut).map fun x =>
    { c with
      left := x.next
      toLeft := x.rest
      toRight := c.toRight ++ if c.leftShut then [] else x.out
      leftShut := c.leftShut || x.shuts }

/-- The right dialogue's turn. -/
def turnRight (c : Duet α β) : Option (Duet α β) :=
  (c.right.turn c.toRight c.leftShut).map fun x =>
    { c with
      right := x.next
      toRight := x.rest
      toLeft := c.toLeft ++ if c.rightShut then [] else x.out
      rightShut := c.rightShut || x.shuts }

/-- One step of a duet. -/
def Step (c c' : Duet α β) : Prop := c.turnLeft = some c' ∨ c.turnRight = some c'

/-- The two turns commute. -/
theorem turns_commute {c c₁ c₂ : Duet α β} (h₁ : c.turnLeft = some c₁)
    (h₂ : c.turnRight = some c₂) : ∃ d, c₁.turnRight = some d ∧ c₂.turnLeft = some d := by
  obtain ⟨x, hx, rfl⟩ := Option.map_eq_some_iff.1 h₁
  obtain ⟨y, hy, rfl⟩ := Option.map_eq_some_iff.1 h₂
  -- Each turn only adds to the end of the other's queue.
  have hy' := Dialogue.turn_append (if c.leftShut then [] else x.out) (c.leftShut || x.shuts) hy
    fun h => by simp [h]
  have hx' := Dialogue.turn_append (if c.rightShut then [] else y.out) (c.rightShut || y.shuts) hx
    fun h => by simp [h]
  exact ⟨_, by rw [turnRight, hy']; rfl, by rw [turnLeft, hx']; rfl⟩

/-- **The steps of a duet commute.** -/
theorem step_commutes : Commutes (Step : Duet α β → Duet α β → Prop) := by
  rintro c c₁ c₂ (h₁ | h₁) (h₂ | h₂)
  · exact .inl (Option.some.inj (h₁.symm.trans h₂))
  · obtain ⟨d, hd₁, hd₂⟩ := turns_commute h₁ h₂
    exact .inr ⟨d, .inr hd₁, .inl hd₂⟩
  · obtain ⟨d, hd₂, hd₁⟩ := turns_commute h₂ h₁
    exact .inr ⟨d, .inl hd₁, .inr hd₂⟩
  · exact .inl (Option.some.inj (h₁.symm.trans h₂))

/-- The events of one side are those of the other, seen from there. -/
inductive Dual : List Event → List Event → Prop
  | nil : Dual [] []
  | sent {bs : Bytes} {n : ℕ} {tr tr' : List Event} (rest : Dual tr tr') :
      Dual (.sent bs n :: tr) (.received n bs :: tr')
  | received {bs : Bytes} {n : ℕ} {tr tr' : List Event} (rest : Dual tr tr') :
      Dual (.received n bs :: tr) (.sent bs n :: tr')

/-- **Runs that fit make a schedule**: two runs whose events are dual are
one run of the duet, with nothing left on the way. -/
theorem steps_of_dual {p : Dialogue α} {q : Dialogue β} {tr tr' : List Event} {a : α} {b : β}
    (hd : Dual tr tr') (hp : p.Runs tr (some a)) (hq : q.Runs tr' (some b)) :
    ∃ n, Steps Step n (start p q) (start (.done a) (.done b)) := by
  induction hd generalizing p q with
  | nil =>
    cases hp
    cases hq
    exact ⟨0, .refl _⟩
  | @sent bs n tr tr' rest ih =>
    cases hp with
    | send hle hp =>
      cases hq with
      | recv hge hq =>
        obtain rfl := Nat.le_antisymm hle hge
        obtain ⟨m, hm⟩ := ih hp hq
        refine ⟨m + 1 + 1, .head (.inl rfl) (.head (.inr ?_) hm)⟩
        simp [turnRight, Dialogue.turn, start]
  | @received bs n tr tr' rest ih =>
    cases hp with
    | recv hge hp =>
      cases hq with
      | send hle hq =>
        obtain rfl := Nat.le_antisymm hle hge
        obtain ⟨m, hm⟩ := ih hp hq
        refine ⟨m + 1 + 1, .head (.inr rfl) (.head (.inl ?_) hm)⟩
        simp [turnLeft, Dialogue.turn, start]

/-- Two dialogues that have returned take no turn. -/
theorem terminal_done {a : α} {b : β} : Terminal Step (start (.done a) (.done b)) := by
  rintro c (h | h) <;> simp [turnLeft, turnRight, Dialogue.turn, start] at h

/-- **Runs that fit decide every schedule.** -/
theorem inevitably_of_dual {p : Dialogue α} {q : Dialogue β} {tr tr' : List Event} {a : α} {b : β}
    {Q : Duet α β → Prop} (hd : Dual tr tr') (hp : p.Runs tr (some a)) (hq : q.Runs tr' (some b))
    (hQ : Q (start (.done a) (.done b))) : Inevitably Step Q (start p q) := by
  obtain ⟨n, hn⟩ := steps_of_dual hd hp hq
  exact inevitably_of_steps step_commutes hn terminal_done hQ

end Duet

end Qsmp
