import Mathlib.Data.List.Infix
import Qsmp.Common.Histories
/-!
# Readers of a stream of frames

Frames are sent one behind the other on a stream that keeps no boundary
between them. A reader takes some of the stream at each pass and says what
frame it has read. It is in step with the sender as long as it takes a
whole frame or nothing: `InStep` is the invariant, `InStep.step` the rule
for a pass. The last pass of a reader may take what it likes, and so may
one that leaves less than a pass can start on.
-/

namespace Qsmp

/-- What a pass of a reader does: the state after it, how much it takes of
the stream, and the frame it has read, if any. -/
structure ReaderPass (σ ε : Type*) where
  state : σ
  taken : ℕ
  read : Option ε

/-- A reader of a stream over `β`: the states it goes on from, and its
pass. -/
structure StreamReader (σ ι β ε : Type*) where
  Running : σ → Prop
  decidable : DecidablePred Running
  pass : σ → ι → List β → ReaderPass σ ε

/-- A reader and its stream: what is yet to be taken, and the frames
read. -/
structure Reading (σ β ε : Type*) where
  state : σ
  unread : List β
  read : List ε

variable {α β σ ι ε : Type*}

namespace StreamReader

/-- A pass, as a step of the reader and its stream. -/
def step (R : StreamReader σ ι β ε) (s : Reading σ β ε) (i : ι) : Option (Reading σ β ε) :=
  let _ := R.decidable s.state
  if R.Running s.state then
    let r := R.pass s.state i s.unread
    some ⟨r.state, s.unread.drop r.taken, s.read ++ r.read.toList⟩
  else none

variable {R : StreamReader σ ι β ε} {s s' : Reading σ β ε} {i : ι}

theorem step_eq_some (h : R.step s i = some s') : R.Running s.state ∧
    s' = ⟨(R.pass s.state i s.unread).state, s.unread.drop (R.pass s.state i s.unread).taken,
      s.read ++ (R.pass s.state i s.unread).read.toList⟩ := by
  simp only [step] at h
  split at h
  · exact ⟨by assumption, (Option.some.inj h).symm⟩
  · exact absurd h.symm (Option.some_ne_none s')

end StreamReader

/-- **In step**: what is read are the first of the frames sent, and while
the reader runs the others are what is unread; or there are no others, and
less than `short` is unread. -/
def InStep (R : StreamReader σ ι β ε) (wire : α → List β) (entry : α → ε) (short : ℕ)
    (sent : List α) (s : Reading σ β ε) : Prop :=
  ∃ done rest, sent = done ++ rest ∧ s.read = done.map entry ∧
    (R.Running s.state → s.unread = rest.flatMap wire ∨ rest = [] ∧ s.unread.length < short)

/-- **What a pass may make of the frame in front of it**: nothing; or it
reads the frame and takes the whole of it. How much it takes is all one if
the reader stops there, or if too little is left behind the last frame. -/
inductive Takes (R : StreamReader σ ι β ε) (wire : α → List β) (entry : α → ε) (short : ℕ)
    (s : Reading σ β ε) (i : ι) (a : α) (rest : List α) : Prop
  | nothing (taken : (R.pass s.state i s.unread).taken = 0)
      (read : (R.pass s.state i s.unread).read = none)
  | frame (read : (R.pass s.state i s.unread).read = some (entry a))
      (taken : R.Running (R.pass s.state i s.unread).state →
        (R.pass s.state i s.unread).taken = (wire a).length ∨
          rest = [] ∧ s.unread.length < (R.pass s.state i s.unread).taken + short)

variable {R : StreamReader σ ι β ε} {wire : α → List β} {entry : α → ε} {short : ℕ}
variable {sent : List α} {s s' : Reading σ β ε} {i : ι}

namespace InStep

/-- A reader starts in step. -/
theorem start {state : σ} : InStep R wire entry short sent ⟨state, sent.flatMap wire, []⟩ :=
  ⟨[], sent, rfl, rfl, fun _ => .inl rfl⟩

/-- **A pass that takes a whole frame or nothing** keeps the reader in
step. -/
theorem step (hpos : 0 < short) (hs : InStep R wire entry short sent s)
    (hstep : R.step s i = some s')
    (hshort : s.unread.length < short → (R.pass s.state i s.unread).taken = 0 ∧
      (R.pass s.state i s.unread).read = none)
    (htakes : ∀ a rest, s.unread = wire a ++ rest.flatMap wire →
      Takes R wire entry short s i a rest) :
    InStep R wire entry short sent s' := by
  obtain ⟨hrunning, rfl⟩ := StreamReader.step_eq_some hstep
  obtain ⟨done, rest, hsent, hread, hunread⟩ := hs
  -- A pass that takes nothing leaves the stream as it is.
  have hidle (htaken : (R.pass s.state i s.unread).taken = 0)
      (hnone : (R.pass s.state i s.unread).read = none) :
      InStep R wire entry short sent ⟨(R.pass s.state i s.unread).state,
        s.unread.drop (R.pass s.state i s.unread).taken,
        s.read ++ (R.pass s.state i s.unread).read.toList⟩ := by
    rw [htaken, hnone, List.drop_zero, Option.toList_none, List.append_nil]
    exact ⟨done, rest, hsent, hread, fun _ => hunread hrunning⟩
  rcases hunread hrunning with hwire | ⟨-, hfew⟩
  · cases rest with
    | nil =>
      rw [List.flatMap_nil] at hwire
      obtain ⟨htaken, hnone⟩ := hshort (by rw [hwire]; exact hpos)
      exact hidle htaken hnone
    | cons a rest =>
      rw [List.flatMap_cons] at hwire
      cases htakes a rest hwire with
      | nothing htaken hnone => exact hidle htaken hnone
      | frame hentry htaken =>
        refine ⟨done ++ [a], rest, by rw [hsent, List.append_assoc, List.singleton_append], ?_, ?_⟩
        · rw [hentry, hread, List.map_append]
          rfl
        · intro hrunning'
          rcases htaken hrunning' with hwhole | ⟨hlast, hfew⟩
          · left
            rw [hwhole, hwire, List.drop_left]
          · right
            rw [List.length_drop]
            exact ⟨hlast, by omega⟩
  · obtain ⟨htaken, hnone⟩ := hshort hfew
    exact hidle htaken hnone

/-- What is read is a first part of what was sent, frame by frame. -/
theorem read_prefix (hs : InStep R wire entry short sent s) : s.read <+: sent.map entry := by
  obtain ⟨done, rest, hsent, hread, -⟩ := hs
  rw [hsent, hread, List.map_append]
  exact List.prefix_append _ _

/-- **Everything is read** once a reader that runs has too little left to
start a pass on, where a frame is never that short. -/
theorem read_all (hs : InStep R wire entry short sent s) (hwire : ∀ a, short ≤ (wire a).length)
    (hrunning : R.Running s.state) (hfew : s.unread.length < short) :
    s.read = sent.map entry := by
  obtain ⟨done, rest, hsent, hread, hunread⟩ := hs
  have hrest : rest = [] := by
    rcases hunread hrunning with hall | ⟨hlast, -⟩
    · cases rest with
      | nil => rfl
      | cons a rest =>
        have hlong := hwire a
        rw [hall, List.flatMap_cons, List.length_append] at hfew
        omega
    · exact hlast
  rw [hread, hsent, hrest, List.append_nil]

end InStep

end Qsmp
