import Mathlib.Data.Nat.Notation
/-!
# Lines of a text

The lines of a text are what stands between its separators. How long they
are is read off in one pass that counts columns, from whatever column the
text begins in. Lines are numbered from zero.
-/

namespace Qsmp

variable {α : Type*} [BEq α]

/-- **No line is longer than `n`.** -/
def LinesWithin (sep : α) (n : ℕ) (text : List α) : Prop := ∀ l ∈ text.splitOn sep, l.length ≤ n

/-- The same counted column by column, for a text that begins in column
`c`. -/
def ColumnsWithin (sep : α) (n : ℕ) : ℕ → List α → Prop
  | c, [] => c ≤ n
  | c, x :: rest =>
    if x == sep then c ≤ n ∧ ColumnsWithin sep n 0 rest else ColumnsWithin sep n (c + 1) rest

variable {sep x : α} {n c : ℕ} {text rest : List α}

@[simp] theorem columnsWithin_nil : ColumnsWithin sep n c [] ↔ c ≤ n := Iff.rfl

theorem columnsWithin_sep (h : (x == sep) = true) :
    ColumnsWithin sep n c (x :: rest) ↔ c ≤ n ∧ ColumnsWithin sep n 0 rest := by
  rw [ColumnsWithin, if_pos h]

theorem columnsWithin_char (h : (x == sep) = false) :
    ColumnsWithin sep n c (x :: rest) ↔ ColumnsWithin sep n (c + 1) rest := by
  rw [ColumnsWithin, if_neg (by simp [h])]

/-- A column already passed was not too far to the right. -/
theorem ColumnsWithin.le (h : ColumnsWithin sep n c text) : c ≤ n := by
  induction text generalizing c with
  | nil => exact h
  | cons x rest ih =>
    cases hx : x == sep with
    | true => exact ((columnsWithin_sep hx).1 h).1
    | false => exact Nat.le_of_succ_le (ih ((columnsWithin_char hx).1 h))

/-- Lines cut off a text in front of which `acc` stands, last byte first. -/
theorem splitOnPPrepend_within (text acc : List α) :
    (∀ l ∈ text.splitOnPPrepend (· == sep) acc, l.length ≤ n) ↔
      ColumnsWithin sep n acc.length text := by
  induction text generalizing acc with
  | nil => simp
  | cons x rest ih =>
    rw [List.splitOnPPrepend_cons_eq_if]
    cases hx : x == sep with
    | true =>
      rw [if_pos rfl, List.forall_mem_cons, List.length_reverse, columnsWithin_sep hx,
        List.splitOnP_eq_splitOnPPrepend, ih []]
      rfl
    | false => rw [if_neg Bool.false_ne_true, columnsWithin_char hx, ih, List.length_cons]

/-- **Counting columns measures the lines.** -/
theorem linesWithin_iff : LinesWithin sep n text ↔ ColumnsWithin sep n 0 text := by
  rw [LinesWithin, List.splitOn_eq_splitOnP, List.splitOnP_eq_splitOnPPrepend]
  exact splitOnPPrepend_within text []

/-- The line of a number, which is empty where there is none. -/
def lineAt (sep : α) (text : List α) (n : ℕ) : List α := (text.splitOn sep).getD n []

/-- The lines in front of the first empty one. -/
def leadingLines (sep : α) (text : List α) : List (List α) :=
  (text.splitOn sep).takeWhile fun l => !l.isEmpty

/-- **The first line** is what stands in front of the first separator. -/
theorem lineAt_zero (text : List α) : lineAt sep text 0 = text.takeWhile (!· == sep) := by
  induction text with
  | nil => rfl
  | cons x rest ih =>
    rw [lineAt, List.splitOn_cons_eq_if_modifyHead]
    cases hx : x == sep with
    | true => simp [hx]
    | false =>
      obtain ⟨l, ls, hlines⟩ := List.exists_cons_of_ne_nil (List.splitOn_ne_nil sep rest)
      rw [lineAt, hlines] at ih
      rw [if_neg Bool.false_ne_true, hlines, List.takeWhile_cons_of_pos (by simp [hx]), ← ih]
      rfl

/-- There are lines in front of the first empty one just if the first is
not empty. -/
theorem leadingLines_eq_nil : leadingLines sep text = [] ↔ lineAt sep text 0 = [] := by
  obtain ⟨l, ls, hlines⟩ := List.exists_cons_of_ne_nil (List.splitOn_ne_nil sep text)
  rw [leadingLines, lineAt, hlines]
  cases l with
  | nil => simp
  | cons x l => simp

end Qsmp
