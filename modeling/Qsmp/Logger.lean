import Qsmp.Qsc.Fileutils
/-!
# Printing the log

The printer asks for the lines of the log one after the other, from number
zero on, and ends with the first that has no characters. The reader finds
no characters in any line, so nothing is ever printed.
-/

namespace Qsmp

/-- `QSMP_LOGGING_MESSAGE_MAX` -/
def loggingMessageMax : ℕ := 256

/-- `QSMP_LOGGER_HEAD` -/
def loggerHead : Bytes := ascii "QSMP Version 1.1a"

/-- `qsmp_logger_exists`: the path of the log is valid, and the file can be
opened. -/
def qsmpLoggerExists (validPath : Bool) (file : Option File) : Bool := validPath && file.isSome

/-- `qsc_consoleutils_print_line` of the printer's array: the line printed,
unless no terminator is in the array. -/
def qscConsoleutilsPrintLine (buf : Mem) : Option Bytes :=
  let text := buf.read 0 loggingMessageMax
  if 0 ∈ text then some (text.takeWhile (· ≠ 0)) else none

/-- The loop of `qsmp_logger_print`: the lines it prints, if it ends within
`fuel` turns and touches nothing outside its arrays. The allocator answers
each turn anew. -/
def qsmpLoggerPrintLoop (file : Option File) (grants : UInt64 → Option Mem) :
    ℕ → Mem → UInt64 → Option (List Bytes)
  | 0, _, _ => none
  | fuel + 1, buf, lctr =>
    match qscFileutilsReadLine file (grants lctr) buf loggingMessageMax lctr with
    | none => none
    | some r =>
      if r.res > 0 then
        match qscConsoleutilsPrintLine r.buffer with
        | none => none
        | some line =>
          if r.res ≤ loggingMessageMax then
            (qsmpLoggerPrintLoop file grants fuel (r.buffer.clear 0 r.res) (lctr + 1)).map
              (List.cons line)
          else none
      else some []

/-- `qsmp_logger_print` -/
def qsmpLoggerPrint (fuel : ℕ) (validPath : Bool) (file : Option File)
    (grants : UInt64 → Option Mem) : Option (List Bytes) :=
  if qsmpLoggerExists validPath file then qsmpLoggerPrintLoop file grants fuel .zero 0
  else some []

variable {validPath : Bool} {file : Option File} {grants : UInt64 → Option Mem} {buf : Mem}
variable {lctr : UInt64} {fuel : ℕ}

/-- **The first turn is the last**: it prints nothing. -/
theorem qsmpLoggerPrintLoop_succ (h : ReadsInside file (grants lctr) lctr) :
    qsmpLoggerPrintLoop file grants (fuel + 1) buf lctr = some [] := by
  rw [qsmpLoggerPrintLoop]
  rcases qscFileutilsReadLine_eq file (grants lctr) buf loggingMessageMax lctr with
    ⟨-, turns, hread⟩ | ⟨hout, -⟩
  · rw [hread]
    rfl
  · exact absurd h hout

/-- **A print that ends** has printed nothing. -/
theorem qsmpLoggerPrint_eq {lines : List Bytes}
    (h : qsmpLoggerPrint fuel validPath file grants = some lines) : lines = [] := by
  rw [qsmpLoggerPrint] at h
  split at h
  · cases fuel with
    | zero => exact absurd h.symm (by simp [qsmpLoggerPrintLoop])
    | succ fuel =>
      rcases qscFileutilsReadLine_eq file (grants 0) .zero loggingMessageMax 0 with
        ⟨hin, -⟩ | ⟨-, hread⟩
      · rw [qsmpLoggerPrintLoop_succ hin] at h
        exact (Option.some.inj h).symm
      · rw [qsmpLoggerPrintLoop, hread] at h
        exact absurd h.symm (by simp)
  · exact (Option.some.inj h).symm

/-- **The log is printed**: the printer ends, and has printed the lines in
front of the first empty one, once and in order. -/
def PrintsLog (validPath : Bool) (file : Option File) (grants : UInt64 → Option Mem) : Prop :=
  ∃ fuel, qsmpLoggerPrint fuel validPath file grants =
    some (leadingLines newline (contentOf file))

/-- It is printed just if there is nothing to print. -/
theorem printsLog_iff :
    PrintsLog validPath file grants ↔ lineAt newline (contentOf file) 0 = [] := by
  constructor
  · rintro ⟨fuel, hprint⟩
    exact leadingLines_eq_nil.1 (qsmpLoggerPrint_eq hprint)
  · intro hline
    refine ⟨1, ?_⟩
    rw [leadingLines_eq_nil.2 hline, qsmpLoggerPrint]
    split
    · exact qsmpLoggerPrintLoop_succ (readsInside_of_first hline)
    · rfl

/-- **The log can be read and printed**, whatever is in it: every line by
its number, and the leading lines by the printer. -/
def LogReadable (fp : File) : Prop :=
  (∀ mem buffer buflen linenum, ReadsLine (some fp) (some mem) buffer buflen linenum) ∧
    ∀ mems : UInt64 → Mem, PrintsLog true (some fp) fun lctr => some (mems lctr)

/-- **When a log is read and printed.** A line is read exactly if it has no
characters and the search for it stays in the block; the log is printed
exactly if its first line has none. -/
theorem readsLine_printsLog_iff (file : Option File) :
    (∀ grant buffer buflen linenum, ReadsLine file grant buffer buflen linenum ↔
      lineAt newline (contentOf file) linenum.toNat = [] ∧ ReadsInside file grant linenum) ∧
    ∀ validPath grants, PrintsLog validPath file grants ↔
      lineAt newline (contentOf file) 0 = [] :=
  ⟨fun _ _ _ _ => readsLine_iff, fun _ _ => printsLog_iff⟩

/-- The head of every log. -/
def headFile : File := ⟨loggerHead ++ [newline], by decide⟩

/-- Its line is looked for until the counter has come around. -/
example (mem buffer : Mem) : qscFileutilsReadLine (some headFile) (some mem) buffer 256 0 =
    some ⟨0, buffer, 2 ^ 64⟩ := by
  have hfirst : qscStringutilsFindString headFile.content = some 17 := by decide
  exact qscFileutilsReadLine_zero hfirst (by decide)

/-- **No log is printed** that begins as all do. -/
theorem not_logReadable_head : ¬ LogReadable headFile := by
  rintro ⟨-, hprints⟩
  have hline := printsLog_iff.1 (hprints fun _ => .zero)
  rw [lineAt_zero] at hline
  exact absurd hline (by decide)

end Qsmp
