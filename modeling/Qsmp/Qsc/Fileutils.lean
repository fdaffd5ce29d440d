import Qsmp.Common.Lines
import Qsmp.Qsc.Memutils
import Qsmp.Qsc.Stringutils
/-!
# Reading a line of a file

The reader copies the file into a block of its size and looks for line
feeds in it. Once it has found one it never gets past it: the next search
begins at the line feed and finds it again, so that every line the reader
is asked for has no characters. The number zero is met only when the
counter has come around.
-/

namespace Qsmp

/-- A file that can be opened. Its size is an `off_t`. -/
structure File where
  content : Bytes
  size_lt : content.length < 2 ^ 63

/-- What is in a file, which may be missing. -/
def contentOf (file : Option File) : Bytes := file.elim [] File.content

/-- `qsc_fileutils_get_size` -/
def qscFileutilsGetSize (file : Option File) : ℕ := (contentOf file).length

/-- What a line is read as: the length returned, the buffer, and how many
turns the loop has taken. -/
structure ReadLine where
  res : ℕ
  buffer : Mem
  turns : ℕ

/-- The counter comes closer to the line's number, around zero if it has
to. -/
theorem turnsLeft_succ {linenum ctr : UInt64} (h : ctr ≠ linenum) :
    (linenum - ctr).toNat = (linenum - (ctr + 1)).toNat + 1 := by
  have hctr : ctr.toNat ≠ linenum.toNat := fun heq => h (UInt64.toNat_inj.1 heq)
  have hlt := ctr.toNat_lt
  have hlt' := linenum.toNat_lt
  rw [UInt64.toNat_sub, UInt64.toNat_sub, UInt64.toNat_add]
  have hone : (1 : UInt64).toNat = 1 := rfl
  omega

/-- The loop of `qsc_fileutils_read_line`, at position `pos` of the block
after `ctr` turns. It is `none` if a search leaves the block, which it does
at once where `pos` is outside. -/
def readLineLoop (sbuf : Bytes) (buffer : Mem) (buflen : ℕ) (linenum ctr : UInt64) (pos : ℕ) :
    Option ReadLine :=
  match qscStringutilsFindString (sbuf.drop pos) with
  | none => none
  | some pln =>
    let pos := sizeT (pos + pln.toInt)
    if ctr + 1 = linenum then
      match qscStringutilsFindString (sbuf.drop pos) with
      | none => none
      | some sub =>
        let res := sizeT sub.toInt
        let n := if res ≤ buflen then res else buflen
        if n ≤ sbuf.length then some ⟨res, buffer.write 0 (sbuf.take n), 1⟩ else none
    else if pln ≠ -1 then
      (readLineLoop sbuf buffer buflen linenum (ctr + 1) pos).map fun r =>
        { r with turns := r.turns + 1 }
    else some ⟨0, buffer, 1⟩
termination_by (linenum - (ctr + 1)).toNat
decreasing_by
  rename_i hctr _
  rw [turnsLeft_succ hctr]
  exact Nat.lt_succ_self _

/-- `qsc_fileutils_read_line`. What the allocator answers is an argument;
the file is read whole into the block. -/
def qscFileutilsReadLine (file : Option File) (grant : Option Mem) (buffer : Mem) (buflen : ℕ)
    (linenum : UInt64) : Option ReadLine :=
  let len := qscFileutilsGetSize file
  if len > 0 then
    match qscMemutilsMalloc len grant, file with
    | some sbuf, some fp =>
      let sbuf := sbuf.store fp.content
      readLineLoop (sbuf.mem.read 0 sbuf.size) buffer buflen linenum 0 0
    | _, _ => some ⟨0, buffer, 0⟩
  else some ⟨0, buffer, 0⟩

/-! ## What the loop leaves -/

section Loop

variable {sbuf : Bytes} {buffer : Mem} {buflen pos : ℕ} {linenum ctr : UInt64} {pln : Int32}

/-- The turn that meets the number, where a search has led to a line feed:
the line behind it has no characters. -/
theorem readLineLoop_last {next : ℕ} (hfirst : qscStringutilsFindString (sbuf.drop pos) = some pln)
    (hnext : sizeT (pos + pln.toInt) = next)
    (hfound : qscStringutilsFindString (sbuf.drop next) = some 0) (hctr : ctr + 1 = linenum) :
    readLineLoop sbuf buffer buflen linenum ctr pos = some ⟨0, buffer, 1⟩ := by
  have hres : sizeT (0 : Int32).toInt = 0 := rfl
  rw [readLineLoop, hfirst]
  dsimp only
  rw [if_pos hctr, hnext, hfound]
  dsimp only
  rw [hres, if_pos (Nat.zero_le _), if_pos (Nat.zero_le _), List.take_zero, Mem.write_nil]

/-- **At a line feed the loop stands still** until the counter has reached
the number, and the line has no characters. -/
theorem readLineLoop_found (hpos : pos < 2 ^ 64)
    (hfound : qscStringutilsFindString (sbuf.drop pos) = some 0) :
    readLineLoop sbuf buffer buflen linenum ctr pos =
      some ⟨0, buffer, (linenum - (ctr + 1)).toNat + 1⟩ := by
  have hstay : sizeT (pos + (0 : Int32).toInt) = pos := by
    rw [Int32.toInt_zero, Int.add_zero, sizeT_of_lt hpos]
  -- By induction on the turns that are left.
  obtain ⟨left, hleft⟩ : ∃ left, (linenum - (ctr + 1)).toNat = left := ⟨_, rfl⟩
  induction left generalizing ctr with
  | zero =>
    have hctr : ctr + 1 = linenum := by
      by_contra hne
      have hsucc := turnsLeft_succ hne
      omega
    rw [readLineLoop_last hfound hstay hfound hctr, hleft]
  | succ left ih =>
    have hctr : ¬ ctr + 1 = linenum := by
      rintro rfl
      rw [UInt64.sub_self] at hleft
      exact absurd hleft (by simp)
    have hnext : (linenum - (ctr + 1 + 1)).toNat = left := by
      have hsucc := turnsLeft_succ hctr
      omega
    rw [readLineLoop, hfound]
    dsimp only
    rw [if_neg hctr, if_pos (by decide), hstay, ih hnext, hnext, hleft]
    rfl

/-- A search outside the block. -/
theorem qscStringutilsFindString_outside (h : sbuf.length < 2 ^ 63) (hpln : pln.toInt < 0) :
    qscStringutilsFindString (sbuf.drop (sizeT ((0 : ℕ) + pln.toInt))) = none := by
  have hle := pln.le_toInt
  have hout : sbuf.length ≤ sizeT ((0 : ℕ) + pln.toInt) := by
    rw [sizeT]
    omega
  rw [List.drop_eq_nil_of_le hout]
  rfl

/-- **The first search finds a line feed**: the first line's, unless its
place does not fit 31 bits. The line of the number is met after so many
turns, and that of number zero after all a counter has. -/
theorem readLineLoop_turns (hfirst : qscStringutilsFindString sbuf = some pln)
    (hpln : 0 ≤ pln.toInt) :
    readLineLoop sbuf buffer buflen linenum 0 0 =
      some ⟨0, buffer, (linenum - 1).toNat + 1⟩ := by
  have hlt := pln.toInt_lt
  have hpos : sizeT ((0 : ℕ) + pln.toInt) = pln.toInt.toNat := by
    rw [sizeT]
    omega
  have hfound := qscStringutilsFindString_found hfirst hpln
  have hne : pln ≠ -1 := by
    rintro rfl
    exact absurd hpln (by decide)
  by_cases hone : (0 : UInt64) + 1 = linenum
  · obtain rfl := hone
    exact readLineLoop_last hfirst hpos hfound rfl
  · rw [readLineLoop, List.drop_zero, hfirst]
    dsimp only
    rw [if_neg hone, if_pos hne, hpos, readLineLoop_found (by omega) hfound]
    have hsucc := turnsLeft_succ hone
    rw [UInt64.zero_add] at hsucc ⊢
    rw [hsucc]
    rfl

/-- The loop's searches stay in the block: the first ends, at a line feed
whose place fits, or at a terminator, from where the loop does not go on
if it has not reached the number. -/
def SearchesInside (sbuf : Bytes) (linenum : UInt64) : Prop :=
  ∃ pln, qscStringutilsFindString sbuf = some pln ∧ (0 ≤ pln.toInt ∨ pln = -1 ∧ linenum ≠ 1)

/-- Whether they do is decided by what the first gives back. -/
theorem searchesInside_iff (hfirst : qscStringutilsFindString sbuf = some pln) :
    SearchesInside sbuf linenum ↔ 0 ≤ pln.toInt ∨ pln = -1 ∧ linenum ≠ 1 := by
  constructor
  · rintro ⟨pln', hpln', hcase⟩
    obtain rfl := Option.some.inj (hfirst.symm.trans hpln')
    exact hcase
  · exact fun hcase => ⟨pln, hfirst, hcase⟩

/-- **The loop reads nothing**, wherever its searches stay in the block. -/
theorem readLineLoop_eq (buffer : Mem) (buflen : ℕ) (linenum : UInt64) (h : sbuf.length < 2 ^ 63) :
    (SearchesInside sbuf linenum ∧
      ∃ turns, readLineLoop sbuf buffer buflen linenum 0 0 = some ⟨0, buffer, turns⟩) ∨
    (¬ SearchesInside sbuf linenum ∧ readLineLoop sbuf buffer buflen linenum 0 0 = none) := by
  cases hfirst : qscStringutilsFindString sbuf with
  | none =>
    refine .inr ⟨fun ⟨pln, hpln, _⟩ => ?_, ?_⟩
    · rw [hfirst] at hpln
      exact absurd hpln.symm (by simp)
    · rw [readLineLoop, List.drop_zero, hfirst]
  | some pln =>
    rw [searchesInside_iff hfirst]
    by_cases hpln : 0 ≤ pln.toInt
    · exact .inl ⟨.inl hpln, _, readLineLoop_turns hfirst hpln⟩
    · -- The next search would begin in front of the block.
      have hout := qscStringutilsFindString_outside h (not_le.1 hpln)
      rw [readLineLoop, List.drop_zero, hfirst]
      dsimp only
      by_cases hone : (0 : UInt64) + 1 = linenum
      · rw [if_pos hone, hout]
        exact .inr ⟨fun hcase => hcase.elim hpln fun hlast => hlast.2 hone.symm, rfl⟩
      · rw [if_neg hone]
        by_cases hnone : pln = -1
        · rw [if_neg (not_not.2 hnone)]
          exact .inl ⟨.inr ⟨hnone, Ne.symm hone⟩, 1, rfl⟩
        · rw [if_pos hnone, readLineLoop, hout]
          exact .inr ⟨fun hcase => hcase.elim hpln fun hlast => hnone hlast.1, rfl⟩

end Loop

/-! ## Reading a line -/

variable {file : Option File} {grant : Option Mem} {buffer : Mem} {buflen : ℕ} {linenum : UInt64}

/-- Nothing is read outside the block: there is no block, or the searches
stay in it. -/
def ReadsInside (file : Option File) (grant : Option Mem) (linenum : UInt64) : Prop :=
  contentOf file = [] ∨ grant = none ∨ SearchesInside (contentOf file) linenum

/-- **A file that is not empty**, where there is memory: the loop runs on
its bytes. -/
theorem qscFileutilsReadLine_some {fp : File} {mem : Mem} (h : fp.content ≠ []) :
    qscFileutilsReadLine (some fp) (some mem) buffer buflen linenum =
      readLineLoop fp.content buffer buflen linenum 0 0 := by
  obtain ⟨sbuf, hsbuf⟩ : ∃ b, qscMemutilsMalloc fp.content.length (some mem) = some b :=
    ⟨_, if_pos (by simpa using h)⟩
  have hread : (sbuf.store fp.content).mem.read 0 (sbuf.store fp.content).size = fp.content := by
    rw [Block.store_size, qscMemutilsMalloc_size hsbuf]
    exact Mem.read_write_self
  have hsize : qscFileutilsGetSize (some fp) = fp.content.length := rfl
  unfold qscFileutilsReadLine
  dsimp only
  rw [hsize, if_pos (List.length_pos_iff.2 h), hsbuf]
  dsimp only
  rw [hread]

/-- Without memory for them nothing is read. -/
theorem qscFileutilsReadLine_none :
    qscFileutilsReadLine file none buffer buflen linenum = some ⟨0, buffer, 0⟩ := by
  unfold qscFileutilsReadLine
  dsimp only
  rw [qscMemutilsMalloc_eq_none.2 (.inr rfl)]
  split
  · rfl
  · rfl

/-- An empty file has no lines. -/
theorem qscFileutilsReadLine_nil (h : contentOf file = []) :
    qscFileutilsReadLine file grant buffer buflen linenum = some ⟨0, buffer, 0⟩ := by
  unfold qscFileutilsReadLine qscFileutilsGetSize
  rw [h]
  rfl

/-- **The line of number zero** is looked for as often as a counter can
count, if there is a line feed in reach. -/
theorem qscFileutilsReadLine_zero {fp : File} {mem : Mem} {pln : Int32}
    (hfirst : qscStringutilsFindString fp.content = some pln) (hpln : 0 ≤ pln.toInt) :
    qscFileutilsReadLine (some fp) (some mem) buffer buflen 0 = some ⟨0, buffer, 2 ^ 64⟩ := by
  have hne : fp.content ≠ [] := by
    intro hnil
    rw [hnil] at hfirst
    exact absurd hfirst.symm (by simp [qscStringutilsFindString, strstrNewline])
  rw [qscFileutilsReadLine_some hne, readLineLoop_turns hfirst hpln]
  rfl

/-- **Nothing is read** where nothing is read outside. -/
theorem qscFileutilsReadLine_eq (file : Option File) (grant : Option Mem) (buffer : Mem)
    (buflen : ℕ) (linenum : UInt64) :
    (ReadsInside file grant linenum ∧
      ∃ turns, qscFileutilsReadLine file grant buffer buflen linenum = some ⟨0, buffer, turns⟩) ∨
    (¬ ReadsInside file grant linenum ∧
      qscFileutilsReadLine file grant buffer buflen linenum = none) := by
  by_cases hempty : contentOf file = []
  · exact .inl ⟨.inl hempty, 0, qscFileutilsReadLine_nil hempty⟩
  · cases grant with
    | none => exact .inl ⟨.inr (.inl rfl), 0, qscFileutilsReadLine_none⟩
    | some mem =>
      cases file with
      | none => exact absurd rfl hempty
      | some fp =>
        rw [qscFileutilsReadLine_some hempty]
        rcases readLineLoop_eq buffer buflen linenum fp.size_lt with ⟨hin, hloop⟩ | ⟨hout, hloop⟩
        · exact .inl ⟨.inr (.inr hin), hloop⟩
        · refine .inr ⟨?_, hloop⟩
          rintro (hnil | hgrant | hin)
          · exact hempty hnil
          · exact absurd hgrant (by simp)
          · exact hout hin

/-- **A line is read**: its length is returned, and as much of it as fits
is in the buffer. -/
def ReadsLine (file : Option File) (grant : Option Mem) (buffer : Mem) (buflen : ℕ)
    (linenum : UInt64) : Prop :=
  let line := lineAt newline (contentOf file) linenum.toNat
  ∃ r, qscFileutilsReadLine file grant buffer buflen linenum = some r ∧ r.res = line.length ∧
    r.buffer.read 0 (min r.res buflen) = line.take buflen

/-- It is read just if it has no characters, and nothing is read outside
the block. -/
theorem readsLine_iff : ReadsLine file grant buffer buflen linenum ↔
    lineAt newline (contentOf file) linenum.toNat = [] ∧ ReadsInside file grant linenum := by
  rw [ReadsLine]
  rcases qscFileutilsReadLine_eq file grant buffer buflen linenum with
    ⟨hin, turns, hread⟩ | ⟨hout, hread⟩
  · rw [hread]
    constructor
    · rintro ⟨r, hr, hlength, -⟩
      obtain rfl := Option.some.inj hr
      exact ⟨List.eq_nil_of_length_eq_zero hlength.symm, hin⟩
    · rintro ⟨hline, -⟩
      rw [hline]
      exact ⟨_, rfl, rfl, by simp⟩
  · rw [hread]
    refine iff_of_false ?_ fun h => hout h.2
    rintro ⟨r, hr, -⟩
    exact absurd hr (by simp)

/-- An empty first line is found at once. -/
theorem readsInside_of_first (h : lineAt newline (contentOf file) 0 = []) :
    ReadsInside file grant 0 := by
  rw [lineAt_zero] at h
  cases hcontent : contentOf file with
  | nil => exact .inl hcontent
  | cons c rest =>
    rw [hcontent] at h
    obtain rfl : c = newline := by
      by_contra hne
      rw [List.takeWhile_cons_of_pos (by simpa using hne)] at h
      exact absurd h (by simp)
    refine .inr (.inr ⟨0, ?_, .inl (by decide)⟩)
    rw [hcontent]
    exact qscStringutilsFindString_cons_newline

end Qsmp
