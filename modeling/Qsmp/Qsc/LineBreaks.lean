import Qsmp.Common.Lines
import Qsmp.Qsc.Stringutils
/-!
# Breaking a text into lines

The text is broken after every full line, except that its first character
never ends one; and one more line feed is stored when the text is
finished, a place behind the position returned. What this leaves of line
breaking: it needs one byte more than it asks for, except where lines are
of one character, and lines of one character it makes only of a text of
one.
-/

namespace Qsmp

variable {dstlen linelen i j : ℕ} {source : Bytes} {dest : Mem}

/-! ## What is stored, and where -/

/-- The stores of `addLineBreaksLoop`, in their order: the place and the
character. -/
def addLineBreaksLoopStores (linelen : ℕ) : Bytes → ℕ → ℕ → List (ℕ × UInt8)
  | [], _, _ => []
  | c :: rest, i, j =>
    if i ≠ 0 ∧ (i + 1) % linelen = 0 then
      (j, c) :: (j + 1, newline) :: addLineBreaksLoopStores linelen rest (i + 1) (j + 2)
    else (j, c) :: addLineBreaksLoopStores linelen rest (i + 1) (j + 1)

/-- The stores of `qsc_stringutils_add_line_breaks`. -/
def qscStringutilsAddLineBreaksStores (dstlen linelen : ℕ) (source : Bytes) :
    List (ℕ × UInt8) :=
  if linelen ≠ 0 ∧ source.length + (source.length / linelen + 1) ≤ dstlen then
    addLineBreaksLoopStores linelen source 0 0 ++
      [((addLineBreaksLoop linelen source 0 0 Mem.zero).2 + 1, newline)]
  else []

/-- The loop stores the broken lines, one character after the other. -/
theorem addLineBreaksLoopStores_eq : ∀ (source : Bytes) (i j : ℕ),
    addLineBreaksLoopStores linelen source i j =
      ((brokenLines linelen i source).zipIdx j).map Prod.swap
  | [], _, _ => rfl
  | c :: rest, i, j => by
      rw [addLineBreaksLoopStores, brokenLines]
      split
      · rw [addLineBreaksLoopStores_eq rest]
        rfl
      · rw [addLineBreaksLoopStores_eq rest]
        rfl

theorem addLineBreaksLoop_stores : ∀ (source : Bytes) (i j : ℕ) (dest : Mem),
    (addLineBreaksLoop linelen source i j dest).1 =
      dest.storeAll (addLineBreaksLoopStores linelen source i j)
  | [], _, _, _ => rfl
  | c :: rest, i, j, dest => by
      rw [addLineBreaksLoop, addLineBreaksLoopStores]
      split
      · rw [addLineBreaksLoop_stores rest]
        rfl
      · rw [addLineBreaksLoop_stores rest]
        rfl

/-- **What is recorded is what is stored.** -/
theorem qscStringutilsAddLineBreaks_stores (dest : Mem) (dstlen linelen : ℕ) (source : Bytes) :
    (qscStringutilsAddLineBreaks dest dstlen linelen source).1 =
      dest.storeAll (qscStringutilsAddLineBreaksStores dstlen linelen source) := by
  rw [qscStringutilsAddLineBreaks, qscStringutilsAddLineBreaksStores]
  split
  · rw [Mem.storeAll_append, ← addLineBreaksLoop_stores, addLineBreaksLoop_eq,
      addLineBreaksLoop_eq]
    rfl
  · rfl

/-- The places of the broken lines, in order. -/
theorem map_fst_addLineBreaksLoopStores :
    (addLineBreaksLoopStores linelen source i j).map Prod.fst =
      List.range' j (brokenLines linelen i source).length := by
  rw [addLineBreaksLoopStores_eq, List.map_map]
  exact List.zipIdx_map_snd _ _

/-! ## How wide they are -/

/-- From a position on, the columns go up to the line length and start
again. -/
theorem columnsWithin_brokenLines (h : 1 < linelen) : ∀ (source : Bytes) (i : ℕ),
    newline ∉ source → ColumnsWithin newline linelen (i % linelen) (brokenLines linelen i source)
  | [], i, _ => (Nat.mod_lt i (by omega)).le
  | c :: rest, i, hsource => by
      rw [List.mem_cons, not_or] at hsource
      have ih := columnsWithin_brokenLines h rest (i + 1) hsource.2
      have hc : (c == newline) = false := beq_eq_false_iff_ne.2 fun heq => hsource.1 heq.symm
      have hmod : i % linelen < linelen := Nat.mod_lt i (by omega)
      rw [brokenLines]
      simp only [break_iff h]
      split
      · rename_i hdvd
        rw [Nat.mod_eq_zero_of_dvd hdvd] at ih
        rw [columnsWithin_char hc, columnsWithin_sep (beq_self_eq_true _)]
        exact ⟨hmod, ih⟩
      · rename_i hdvd
        -- no break: the next position is one column further on
        have hnext : (i + 1) % linelen = i % linelen + 1 := by
          have hquot : (i + 1) / linelen = i / linelen := by
            rw [Nat.succ_div, if_neg hdvd, Nat.add_zero]
          have hthis := Nat.div_add_mod i linelen
          have hthat := Nat.div_add_mod (i + 1) linelen
          rw [hquot] at hthat
          omega
        rwa [columnsWithin_char hc, ← hnext]

/-- A line of one character is longer than it may be as soon as there are
two. -/
theorem not_columnsWithin_one {c d : UInt8} {rest : Bytes} (h : newline ∉ c :: d :: rest) :
    ¬ ColumnsWithin newline 1 0 (brokenLines 1 0 (c :: d :: rest)) := by
  simp only [List.mem_cons, not_or] at h
  have hc : (c == newline) = false := beq_eq_false_iff_ne.2 fun heq => h.1 heq.symm
  have hd : (d == newline) = false := beq_eq_false_iff_ne.2 fun heq => h.2.1 heq.symm
  rw [brokenLines, if_neg (by simp), brokenLines, if_pos (by simp), columnsWithin_char hc,
    columnsWithin_char hd]
  exact fun hcolumns => absurd hcolumns.le (by decide)

/-- **Lines are no longer than asked**, unless they are to be of one
character and there is more than that. -/
theorem linesWithin_brokenLines_iff (hlen : linelen ≠ 0) (h : newline ∉ source) :
    LinesWithin newline linelen (brokenLines linelen 0 source) ↔
      (linelen = 1 → source.length ≤ 1) := by
  rw [linesWithin_iff]
  by_cases hone : linelen = 1
  · subst hone
    rcases source with _ | ⟨c, _ | ⟨d, rest⟩⟩
    · exact iff_of_true (Nat.zero_le 1) fun _ => Nat.zero_le 1
    · have hc : (c == newline) = false :=
        beq_eq_false_iff_ne.2 fun heq => h (heq ▸ List.mem_cons_self)
      refine iff_of_true ?_ fun _ => Nat.le_refl 1
      rw [brokenLines, if_neg (by simp), columnsWithin_char hc]
      exact Nat.le_refl 1
    · refine iff_of_false (not_columnsWithin_one h) fun hle => ?_
      simpa using hle rfl
  · refine iff_of_true ?_ fun heq => absurd heq hone
    have hcolumns := columnsWithin_brokenLines (show 1 < linelen by omega) source 0 h
    rwa [Nat.zero_mod] at hcolumns

/-! ## What line breaking is to do -/

/-- **A text broken into lines**, in an array of `dstlen` bytes: every
store lies inside it, the lines of the text returned are no longer than
asked, all of it has been stored, and without its breaks it is the source
again, wherever that fits. -/
structure IntoLines (dest : Mem) (dstlen linelen : ℕ) (source : Bytes) : Prop where
  inside : ∀ s ∈ qscStringutilsAddLineBreaksStores dstlen linelen source, s.1 < dstlen
  short : LinesWithin newline linelen
    ((qscStringutilsAddLineBreaks dest dstlen linelen source).1.read 0
      (qscStringutilsAddLineBreaks dest dstlen linelen source).2)
  written : ∀ k < (qscStringutilsAddLineBreaks dest dstlen linelen source).2,
    k ∈ (qscStringutilsAddLineBreaksStores dstlen linelen source).map Prod.fst
  back : ∀ (out : Mem) (outlen : ℕ), source.length ≤ outlen → outlen < 2 ^ 64 →
    (qscStringutilsRemoveLineBreaks out outlen
        (qscStringutilsAddLineBreaks dest dstlen linelen source).1
        (qscStringutilsAddLineBreaks dest dstlen linelen source).2).2 = source.length ∧
      (qscStringutilsRemoveLineBreaks out outlen
        (qscStringutilsAddLineBreaks dest dstlen linelen source).1
        (qscStringutilsAddLineBreaks dest dstlen linelen source).2).1.read 0 source.length = source

/-- **Line breaking keeps its word**: a source it accepts, without line
feeds of its own, is broken into lines; and whatever it is given, the
length returned is one of an array, not the one before zero. -/
def BreaksLines (dest : Mem) (dstlen linelen : ℕ) (source : Bytes) : Prop :=
  (linelen ≠ 0 → source.length + (source.length / linelen + 1) ≤ dstlen → newline ∉ source →
    IntoLines dest dstlen linelen source) ∧
  (qscStringutilsAddLineBreaks dest dstlen linelen source).2 + 1 < 2 ^ 64

/-- What is rejected wraps around. -/
theorem not_breaksLines_of_rejected
    (h : ¬ (linelen ≠ 0 ∧ source.length + (source.length / linelen + 1) ≤ dstlen)) :
    ¬ BreaksLines dest dstlen linelen source := by
  intro hbreaks
  have hlen := hbreaks.2
  rw [qscStringutilsAddLineBreaks, if_neg h] at hlen
  have hmax : sizeT (-1) = 2 ^ 64 - 1 := by decide
  simp only [hmax] at hlen
  omega

section Accepted

variable (hlen : linelen ≠ 0) (hfit : source.length + (source.length / linelen + 1) ≤ dstlen)
variable (hlt : dstlen < 2 ^ 64)
include hlen hfit hlt

/-- The text of the length returned is the broken lines. -/
theorem read_addLineBreaks :
    (qscStringutilsAddLineBreaks dest dstlen linelen source).1.read 0
      (qscStringutilsAddLineBreaks dest dstlen linelen source).2 =
        brokenLines linelen 0 source := by
  rw [qscStringutilsAddLineBreaks_eq hlen hfit hlt, Mem.read_write_below (by omega),
    Mem.read_write_self]

omit hlt in
/-- The places stored at: those of the text, and one beyond. -/
theorem map_fst_addLineBreaksStores :
    (qscStringutilsAddLineBreaksStores dstlen linelen source).map Prod.fst =
      List.range (brokenLines linelen 0 source).length ++
        [(brokenLines linelen 0 source).length + 1] := by
  rw [qscStringutilsAddLineBreaksStores, if_pos ⟨hlen, hfit⟩, List.map_append,
    map_fst_addLineBreaksLoopStores, addLineBreaksLoop_eq, List.range_eq_range']
  simp only [Nat.zero_add, List.map_cons, List.map_nil]

/-- **Leaving out the breaks** of the text returned gives the source
back. -/
theorem removeLineBreaks_addLineBreaks (h : newline ∉ source) {out : Mem} {outlen : ℕ}
    (hout : source.length ≤ outlen) (houtlt : outlen < 2 ^ 64) :
    qscStringutilsRemoveLineBreaks out outlen
        (qscStringutilsAddLineBreaks dest dstlen linelen source).1
        (qscStringutilsAddLineBreaks dest dstlen linelen source).2 =
      (out.write 0 source, source.length) := by
  rw [qscStringutilsRemoveLineBreaks, read_addLineBreaks hlen hfit hlt]
  rcases source with _ | ⟨c, rest⟩
  · rw [brokenLines, removeLineBreaksLoop, Mem.write_nil, List.length_nil]
  · have hpos : 0 < outlen := by
      rw [List.length_cons] at hout
      omega
    rw [removeLineBreaksLoop_eq hpos houtlt _ 0 out (Nat.zero_le _),
      filter_brokenLines linelen (c :: rest) 0 h, Nat.sub_zero, List.take_of_length_le hout,
      Nat.zero_add]

/-- **An accepted source** is broken into lines exactly if the last break
still falls inside, and lines of one character are made of no more than
one. -/
theorem intoLines_iff (h : newline ∉ source) :
    IntoLines dest dstlen linelen source ↔
      (brokenLines linelen 0 source).length + 1 < dstlen ∧
        (linelen = 1 → source.length ≤ 1) := by
  have hplaces := map_fst_addLineBreaksStores hlen hfit
  have hreturned : (qscStringutilsAddLineBreaks dest dstlen linelen source).2 =
      (brokenLines linelen 0 source).length := by
    rw [qscStringutilsAddLineBreaks_eq hlen hfit hlt]
  have hinside : (∀ s ∈ qscStringutilsAddLineBreaksStores dstlen linelen source,
      s.1 < dstlen) ↔ (brokenLines linelen 0 source).length + 1 < dstlen := by
    rw [← List.forall_mem_map (P := (· < dstlen)), hplaces, List.forall_mem_append,
      List.forall_mem_singleton]
    refine and_iff_right_of_imp fun hlast k hk => ?_
    have hk := List.mem_range.1 hk
    omega
  rw [← linesWithin_brokenLines_iff hlen h]
  constructor
  · rintro ⟨hin, hshort, -, -⟩
    rw [read_addLineBreaks hlen hfit hlt] at hshort
    exact ⟨hinside.1 hin, hshort⟩
  · rintro ⟨hlast, hshort⟩
    refine ⟨hinside.2 hlast, ?_, fun k hk => ?_, fun out outlen hout houtlt => ?_⟩
    · rwa [read_addLineBreaks hlen hfit hlt]
    · rw [hreturned] at hk
      rw [hplaces]
      exact List.mem_append_left _ (List.mem_range.2 hk)
    · rw [removeLineBreaks_addLineBreaks hlen hfit hlt h hout houtlt]
      exact ⟨rfl, Mem.read_write_self⟩

end Accepted

/-- **When line breaking keeps its word**: exactly for a source it
accepts, and this with line feeds of its own, or with one byte more behind
it than is asked for, lines of one character being made only of a text of
one. -/
theorem qscStringutilsAddLineBreaks_breaks (dest : Mem) (dstlen linelen : ℕ)
    (source : Bytes) (hlt : dstlen < 2 ^ 64) :
    BreaksLines dest dstlen linelen source ↔
      linelen ≠ 0 ∧ source.length + (source.length / linelen + 1) ≤ dstlen ∧
        (newline ∈ source ∨ (linelen = 1 ∧ source.length = 1) ∨
          (source.length + (source.length / linelen + 2) ≤ dstlen ∧
            (linelen = 1 → source.length = 0))) := by
  by_cases haccept : linelen ≠ 0 ∧ source.length + (source.length / linelen + 1) ≤ dstlen
  · obtain ⟨hlen, hfit⟩ := haccept
    have hle : (brokenLines linelen 0 source).length ≤ _ := length_brokenLines_le hlen
    have hwrap : (qscStringutilsAddLineBreaks dest dstlen linelen source).2 + 1 < 2 ^ 64 := by
      rw [qscStringutilsAddLineBreaks_eq hlen hfit hlt]
      simp only
      omega
    rw [BreaksLines, and_iff_left hwrap]
    by_cases hsource : newline ∈ source
    · exact iff_of_true (fun _ _ hnot => absurd hsource hnot) ⟨hlen, hfit, .inl hsource⟩
    · have hexact : (brokenLines linelen 0 source).length = _ := length_brokenLines_zero hlen
      have himp : (linelen ≠ 0 → source.length + (source.length / linelen + 1) ≤ dstlen →
          newline ∉ source → IntoLines dest dstlen linelen source) ↔
            IntoLines dest dstlen linelen source :=
        ⟨fun hi => hi hlen hfit hsource, fun hi _ _ _ => hi⟩
      rw [himp, intoLines_iff hlen hfit hlt hsource, hexact]
      by_cases hone : linelen = 1
      · subst hone
        rw [Nat.div_one] at hfit ⊢
        simp only [if_pos, hsource, true_implies, false_or, true_and, ne_eq, one_ne_zero,
          not_false_eq_true]
        omega
      · rw [if_neg hone]
        simp only [hsource, hone, false_or, false_and, false_implies, and_true]
        omega
  · refine iff_of_false (not_breaksLines_of_rejected haccept) fun hcond => ?_
    exact haccept ⟨hcond.1, hcond.2.1⟩

/-- With room behind the last line. -/
theorem qscStringutilsAddLineBreaks_breaks_holds :
    BreaksLines Mem.zero 7 2 [65, 66, 67] :=
  (qscStringutilsAddLineBreaks_breaks Mem.zero 7 2 [65, 66, 67] (by decide)).2 (by decide)

/-- **A capacity accepted and left by one byte**: three characters in
lines of two, asked for and given five bytes, and the last line feed is
stored at the sixth. -/
theorem qscStringutilsAddLineBreaks_overruns :
    ¬ ∀ (dest : Mem) (dstlen linelen : ℕ) (source : Bytes), dstlen < 2 ^ 64 →
      BreaksLines dest dstlen linelen source := by
  intro h
  have hbreaks := (h Mem.zero 5 2 [65, 66, 67] (by decide)).1 (by decide) (by decide) (by decide)
  exact absurd (hbreaks.inside (5, newline) (by decide)) (by decide)

end Qsmp
