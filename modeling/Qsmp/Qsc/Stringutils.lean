import Mathlib.Data.Nat.Digits.Lemmas
import Qsmp.Qsc.Encoding
/-!
# Text helpers

Line breaks, and the decimal numbers of a date. A line break stands after
every full line of the source; the text is what a reader gets by leaving
the breaks out.
-/

namespace Qsmp

/-- The line feed. -/
def newline : UInt8 := 10

/-! ## Line breaks -/

/-- The loop of `qsc_stringutils_add_line_breaks`, at source position `i`
and destination position `j`. -/
def addLineBreaksLoop (linelen : ℕ) : Bytes → ℕ → ℕ → Mem → Mem × ℕ
  | [], _, j, dest => (dest, j)
  | c :: rest, i, j, dest =>
    let dest := dest.write j [c]
    if i ≠ 0 ∧ (i + 1) % linelen = 0 then
      addLineBreaksLoop linelen rest (i + 1) (j + 2) (dest.write (j + 1) [newline])
    else addLineBreaksLoop linelen rest (i + 1) (j + 1) dest

/-- `qsc_stringutils_add_line_breaks`: the last break is written one place
further on than the position returned. -/
def qscStringutilsAddLineBreaks (dest : Mem) (dstlen linelen : ℕ) (source : Bytes) : Mem × ℕ :=
  if linelen ≠ 0 ∧ source.length + (source.length / linelen + 1) ≤ dstlen then
    let (dest, j) := addLineBreaksLoop linelen source 0 0 dest
    let j := j + 1
    (dest.write j [newline], sizeT ((j : ℤ) - 1))
  else (dest, sizeT (-1))

/-- The loop of `qsc_stringutils_remove_line_breaks`, at destination
position `j`. -/
def removeLineBreaksLoop (dstlen : ℕ) : Bytes → ℕ → Mem → Mem × ℕ
  | [], j, dest => (dest, j)
  | c :: rest, j, dest =>
    if sizeT ((dstlen : ℤ) - 1) < j then (dest, j)
    else if c ≠ newline then removeLineBreaksLoop dstlen rest (j + 1) (dest.write j [c])
    else removeLineBreaksLoop dstlen rest j dest

/-- `qsc_stringutils_remove_line_breaks` -/
def qscStringutilsRemoveLineBreaks (dest : Mem) (dstlen : ℕ) (source : Mem) (srclen : ℕ) :
    Mem × ℕ :=
  removeLineBreaksLoop dstlen (source.read 0 srclen) 0 dest

/-- The source with its breaks, from position `i` on. -/
def brokenLines (linelen : ℕ) : ℕ → Bytes → Bytes
  | _, [] => []
  | i, c :: rest =>
    if i ≠ 0 ∧ (i + 1) % linelen = 0 then c :: newline :: brokenLines linelen (i + 1) rest
    else c :: brokenLines linelen (i + 1) rest

variable {linelen : ℕ} {source : Bytes}

/-- The break after position `i` is decided by the line length alone. -/
theorem break_iff (h : 1 < linelen) {i : ℕ} :
    i ≠ 0 ∧ (i + 1) % linelen = 0 ↔ linelen ∣ i + 1 := by
  constructor
  · exact fun hi => Nat.dvd_of_mod_eq_zero hi.2
  · intro hdvd
    refine ⟨fun h0 => ?_, Nat.mod_eq_zero_of_dvd hdvd⟩
    rw [h0] at hdvd
    have hle := Nat.le_of_dvd Nat.one_pos hdvd
    omega

/-- One break for each full line. -/
theorem length_brokenLines (h : 1 < linelen) : ∀ (source : Bytes) (i : ℕ),
    i / linelen + (brokenLines linelen i source).length =
      source.length + (i + source.length) / linelen
  | [], i => by simp [brokenLines]
  | c :: rest, i => by
      have ih := length_brokenLines h rest (i + 1)
      have hsucc : (i + 1) / linelen = i / linelen + if linelen ∣ i + 1 then 1 else 0 :=
        Nat.succ_div
      have hsum : i + (c :: rest).length = i + 1 + rest.length := by
        rw [List.length_cons]
        omega
      rw [brokenLines, hsum]
      simp only [break_iff h]
      split
      · rename_i hdvd
        rw [if_pos hdvd] at hsucc
        simp only [List.length_cons]
        omega
      · rename_i hdvd
        rw [if_neg hdvd] at hsucc
        simp only [List.length_cons]
        omega

/-- Behind the first character, every character of a line of one ends
it. -/
theorem length_brokenLines_one : ∀ (source : Bytes) (i : ℕ), i ≠ 0 →
    (brokenLines 1 i source).length = 2 * source.length
  | [], _, _ => rfl
  | c :: rest, i, hi => by
      have ih := length_brokenLines_one rest (i + 1) (Nat.succ_ne_zero i)
      rw [brokenLines, if_pos ⟨hi, Nat.mod_one _⟩]
      simp only [List.length_cons]
      omega

/-- **The length returned.** -/
theorem length_brokenLines_zero (h : linelen ≠ 0) :
    (brokenLines linelen 0 source).length =
      if linelen = 1 then 2 * source.length - 1 else source.length + source.length / linelen := by
  by_cases hone : linelen = 1
  · subst hone
    rw [if_pos rfl]
    cases source with
    | nil => rfl
    | cons c rest =>
      have hrest := length_brokenLines_one rest 1 Nat.one_ne_zero
      rw [brokenLines, if_neg (by simp), List.length_cons, hrest, List.length_cons]
      omega
  · have hlen := length_brokenLines (show 1 < linelen by omega) source 0
    rw [Nat.zero_div, Nat.zero_add, Nat.zero_add] at hlen
    rw [if_neg hone, hlen]

/-- It is no more than what was asked for, less one. -/
theorem length_brokenLines_le (h : linelen ≠ 0) :
    (brokenLines linelen 0 source).length ≤ source.length + source.length / linelen := by
  rw [length_brokenLines_zero h]
  split
  · rename_i hone
    rw [hone, Nat.div_one]
    omega
  · exact Nat.le_refl _

/-- The loop writes the broken lines. -/
theorem addLineBreaksLoop_eq : ∀ (source : Bytes) (i j : ℕ) (dest : Mem),
    addLineBreaksLoop linelen source i j dest =
      (dest.write j (brokenLines linelen i source),
        j + (brokenLines linelen i source).length)
  | [], i, j, dest => by simp [addLineBreaksLoop, brokenLines]
  | c :: rest, i, j, dest => by
      rw [addLineBreaksLoop, brokenLines]
      split
      · rw [addLineBreaksLoop_eq rest, Mem.write_cons c (newline :: _),
          Mem.write_cons newline (brokenLines _ _ _)]
        simp only [List.length_cons, Prod.mk.injEq, true_and]
        omega
      · rw [addLineBreaksLoop_eq rest, Mem.write_cons c (brokenLines _ _ _)]
        simp only [List.length_cons, Prod.mk.injEq, true_and]
        omega

/-- **Adding breaks**, where they fit: the broken lines, and one more break
a place behind the end. -/
theorem qscStringutilsAddLineBreaks_eq {dest : Mem} {dstlen : ℕ} {source : Bytes}
    (h : linelen ≠ 0) (hfit : source.length + (source.length / linelen + 1) ≤ dstlen)
    (hlt : dstlen < 2 ^ 64) :
    qscStringutilsAddLineBreaks dest dstlen linelen source =
      ((dest.write 0 (brokenLines linelen 0 source)).write
          ((brokenLines linelen 0 source).length + 1) [newline],
        (brokenLines linelen 0 source).length) := by
  have hlen : (brokenLines linelen 0 source).length ≤ _ := length_brokenLines_le h
  have hback : sizeT ((((brokenLines linelen 0 source).length + 1 : ℕ) : ℤ) - 1) =
      (brokenLines linelen 0 source).length + 1 - 1 := sizeT_sub (m := 1) (by omega) (by omega)
  rw [qscStringutilsAddLineBreaks, if_pos ⟨h, hfit⟩, addLineBreaksLoop_eq]
  simp only [Nat.zero_add, hback, Nat.add_sub_cancel]

/-- **Leaving the breaks out gives the source back**, if it has no line
feed of its own. -/
theorem filter_brokenLines (linelen : ℕ) : ∀ (source : Bytes) (i : ℕ), newline ∉ source →
    (brokenLines linelen i source).filter (· ≠ newline) = source
  | [], _, _ => rfl
  | c :: rest, i, h => by
      rw [List.mem_cons, not_or] at h
      have ih := filter_brokenLines linelen rest (i + 1) h.2
      have hc : c ≠ newline := fun heq => h.1 heq.symm
      rw [brokenLines]
      split
      · rw [List.filter_cons_of_pos (by simpa using hc), List.filter_cons_of_neg (by simp), ih]
      · rw [List.filter_cons_of_pos (by simpa using hc), ih]

/-- Reading stops when the destination is full. -/
theorem removeLineBreaksLoop_full {dstlen j : ℕ} (hj : dstlen ≤ j) (hpos : 0 < dstlen)
    (hlt : dstlen < 2 ^ 64) {dest : Mem} : ∀ (source : Bytes),
    removeLineBreaksLoop dstlen source j dest = (dest, j)
  | [] => rfl
  | c :: rest => by
      have hsize : sizeT ((dstlen : ℤ) - 1) = dstlen - 1 := sizeT_sub (m := 1) hpos hlt
      rw [removeLineBreaksLoop, if_pos (by rw [hsize]; omega)]

/-- **The reader's loop** copies what is not a line feed, as far as the
destination goes. -/
theorem removeLineBreaksLoop_eq {dstlen : ℕ} (hpos : 0 < dstlen) (hlt : dstlen < 2 ^ 64) :
    ∀ (source : Bytes) (j : ℕ) (dest : Mem), j ≤ dstlen →
    removeLineBreaksLoop dstlen source j dest =
      (dest.write j ((source.filter (· ≠ newline)).take (dstlen - j)),
        j + ((source.filter (· ≠ newline)).take (dstlen - j)).length)
  | [], j, dest, _ => by simp [removeLineBreaksLoop]
  | c :: rest, j, dest, hj => by
      have hsize : sizeT ((dstlen : ℤ) - 1) = dstlen - 1 := sizeT_sub (m := 1) hpos hlt
      rcases Nat.eq_or_lt_of_le hj with rfl | hj
      · rw [removeLineBreaksLoop_full (Nat.le_refl _) hpos hlt, Nat.sub_self, List.take_zero,
          Mem.write_nil, List.length_nil, Nat.add_zero]
      · rw [removeLineBreaksLoop, if_neg (by rw [hsize]; omega)]
        by_cases hc : c = newline
        · rw [if_neg (by simpa using hc), removeLineBreaksLoop_eq hpos hlt rest j dest (by omega),
            List.filter_cons_of_neg (by simpa using hc)]
        · rw [if_pos hc, removeLineBreaksLoop_eq hpos hlt rest (j + 1) _ (by omega),
            List.filter_cons_of_pos (by simpa using hc),
            show dstlen - j = dstlen - (j + 1) + 1 by omega, List.take_succ_cons,
            Mem.write_cons c (List.take _ _), List.length_cons, Nat.add_right_comm, Nat.add_assoc]

/-! ## Decimal numbers -/

/-- The character of a digit. -/
def digitChar (d : ℕ) : UInt8 := UInt8.ofNat (48 + d)

/-- What `%d` prints. -/
def decimal (num : ℤ) : Bytes :=
  let digits := (Nat.digits 10 num.natAbs).reverse.map digitChar
  if num < 0 then 45 :: digits else if num = 0 then [digitChar 0] else digits

/-- `qsc_stringutils_int_to_string` at `dest + pos`: as much of the number
as fits, and a terminator. -/
def qscStringutilsIntToString (num : ℤ) (dest : Mem) (pos destlen : ℕ) : Mem :=
  if destlen = 0 then dest else dest.write pos ((decimal num).take (destlen - 1) ++ [0])

/-- The loop of `qsc_stringutils_string_to_int`. -/
def stringToIntLoop : Bytes → UInt32 → UInt32
  | [], res => res
  | c :: rest, res =>
    if c = 0 ∨ c < 48 ∨ 57 < c then res
    else stringToIntLoop rest (res * 10 + c.toUInt32 - 48)

/-- `qsc_stringutils_string_to_int`, of the array that holds the string. -/
def qscStringutilsStringToInt (source : Bytes) : ℤ :=
  (stringToIntLoop (source.takeWhile (· ≠ 0)) 0).toInt32.toInt

theorem decimal_of_digits {n : ℕ} {ds : List ℕ} (hpos : 0 < n) (h : Nat.digits 10 n = ds) :
    decimal n = ds.reverse.map digitChar := by
  rw [decimal, if_neg (by omega), if_neg (by omega), Int.natAbs_natCast, h]

/-- One digit. -/
theorem decimal_one {n : ℕ} (h : n < 10) : decimal n = [digitChar n] := by
  rcases Nat.eq_zero_or_pos n with rfl | hpos
  · rfl
  · exact decimal_of_digits hpos (Nat.digits_of_lt 10 n (by omega) h)

/-- Two digits. -/
theorem decimal_two {n : ℕ} (hle : 10 ≤ n) (h : n < 100) :
    decimal n = [digitChar (n / 10), digitChar (n % 10)] := by
  have hten : 1 < 10 := by decide
  have hdigits : Nat.digits 10 n = [n % 10, n / 10] := by
    rw [Nat.digits_def' hten (by omega), Nat.digits_of_lt _ _ (by omega) (by omega)]
  rw [decimal_of_digits (by omega) hdigits]
  rfl

/-- Four digits. -/
theorem decimal_four {n : ℕ} (hle : 1000 ≤ n) (h : n < 10000) :
    decimal n = [digitChar (n / 1000), digitChar (n / 100 % 10), digitChar (n / 10 % 10),
      digitChar (n % 10)] := by
  have hten : 1 < 10 := by decide
  have hdigits : Nat.digits 10 n = [n % 10, n / 10 % 10, n / 100 % 10, n / 1000] := by
    rw [Nat.digits_def' hten (by omega), Nat.digits_def' hten (by omega),
      Nat.digits_def' hten (by omega), Nat.digits_of_lt _ _ (by omega) (by omega),
      Nat.div_div_eq_div_mul, Nat.div_div_eq_div_mul]
  rw [decimal_of_digits (by omega) hdigits]
  rfl

/-- A digit is read as its value. -/
theorem stringToIntLoop_digit {d : ℕ} (h : d < 10) {rest : Bytes} {res : UInt32} :
    stringToIntLoop (digitChar d :: rest) res =
      stringToIntLoop rest (res * 10 + UInt32.ofNat d) := by
  have hchar : ∀ d < 10, ¬ (digitChar d = 0 ∨ digitChar d < 48 ∨ 57 < digitChar d) ∧
      (digitChar d).toUInt32 = 48 + UInt32.ofNat d := by decide
  have hcancel : ∀ x e : UInt32, x + (48 + e) - 48 = x + e := fun x e => by grind
  obtain ⟨hdigit, hvalue⟩ := hchar d h
  rw [stringToIntLoop, if_neg hdigit, hvalue, hcancel]

theorem digitChar_ne_zero {d : ℕ} (h : d < 10) : digitChar d ≠ 0 := by
  have hchar : ∀ d < 10, digitChar d ≠ 0 := by decide
  exact hchar d h

/-- A string of digits is read as its number. -/
theorem stringToIntLoop_digits : ∀ {ds : List ℕ} {m : ℕ}, (∀ d ∈ ds, d < 10) →
    stringToIntLoop (ds.map digitChar) (UInt32.ofNat m) =
      UInt32.ofNat (ds.foldl (fun n d => n * 10 + d) m)
  | [], _, _ => rfl
  | d :: ds, m, h => by
      have hd : d < 10 := h d List.mem_cons_self
      rw [List.map_cons, stringToIntLoop_digit hd, List.foldl_cons]
      have hstep : UInt32.ofNat m * 10 + UInt32.ofNat d = UInt32.ofNat (m * 10 + d) := by
        rw [UInt32.ofNat_add, UInt32.ofNat_mul]
        rfl
      rw [hstep, stringToIntLoop_digits fun x hx => h x (List.mem_cons_of_mem _ hx)]

/-- **Digits behind which the array is cleared** are read as their
number. -/
theorem qscStringutilsStringToInt_digits (ds : List ℕ) {n k : ℕ} (h : ∀ d ∈ ds, d < 10)
    (hn : ds.foldl (fun n d => n * 10 + d) 0 = n) (hlt : n < 2 ^ 31) :
    qscStringutilsStringToInt (ds.map digitChar ++ List.replicate k 0) = n := by
  have htake : (ds.map digitChar ++ List.replicate k 0).takeWhile (· ≠ 0) = ds.map digitChar := by
    rw [List.takeWhile_append_of_pos]
    · cases k <;> simp [List.replicate_succ]
    · intro c hc
      obtain ⟨d, hd, rfl⟩ := List.mem_map.mp hc
      simpa using digitChar_ne_zero (h d hd)
  have hzero : (0 : UInt32) = UInt32.ofNat 0 := rfl
  rw [qscStringutilsStringToInt, htake, hzero, stringToIntLoop_digits h, hn]
  exact Int32.toInt_ofNat_of_lt hlt

/-! ## The size of a string -/

/-- `qsc_stringutils_string_size` over an array of `size` bytes: the number
of bytes in front of the first zero. A search that finds none would leave
the array; here it stops at the end. -/
def qscStringutilsStringSize (source : Mem) (size : ℕ) : ℕ :=
  ((List.range size).find? fun i => source i = 0).getD size

/-- **The size of a text** that holds no zero and has one behind it. -/
theorem qscStringutilsStringSize_eq {source : Mem} {size n : ℕ} (hn : n < size)
    (htext : ∀ i, i < n → source i ≠ 0) (hend : source n = 0) :
    qscStringutilsStringSize source size = n := by
  have hfind : (List.range size).find? (fun i => source i = 0) = some n := by
    rw [List.find?_range_eq_some]
    exact ⟨by simpa using hend, List.mem_range.2 hn, fun i hi => by simpa using htext i hi⟩
  rw [qscStringutilsStringSize, hfind, Option.getD_some]

/-- A string ends at its first zero at the latest. -/
theorem qscStringutilsStringSize_le {source : Mem} {size n : ℕ} (hn : n < size)
    (hend : source n = 0) : qscStringutilsStringSize source size ≤ n := by
  rw [qscStringutilsStringSize]
  cases hfind : (List.range size).find? fun i => source i = 0 with
  | none =>
    rw [List.find?_range_eq_none] at hfind
    exact absurd hend (by simpa using hfind n hn)
  | some k =>
    rw [List.find?_range_eq_some] at hfind
    obtain ⟨-, -, hbefore⟩ := hfind
    by_contra hlt
    exact absurd hend (by simpa using hbefore n (by simpa using hlt))

/-! ## Searching for a line feed -/

/-- `strstr(source, "\n")`, where `source` is what a block holds from there
on: the place of the first line feed in front of the terminator. It is
`none` if the search runs off the end of the block, after which C promises
nothing. -/
def strstrNewline : Bytes → Option (Option ℕ)
  | [] => none
  | c :: rest =>
    if c = newline then some (some 0)
    else if c = 0 then some none
    else (strstrNewline rest).map (Option.map Nat.succ)

/-- `qsc_stringutils_find_string(source, "\n")` -/
def qscStringutilsFindString (source : Bytes) : Option Int32 :=
  (strstrNewline source).map fun sub => sub.elim (-1) Int32.ofNat

/-- The search of what lies in front of a line feed finds the same one. -/
theorem strstrNewline_drop : ∀ {p k : ℕ} {source : Bytes}, p ≤ k →
    strstrNewline source = some (some k) →
    strstrNewline (source.drop p) = some (some (k - p))
  | 0, _, _, _, h => h
  | _ + 1, _, [], _, h => absurd h (by simp [strstrNewline])
  | p + 1, k, c :: rest, hp, h => by
      rw [strstrNewline] at h
      split at h
      · obtain rfl : 0 = k := Option.some.inj (Option.some.inj h)
        omega
      · split at h
        · exact absurd (Option.some.inj h).symm (by simp)
        · obtain ⟨sub, hsub, hk⟩ := Option.map_eq_some_iff.1 h
          obtain ⟨j, rfl, rfl⟩ := Option.map_eq_some_iff.1 hk
          rw [List.drop_succ_cons, strstrNewline_drop (by omega) hsub, Nat.succ_sub_succ]

/-- **A search from where the last one found a line feed** finds it at once,
also if it is so far that its place has been cut to 32 bits. -/
theorem qscStringutilsFindString_found {source : Bytes} {pln : Int32}
    (h : qscStringutilsFindString source = some pln) (hpos : 0 ≤ pln.toInt) :
    qscStringutilsFindString (source.drop pln.toInt.toNat) = some 0 := by
  obtain ⟨sub, hsub, hpln⟩ := Option.map_eq_some_iff.1 h
  cases sub with
  | none =>
    obtain rfl : -1 = pln := hpln
    exact absurd hpos (by decide)
  | some k =>
    obtain rfl : Int32.ofNat k = pln := hpln
    rw [Int32.toInt_ofNat'] at hpos ⊢
    have hsize : Int32.size = 2 ^ 32 := rfl
    have hmod : (k : ℤ).bmod Int32.size = (k % 2 ^ 32 : ℕ) := by
      rw [hsize, Int.bmod_def] at hpos ⊢
      split
      · rfl
      · rename_i hlarge
        rw [if_neg hlarge] at hpos
        omega
    have hrest : Int32.ofNat (k - k % 2 ^ 32) = 0 := by
      have hdvd : (Int32.size : ℤ) ∣ ((k - k % 2 ^ 32 : ℕ) : ℤ) :=
        Int.natCast_dvd_natCast.2 (Nat.dvd_sub_mod k)
      rw [← Int32.toInt_inj, Int32.toInt_ofNat', Int.bmod_eq_zero_of_dvd hdvd]
      rfl
    rw [hmod, Int.toNat_natCast, qscStringutilsFindString,
      strstrNewline_drop (Nat.mod_le k _) hsub]
    exact congrArg some hrest

/-- It is at the start just if the text begins with it. -/
theorem qscStringutilsFindString_cons_newline {rest : Bytes} :
    qscStringutilsFindString (newline :: rest) = some 0 := rfl

end Qsmp
