import Qsmp.Qsc.Stringutils
/-!
# Dates as text

The printer writes one field after the other, each padded to two digits
by a branch of its own; the parser reads fixed columns. `localtime` and
`mktime` are the C library's and stay parameters.
-/

namespace Qsmp

/-- `QSC_TIMESTAMP_STRING_SIZE` -/
def timestampStringSize : ℕ := 20

/-- `QSC_TIMESTAMP_EPOCH_START` -/
def timestampEpochStart : ℤ := 1900

/-- `struct tm` -/
structure Tm where
  tmSec : ℤ
  tmMin : ℤ
  tmHour : ℤ
  tmMday : ℤ
  tmMon : ℤ
  tmYear : ℤ
  tmWday : ℤ
  tmYday : ℤ
  tmIsdst : ℤ
deriving DecidableEq, Repr

/-- The C library's conversions. -/
structure Clock where
  localtime : Int64 → Tm
  mktime : Tm → Int64

/-- One field of the printer: a zero in front if the value tested is below
ten, then the value shown. -/
def timestampField (tested shown : ℤ) (output : Mem) (pos : ℕ) : Mem × ℕ :=
  if tested < 10 then
    let output := output.write pos [48]
    let pos := pos + 1
    (qscStringutilsIntToString shown output pos (timestampStringSize - pos), pos + 1)
  else
    (qscStringutilsIntToString shown output pos (timestampStringSize - pos), pos + 2)

/-- `qsc_timestamp_time_struct_to_string`. The month is tested as it is
stored, from zero, and shown from one. -/
def qscTimestampTimeStructToString (output : Mem) (tstruct : Tm) : Mem :=
  let output := qscStringutilsIntToString (tstruct.tmYear + timestampEpochStart) output 0
    timestampStringSize
  let pos := 4
  let output := output.write pos [45]
  let pos := pos + 1
  let (output, pos) := timestampField tstruct.tmMon (tstruct.tmMon + 1) output pos
  let output := output.write pos [45]
  let pos := pos + 1
  let (output, pos) := timestampField tstruct.tmMday tstruct.tmMday output pos
  let output := output.write pos [32]
  let pos := pos + 1
  let (output, pos) := timestampField tstruct.tmHour tstruct.tmHour output pos
  let output := output.write pos [45]
  let pos := pos + 1
  let (output, pos) := timestampField tstruct.tmMin tstruct.tmMin output pos
  let output := output.write pos [45]
  let pos := pos + 1
  let (output, pos) := timestampField tstruct.tmSec tstruct.tmSec output pos
  output.clear pos 1

/-- `qsc_timestamp_string_to_time_struct`. The five bytes are cleared once,
after the year. -/
def qscTimestampStringToTimeStruct (output : Mem) : Tm :=
  let tmp := Mem.zero.write 0 (output.read 0 4)
  let year := qscStringutilsStringToInt (tmp.read 0 5)
  let tmp := (tmp.clear 0 5).write 0 (output.read 5 2)
  let mon := qscStringutilsStringToInt (tmp.read 0 5)
  let tmp := tmp.write 0 (output.read 8 2)
  let mday := qscStringutilsStringToInt (tmp.read 0 5)
  let tmp := tmp.write 0 (output.read 11 2)
  let hour := qscStringutilsStringToInt (tmp.read 0 5)
  let tmp := tmp.write 0 (output.read 14 2)
  let min := qscStringutilsStringToInt (tmp.read 0 5)
  let tmp := tmp.write 0 (output.read 17 2)
  let sec := qscStringutilsStringToInt (tmp.read 0 5)
  { tmSec := sec, tmMin := min, tmHour := hour, tmMday := mday, tmMon := mon - 1,
    tmYear := year - timestampEpochStart, tmWday := 0, tmYday := 0, tmIsdst := -1 }

/-- `qsc_timestamp_datetime_to_seconds` -/
def qscTimestampDatetimeToSeconds (C : Clock) (input : Mem) : UInt64 :=
  (C.mktime (qscTimestampStringToTimeStruct input)).toUInt64

/-- `qsc_timestamp_seconds_to_datetime` -/
def qscTimestampSecondsToDatetime (C : Clock) (dtsec : UInt64) (output : Mem) : Mem :=
  qscTimestampTimeStructToString (output.clear 0 timestampStringSize) (C.localtime dtsec.toInt64)

/-! ## The text -/

/-- Two digits. -/
def twoDigits (n : ℕ) : Bytes := [digitChar (n / 10), digitChar (n % 10)]

/-- Four digits. -/
def fourDigits (n : ℕ) : Bytes :=
  [digitChar (n / 1000), digitChar (n / 100 % 10), digitChar (n / 10 % 10), digitChar (n % 10)]

/-- A calendar time with a four-digit year. -/
structure Tm.Calendar (t : Tm) : Prop where
  year : 1000 ≤ t.tmYear + 1900 ∧ t.tmYear + 1900 ≤ 9999
  mon : 0 ≤ t.tmMon ∧ t.tmMon ≤ 11
  mday : 1 ≤ t.tmMday ∧ t.tmMday ≤ 31
  hour : 0 ≤ t.tmHour ∧ t.tmHour ≤ 23
  min : 0 ≤ t.tmMin ∧ t.tmMin ≤ 59
  sec : 0 ≤ t.tmSec ∧ t.tmSec ≤ 60

/-- What the month field shows. October is padded like a month of one
digit, so its second digit is lost. -/
def shownMonth (mon : ℕ) : ℕ := if mon = 9 then 1 else mon + 1

/-- The text of a date. -/
def dateText (year mon mday hour min sec : ℕ) : Bytes :=
  fourDigits year ++ [45] ++ twoDigits (shownMonth mon) ++ [45] ++ twoDigits mday ++ [32] ++
    twoDigits hour ++ [45] ++ twoDigits min ++ [45] ++ twoDigits sec

variable {output : Mem} {pos n : ℕ} {s : Bytes}

/-- What a number leaves of its digits where `k` of them fit. -/
theorem read_intToString {num : ℤ} (k destlen : ℕ) (h : output.read 0 pos = s)
    (hk : k ≤ (decimal num).length) (hfit : k < destlen) :
    (qscStringutilsIntToString num output pos destlen).read 0 (pos + k) =
      s ++ (decimal num).take k := by
  rw [qscStringutilsIntToString, if_neg (by omega), Mem.read_write_behind h (by
    rw [List.length_append, List.length_take, List.length_singleton]
    omega), List.take_append_of_le_length (by
    rw [List.length_take]
    omega), List.take_take, Nat.min_eq_left (by omega)]

/-- A field whose value tests as one digit: a zero, and the first digit of
the value shown. -/
theorem timestampField_short {tested shown : ℤ} {d : UInt8} {rest : Bytes} (ht : tested < 10)
    (hd : decimal shown = d :: rest) (hpos : pos ≤ 17) (h : output.read 0 pos = s) :
    (timestampField tested shown output pos).2 = pos + 2 ∧
      (timestampField tested shown output pos).1.read 0 (pos + 2) = s ++ [48, d] := by
  have hzero : (output.write pos [48]).read 0 (pos + 1) = s ++ [48] :=
    Mem.read_write_next h
  have hdigit := read_intToString 1 (timestampStringSize - (pos + 1)) hzero
    (show 1 ≤ (decimal shown).length by rw [hd]; simp) (by simp only [timestampStringSize]; omega)
  rw [timestampField, if_pos ht]
  refine ⟨rfl, ?_⟩
  rw [hdigit, hd, List.append_assoc]
  rfl

/-- A field whose value tests as two digits: the first two of the value
shown. -/
theorem timestampField_long {tested shown : ℤ} {d d' : UInt8} {rest : Bytes} (ht : 10 ≤ tested)
    (hd : decimal shown = d :: d' :: rest) (hpos : pos ≤ 17) (h : output.read 0 pos = s) :
    (timestampField tested shown output pos).2 = pos + 2 ∧
      (timestampField tested shown output pos).1.read 0 (pos + 2) = s ++ [d, d'] := by
  have hdigits := read_intToString 2 (timestampStringSize - pos) h
    (show 2 ≤ (decimal shown).length by rw [hd]; simp) (by simp only [timestampStringSize]; omega)
  rw [timestampField, if_neg (by omega)]
  refine ⟨rfl, ?_⟩
  rw [hdigits, hd]
  rfl

/-- **A field is padded to two digits**, if the value tested is the value
shown. -/
theorem timestampField_eq (hn : n < 100) (hpos : pos ≤ 17) (h : output.read 0 pos = s) :
    (timestampField n n output pos).2 = pos + 2 ∧
      (timestampField n n output pos).1.read 0 (pos + 2) = s ++ twoDigits n := by
  rcases Nat.lt_or_ge n 10 with hlt | hge
  · have hfield := timestampField_short (show (n : ℤ) < 10 by omega) (decimal_one hlt) hpos h
    rw [twoDigits, Nat.div_eq_of_lt hlt, Nat.mod_eq_of_lt hlt]
    exact hfield
  · exact timestampField_long (by omega) (decimal_two hge hn) hpos h

/-- **So is the month**, but for October. -/
theorem timestampField_month {mon : ℕ} (hmon : mon ≤ 11) (hpos : pos ≤ 17)
    (h : output.read 0 pos = s) :
    (timestampField mon (mon + 1) output pos).2 = pos + 2 ∧
      (timestampField mon (mon + 1) output pos).1.read 0 (pos + 2) =
        s ++ twoDigits (shownMonth mon) := by
  obtain hlt | rfl | hge : mon < 9 ∨ mon = 9 ∨ 10 ≤ mon := by omega
  · have hdecimal : decimal (mon + 1 : ℤ) = [digitChar (mon + 1)] :=
      decimal_one (show mon + 1 < 10 by omega)
    rw [shownMonth, if_neg (by omega), twoDigits, Nat.div_eq_of_lt (by omega),
      Nat.mod_eq_of_lt (by omega)]
    exact timestampField_short (by omega) hdecimal hpos h
  · -- The value tested has one digit, the value shown has two.
    have hdecimal : decimal 10 = [digitChar 1, digitChar 0] := by decide
    exact timestampField_short (by decide) hdecimal hpos h
  · have hdecimal : decimal (mon + 1 : ℤ) = twoDigits (mon + 1) :=
      decimal_two (show 10 ≤ mon + 1 by omega) (show mon + 1 < 100 by omega)
    rw [shownMonth, if_neg (by omega)]
    exact timestampField_long (by omega) hdecimal hpos h

/-- A separator and a field behind it. -/
theorem timestampField_behind (c : UInt8) (hn : n < 100) (hpos : pos ≤ 16)
    (h : output.read 0 pos = s) :
    ∃ output', timestampField n n (output.write pos [c]) (pos + 1) = (output', pos + 3) ∧
      output'.read 0 (pos + 3) = s ++ [c] ++ twoDigits n := by
  have hsep : (output.write pos [c]).read 0 (pos + 1) = s ++ [c] :=
    Mem.read_write_next h
  obtain ⟨hnext, hread⟩ := timestampField_eq hn (by omega) hsep
  exact ⟨_, Prod.ext rfl hnext, hread⟩

/-- A calendar time has natural numbers in its fields. -/
theorem Tm.Calendar.fields {t : Tm} (h : t.Calendar) : ∃ year mon mday hour min sec : ℕ,
    t.tmYear + 1900 = year ∧ t.tmMon = mon ∧ t.tmMday = mday ∧ t.tmHour = hour ∧
      t.tmMin = min ∧ t.tmSec = sec := by
  obtain ⟨hyear, hmon, hmday, hhour, hmin, hsec⟩ := h
  refine ⟨(t.tmYear + 1900).toNat, t.tmMon.toNat, t.tmMday.toNat, t.tmHour.toNat, t.tmMin.toNat,
    t.tmSec.toNat, ?_, ?_, ?_, ?_, ?_, ?_⟩ <;> omega

/-- They fit the columns of the text. -/
theorem Tm.Calendar.bounds {t : Tm} {year mon mday hour min sec : ℕ} (h : t.Calendar)
    (hyear : t.tmYear + 1900 = year) (hmon : t.tmMon = mon) (hmday : t.tmMday = mday)
    (hhour : t.tmHour = hour) (hmin : t.tmMin = min) (hsec : t.tmSec = sec) :
    (1000 ≤ year ∧ year < 10000) ∧ mon ≤ 11 ∧ mday < 100 ∧ hour < 100 ∧ min < 100 ∧ sec < 100 := by
  have hy := h.year
  have hm := h.mon
  have hd := h.mday
  have hh := h.hour
  have hn := h.min
  have hs := h.sec
  omega

/-- **The printer** writes the text and its terminator. -/
theorem read_timeStructToString (output : Mem) {year mon mday hour min sec : ℕ} {t : Tm}
    (hyear : t.tmYear + 1900 = year) (hmon : t.tmMon = mon) (hmday : t.tmMday = mday)
    (hhour : t.tmHour = hour) (hmin : t.tmMin = min) (hsec : t.tmSec = sec) (h : t.Calendar) :
    (qscTimestampTimeStructToString output t).read 0 20 =
      dateText year mon mday hour min sec ++ [0] := by
  obtain ⟨⟨hfour, hy⟩, hm, hd, hh, hn, hs⟩ := h.bounds hyear hmon hmday hhour hmin hsec
  have hdecimal : decimal (t.tmYear + timestampEpochStart) = fourDigits year := by
    rw [timestampEpochStart, hyear]
    exact decimal_four hfour hy
  have h₄ : (qscStringutilsIntToString (t.tmYear + timestampEpochStart) output 0
      timestampStringSize).read 0 4 = fourDigits year := by
    have hread := read_intToString 4 timestampStringSize (Mem.read_zero_len (p := output))
      (show 4 ≤ (decimal (t.tmYear + timestampEpochStart)).length by
        rw [hdecimal]
        exact Nat.le_refl 4)
      (by decide)
    rw [hdecimal] at hread
    exact hread
  obtain ⟨out, hout⟩ : ∃ out, qscStringutilsIntToString (t.tmYear + timestampEpochStart) output 0
      timestampStringSize = out := ⟨_, rfl⟩
  rw [hout] at h₄
  -- Each field is written behind its separator; what was printed before stays.
  have h₅ : (out.write 4 [45]).read 0 5 = fourDigits year ++ [45] :=
    Mem.read_write_next h₄
  obtain ⟨hnext, h₇⟩ := timestampField_month hm (by decide) h₅
  obtain ⟨o₇, ho₇⟩ : ∃ o₇, timestampField mon (mon + 1) (out.write 4 [45]) 5 = (o₇, 7) :=
    ⟨_, Prod.ext rfl hnext⟩
  rw [ho₇] at h₇
  obtain ⟨o₁₀, ho₁₀, h₁₀⟩ := timestampField_behind 45 hd (by decide) h₇
  obtain ⟨o₁₃, ho₁₃, h₁₃⟩ := timestampField_behind 32 hh (by decide) h₁₀
  obtain ⟨o₁₆, ho₁₆, h₁₆⟩ := timestampField_behind 45 hn (by decide) h₁₃
  obtain ⟨o₁₉, ho₁₉, h₁₉⟩ := timestampField_behind 45 hs (by decide) h₁₆
  have hprint : qscTimestampTimeStructToString output t = o₁₉.clear 19 1 := by
    simp only [qscTimestampTimeStructToString, hout, hmon, hmday, hhour, hmin, hsec, ho₇, ho₁₀,
      ho₁₃, ho₁₆, ho₁₉]
  rw [hprint, Mem.clear, show 20 = 16 + 3 + 1 from rfl, Mem.read_write_behind h₁₉ (by simp)]
  simp only [dateText, List.append_assoc]
  rfl

/-- Two characters in the parser's cleared array. -/
theorem read_tmp {tmp : Mem} (bs : Bytes) (hbs : bs.length = 2)
    (h : tmp.read 2 3 = List.replicate 3 0) :
    (tmp.write 0 bs).read 0 5 = bs ++ List.replicate 3 0 ∧
      (tmp.write 0 bs).read 2 3 = List.replicate 3 0 := by
  have hrest : (tmp.write 0 bs).read 2 3 = List.replicate 3 0 := by
    rw [Mem.read_write_above (by omega), h]
  refine ⟨?_, hrest⟩
  rw [show 5 = 2 + 3 from rfl, Mem.read_add, Nat.zero_add, hrest, Mem.read_write_of_length hbs]

/-- Two digits are read as their number. -/
theorem stringToInt_twoDigits (hn : n < 100) :
    qscStringutilsStringToInt (twoDigits n ++ List.replicate 3 0) = n :=
  qscStringutilsStringToInt_digits [n / 10, n % 10] (by
    intro d hd
    simp only [List.mem_cons, List.not_mem_nil, or_false] at hd
    omega) (by
    simp only [List.foldl_cons, List.foldl_nil]
    omega) (by omega)

/-- Four digits are read as their number. -/
theorem stringToInt_fourDigits (hn : n < 10000) :
    qscStringutilsStringToInt (fourDigits n ++ List.replicate 1 0) = n :=
  qscStringutilsStringToInt_digits [n / 1000, n / 100 % 10, n / 10 % 10, n % 10] (by
    intro d hd
    simp only [List.mem_cons, List.not_mem_nil, or_false] at hd
    omega) (by
    simp only [List.foldl_cons, List.foldl_nil]
    omega) (by omega)

/-- **The parser** reads the text's numbers back. -/
theorem stringToTimeStruct_dateText {year mon mday hour min sec : ℕ} (hyear : year < 10000)
    (hmon : mon ≤ 11) (hmday : mday < 100) (hhour : hour < 100) (hmin : min < 100)
    (hsec : sec < 100) (h : output.read 0 19 = dateText year mon mday hour min sec) :
    qscTimestampStringToTimeStruct output =
      { tmSec := sec, tmMin := min, tmHour := hour, tmMday := mday, tmMon := shownMonth mon - 1,
        tmYear := year - timestampEpochStart, tmWday := 0, tmYday := 0, tmIsdst := -1 } := by
  have hshown : shownMonth mon < 100 := by
    rw [shownMonth]
    split <;> omega
  -- The columns of the text.
  have h₀ : output.read 0 4 = fourDigits year := Mem.read_of_read h (by decide)
  have h₅ : output.read 5 2 = twoDigits (shownMonth mon) := Mem.read_of_read h (by decide)
  have h₈ : output.read 8 2 = twoDigits mday := Mem.read_of_read h (by decide)
  have h₁₁ : output.read 11 2 = twoDigits hour := Mem.read_of_read h (by decide)
  have h₁₄ : output.read 14 2 = twoDigits min := Mem.read_of_read h (by decide)
  have h₁₇ : output.read 17 2 = twoDigits sec := Mem.read_of_read h (by decide)
  -- The array past the two characters stays clear from the month on.
  have htmp₀ : (Mem.zero.write 0 (fourDigits year)).read 0 5 =
      fourDigits year ++ List.replicate 1 0 := rfl
  have hclear : ((Mem.zero.write 0 (fourDigits year)).clear 0 5).read 2 3 = List.replicate 3 0 :=
    rfl
  obtain ⟨hread₅, hclear₅⟩ := read_tmp (twoDigits (shownMonth mon)) rfl hclear
  obtain ⟨hread₈, hclear₈⟩ := read_tmp (twoDigits mday) rfl hclear₅
  obtain ⟨hread₁₁, hclear₁₁⟩ := read_tmp (twoDigits hour) rfl hclear₈
  obtain ⟨hread₁₄, hclear₁₄⟩ := read_tmp (twoDigits min) rfl hclear₁₁
  obtain ⟨hread₁₇, -⟩ := read_tmp (twoDigits sec) rfl hclear₁₄
  simp only [qscTimestampStringToTimeStruct, h₀, h₅, h₈, h₁₁, h₁₄, h₁₇, htmp₀, hread₅, hread₈,
    hread₁₁, hread₁₄, hread₁₇, stringToInt_twoDigits hshown, stringToInt_twoDigits hmday,
    stringToInt_twoDigits hhour, stringToInt_twoDigits hmin, stringToInt_twoDigits hsec,
    stringToInt_fourDigits hyear]

/-! ## The round trip -/

/-- The six fields a date is made of. -/
structure Tm.SameTime (t u : Tm) : Prop where
  year : t.tmYear = u.tmYear
  mon : t.tmMon = u.tmMon
  mday : t.tmMday = u.tmMday
  hour : t.tmHour = u.tmHour
  min : t.tmMin = u.tmMin
  sec : t.tmSec = u.tmSec

/-- Memory that holds a string of `n` characters. -/
def Mem.HoldsString (p : Mem) (n : ℕ) : Prop := (∀ i, i < n → p i ≠ 0) ∧ p n = 0

/-- No character of a date ends the string. -/
theorem dateText_ne_zero {year mon mday hour min sec : ℕ} (hyear : year < 10000) (hmon : mon ≤ 11)
    (hmday : mday < 100) (hhour : hour < 100) (hmin : min < 100) (hsec : sec < 100) :
    ∀ c ∈ dateText year mon mday hour min sec, c ≠ 0 := by
  have htwo : ∀ n < 100, ∀ c ∈ twoDigits n, c ≠ 0 := by
    intro n hn c hc
    simp only [twoDigits, List.mem_cons, List.not_mem_nil, or_false] at hc
    rcases hc with rfl | rfl
    · exact digitChar_ne_zero (by omega)
    · exact digitChar_ne_zero (by omega)
  have hshown : shownMonth mon < 100 := by
    rw [shownMonth]
    split <;> omega
  have hfour : ∀ c ∈ fourDigits year, c ≠ 0 := by
    intro c hc
    simp only [fourDigits, List.mem_cons, List.not_mem_nil, or_false] at hc
    rcases hc with rfl | rfl | rfl | rfl
    all_goals exact digitChar_ne_zero (by omega)
  intro c hc
  simp only [dateText, List.mem_append, List.mem_singleton, or_assoc] at hc
  rcases hc with hc | rfl | hc | rfl | hc | rfl | hc | rfl | hc | rfl | hc
  · exact hfour c hc
  · decide
  · exact htwo _ hshown c hc
  · decide
  · exact htwo _ hmday c hc
  · decide
  · exact htwo _ hhour c hc
  · decide
  · exact htwo _ hmin c hc
  · decide
  · exact htwo _ hsec c hc

/-- **A date survives its text unless it is in October**: the printer
writes nineteen characters and a terminator, and the parser restores all
fields exactly when the month stored is not nine. -/
theorem timeStruct_survives_iff {t : Tm} (h : t.Calendar) (output : Mem) :
    ((qscTimestampTimeStructToString output t).HoldsString 19 ∧
      (qscTimestampStringToTimeStruct (qscTimestampTimeStructToString output t)).SameTime t) ↔
      t.tmMon ≠ 9 := by
  obtain ⟨year, mon, mday, hour, min, sec, hyear, hmon, hmday, hhour, hmin, hsec⟩ := h.fields
  have hprint := read_timeStructToString output hyear hmon hmday hhour hmin hsec h
  obtain ⟨⟨-, hy⟩, hm, hd, hh, hn, hs⟩ := h.bounds hyear hmon hmday hhour hmin hsec
  have htext : (qscTimestampTimeStructToString output t).read 0 19 =
      dateText year mon mday hour min sec := Mem.read_of_read hprint (by decide)
  have hend : (qscTimestampTimeStructToString output t).read 19 1 = [0] :=
    Mem.read_of_read hprint (by decide)
  have hparse := stringToTimeStruct_dateText hy hm hd hh hn hs htext
  have hstring : (qscTimestampTimeStructToString output t).HoldsString 19 := by
    refine ⟨fun i hi => ?_, List.singleton_inj.mp hend⟩
    have hmem : qscTimestampTimeStructToString output t (0 + i) ∈
        (qscTimestampTimeStructToString output t).read 0 19 := Mem.mem_read hi
    rw [htext, Nat.zero_add] at hmem
    exact dateText_ne_zero hy hm hd hh hn hs _ hmem
  rw [hparse]
  constructor
  · rintro ⟨-, hsame⟩ hnine
    have hshown : ((shownMonth mon : ℕ) : ℤ) - 1 = t.tmMon := hsame.mon
    rw [shownMonth, if_pos (by omega), hnine] at hshown
    exact absurd hshown (by decide)
  · intro hne
    have hshown : shownMonth mon = mon + 1 := by rw [shownMonth, if_neg (by omega)]
    refine ⟨hstring, ?_, ?_, hmday.symm, hhour.symm, hmin.symm, hsec.symm⟩
    · simp only [timestampEpochStart]
      omega
    · simp only [hshown]
      omega

/-- An October date comes back as the same day of January. -/
theorem october_lost :
    let t : Tm := ⟨45, 30, 12, 15, 9, 124, 2, 288, 0⟩
    t.Calendar ∧ ¬ ((qscTimestampTimeStructToString Mem.zero t).HoldsString 19 ∧
      (qscTimestampStringToTimeStruct (qscTimestampTimeStructToString Mem.zero t)).SameTime t) := by
  refine ⟨⟨?_, ?_, ?_, ?_, ?_, ?_⟩, fun h => absurd h.2.mon (by decide)⟩ <;> decide

/-! ## The conversions of the C library -/

/-- The days of a month. -/
def daysInMonth (year mon : ℤ) : ℤ :=
  if mon = 1 then if year % 4 = 0 ∧ (year % 100 ≠ 0 ∨ year % 400 = 0) then 29 else 28
  else if mon = 3 ∨ mon = 5 ∨ mon = 8 ∨ mon = 10 then 30 else 31

/-- A calendar time whose day is one of its month, and whose second is not
a leap second: one that `mktime` does not normalise. -/
structure Tm.Date (t : Tm) : Prop extends t.Calendar where
  day : t.tmMday ≤ daysInMonth (t.tmYear + 1900) t.tmMon
  noLeapSecond : t.tmSec ≤ 59

/-- `localtime` and `mktime` are inverse to each other at a time: when the
library is left to find out about daylight saving, the fields of its local
time are mapped back to it, and no other date is. -/
structure Clock.InverseAt (C : Clock) (s : Int64) : Prop where
  back : ∀ u : Tm, u.SameTime (C.localtime s) → u.tmIsdst = -1 → C.mktime u = s
  only : ∀ u : Tm, u.Date → u.tmIsdst = -1 → C.mktime u = s → u.SameTime (C.localtime s)

/-- **An expiration survives its text unless it is in October.** -/
theorem datetimeToSeconds_iff {C : Clock} {e : UInt64} (h : (C.localtime e.toInt64).Date)
    (hinv : C.InverseAt e.toInt64) {p : Mem}
    (htext : p.read 0 19 = (qscTimestampSecondsToDatetime C e output).read 0 19) :
    qscTimestampDatetimeToSeconds C p = e ↔ (C.localtime e.toInt64).tmMon ≠ 9 := by
  obtain ⟨t, ht⟩ : ∃ t, C.localtime e.toInt64 = t := ⟨_, rfl⟩
  rw [qscTimestampSecondsToDatetime, ht] at htext
  obtain ⟨hback, honly⟩ := hinv
  rw [ht] at h hback honly ⊢
  obtain ⟨hcal, hday, hleap⟩ := h
  obtain ⟨year, mon, mday, hour, min, sec, hyear, hmon, hmday, hhour, hmin, hsec⟩ := hcal.fields
  have hprint := read_timeStructToString (output.clear 0 timestampStringSize) hyear hmon hmday
    hhour hmin hsec hcal
  obtain ⟨⟨-, hy⟩, hm, hd, hh, hn, hs⟩ := hcal.bounds hyear hmon hmday hhour hmin hsec
  have hdate : p.read 0 19 = dateText year mon mday hour min sec :=
    htext.trans (Mem.read_of_read hprint (by decide))
  have hparse := stringToTimeStruct_dateText hy hm hd hh hn hs hdate
  rw [qscTimestampDatetimeToSeconds, hparse]
  constructor
  · intro heq hnine
    have hseconds := congrArg UInt64.toInt64 heq
    rw [Int64.toInt64_toUInt64] at hseconds
    have hshown : shownMonth mon = 1 := if_pos (by omega)
    -- The same day of January is a date of its own, and cannot be mapped to the same time.
    have hsame := honly _ ?_ rfl hseconds
    · have hmonth : ((shownMonth mon : ℕ) : ℤ) - 1 = t.tmMon := hsame.mon
      rw [hshown, hnine] at hmonth
      exact absurd hmonth (by decide)
    · obtain ⟨hyears, -, hdays, hhours, hmins, hsecs⟩ := hcal
      refine ⟨⟨?_, ?_, ?_, ?_, ?_, ?_⟩, ?_, ?_⟩
      all_goals simp only [timestampEpochStart, hshown]
      any_goals omega
      have hjanuary : daysInMonth (year - 1900 + 1900) ((1 : ℕ) - 1) = 31 := by
        rw [daysInMonth, if_neg (by decide), if_neg (by decide)]
      rw [hjanuary]
      omega
  · intro hne
    have hshown : shownMonth mon = mon + 1 := if_neg (by omega)
    rw [hback, UInt64.toUInt64_toInt64]
    · refine ⟨?_, ?_, hmday.symm, hhour.symm, hmin.symm, hsec.symm⟩
      · simp only [timestampEpochStart]
        omega
      · simp only [hshown]
        omega
    · rfl

end Qsmp
