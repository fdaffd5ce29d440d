import Qsmp.Qsc.Encoding
/-!
# What base64 accepts

Base64 text is whole groups of four characters, filled up at the end with
one or two padding characters. The decoder asks for less than this: it
takes padding wherever it stands, and works out the size from the last
padding character behind the first character of the text, the byte behind
the text included. So it accepts the format exactly where no padding is
misplaced and none lies behind the text.
-/

namespace Qsmp

/-- The padding that ends a text: none, one or two characters. -/
def base64Padding (text : Bytes) : ℕ :=
  ((text.reverse.take 2).takeWhile (· = base64Pad)).length

/-- **Padding only at the end**: the text in front of it has none. -/
def PadsAtEnd (text : Bytes) : Prop :=
  base64Pad ∉ text.take (text.length - base64Padding text)

/-- **The base64 format.** -/
structure Base64Text (text : Bytes) : Prop where
  groups : text.length % 4 = 0
  alphabet : ∀ c ∈ text, c ∈ base64Enctbl ∨ c = base64Pad
  atEnd : PadsAtEnd text

/-- The number of bytes a text stands for. -/
def base64TextSize (text : Bytes) : ℕ := text.length / 4 * 3 - base64Padding text

/-- The padding counted at the last padding character among those from
`input[1]` to `input[inlen]`: one, and another if the character in front of
it pads as well. -/
def paddingAtLast (input : Mem) (inlen : ℕ) : ℕ :=
  match (List.range inlen).reverse.find? fun i => input (i + 1) = base64Pad with
  | some i => if input i = base64Pad then 2 else 1
  | none => 0

variable {input output : Mem} {inlen otplen n : ℕ} {text : Bytes} {c : UInt8}

/-! ## The characters -/

/-- **The characters let through**: the alphabet, and the padding
character. -/
theorem isValidChar_iff : qscEncodingBase64IsValidChar c = true ↔
    c ∈ base64Enctbl ∨ c = base64Pad := by
  have hmem : ∀ n : Fin 256, qscEncodingBase64IsValidChar (UInt8.ofFin n) = true →
      UInt8.ofFin n ∈ base64Enctbl ∨ UInt8.ofFin n = base64Pad := by decide +kernel
  refine ⟨hmem c.toFin, ?_⟩
  rintro (hc | rfl)
  · obtain ⟨k, hk, rfl⟩ := List.mem_iff_getElem.1 hc
    have hvalid := isValidChar_enctbl k hk
    rwa [List.getD_eq_getElem _ _ hk] at hvalid
  · rfl

theorem all_isValidChar_iff : text.all qscEncodingBase64IsValidChar = true ↔
    ∀ c ∈ text, c ∈ base64Enctbl ∨ c = base64Pad := by
  rw [List.all_eq_true]
  exact forall₂_congr fun c _ => isValidChar_iff

/-- Some character is let through nowhere. -/
theorem exists_invalid_iff : (∃ c ∈ text, ¬ (c ∈ base64Enctbl ∨ c = base64Pad)) ↔
    ¬ ∀ c ∈ text, c ∈ base64Enctbl ∨ c = base64Pad := by
  constructor
  · rintro ⟨c, hc, hnot⟩ hall
    exact hnot (hall c hc)
  · intro hnot
    by_contra hnone
    exact hnot fun c hc => by_contra fun hno => hnone ⟨c, hc, hno⟩

/-! ## The size worked out -/

@[simp] theorem paddingAtLast_zero : paddingAtLast input 0 = 0 := rfl

theorem paddingAtLast_succ : paddingAtLast input (n + 1) =
    if input (n + 1) = base64Pad then (if input n = base64Pad then 2 else 1)
    else paddingAtLast input n := by
  rw [paddingAtLast, List.range_succ, List.reverse_append, List.reverse_singleton,
    List.singleton_append]
  by_cases h : input (n + 1) = base64Pad
  · rw [List.find?_cons_of_pos (by simpa using h), if_pos h]
  · rw [List.find?_cons_of_neg (by simpa using h), if_neg h, paddingAtLast]

theorem paddingAtLast_le : ∀ n, paddingAtLast input n ≤ 2
  | 0 => Nat.zero_le 2
  | n + 1 => by
      rw [paddingAtLast_succ]
      split
      · split <;> omega
      · exact paddingAtLast_le n

/-- **The size the search finds**: that of the groups, less the padding at
the last padding character. -/
theorem base64DecodedSizeLoop_eq {res : ℕ} (hres : 2 ≤ res) (hlt : res < 2 ^ 64) :
    ∀ i, base64DecodedSizeLoop input res i = res - paddingAtLast input i
  | 0 => rfl
  | i + 1 => by
      have hone : sizeT ((res : ℤ) - 1) = res - 1 := sizeT_sub (m := 1) (by omega) hlt
      have htwo : sizeT (((res - 1 : ℕ) : ℤ) - 1) = res - 1 - 1 :=
        sizeT_sub (m := 1) (by omega) (by omega)
      rw [base64DecodedSizeLoop, paddingAtLast_succ]
      by_cases hpad : input (i + 1) = base64Pad
      · simp only [if_pos hpad, hone]
        by_cases hpad' : input i = base64Pad
        · rw [if_pos hpad', if_pos hpad', htwo, Nat.sub_sub]
        · rw [if_neg hpad', if_neg hpad']
      · rw [if_neg hpad, if_neg hpad]
        exact base64DecodedSizeLoop_eq hres hlt i

/-- **What the decoder accepts**: whole groups of valid characters, whose
size less the padding last seen fits. -/
theorem qscEncodingBase64Decode_fst (hlt : inlen < 2 ^ 64) :
    (qscEncodingBase64Decode output otplen input inlen).1 = true ↔
      inlen % 4 = 0 ∧ (∀ c ∈ input.read 0 inlen, c ∈ base64Enctbl ∨ c = base64Pad) ∧
        inlen / 4 * 3 ≤ otplen + paddingAtLast input inlen := by
  rw [← all_isValidChar_iff]
  by_cases hgroups : inlen % 4 = 0
  · have hsize : qscEncodingBase64DecodedSize input inlen =
        inlen / 4 * 3 - paddingAtLast input inlen := by
      rw [qscEncodingBase64DecodedSize]
      rcases Nat.eq_zero_or_pos inlen with hzero | hpos
      · rw [hzero]
        rfl
      · exact base64DecodedSizeLoop_eq (by omega) (by omega) inlen
    rw [qscEncodingBase64Decode, hsize]
    by_cases hfits : otplen < inlen / 4 * 3 - paddingAtLast input inlen
    · rw [if_pos (.inl hfits)]
      refine iff_of_false Bool.false_ne_true fun h => ?_
      omega
    · rw [if_neg (by omega)]
      split
      · rename_i hvalid
        exact iff_of_true rfl ⟨hgroups, hvalid, by omega⟩
      · rename_i hvalid
        exact iff_of_false Bool.false_ne_true fun h => hvalid h.2.1
  · rw [qscEncodingBase64Decode, if_pos (.inr hgroups)]
    exact iff_of_false Bool.false_ne_true fun h => hgroups h.1

/-! ## Padding at the end -/

theorem base64Padding_append {front : Bytes} {a b : UInt8} :
    base64Padding (front ++ [a, b]) =
      if b = base64Pad then (if a = base64Pad then 2 else 1) else 0 := by
  have htwo : (front ++ [a, b]).reverse.take 2 = [b, a] := by simp
  rw [base64Padding, htwo]
  by_cases hb : b = base64Pad
  · by_cases ha : a = base64Pad
    · simp [hb, ha]
    · simp [hb, ha]
  · simp [hb]

theorem base64Padding_le (text : Bytes) : base64Padding text ≤ 2 := by
  have hle := (List.takeWhile_sublist (· = base64Pad) (l := text.reverse.take 2)).length_le
  rw [List.length_take] at hle
  exact Nat.le_trans hle (Nat.min_le_left _ _)

/-- Without padding nothing is counted. -/
theorem paddingAtLast_eq_zero (h : ∀ i, i < n → input (i + 1) ≠ base64Pad) :
    paddingAtLast input n = 0 := by
  induction n with
  | zero => rfl
  | succ n ih =>
    rw [paddingAtLast_succ, if_neg (h n (by omega))]
    exact ih fun i hi => h i (by omega)

/-- A text of two characters and more, by its last two. -/
theorem read_last_two : input.read 0 (n + 2) =
    input.read 0 n ++ [input n, input (n + 1)] := by
  rw [Mem.read_add, Nat.zero_add, Mem.read_succ, Mem.read_succ, Mem.read_zero_len]

/-- **Padding at the end is counted as it is**, and one more if the byte
behind the text looks like padding and there are not two already. -/
theorem PadsAtEnd.paddingAtLast_eq (h : PadsAtEnd (input.read 0 (n + 2))) :
    paddingAtLast input (n + 2) =
      if input (n + 2) = base64Pad ∧ base64Padding (input.read 0 (n + 2)) < 2 then
        base64Padding (input.read 0 (n + 2)) + 1
      else base64Padding (input.read 0 (n + 2)) := by
  rw [PadsAtEnd, Mem.length_read] at h
  rw [read_last_two, base64Padding_append] at h ⊢
  rw [paddingAtLast_succ, paddingAtLast_succ]
  by_cases hbehind : input (n + 2) = base64Pad
  · rw [if_pos hbehind]
    by_cases hb : input (n + 1) = base64Pad
    · by_cases ha : input n = base64Pad
      · simp [hb, ha]
      · simp [hbehind, hb, ha]
    · simp [hbehind, hb]
  · simp only [hbehind, false_and, if_false]
    by_cases hb : input (n + 1) = base64Pad
    · simp [hb]
    · -- the text has no padding at all
      rw [if_neg hb, if_neg hb]
      rw [if_neg hb, Nat.sub_zero, List.take_of_length_le (by simp), ← read_last_two] at h
      refine paddingAtLast_eq_zero fun i hi heq => h ?_
      have hmem : input (0 + (i + 1)) ∈ input.read 0 (n + 2) := Mem.mem_read (by omega)
      rwa [Nat.zero_add, heq] at hmem

/-! ## The bytes written -/

/-- **Groups without padding** are three bytes each. -/
theorem base64DecodeLoop_unpadded : ∀ (k : ℕ) (front : Bytes), front.length = 4 * k →
    base64Pad ∉ front → ∃ bs : Bytes, bs.length = 3 * k ∧ ∀ (tail : Bytes) (j : ℕ) (output : Mem),
      base64DecodeLoop (front ++ tail) j output =
        base64DecodeLoop tail (j + 3 * k) (output.write j bs)
  | 0, front, hlen, _ => by
      obtain rfl := List.length_eq_zero_iff.1 hlen
      exact ⟨[], rfl, fun tail j output => by rw [Mem.write_nil]; rfl⟩
  | k + 1, c₀ :: c₁ :: c₂ :: c₃ :: rest, hlen, hpad => by
      have hlen' : rest.length = 4 * k := by
        simp only [List.length_cons] at hlen
        omega
      simp only [List.mem_cons, not_or] at hpad
      obtain ⟨-, -, hc₂, hc₃, hrest⟩ := hpad
      obtain ⟨bs, hbs, hloop⟩ := base64DecodeLoop_unpadded k rest hlen' hrest
      refine ⟨((base64DecodeGroup c₀ c₁ c₂ c₃ >>> 16) &&& 0xFF).toUInt8 ::
        ((base64DecodeGroup c₀ c₁ c₂ c₃ >>> 8) &&& 0xFF).toUInt8 ::
        (base64DecodeGroup c₀ c₁ c₂ c₃ &&& 0xFF).toUInt8 :: bs, ?_, fun tail j output => ?_⟩
      · simp only [List.length_cons, hbs]
        omega
      · simp only [List.cons_append]
        rw [base64DecodeLoop]
        simp only [if_pos (Ne.symm hc₂), if_pos (Ne.symm hc₃)]
        rw [hloop, Mem.write_cons _ (_ :: _ :: bs), Mem.write_cons _ (_ :: bs),
          Mem.write_cons _ bs]
        congr 1
        omega

/-- **A last group** gives as many bytes as it is not padded by. -/
theorem base64DecodeLoop_last (c₀ c₁ c₂ c₃ : UInt8) (h : c₂ = base64Pad → c₃ = base64Pad) :
    ∃ bs : Bytes, bs.length = 3 - base64Padding [c₀, c₁, c₂, c₃] ∧ ∀ (j : ℕ) (output : Mem),
      base64DecodeLoop [c₀, c₁, c₂, c₃] j output = output.write j bs := by
  have hpadding : base64Padding ([c₀, c₁] ++ [c₂, c₃]) = _ := base64Padding_append
  simp only [List.cons_append, List.nil_append] at hpadding
  rw [hpadding]
  obtain ⟨v, hv⟩ : ∃ v, base64DecodeGroup c₀ c₁ c₂ c₃ = v := ⟨_, rfl⟩
  by_cases h₃ : c₃ = base64Pad
  · by_cases h₂ : c₂ = base64Pad
    · refine ⟨[((v >>> 16) &&& 0xFF).toUInt8], by simp [h₂, h₃], fun j output => ?_⟩
      simp only [base64DecodeLoop, hv]
      simp only [h₂, h₃, ne_eq, not_true_eq_false, if_false]
    · refine ⟨[((v >>> 16) &&& 0xFF).toUInt8, ((v >>> 8) &&& 0xFF).toUInt8],
        by simp [h₂, h₃], fun j output => ?_⟩
      simp only [base64DecodeLoop, hv]
      simp only [h₂, h₃, ne_eq, not_true_eq_false, not_false_eq_true, if_true, if_false]
      rw [Mem.write_cons _ [_]]
  · have h₂ : c₂ ≠ base64Pad := fun heq => h₃ (h heq)
    refine ⟨[((v >>> 16) &&& 0xFF).toUInt8, ((v >>> 8) &&& 0xFF).toUInt8, (v &&& 0xFF).toUInt8],
      by simp [h₃], fun j output => ?_⟩
    simp only [base64DecodeLoop, hv]
    simp only [h₂, h₃, ne_eq, not_false_eq_true, if_true]
    rw [Mem.write_cons _ [_, _], Mem.write_cons _ [_]]

/-- **Text of the format, cut in front of its last group**: the groups
before it have no padding, and in the last nothing follows padding but
padding. -/
theorem Base64Text.split (h : Base64Text text) : text = [] ∨
    ∃ (k : ℕ) (front : Bytes) (c₀ c₁ c₂ c₃ : UInt8), text = front ++ [c₀, c₁, c₂, c₃] ∧
      front.length = 4 * k ∧ base64Pad ∉ front ∧ (c₂ = base64Pad → c₃ = base64Pad) ∧
      base64Padding text = base64Padding [c₀, c₁, c₂, c₃] := by
  obtain ⟨k, hk⟩ := Nat.dvd_of_mod_eq_zero h.groups
  rcases k with _ | k
  · exact .inl (List.length_eq_zero_iff.1 hk)
  · right
    obtain ⟨front, last, rfl, hfront, hlast⟩ : ∃ front last, text = front ++ last ∧
        front.length = 4 * k ∧ last.length = 4 :=
      ⟨text.take (4 * k), text.drop (4 * k), (List.take_append_drop _ _).symm,
        by rw [List.length_take]; omega, by rw [List.length_drop]; omega⟩
    obtain ⟨c₀, c₁, c₂, c₃, rfl⟩ : ∃ c₀ c₁ c₂ c₃, last = [c₀, c₁, c₂, c₃] := by
      rcases last with _ | ⟨c₀, _ | ⟨c₁, _ | ⟨c₂, _ | ⟨c₃, _ | ⟨c₄, last⟩⟩⟩⟩⟩
      all_goals first | exact ⟨_, _, _, _, rfl⟩ | simp at hlast
    have hpadding : base64Padding (front ++ [c₀, c₁, c₂, c₃]) =
        base64Padding [c₀, c₁, c₂, c₃] := by
      rw [show front ++ [c₀, c₁, c₂, c₃] = (front ++ [c₀, c₁]) ++ [c₂, c₃] by simp,
        base64Padding_append, show [c₀, c₁, c₂, c₃] = [c₀, c₁] ++ [c₂, c₃] from rfl,
        base64Padding_append]
    have htwo := base64Padding_le [c₀, c₁, c₂, c₃]
    have hpads := h.atEnd
    rw [PadsAtEnd, hpadding, List.length_append, hfront, hlast, List.take_append, hfront,
      List.take_of_length_le (by rw [hfront]; omega),
      show 4 * k + 4 - base64Padding [c₀, c₁, c₂, c₃] - 4 * k =
        4 - base64Padding [c₀, c₁, c₂, c₃] by omega, List.mem_append, not_or] at hpads
    refine ⟨k, front, c₀, c₁, c₂, c₃, rfl, hfront, hpads.1, fun h₂ => ?_, hpadding⟩
    -- a lone padding character in third place is not at the end
    by_contra h₃
    have hnone : base64Padding ([c₀, c₁] ++ [c₂, c₃]) = 0 := by
      rw [base64Padding_append, if_neg h₃]
    simp only [List.cons_append, List.nil_append] at hnone
    refine hpads.2 ?_
    rw [hnone, h₂]
    simp

/-- **Text of the format** is decoded to as many bytes as it stands for,
from the start of the output on. -/
theorem Base64Text.decodeLoop (h : Base64Text text) :
    ∃ bs : Bytes, bs.length = base64TextSize text ∧ ∀ output : Mem,
      base64DecodeLoop text 0 output = output.write 0 bs := by
  obtain rfl | ⟨k, front, c₀, c₁, c₂, c₃, rfl, hfront, hnone, horder, hpadding⟩ := h.split
  · exact ⟨[], rfl, fun output => by rw [Mem.write_nil]; rfl⟩
  · obtain ⟨bs, hbs, hloop⟩ := base64DecodeLoop_unpadded k front hfront hnone
    obtain ⟨cs, hcs, hend⟩ := base64DecodeLoop_last c₀ c₁ c₂ c₃ horder
    have htwo := base64Padding_le [c₀, c₁, c₂, c₃]
    refine ⟨bs ++ cs, ?_, fun output => ?_⟩
    · rw [List.length_append, hbs, hcs, base64TextSize, hpadding, List.length_append, hfront]
      simp only [List.length_cons, List.length_nil]
      omega
    · rw [hloop, hend, Mem.write_append, hbs]

/-! ## The format and nothing else -/

/-- **Decoding is exact** for an input and a capacity: what is accepted is
text of the format whose bytes fit, and of such a text as many bytes are
written as it stands for, and no others. -/
structure Base64Exact (input : Mem) (inlen otplen : ℕ) : Prop where
  accepts : ∀ output, (qscEncodingBase64Decode output otplen input inlen).1 = true ↔
    Base64Text (input.read 0 inlen) ∧ base64TextSize (input.read 0 inlen) ≤ otplen
  writes : Base64Text (input.read 0 inlen) → base64TextSize (input.read 0 inlen) ≤ otplen →
    ∃ bs : Bytes, bs.length = base64TextSize (input.read 0 inlen) ∧ ∀ output,
      (qscEncodingBase64Decode output otplen input inlen).2 = output.write 0 bs

/-- **Where padding does not mislead the decoder.** Misplaced padding is
refused only for want of room; padding in its place is misread only if the
byte behind the text looks like more of it, and one byte of room is
missing. -/
def PaddingRead (input : Mem) (inlen otplen : ℕ) : Prop :=
  PadsAtEnd (input.read 0 inlen) ∧
      (inlen = 0 ∨ input inlen ≠ base64Pad ∨ base64Padding (input.read 0 inlen) = 2 ∨
        otplen + 1 ≠ base64TextSize (input.read 0 inlen)) ∨
    ¬ PadsAtEnd (input.read 0 inlen) ∧ otplen + paddingAtLast input inlen < inlen / 4 * 3

/-- What is accepted of the format is decoded as it should be. -/
theorem Base64Text.decode_writes (h : Base64Text (input.read 0 inlen))
    (hok : ∀ output, (qscEncodingBase64Decode output otplen input inlen).1 = true) :
    ∃ bs : Bytes, bs.length = base64TextSize (input.read 0 inlen) ∧ ∀ output,
      (qscEncodingBase64Decode output otplen input inlen).2 = output.write 0 bs := by
  obtain ⟨bs, hbs, hloop⟩ := h.decodeLoop
  refine ⟨bs, hbs, fun output => ?_⟩
  have hacc := hok output
  rw [qscEncodingBase64Decode] at hacc ⊢
  split at hacc
  · exact absurd hacc Bool.false_ne_true
  · rename_i hsize
    rw [if_neg hsize]
    split at hacc
    · rename_i hvalid
      rw [if_pos hvalid, hloop]
    · exact absurd hacc Bool.false_ne_true

/-- What the format promises of groups of valid characters. -/
theorem base64Text_iff (hgroups : inlen % 4 = 0)
    (hvalid : ∀ c ∈ input.read 0 inlen, c ∈ base64Enctbl ∨ c = base64Pad) :
    Base64Text (input.read 0 inlen) ↔ PadsAtEnd (input.read 0 inlen) :=
  ⟨Base64Text.atEnd, fun h => ⟨by rwa [Mem.length_read], hvalid, h⟩⟩

/-- **The padding decides**: for whole groups of valid characters, the
decoder is exact exactly where padding does not mislead it. -/
theorem accepts_iff_paddingRead (hgroups : inlen % 4 = 0) :
    (inlen / 4 * 3 ≤ otplen + paddingAtLast input inlen ↔
      PadsAtEnd (input.read 0 inlen) ∧ base64TextSize (input.read 0 inlen) ≤ otplen) ↔
    PaddingRead input inlen otplen := by
  rw [PaddingRead]
  by_cases hend : PadsAtEnd (input.read 0 inlen)
  · have hsize : base64TextSize (input.read 0 inlen) =
        inlen / 4 * 3 - base64Padding (input.read 0 inlen) := by
      rw [base64TextSize, Mem.length_read]
    rw [hsize]
    rcases Nat.eq_zero_or_pos inlen with rfl | hpos
    · refine iff_of_true (iff_of_true (Nat.zero_le _) ⟨hend, Nat.zero_le _⟩) (.inl ⟨hend, .inl rfl⟩)
    · obtain ⟨n, rfl⟩ : ∃ n, inlen = n + 2 := ⟨inlen - 2, by omega⟩
      have hle := base64Padding_le (input.read 0 (n + 2))
      have hcount := hend.paddingAtLast_eq
      simp only [hend, true_and, not_true_eq_false, false_and, or_false]
      rw [hcount]
      by_cases hbehind : input (n + 2) = base64Pad
      · by_cases htwo : base64Padding (input.read 0 (n + 2)) = 2
        · rw [if_neg (by omega)]
          simp only [htwo, true_or, or_true, iff_true]
          omega
        · rw [if_pos ⟨hbehind, by omega⟩]
          simp only [hbehind, htwo, ne_eq, not_true_eq_false, false_or]
          omega
      · simp only [hbehind, false_and, if_false, ne_eq, not_false_eq_true, true_or, or_true,
          iff_true]
        omega
  · simp only [hend, false_and, iff_false, not_false_eq_true, true_and, false_or]
    omega

/-- **Where the decoder accepts the format and nothing else**: where the
input is no whole number of groups, or holds a character it lets through
nowhere, or padding does not mislead it. -/
theorem base64Exact_iff (hlt : inlen < 2 ^ 64) : Base64Exact input inlen otplen ↔
    inlen % 4 ≠ 0 ∨ (∃ c ∈ input.read 0 inlen, ¬ (c ∈ base64Enctbl ∨ c = base64Pad)) ∨
      PaddingRead input inlen otplen := by
  by_cases hgroups : inlen % 4 = 0
  · by_cases hvalid : ∀ c ∈ input.read 0 inlen, c ∈ base64Enctbl ∨ c = base64Pad
    · have hnone : ¬ ∃ c ∈ input.read 0 inlen, ¬ (c ∈ base64Enctbl ∨ c = base64Pad) :=
        fun hsome => exists_invalid_iff.1 hsome hvalid
      rw [or_iff_right (not_not_intro hgroups), or_iff_right hnone,
        ← accepts_iff_paddingRead hgroups]
      constructor
      · intro h
        have hacc := h.accepts Mem.zero
        rwa [qscEncodingBase64Decode_fst hlt, base64Text_iff hgroups hvalid,
          and_iff_right hgroups, and_iff_right hvalid] at hacc
      · intro hpads
        have hacc : ∀ output, (qscEncodingBase64Decode output otplen input inlen).1 = true ↔
            Base64Text (input.read 0 inlen) ∧ base64TextSize (input.read 0 inlen) ≤ otplen := by
          intro output
          rw [qscEncodingBase64Decode_fst hlt, base64Text_iff hgroups hvalid,
            and_iff_right hgroups, and_iff_right hvalid, hpads]
        exact ⟨hacc, fun htext hfits => htext.decode_writes fun output =>
          (hacc output).2 ⟨htext, hfits⟩⟩
    · -- a character that is let through nowhere
      refine iff_of_true ⟨fun output => ?_, fun htext => absurd htext.alphabet hvalid⟩
        (.inr (.inl (exists_invalid_iff.2 hvalid)))
      rw [qscEncodingBase64Decode_fst hlt]
      exact iff_of_false (fun h => hvalid h.2.1) fun h => hvalid h.1.alphabet
  · have hnot : ¬ Base64Text (input.read 0 inlen) := fun htext => by
      have hlen := htext.groups
      rw [Mem.length_read] at hlen
      exact hgroups hlen
    refine iff_of_true ⟨fun output => ?_, fun htext => absurd htext hnot⟩ (.inl hgroups)
    rw [qscEncodingBase64Decode_fst hlt]
    exact iff_of_false (fun h => hgroups h.1) fun h => hnot h.1

/-- **What was encoded is decoded**, wherever there is room for both. -/
theorem qscEncodingBase64Decode_encode {x : Bytes} (dest output : Mem) {cap otplen : ℕ}
    (hlt : x.length < 2 ^ 63) (hcap : qscEncodingBase64EncodedSize x.length ≤ cap)
    (hotp : x.length ≤ otplen) :
    qscEncodingBase64Decode output otplen (qscEncodingBase64Encode dest cap x)
      (qscEncodingBase64EncodedSize x.length) = (true, output.write 0 x) := by
  by_cases hne : x = []
  · subst hne
    rw [Mem.write_nil]
    rfl
  · have hlen : x.length ≠ 0 := fun hzero => hne (List.length_eq_zero_iff.1 hzero)
    refine qscEncodingBase64Decode_encodeLoop hne hlt hotp rfl ?_ output
    rw [qscEncodingBase64Encode, if_pos ⟨hlen, hcap⟩, ← length_base64EncodeLoop]
    exact Mem.read_write_self

end Qsmp
