import Mathlib.Algebra.Group.Int.Defs
import Mathlib.Algebra.Group.Nat.Defs
import Qsmp.Common.Memory
/-!
# Base64 and hexadecimal

The two encodings of the public-key text. Encoders and decoders are
loops over groups of characters; each round trip is a lemma about one
group, carried along the loop.
-/

namespace Qsmp

/-- The conversion to `size_t`, which wraps around. -/
def sizeT (n : ℤ) : ℕ := (n % 2 ^ 64).toNat

theorem sizeT_of_lt {n : ℕ} (h : n < 2 ^ 64) : sizeT n = n := by
  rw [sizeT, Int.emod_eq_of_lt (by omega) (by omega), Int.toNat_natCast]

theorem sizeT_sub {n m : ℕ} (hle : m ≤ n) (h : n < 2 ^ 64) : sizeT ((n : ℤ) - m) = n - m := by
  rw [show (n : ℤ) - m = ((n - m : ℕ) : ℤ) by omega, sizeT_of_lt (by omega)]

/-- The bytes of a string literal. -/
def ascii (s : String) : Bytes := s.toList.map fun c => UInt8.ofNat c.toNat

/-! ## Base64 -/

/-- `ENCTBL` -/
def base64Enctbl : Bytes :=
  ascii "ABCDEFGHIJKLMNOPQRSTUVWXYZabcdefghijklmnopqrstuvwxyz0123456789+/"

/-- `DECTBL`, from the character `+` on; minus one marks a character
outside the alphabet. -/
def base64Dectbl : List UInt32 :=
  [62, -1, -1, -1, 63, 52, 53, 54, 55, 56, 57, 58, 59, 60, 61, -1, -1, -1, -1, -1, -1, -1, 0, 1, 2,
    3, 4, 5, 6, 7, 8, 9, 10, 11, 12, 13, 14, 15, 16, 17, 18, 19, 20, 21, 22, 23, 24, 25, -1, -1,
    -1, -1, -1, -1, 26, 27, 28, 29, 30, 31, 32, 33, 34, 35, 36, 37, 38, 39, 40, 41, 42, 43, 44,
    45, 46, 47, 48, 49, 50, 51]

/-- The padding character `=`. -/
def base64Pad : UInt8 := 61

/-- `qsc_encoding_base64_is_valid_char` -/
def qscEncodingBase64IsValidChar (value : UInt8) : Bool :=
  if 48 ≤ value ∧ value ≤ 57 then true
  else if 65 ≤ value ∧ value ≤ 90 then true
  else if 97 ≤ value ∧ value ≤ 122 then true
  else if value = 43 ∨ value = 47 ∨ value = 61 then true
  else false

/-- `qsc_encoding_base64_encoded_size` -/
def qscEncodingBase64EncodedSize (length : ℕ) : ℕ :=
  (if length % 3 ≠ 0 then length + (3 - length % 3) else length) / 3 * 4

/-- The character of six bits of a group. -/
def base64Char (v shift : ℕ) : UInt8 := base64Enctbl.getD ((v >>> shift) &&& 0x3F) 0

/-- One turn of the encoder's loop: four characters of up to three bytes. -/
def base64EncodeGroup (a : UInt8) (b c : Option UInt8) : Bytes :=
  let v := a.toNat
  let v := match b with
    | some b => (v <<< 8) ||| b.toNat
    | none => v <<< 8
  let v := match c with
    | some c => (v <<< 8) ||| c.toNat
    | none => v <<< 8
  [base64Char v 18, base64Char v 12, if b.isSome then base64Char v 6 else base64Pad,
    if c.isSome then base64Char v 0 else base64Pad]

/-- The encoder's loop over the input. -/
def base64EncodeLoop : Bytes → Bytes
  | [] => []
  | [a] => base64EncodeGroup a none none
  | [a, b] => base64EncodeGroup a (some b) none
  | a :: b :: c :: rest => base64EncodeGroup a (some b) (some c) ++ base64EncodeLoop rest

/-- `qsc_encoding_base64_encode` -/
def qscEncodingBase64Encode (output : Mem) (otplen : ℕ) (input : Bytes) : Mem :=
  if input.length ≠ 0 ∧ qscEncodingBase64EncodedSize input.length ≤ otplen then
    output.write 0 (base64EncodeLoop input)
  else output

/-- The loop of the decoded size, from the character at `i` down; it reads
one character past the input. -/
def base64DecodedSizeLoop (input : Mem) (res : ℕ) : ℕ → ℕ
  | 0 => res
  | i + 1 =>
    if input (i + 1) = base64Pad then
      let res := sizeT ((res : ℤ) - 1)
      if input i = base64Pad then sizeT ((res : ℤ) - 1) else res
    else base64DecodedSizeLoop input res i

/-- `qsc_encoding_base64_decoded_size` -/
def qscEncodingBase64DecodedSize (input : Mem) (length : ℕ) : ℕ :=
  base64DecodedSizeLoop input (length / 4 * 3) length

/-- The table entry of a character. -/
def base64Value (c : UInt8) : UInt32 := base64Dectbl.getD (c.toNat - 43) (-1)

/-- The bits of a group of four characters. -/
def base64DecodeGroup (c₀ c₁ c₂ c₃ : UInt8) : UInt32 :=
  let v := base64Value c₀
  let v := (v <<< 6) ||| base64Value c₁
  let v := if c₂ = base64Pad then v <<< 6 else (v <<< 6) ||| base64Value c₂
  if c₃ = base64Pad then v <<< 6 else (v <<< 6) ||| base64Value c₃

/-- The decoder's loop; the input is a whole number of groups. -/
def base64DecodeLoop : Bytes → ℕ → Mem → Mem
  | c₀ :: c₁ :: c₂ :: c₃ :: rest, j, output =>
    let v := base64DecodeGroup c₀ c₁ c₂ c₃
    let output := output.write j [((v >>> 16) &&& 0xFF).toUInt8]
    let output := if c₂ ≠ base64Pad then output.write (j + 1) [((v >>> 8) &&& 0xFF).toUInt8]
      else output
    let output := if c₃ ≠ base64Pad then output.write (j + 2) [(v &&& 0xFF).toUInt8] else output
    base64DecodeLoop rest (j + 3) output
  | _, _, output => output

/-- `qsc_encoding_base64_decode` -/
def qscEncodingBase64Decode (output : Mem) (otplen : ℕ) (input : Mem) (inlen : ℕ) : Bool × Mem :=
  if otplen < qscEncodingBase64DecodedSize input inlen ∨ inlen % 4 ≠ 0 then (false, output)
  else if (input.read 0 inlen).all qscEncodingBase64IsValidChar then
    (true, base64DecodeLoop (input.read 0 inlen) 0 output)
  else (false, output)

/-! ### The alphabet -/

theorem base64Value_enctbl : ∀ k < 64, base64Value (base64Enctbl.getD k 0) = UInt32.ofNat k := by
  decide +kernel

theorem isValidChar_enctbl :
    ∀ k < 64, qscEncodingBase64IsValidChar (base64Enctbl.getD k 0) = true := by
  decide +kernel

theorem enctbl_ne_pad : ∀ k < 64, base64Enctbl.getD k 0 ≠ base64Pad := by
  decide +kernel

theorem base64Char_eq {v shift : ℕ} :
    base64Char v shift = base64Enctbl.getD (v / 2 ^ shift % 64) 0 := by
  rw [base64Char, Nat.shiftRight_eq_div_pow, show (0x3F : ℕ) = 2 ^ 6 - 1 by rfl,
    Nat.and_two_pow_sub_one_eq_mod]

@[simp] theorem base64Value_char {v shift : ℕ} :
    base64Value (base64Char v shift) = UInt32.ofNat (v / 2 ^ shift % 64) := by
  rw [base64Char_eq, base64Value_enctbl _ (Nat.mod_lt _ (by decide))]

@[simp] theorem isValidChar_char {v shift : ℕ} :
    qscEncodingBase64IsValidChar (base64Char v shift) = true := by
  rw [base64Char_eq, isValidChar_enctbl _ (Nat.mod_lt _ (by decide))]

@[simp] theorem base64Char_ne_pad {v shift : ℕ} : base64Char v shift ≠ base64Pad := by
  rw [base64Char_eq]
  exact enctbl_ne_pad _ (Nat.mod_lt _ (by decide))

/-! ### One group -/

/-- A byte behind a number. -/
theorem shiftLeft_or_byte (v : ℕ) (b : UInt8) : (v <<< 8) ||| b.toNat = v * 256 + b.toNat := by
  rw [← Nat.shiftLeft_add_eq_or_of_lt b.toNat_lt, Nat.shiftLeft_eq]

/-- Six bits behind a number. -/
theorem toNat_shiftLeft_or {v : UInt32} {k : ℕ} (hv : v.toNat < 2 ^ 18) (hk : k < 64) :
    ((v <<< 6) ||| UInt32.ofNat k).toNat = v.toNat * 64 + k := by
  have hshift : (v <<< 6).toNat = v.toNat <<< 6 := by
    rw [UInt32.toNat_shiftLeft, Nat.shiftLeft_eq, Nat.shiftLeft_eq]
    exact Nat.mod_eq_of_lt (show v.toNat * 2 ^ 6 < 2 ^ 32 by omega)
  rw [UInt32.toNat_or, hshift, UInt32.toNat_ofNat_of_lt' (Nat.lt_trans hk (by decide)),
    ← Nat.shiftLeft_add_eq_or_of_lt (by omega), Nat.shiftLeft_eq]

/-- No bits behind a number. -/
theorem toNat_shiftLeft {v : UInt32} (hv : v.toNat < 2 ^ 18) : (v <<< 6).toNat = v.toNat * 64 := by
  have h := toNat_shiftLeft_or hv (show 0 < 64 by decide)
  simpa using h

/-- The low byte of a number, after its mask. -/
theorem toUInt8_mask {v : UInt32} : (v &&& 0xFF).toUInt8 = UInt8.ofNat v.toNat := by
  apply UInt8.toNat_inj.1
  have hmask : ∀ n : ℕ, n &&& 255 = n % 2 ^ 8 := fun n => Nat.and_two_pow_sub_one_eq_mod n 8
  simp [hmask]

/-- Three bytes, as the encoder collects them. -/
def groupBits (a b c : UInt8) : ℕ := a.toNat * 65536 + b.toNat * 256 + c.toNat

/-- The bytes of collected bits. -/
theorem toUInt8_bits {v : UInt32} {a b c : UInt8} (h : v.toNat = groupBits a b c) :
    ((v >>> 16) &&& 0xFF).toUInt8 = a ∧ ((v >>> 8) &&& 0xFF).toUInt8 = b ∧
      (v &&& 0xFF).toUInt8 = c := by
  have ha := a.toNat_lt
  have hb := b.toNat_lt
  have hc := c.toNat_lt
  have h16 : (v >>> 16).toNat = v.toNat / 2 ^ 16 := by
    rw [UInt32.toNat_shiftRight, Nat.shiftRight_eq_div_pow]
    rfl
  have h8 : (v >>> 8).toNat = v.toNat / 2 ^ 8 := by
    rw [UInt32.toNat_shiftRight, Nat.shiftRight_eq_div_pow]
    rfl
  rw [groupBits] at h
  simp only [toUInt8_mask, h16, h8, h, ← UInt8.toNat_inj, UInt8.toNat_ofNat']
  refine ⟨?_, ?_, ?_⟩
  · omega
  · omega
  · omega

/-- A character stands for six bits: its own, or none if it pads. -/
def Sextet (c : UInt8) (k : ℕ) : Prop :=
  c ≠ base64Pad ∧ base64Value c = UInt32.ofNat k ∨ c = base64Pad ∧ k = 0

theorem sextet_char {v shift : ℕ} : Sextet (base64Char v shift) (v / 2 ^ shift % 64) :=
  .inl ⟨base64Char_ne_pad, base64Value_char⟩

theorem sextet_pad {k : ℕ} (h : k = 0) : Sextet base64Pad k := .inr ⟨rfl, h⟩

/-- The decoder takes in one character. -/
theorem Sextet.toNat_step {c : UInt8} {k : ℕ} (h : Sextet c k) (hk : k < 64) {v : UInt32}
    (hv : v.toNat < 2 ^ 18) :
    (if c = base64Pad then v <<< 6 else (v <<< 6) ||| base64Value c).toNat = v.toNat * 64 + k := by
  rcases h with ⟨hne, hvalue⟩ | ⟨rfl, rfl⟩
  · rw [if_neg hne, hvalue, toNat_shiftLeft_or hv hk]
  · rw [if_pos rfl, toNat_shiftLeft hv, Nat.add_zero]

/-- **A group decodes to the bits it encodes**, its last two characters
padded or not. -/
theorem base64DecodeGroup_char {v : ℕ} (hv : v < 2 ^ 24) {c₂ c₃ : UInt8}
    (h₂ : Sextet c₂ (v / 2 ^ 6 % 64)) (h₃ : Sextet c₃ (v / 2 ^ 0 % 64)) :
    (base64DecodeGroup (base64Char v 18) (base64Char v 12) c₂ c₃).toNat = v := by
  have hv₀ : (UInt32.ofNat (v / 2 ^ 18 % 64)).toNat = v / 2 ^ 18 % 64 :=
    UInt32.toNat_ofNat_of_lt' (Nat.lt_trans (Nat.mod_lt _ (by decide)) (by decide))
  have hv₁ := toNat_shiftLeft_or (v := UInt32.ofNat (v / 2 ^ 18 % 64)) (k := v / 2 ^ 12 % 64)
    (by omega) (Nat.mod_lt _ (by decide))
  have hv₂ := h₂.toNat_step (Nat.mod_lt _ (by decide)) (lt_of_eq_of_lt hv₁ (by omega))
  have hv₃ := h₃.toNat_step (Nat.mod_lt _ (by decide)) (lt_of_eq_of_lt hv₂ (by omega))
  simp only [base64DecodeGroup, base64Value_char]
  rw [hv₃, hv₂, hv₁, hv₀]
  omega

/-- The group of three bytes. -/
theorem base64EncodeGroup_three (a b c : UInt8) :
    base64EncodeGroup a (some b) (some c) =
      [base64Char (groupBits a b c) 18, base64Char (groupBits a b c) 12,
        base64Char (groupBits a b c) 6, base64Char (groupBits a b c) 0] := by
  have hv : (((a.toNat <<< 8) ||| b.toNat) <<< 8) ||| c.toNat = groupBits a b c := by
    rw [shiftLeft_or_byte, shiftLeft_or_byte, groupBits]
    omega
  simp only [base64EncodeGroup, hv, Option.isSome_some, if_true]

/-- The group of two bytes. -/
theorem base64EncodeGroup_two (a b : UInt8) :
    base64EncodeGroup a (some b) none =
      [base64Char (groupBits a b 0) 18, base64Char (groupBits a b 0) 12,
        base64Char (groupBits a b 0) 6, base64Pad] := by
  have hv : ((a.toNat <<< 8) ||| b.toNat) <<< 8 = groupBits a b 0 := by
    rw [shiftLeft_or_byte, Nat.shiftLeft_eq, groupBits, UInt8.toNat_zero]
    omega
  simp only [base64EncodeGroup, hv, Option.isSome_some, if_true, Option.isSome_none,
    Bool.false_eq_true, if_false]

/-- The group of one byte. -/
theorem base64EncodeGroup_one (a : UInt8) :
    base64EncodeGroup a none none =
      [base64Char (groupBits a 0 0) 18, base64Char (groupBits a 0 0) 12, base64Pad,
        base64Pad] := by
  have hv : (a.toNat <<< 8) <<< 8 = groupBits a 0 0 := by
    rw [Nat.shiftLeft_eq, Nat.shiftLeft_eq, groupBits, UInt8.toNat_zero]
    omega
  simp only [base64EncodeGroup, hv, Option.isSome_none, Bool.false_eq_true, if_false]

/-! ### The loops -/

theorem groupBits_lt (a b c : UInt8) : groupBits a b c < 2 ^ 24 := by
  have ha := a.toNat_lt
  have hb := b.toNat_lt
  have hc := c.toNat_lt
  rw [groupBits]
  omega

/-- The bytes the decoder gets from the bits of a full group. -/
theorem decode_three (a b c : UInt8) :
    (base64DecodeGroup (base64Char (groupBits a b c) 18) (base64Char (groupBits a b c) 12)
      (base64Char (groupBits a b c) 6) (base64Char (groupBits a b c) 0)).toNat
      = groupBits a b c :=
  base64DecodeGroup_char (groupBits_lt a b c) sextet_char sextet_char

/-- From those of a group of two bytes. -/
theorem decode_two (a b : UInt8) :
    (base64DecodeGroup (base64Char (groupBits a b 0) 18) (base64Char (groupBits a b 0) 12)
      (base64Char (groupBits a b 0) 6) base64Pad).toNat = groupBits a b 0 := by
  refine base64DecodeGroup_char (groupBits_lt a b 0) sextet_char (sextet_pad ?_)
  rw [groupBits, UInt8.toNat_zero]
  omega

/-- From those of a group of one byte. -/
theorem decode_one (a : UInt8) :
    (base64DecodeGroup (base64Char (groupBits a 0 0) 18) (base64Char (groupBits a 0 0) 12)
      base64Pad base64Pad).toNat = groupBits a 0 0 := by
  refine base64DecodeGroup_char (groupBits_lt a 0 0) (sextet_pad ?_) (sextet_pad ?_)
  · rw [groupBits, UInt8.toNat_zero]
    omega
  · rw [groupBits, UInt8.toNat_zero]
    omega

/-- **The decoder's loop undoes the encoder's.** -/
theorem base64DecodeLoop_encodeLoop (bs : Bytes) : ∀ (j : ℕ) (output : Mem),
    base64DecodeLoop (base64EncodeLoop bs) j output = output.write j bs := by
  fun_induction base64EncodeLoop bs with
  | case1 =>
    intro j output
    rw [base64DecodeLoop.eq_def, Mem.write_nil]
  | case2 a =>
    intro j output
    obtain ⟨hout, -, -⟩ := toUInt8_bits (decode_one a)
    rw [base64EncodeGroup_one, base64DecodeLoop, hout, base64DecodeLoop.eq_def]
    simp
  | case3 a b =>
    intro j output
    obtain ⟨hout, hout', -⟩ := toUInt8_bits (decode_two a b)
    rw [base64EncodeGroup_two, Mem.write_cons a [b], base64DecodeLoop, hout, hout',
      base64DecodeLoop.eq_def]
    simp
  | case4 a b c rest ih =>
    intro j output
    obtain ⟨hout, hout', hout''⟩ := toUInt8_bits (decode_three a b c)
    rw [base64EncodeGroup_three, Mem.write_cons a (b :: _), Mem.write_cons b (c :: _),
      Mem.write_cons c rest]
    simp only [List.cons_append, List.nil_append]
    rw [base64DecodeLoop, hout, hout', hout'', ih]
    simp

/-- The text is as long as the encoded size says. -/
theorem length_base64EncodeLoop (bs : Bytes) :
    (base64EncodeLoop bs).length = qscEncodingBase64EncodedSize bs.length := by
  fun_induction base64EncodeLoop bs with
  | case1 => rfl
  | case2 a => simp [base64EncodeGroup_one, qscEncodingBase64EncodedSize]
  | case3 a b => simp [base64EncodeGroup_two, qscEncodingBase64EncodedSize]
  | case4 a b c rest ih =>
    rw [List.length_append, ih]
    simp only [base64EncodeGroup, qscEncodingBase64EncodedSize, List.length_cons, List.length_nil]
    split
    · rw [if_pos (by omega)]
      omega
    · rw [if_neg (by omega)]
      omega

/-- Every character of the text is one the decoder takes. -/
theorem isValidChar_encodeLoop (bs : Bytes) :
    (base64EncodeLoop bs).all qscEncodingBase64IsValidChar = true := by
  have hpad : qscEncodingBase64IsValidChar base64Pad = true := by decide
  fun_induction base64EncodeLoop bs with
  | case1 => rfl
  | case2 a => simp [base64EncodeGroup_one, hpad]
  | case3 a b => simp [base64EncodeGroup_two, hpad]
  | case4 a b c rest ih => simp [base64EncodeGroup_three, ih]

/-- The text of a length that is not a multiple of three ends in padding. -/
theorem base64EncodeLoop_end (bs : Bytes) :
    (bs.length % 3 = 1 → ∃ front, base64EncodeLoop bs = front ++ [base64Pad, base64Pad]) ∧
      (bs.length % 3 = 2 → ∃ front, base64EncodeLoop bs = front ++ [base64Pad]) := by
  fun_induction base64EncodeLoop bs with
  | case1 => exact ⟨fun h => absurd h (by decide), fun h => absurd h (by decide)⟩
  | case2 a =>
    rw [base64EncodeGroup_one]
    exact ⟨fun _ => ⟨[_, _], rfl⟩, fun h => absurd h (by simp)⟩
  | case3 a b =>
    rw [base64EncodeGroup_two]
    exact ⟨fun h => absurd h (by simp), fun _ => ⟨[_, _, _], rfl⟩⟩
  | case4 a b c rest ih =>
    have hmod : (a :: b :: c :: rest).length % 3 = rest.length % 3 := by
      simp only [List.length_cons]
      omega
    rw [hmod]
    refine ⟨fun h => ?_, fun h => ?_⟩
    · obtain ⟨front, hfront⟩ := ih.1 h
      exact ⟨_, by rw [hfront, ← List.append_assoc]⟩
    · obtain ⟨front, hfront⟩ := ih.2 h
      exact ⟨_, by rw [hfront, ← List.append_assoc]⟩

/-! ### The decoded size -/

section DecodedSize

variable {input : Mem} {res : ℕ}

/-- The search never adds to the size. -/
theorem base64DecodedSizeLoop_le (input : Mem) (hres : 2 ≤ res) (hlt : res < 2 ^ 64) :
    ∀ i, base64DecodedSizeLoop input res i ≤ res ∧ res - 2 ≤ base64DecodedSizeLoop input res i
  | 0 => ⟨Nat.le_refl _, Nat.sub_le _ _⟩
  | i + 1 => by
      have hone : sizeT ((res : ℤ) - 1) = res - 1 := sizeT_sub (m := 1) (by omega) hlt
      have htwo : sizeT (((res - 1 : ℕ) : ℤ) - 1) = res - 1 - 1 :=
        sizeT_sub (m := 1) (by omega) (by omega)
      rw [base64DecodedSizeLoop]
      split
      · simp only [hone]
        split
        · rw [htwo]
          omega
        · omega
      · exact base64DecodedSizeLoop_le input hres hlt i

/-- A padding character at the end takes one off, whatever lies behind
the input; two take two. -/
theorem base64DecodedSizeLoop_pad {n : ℕ} (hres : 2 ≤ res) (hlt : res < 2 ^ 64)
    (hpad : input (n + 1) = base64Pad) :
    base64DecodedSizeLoop input res (n + 2) ≤ res - 1 ∧
      (input n = base64Pad → base64DecodedSizeLoop input res (n + 2) ≤ res - 2) := by
  have hone : sizeT ((res : ℤ) - 1) = res - 1 := sizeT_sub (m := 1) (by omega) hlt
  have htwo : sizeT (((res - 1 : ℕ) : ℤ) - 1) = res - 1 - 1 :=
    sizeT_sub (m := 1) (by omega) (by omega)
  rw [base64DecodedSizeLoop, base64DecodedSizeLoop]
  simp only [hone, hpad, if_true, htwo]
  refine ⟨?_, fun hpad' => ?_⟩
  · split
    · omega
    · split
      · omega
      · exact Nat.le_refl _
  · rw [if_pos hpad']
    split <;> omega

end DecodedSize

/-- **The decoded size of an encoding** is within the length of what was
encoded. -/
theorem qscEncodingBase64DecodedSize_le {bs : Bytes} {input : Mem} (hne : bs ≠ [])
    (hlt : bs.length < 2 ^ 63)
    (h : input.read 0 (qscEncodingBase64EncodedSize bs.length) = base64EncodeLoop bs) :
    qscEncodingBase64DecodedSize input (qscEncodingBase64EncodedSize bs.length) ≤ bs.length := by
  have hpos : 0 < bs.length := List.length_pos_iff.mpr hne
  obtain ⟨size, hsize⟩ : ∃ size, size = qscEncodingBase64EncodedSize bs.length := ⟨_, rfl⟩
  have hdiv : size / 4 * 3 = (bs.length + 2) / 3 * 3 := by
    rw [hsize, qscEncodingBase64EncodedSize]
    split <;> omega
  obtain ⟨n, hn⟩ : ∃ n, size = n + 2 := by
    refine ⟨size - 2, ?_⟩
    rw [hsize, qscEncodingBase64EncodedSize]
    split <;> omega
  rw [← hsize, hn] at h
  rw [← hsize, qscEncodingBase64DecodedSize, hdiv, hn]
  have hres : 2 ≤ (bs.length + 2) / 3 * 3 := by omega
  have hres' : (bs.length + 2) / 3 * 3 < 2 ^ 64 := by omega
  obtain ⟨hend₁, hend₂⟩ := base64EncodeLoop_end bs
  -- Off a multiple of three the padding at the end makes up for the rounding.
  obtain hmod | hmod | hmod : bs.length % 3 = 0 ∨ bs.length % 3 = 1 ∨ bs.length % 3 = 2 := by
    omega
  · have hle := (base64DecodedSizeLoop_le input hres hres' (n + 2)).1
    omega
  · obtain ⟨front, hfront⟩ := hend₁ hmod
    rw [Mem.read_add, Nat.zero_add, hfront] at h
    obtain ⟨-, hlast⟩ := List.append_inj' h rfl
    rw [Mem.read_succ, Mem.read_succ] at hlast
    simp only [List.cons.injEq] at hlast
    have hle := (base64DecodedSizeLoop_pad hres hres' hlast.2.1).2 hlast.1
    omega
  · obtain ⟨front, hfront⟩ := hend₂ hmod
    rw [show n + 2 = n + 1 + 1 from rfl, Mem.read_add, Nat.zero_add, hfront] at h
    obtain ⟨-, hlast⟩ := List.append_inj' h rfl
    rw [Mem.read_succ] at hlast
    simp only [List.cons.injEq] at hlast
    have hle := (base64DecodedSizeLoop_pad hres hres' hlast.1).1
    omega

/-- **The base64 round trip.** A text that starts with the encoding of a
string decodes to it, into any memory that has room for it. -/
theorem qscEncodingBase64Decode_encodeLoop {bs : Bytes} {input : Mem} {otplen inlen : ℕ}
    (hne : bs ≠ []) (hlt : bs.length < 2 ^ 63) (hotp : bs.length ≤ otplen)
    (hin : inlen = qscEncodingBase64EncodedSize bs.length)
    (h : input.read 0 inlen = base64EncodeLoop bs) (output : Mem) :
    qscEncodingBase64Decode output otplen input inlen = (true, output.write 0 bs) := by
  subst hin
  have hsize := qscEncodingBase64DecodedSize_le hne hlt h
  have hmod : qscEncodingBase64EncodedSize bs.length % 4 = 0 := by
    rw [qscEncodingBase64EncodedSize]
    omega
  rw [qscEncodingBase64Decode, if_neg (by omega), h, if_pos (isValidChar_encodeLoop bs),
    base64DecodeLoop_encodeLoop]

/-! ## Hexadecimal -/

/-- `ENCODING_TABLE` -/
def hexTable : Bytes := ascii "0123456789abcdef"

/-- `qsc_intutils_bin_to_hex` -/
def qscIntutilsBinToHex (input : Bytes) : Bytes :=
  input.flatMap fun b => [hexTable.getD (b.toNat >>> 4) 0, hexTable.getD (b.toNat &&& 0x0F) 0]

/-- `hashmap` -/
def hexHashmap : Bytes :=
  [0x00, 0x01, 0x02, 0x03, 0x04, 0x05, 0x06, 0x07, 0x08, 0x09, 0x00, 0x00, 0x00, 0x00, 0x00, 0x00,
    0x00, 0x0A, 0x0B, 0x0C, 0x0D, 0x0E, 0x0F, 0x00, 0x00, 0x00, 0x00, 0x00, 0x00, 0x00, 0x00, 0x00]

/-- The byte of two digits. -/
def hexByte (c₀ c₁ : UInt8) : UInt8 :=
  (hexHashmap.getD ((c₀ &&& 0x1F) ^^^ 0x10).toNat 0 <<< 4) |||
    hexHashmap.getD ((c₁ &&& 0x1F) ^^^ 0x10).toNat 0

/-- `qsc_intutils_hex_to_bin`: `length` counts the bytes written, two
digits each. -/
def qscIntutilsHexToBin (hexstr output : Mem) (length : ℕ) : Mem :=
  (output.clear 0 length).write 0
    ((List.range length).map fun i => hexByte (hexstr (2 * i)) (hexstr (2 * i + 1)))

/-- Two digits make their byte. -/
theorem hexByte_digits (b : UInt8) :
    hexByte (hexTable.getD (b.toNat >>> 4) 0) (hexTable.getD (b.toNat &&& 0x0F) 0) = b := by
  have hall : ∀ n : Fin 256, hexByte (hexTable.getD ((UInt8.ofFin n).toNat >>> 4) 0)
      (hexTable.getD ((UInt8.ofFin n).toNat &&& 0x0F) 0) = UInt8.ofFin n := by decide +kernel
  exact hall b.toFin

@[simp] theorem length_qscIntutilsBinToHex (bs : Bytes) :
    (qscIntutilsBinToHex bs).length = 2 * bs.length := by
  induction bs with
  | nil => rfl
  | cons b bs ih =>
    rw [qscIntutilsBinToHex] at ih ⊢
    rw [List.flatMap_cons, List.length_append, ih]
    simp only [List.length_cons, List.length_nil]
    omega

/-- **The hexadecimal round trip**, of the bytes the digits are of,
however many more are asked for. -/
theorem hexBytes_binToHex : ∀ (bs : Bytes) (hexstr : Mem),
    hexstr.read 0 (2 * bs.length) = qscIntutilsBinToHex bs →
      ((List.range bs.length).map fun i => hexByte (hexstr (2 * i)) (hexstr (2 * i + 1))) = bs
  | [], _, _ => rfl
  | b :: bs, hexstr, h => by
      rw [List.length_cons, show 2 * (bs.length + 1) = 2 * bs.length + 1 + 1 by omega,
        Mem.read_succ, Mem.read_succ] at h
      simp only [qscIntutilsBinToHex, List.flatMap_cons, List.cons_append, List.nil_append,
        List.cons.injEq] at h
      obtain ⟨h₀, h₁, hrest⟩ := h
      have ih := hexBytes_binToHex bs (hexstr.shift 2) (by rw [Mem.shift_read]; exact hrest)
      have hstep : ∀ i, 2 * (i + 1) = 2 + 2 * i := fun i => by omega
      simp only [Mem.shift_apply, ← Nat.add_assoc] at ih
      rw [List.length_cons, List.range_succ_eq_map, List.map_cons, List.map_map, Nat.mul_zero, h₀,
        Nat.zero_add, h₁, hexByte_digits]
      simp only [Function.comp_def, Nat.succ_eq_add_one, hstep, ih]

end Qsmp
