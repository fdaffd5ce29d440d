import Qsmp.Common.Heap
import Qsmp.PublicKey
import Qsmp.Qsc.Base64
/-!
# What reading a public key touches

Every access of `qsmp_decode_public_key` and of the functions it calls is
recorded, with the array it is meant for. The identity is converted with
the number of its digits in place of the number of its bytes, and the size
of the decoded key is looked for from the byte behind the text on; the rest
stays inside, and so does the key if its text is base64 and no padding
character lies behind it.
-/

namespace Qsmp

/-- The arrays of `qsmp_decode_public_key` and of the functions it calls:
the text, the fields of the key, the locals and the two tables. -/
inductive PubkeyArray where
  | enck | config | keyid | expiration | verkey | dtm | tmp | tmpvk | hashmap | dectbl
deriving DecidableEq, Repr

/-- How an array is touched. -/
inductive Touch where
  | reads | writes
deriving DecidableEq, Repr

/-- Some elements of an array, touched. -/
structure PubkeyAccess where
  touch : Touch
  array : PubkeyArray
  off : ℕ
  len : ℕ
deriving DecidableEq, Repr

/-- The elements of an array. -/
def PubkeyArray.size (B : PubkeyParams) : PubkeyArray → ℕ
  | enck => B.pubkey.stringSize
  | config => configSize
  | keyid => keyidSize
  | expiration => 8
  | verkey => B.verifyKeySize
  | dtm => timestampStringSize
  | tmp => 5
  | tmpvk => B.pubkey.encodingSize
  | hashmap => hexHashmap.length
  | dectbl => base64Dectbl.length

/-- An access as one to a block of the array's size. -/
def PubkeyAccess.toAccess (B : PubkeyParams) (a : PubkeyAccess) : Access :=
  ⟨a.array.size B, a.off, a.len⟩

open PubkeyArray

/-! ## The accesses of the functions called -/

/-- `qsc_intutils_hex_to_bin(enck + off, keyid, length)`: the output
cleared, and for each byte two digits, their two entries of the table, and
the byte. -/
def hexToBinAccesses (hexstr : Mem) (off length : ℕ) : List PubkeyAccess :=
  ⟨.writes, keyid, 0, length⟩ :: (List.range length).flatMap fun i =>
    [⟨.reads, enck, off + 2 * i, 1⟩, ⟨.reads, enck, off + (2 * i + 1), 1⟩,
      ⟨.reads, hashmap, ((hexstr (2 * i) &&& 0x1F) ^^^ 0x10).toNat, 1⟩,
      ⟨.reads, hashmap, ((hexstr (2 * i + 1) &&& 0x1F) ^^^ 0x10).toNat, 1⟩, ⟨.writes, keyid, i, 1⟩]

/-- One number of a date: `len` characters copied, and read up to the
terminator. -/
def dateFieldAccesses (dtm : Mem) (off len : ℕ) (behind : Bytes) : List PubkeyAccess :=
  [⟨.reads, PubkeyArray.dtm, off, len⟩, ⟨.writes, tmp, 0, len⟩,
    ⟨.reads, tmp, 0, ((dtm.read off len ++ behind).takeWhile (· ≠ 0)).length + 1⟩]

/-- `qsc_timestamp_string_to_time_struct`: the year, the clearing of the
five bytes, and the five numbers of two digits, with zeros behind them. -/
def dateAccesses (dtm : Mem) : List PubkeyAccess :=
  dateFieldAccesses dtm 0 4 [0] ++ [⟨.writes, tmp, 0, 5⟩] ++
    [5, 8, 11, 14, 17].flatMap fun off => dateFieldAccesses dtm off 2 [0, 0, 0]

/-- The loop of `qsc_stringutils_remove_line_breaks(tmpvk, dstlen, enck +
off, …)`, at source position `i` and destination position `j`. -/
def removeLineBreaksAccesses (off dstlen : ℕ) : Bytes → ℕ → ℕ → List PubkeyAccess
  | [], _, _ => []
  | c :: rest, i, j =>
    if sizeT ((dstlen : ℤ) - 1) < j then []
    else if c ≠ newline then
      ⟨.reads, enck, off + i, 1⟩ :: ⟨.writes, tmpvk, j, 1⟩ ::
        removeLineBreaksAccesses off dstlen rest (i + 1) (j + 1)
    else ⟨.reads, enck, off + i, 1⟩ :: removeLineBreaksAccesses off dstlen rest (i + 1) j

/-- The loop of `qsc_encoding_base64_decoded_size`, from the character at
`i` down. -/
def decodedSizeAccesses (input : Mem) : ℕ → List PubkeyAccess
  | 0 => []
  | i + 1 =>
    ⟨.reads, tmpvk, i + 1, 1⟩ ::
      if input (i + 1) = base64Pad then [⟨.reads, tmpvk, i, 1⟩] else decodedSizeAccesses input i

/-- The test of the characters, which ends at the first that is not
valid. -/
def validCharsAccesses : Bytes → ℕ → List PubkeyAccess
  | [], _ => []
  | c :: rest, i =>
    ⟨.reads, tmpvk, i, 1⟩ ::
      if qscEncodingBase64IsValidChar c then validCharsAccesses rest (i + 1) else []

/-- The bytes stored by the decoder's loop. -/
def base64DecodeStores : Bytes → ℕ → List ℕ
  | _ :: _ :: c₂ :: c₃ :: rest, j =>
    j :: ((if c₂ ≠ base64Pad then [j + 1] else []) ++ (if c₃ ≠ base64Pad then [j + 2] else []) ++
      base64DecodeStores rest (j + 3))
  | _, _ => []

/-- The decoder's loop over whole groups: the characters, the entries of the
table for those that do not pad in third or fourth place, and the bytes
stored. -/
def decodeLoopAccesses (text : Bytes) : List PubkeyAccess :=
  (List.range text.length).map (fun i => ⟨.reads, tmpvk, i, 1⟩) ++
    (text.zipIdx.filter fun c => c.2 % 4 < 2 ∨ c.1 ≠ base64Pad).map
      (fun c => ⟨.reads, dectbl, c.1.toNat - 43, 1⟩) ++
    (base64DecodeStores text 0).map fun j => ⟨.writes, verkey, j, 1⟩

/-- `qsc_encoding_base64_decode(verkey, otplen, tmpvk, inlen)` -/
def base64DecodeAccesses (input : Mem) (otplen inlen : ℕ) : List PubkeyAccess :=
  decodedSizeAccesses input inlen ++
    if otplen < qscEncodingBase64DecodedSize input inlen ∨ inlen % 4 ≠ 0 then []
    else validCharsAccesses (input.read 0 inlen) 0 ++
      if (input.read 0 inlen).all qscEncodingBase64IsValidChar then
        decodeLoopAccesses (input.read 0 inlen)
      else []

variable (B : PubkeyParams)

/-- The broken text of the key with its line breaks left out, and the stack
behind the array. -/
def pubkeyText (stack enck : Mem) : Mem :=
  (qscStringutilsRemoveLineBreaks (stack.clear 0 B.pubkey.encodingSize) B.pubkey.encodingSize
    (enck.shift 196) (B.pubkey.stringSize - 234)).1

/-- The accesses of `qsmp_decode_public_key`, in the order of the calls. -/
def qsmpDecodePublicKeyAccesses (stack enck : Mem) : List PubkeyAccess :=
  let spos := sizeofString pubkeyHeader + sizeofString pubkeyVersion
    + sizeofString pubkeyConfigPrefix - 1
  let slen := configSize - 1
  let config := [⟨.reads, PubkeyArray.enck, spos, slen⟩, ⟨.writes, PubkeyArray.config, 0, slen⟩]
  let spos := spos + (slen + sizeofString pubkeyExpirationPrefix - 3)
  let keyid := hexToBinAccesses (enck.shift spos) spos (keyidSize * 2)
  let spos := spos + (keyidSize * 2 + sizeofString pubkeyExpirationPrefix)
  let slen := timestampStringSize - 1
  let dtm := Mem.zero.write 0 (enck.read spos slen)
  let date := [⟨.reads, PubkeyArray.enck, spos, slen⟩, ⟨.writes, PubkeyArray.dtm, 0, slen⟩] ++
    dateAccesses dtm ++ [⟨.writes, expiration, 0, 8⟩]
  let spos := spos + timestampStringSize
  let srclen := sizeT ((B.pubkey.stringSize : ℤ) - (spos + sizeofString pubkeyFooter : ℕ))
  let lines := removeLineBreaksAccesses spos B.pubkey.encodingSize
    ((enck.shift spos).read 0 srclen) 0 0
  config ++ keyid ++ date ++ lines ++
    base64DecodeAccesses (pubkeyText B stack enck) B.verifyKeySize B.pubkey.encodingSize

variable {B} {stack enck hexstr dtm input : Mem} {a : PubkeyAccess} {text : Bytes}
variable {off i j n : ℕ}

theorem PubkeyAccess.inside_of_le (h : a.off + a.len ≤ a.array.size B) :
    (a.toAccess B).Inside :=
  Access.inside_iff.2 (.inr h)

/-- The length of what is left for the key between its fields and the
footer. -/
theorem pubkeyText_srclen :
    sizeT ((B.pubkey.stringSize : ℤ) - ((196 + sizeofString pubkeyFooter : ℕ) : ℤ)) =
      B.pubkey.stringSize - 234 := by
  obtain ⟨-, hsize, -, -, hlt⟩ := B.sizes
  exact sizeT_sub (show 196 + 38 ≤ _ by omega) (by omega)

/-- A key has some text. -/
theorem encodingSize_pos (B : PubkeyParams) : 0 < B.pubkey.encodingSize := by
  obtain ⟨henc, -, hkeyid, -, -⟩ := B.sizes
  rw [keyidSize] at hkeyid
  rw [henc, qscEncodingBase64EncodedSize]
  split <;> omega

/-- **The key is the decoding of this text.** -/
theorem qsmpDecodePublicKey_decodes (C : Clock) (stack : Mem) (pubk : QsmpClientSignatureKey)
    (enck : Mem) : ∃ output, (qsmpDecodePublicKey B C stack pubk enck).1 =
      (qscEncodingBase64Decode output B.verifyKeySize (pubkeyText B stack enck)
        B.pubkey.encodingSize).1 := by
  have h₁₉₆ : sizeofString pubkeyHeader + sizeofString pubkeyVersion +
    sizeofString pubkeyConfigPrefix - 1 + (configSize - 1 + sizeofString pubkeyExpirationPrefix - 3)
    + (keyidSize * 2 + sizeofString pubkeyExpirationPrefix) + timestampStringSize = 196 := rfl
  simp only [qsmpDecodePublicKey, h₁₉₆, pubkeyText_srclen]
  exact ⟨_, rfl⟩

/-! ## The calls that stay inside -/

/-- **The conversion reads digits and table entries inside.** -/
theorem hexToBinAccesses_inside (hfit : off + 2 * n ≤ B.pubkey.stringSize)
    (h : a ∈ hexToBinAccesses hexstr off n) :
    (a.toAccess B).Inside ∨ a.touch = .writes ∧ a.array = keyid := by
  have hentry : ∀ c : UInt8, ((c &&& 0x1F) ^^^ 0x10).toNat < hexHashmap.length := by
    have hall : ∀ n : Fin 256,
        ((UInt8.ofFin n &&& 0x1F) ^^^ 0x10).toNat < hexHashmap.length := by decide +kernel
    exact fun c => hall c.toFin
  rw [hexToBinAccesses, List.mem_cons, List.mem_flatMap] at h
  obtain rfl | ⟨i, hi, h⟩ := h
  · exact .inr ⟨rfl, rfl⟩
  · have hi := List.mem_range.1 hi
    simp only [List.mem_cons, List.not_mem_nil, or_false] at h
    obtain rfl | rfl | rfl | rfl | rfl := h
    · exact .inl (PubkeyAccess.inside_of_le (show off + 2 * i + 1 ≤ B.pubkey.stringSize by omega))
    · exact .inl (PubkeyAccess.inside_of_le
        (show off + (2 * i + 1) + 1 ≤ B.pubkey.stringSize by omega))
    · exact .inl (PubkeyAccess.inside_of_le (hentry _))
    · exact .inl (PubkeyAccess.inside_of_le (hentry _))
    · exact .inr ⟨rfl, rfl⟩

/-- A string ends at its terminator at the latest. -/
theorem length_takeWhile_zero : ∀ (bs rest : Bytes),
    ((bs ++ 0 :: rest).takeWhile (· ≠ 0)).length ≤ bs.length
  | [], rest => by simp
  | b :: bs, rest => by
      rw [List.cons_append, List.takeWhile_cons]
      split
      · exact Nat.succ_le_succ (length_takeWhile_zero bs rest)
      · exact Nat.zero_le _

/-- A number of a date is read inside. -/
theorem dateFieldAccesses_inside {len : ℕ} {rest : Bytes} (hoff : off + len ≤ timestampStringSize)
    (hlen : len + 1 ≤ 5) (h : a ∈ dateFieldAccesses dtm off len (0 :: rest)) :
    (a.toAccess B).Inside := by
  have hend := length_takeWhile_zero (dtm.read off len) rest
  rw [Mem.length_read] at hend
  simp only [dateFieldAccesses, List.mem_cons, List.not_mem_nil, or_false] at h
  obtain rfl | rfl | rfl := h
  · exact PubkeyAccess.inside_of_le hoff
  · exact PubkeyAccess.inside_of_le (show 0 + len ≤ 5 by omega)
  · exact PubkeyAccess.inside_of_le (show 0 + (_ + 1) ≤ 5 by omega)

/-- **So is the date.** -/
theorem dateAccesses_inside (h : a ∈ dateAccesses dtm) : (a.toAccess B).Inside := by
  rw [dateAccesses, List.mem_append, List.mem_append, List.mem_flatMap, List.mem_singleton] at h
  obtain (h | rfl) | ⟨off, hoff, h⟩ := h
  · exact dateFieldAccesses_inside (by decide) (by decide) h
  · exact PubkeyAccess.inside_of_le (show 0 + 5 ≤ 5 from Nat.le_refl 5)
  · refine dateFieldAccesses_inside ?_ (by decide) h
    have hall : ∀ off ∈ [5, 8, 11, 14, 17], off + 2 ≤ timestampStringSize := by decide
    exact hall off hoff

/-- **Line breaks are left out inside**: of the characters given, and as
far as the destination goes. -/
theorem removeLineBreaksAccesses_inside (hpos : 0 < B.pubkey.encodingSize)
    (hlt : B.pubkey.encodingSize < 2 ^ 64) : ∀ {source : Bytes} {i j : ℕ},
    off + (i + source.length) ≤ B.pubkey.stringSize →
      a ∈ removeLineBreaksAccesses off B.pubkey.encodingSize source i j → (a.toAccess B).Inside
  | [], _, _, _, h => absurd h List.not_mem_nil
  | c :: rest, i, j, hfit, h => by
      have hsize : sizeT ((B.pubkey.encodingSize : ℤ) - 1) = B.pubkey.encodingSize - 1 :=
        sizeT_sub (m := 1) hpos hlt
      rw [List.length_cons] at hfit
      have hread : ((PubkeyAccess.mk .reads enck (off + i) 1).toAccess B).Inside :=
        PubkeyAccess.inside_of_le (show off + i + 1 ≤ B.pubkey.stringSize by omega)
      rw [removeLineBreaksAccesses, hsize] at h
      split at h
      · exact absurd h List.not_mem_nil
      · rename_i hfull
        split at h
        · simp only [List.mem_cons] at h
          obtain rfl | rfl | h := h
          · exact hread
          · exact PubkeyAccess.inside_of_le (show j + 1 ≤ B.pubkey.encodingSize by omega)
          · exact removeLineBreaksAccesses_inside hpos hlt (by omega) h
        · rw [List.mem_cons] at h
          obtain rfl | h := h
          · exact hread
          · exact removeLineBreaksAccesses_inside hpos hlt (by omega) h

/-- The search for padding looks at the text and the byte behind it. -/
theorem decodedSizeAccesses_le : ∀ {i : ℕ}, a ∈ decodedSizeAccesses input i →
    ∃ k ≤ i, a = ⟨.reads, tmpvk, k, 1⟩
  | 0, h => absurd h List.not_mem_nil
  | i + 1, h => by
      rw [decodedSizeAccesses, List.mem_cons] at h
      obtain rfl | h := h
      · exact ⟨i + 1, Nat.le_refl _, rfl⟩
      · split at h
        · exact ⟨i, Nat.le_succ i, List.mem_singleton.1 h⟩
        · obtain ⟨k, hk, ha⟩ := decodedSizeAccesses_le h
          exact ⟨k, Nat.le_succ_of_le hk, ha⟩

/-- The test of the characters looks at the text alone. -/
theorem validCharsAccesses_lt : ∀ {text : Bytes} {i : ℕ}, a ∈ validCharsAccesses text i →
    ∃ k < i + text.length, a = ⟨.reads, tmpvk, k, 1⟩
  | [], _, h => absurd h List.not_mem_nil
  | c :: rest, i, h => by
      rw [List.length_cons]
      rw [validCharsAccesses, List.mem_cons] at h
      obtain rfl | h := h
      · exact ⟨i, by omega, rfl⟩
      · split at h
        · obtain ⟨k, hk, ha⟩ := validCharsAccesses_lt h
          exact ⟨k, by omega, ha⟩
        · exact absurd h List.not_mem_nil

/-- **Every valid character has its entry in the table**, the padding
character as well. -/
theorem decodeLoopAccesses_inside (hlen : text.length = B.pubkey.encodingSize)
    (hvalid : text.all qscEncodingBase64IsValidChar = true) (h : a ∈ decodeLoopAccesses text) :
    (a.toAccess B).Inside ∨
      a.touch = .writes ∧ a.array = verkey ∧ a.len = 1 ∧ a.off ∈ base64DecodeStores text 0 := by
  have hentry : ∀ c : UInt8, qscEncodingBase64IsValidChar c = true →
      c.toNat - 43 < base64Dectbl.length := by
    have hall : ∀ n : Fin 256, qscEncodingBase64IsValidChar (UInt8.ofFin n) = true →
        (UInt8.ofFin n).toNat - 43 < base64Dectbl.length := by decide +kernel
    exact fun c => hall c.toFin
  simp only [decodeLoopAccesses, List.mem_append, List.mem_map, List.mem_range,
    List.mem_filter] at h
  obtain (⟨i, hi, rfl⟩ | ⟨⟨c, i⟩, ⟨hc, -⟩, rfl⟩) | ⟨j, hj, rfl⟩ := h
  · exact .inl (PubkeyAccess.inside_of_le (show i + 1 ≤ B.pubkey.encodingSize by omega))
  · refine .inl (PubkeyAccess.inside_of_le (hentry c ?_))
    exact List.all_eq_true.1 hvalid c (List.fst_mem_of_mem_zipIdx hc)
  · exact .inr ⟨rfl, rfl, rfl, hj⟩

/-- **Decoding the key** stays inside its arrays but for the byte behind
the text, and the bytes it stores. -/
theorem base64DecodeAccesses_inside
    (h : a ∈ base64DecodeAccesses input B.verifyKeySize B.pubkey.encodingSize) :
    (a.toAccess B).Inside ∨ a = ⟨.reads, tmpvk, B.pubkey.encodingSize, 1⟩ ∨
      (a.touch = .writes ∧ a.array = verkey ∧ a.len = 1 ∧
        a.off ∈ base64DecodeStores (input.read 0 B.pubkey.encodingSize) 0) ∧
        qscEncodingBase64DecodedSize input B.pubkey.encodingSize ≤ B.verifyKeySize := by
  have hread : ∀ k < B.pubkey.encodingSize,
      ((PubkeyAccess.mk .reads tmpvk k 1).toAccess B).Inside := fun k hk =>
    PubkeyAccess.inside_of_le (show k + 1 ≤ B.pubkey.encodingSize by omega)
  rw [base64DecodeAccesses, List.mem_append] at h
  obtain h | h := h
  · obtain ⟨k, hk, rfl⟩ := decodedSizeAccesses_le h
    rcases Nat.eq_or_lt_of_le hk with rfl | hk
    · exact .inr (.inl rfl)
    · exact .inl (hread k hk)
  · split at h
    · exact absurd h List.not_mem_nil
    · rename_i hfits
      rw [List.mem_append] at h
      obtain h | h := h
      · obtain ⟨k, hk, rfl⟩ := validCharsAccesses_lt h
        rw [Mem.length_read, Nat.zero_add] at hk
        exact .inl (hread k hk)
      · split at h
        · rename_i hvalid
          obtain hin | hkey := decodeLoopAccesses_inside Mem.length_read hvalid h
          · exact .inl hin
          · exact .inr (.inr ⟨hkey, by omega⟩)
        · exact absurd h List.not_mem_nil

/-! ## The whole -/

/-- **Every access is inside its array**, but for the bytes stored for the
identity and the key, and the byte behind the text. -/
theorem qsmpDecodePublicKeyAccesses_inside (h : a ∈ qsmpDecodePublicKeyAccesses B stack enck) :
    (a.toAccess B).Inside ∨ (a.touch = .writes ∧ a.array = keyid) ∨
      a = ⟨.reads, tmpvk, B.pubkey.encodingSize, 1⟩ ∨
      (a.touch = .writes ∧ a.array = verkey ∧ a.len = 1 ∧
        a.off ∈ base64DecodeStores ((pubkeyText B stack enck).read 0 B.pubkey.encodingSize) 0) ∧
        qscEncodingBase64DecodedSize (pubkeyText B stack enck) B.pubkey.encodingSize ≤
          B.verifyKeySize := by
  obtain ⟨henc, hsize, -, hvk, hlt⟩ := B.sizes
  have h₇₄ : sizeofString pubkeyHeader + sizeofString pubkeyVersion +
    sizeofString pubkeyConfigPrefix - 1 = 74 := rfl
  have h₁₃₁ : 74 + (configSize - 1 + sizeofString pubkeyExpirationPrefix - 3) = 131 := rfl
  have h₁₇₆ : 131 + (keyidSize * 2 + sizeofString pubkeyExpirationPrefix) = 176 := rfl
  have h₁₉₆ : 176 + timestampStringSize = 196 := rfl
  have hpos := encodingSize_pos B
  have henck : ∀ off len, off + len ≤ 235 →
      ((PubkeyAccess.mk .reads .enck off len).toAccess B).Inside := fun off len hle =>
    PubkeyAccess.inside_of_le (show off + len ≤ B.pubkey.stringSize by omega)
  simp only [qsmpDecodePublicKeyAccesses, h₇₄, h₁₃₁, h₁₇₆, h₁₉₆, pubkeyText_srclen,
    List.mem_append, List.mem_cons, List.not_mem_nil, or_false] at h
  obtain (((h | h) | h) | h) | h := h
  · obtain rfl | rfl := h
    · exact .inl (henck 74 47 (by decide))
    · exact .inl (PubkeyAccess.inside_of_le (show 0 + 47 ≤ 48 by decide))
  · obtain hin | hkeyid := hexToBinAccesses_inside (B := B)
      (show 131 + 2 * (keyidSize * 2) ≤ B.pubkey.stringSize by rw [keyidSize]; omega) h
    · exact .inl hin
    · exact .inr (.inl hkeyid)
  · obtain ((rfl | rfl) | h) | rfl := h
    · exact .inl (henck 176 19 (by decide))
    · exact .inl (PubkeyAccess.inside_of_le (show 0 + 19 ≤ 20 by decide))
    · exact .inl (dateAccesses_inside h)
    · exact .inl (PubkeyAccess.inside_of_le (show 0 + 8 ≤ 8 by decide))
  · refine .inl (removeLineBreaksAccesses_inside hpos (by omega) ?_ h)
    rw [Mem.length_read]
    omega
  · obtain hin | hrest := base64DecodeAccesses_inside h
    · exact .inl hin
    · exact .inr (.inr hrest)

/-- The accesses of the conversion of the identity, as it is called. -/
def keyidAccesses (enck : Mem) : List PubkeyAccess :=
  hexToBinAccesses (enck.shift 131) 131 (keyidSize * 2)

/-- An element an access of the kind touches. -/
def Touched (l : List PubkeyAccess) (touch : Touch) (array : PubkeyArray) (k : ℕ) : Prop :=
  ∃ a ∈ l, a.touch = touch ∧ a.array = array ∧ a.off ≤ k ∧ k < a.off + a.len

/-- **The conversion stores as many bytes** as it is asked for, -/
theorem touched_bytes {k : ℕ} (h : k < n) :
    Touched (hexToBinAccesses hexstr off n) .writes keyid k :=
  ⟨⟨.writes, keyid, 0, n⟩, List.mem_cons_self, rfl, rfl, Nat.zero_le k, by rwa [Nat.zero_add]⟩

/-- and reads two digits for each. -/
theorem touched_digits (h : i < n) :
    Touched (hexToBinAccesses hexstr off n) .reads PubkeyArray.enck (off + 2 * i) ∧
      Touched (hexToBinAccesses hexstr off n) .reads PubkeyArray.enck (off + (2 * i + 1)) := by
  have hmem : ∀ a ∈ [(⟨.reads, enck, off + 2 * i, 1⟩ : PubkeyAccess),
      ⟨.reads, enck, off + (2 * i + 1), 1⟩], a ∈ hexToBinAccesses hexstr off n := by
    intro a ha
    refine List.mem_cons_of_mem _ (List.mem_flatMap.2 ⟨i, List.mem_range.2 h, ?_⟩)
    exact List.mem_append_left _ ha
  exact ⟨⟨_, hmem _ List.mem_cons_self, rfl, rfl, Nat.le_refl _, Nat.lt_succ_self _⟩,
    ⟨_, hmem _ (List.mem_cons_of_mem _ List.mem_cons_self), rfl, rfl, Nat.le_refl _,
      Nat.lt_succ_self _⟩⟩

/-- **The conversion changes what it stores**, and nothing else. -/
theorem qscIntutilsHexToBin_frame {output : Mem} {k : ℕ}
    (h : ¬ Touched (hexToBinAccesses hexstr off n) .writes keyid k) :
    qscIntutilsHexToBin hexstr output n k = output k := by
  have hle : n ≤ k := by
    by_contra hlt
    exact h (touched_bytes (Nat.lt_of_not_le hlt))
  rw [qscIntutilsHexToBin, Mem.write_of_ge (by simpa using hle),
    Mem.clear_of_ge (by rwa [Nat.zero_add])]

/-- **It depends on the digits it reads**, and on nothing else of the text. -/
theorem qscIntutilsHexToBin_congr {hexstr' output : Mem}
    (h : ∀ k, Touched (hexToBinAccesses hexstr off n) .reads PubkeyArray.enck (off + k) →
      hexstr k = hexstr' k) :
    qscIntutilsHexToBin hexstr output n = qscIntutilsHexToBin hexstr' output n := by
  have hbytes : ((List.range n).map fun i => hexByte (hexstr (2 * i)) (hexstr (2 * i + 1))) =
      (List.range n).map fun i => hexByte (hexstr' (2 * i)) (hexstr' (2 * i + 1)) := by
    refine List.map_congr_left fun i hi => ?_
    obtain ⟨hfirst, hsecond⟩ := @touched_digits hexstr off i n (List.mem_range.1 hi)
    rw [h _ hfirst, h _ hsecond]
  rw [qscIntutilsHexToBin, qscIntutilsHexToBin, hbytes]

/-- **Reading a public key is memory-safe**: every access is inside its
array, and the conversion of the identity stores the bytes of the identity
and reads two digits for each. -/
structure ReadsPubkeySafely (B : PubkeyParams) (stack enck : Mem) : Prop where
  inside : ∀ a ∈ qsmpDecodePublicKeyAccesses B stack enck, (a.toAccess B).Inside
  stored : ∀ k, Touched (keyidAccesses enck) .writes keyid k ↔ k < keyidSize
  digits : ∀ k, Touched (keyidAccesses enck) .reads PubkeyArray.enck k ↔
    131 ≤ k ∧ k < 131 + 2 * keyidSize

/-- **The byte behind the text is read**, whatever the text. -/
theorem reads_behind_text : (⟨.reads, tmpvk, B.pubkey.encodingSize, 1⟩ : PubkeyAccess) ∈
    qsmpDecodePublicKeyAccesses B stack enck := by
  obtain ⟨n, hn⟩ : ∃ n, B.pubkey.encodingSize = n + 1 :=
    ⟨_, (Nat.sub_add_cancel (encodingSize_pos B)).symm⟩
  refine List.mem_append_right _ (List.mem_append_left _ ?_)
  rw [hn, decodedSizeAccesses]
  exact List.mem_cons_self

/-- **No public-key file is read safely.** The conversion stores behind the
identity, and reads digits that are none of its own. -/
theorem not_readsPubkeySafely (B : PubkeyParams) (stack enck : Mem) :
    ¬ ReadsPubkeySafely B stack enck := by
  intro h
  have hbehind := (h.stored 16).1 (touched_bytes (by decide))
  exact absurd hbehind (by decide)

/-- In a file of zeros the byte behind the text is read already. -/
theorem not_readsPubkeySafely_zeros :
    ¬ ∀ (B : PubkeyParams) (stack enck : Mem), ReadsPubkeySafely B stack enck := by
  intro h
  have hin := (h .dilithiumKyber Mem.zero Mem.zero).inside _ reads_behind_text
  exact absurd (hin 0 Nat.one_pos) (Nat.lt_irrefl 1752)

/-! ## The bytes of the key -/

/-- **The decoder changes what it stores**, and nothing else. -/
theorem base64DecodeLoop_frame : ∀ (text : Bytes) (j : ℕ) (output : Mem),
    i ∉ base64DecodeStores text j → base64DecodeLoop text j output i = output i
  | c₀ :: c₁ :: c₂ :: c₃ :: rest, j, output, h => by
      simp only [base64DecodeStores, List.mem_cons, List.mem_append, not_or] at h
      obtain ⟨hj, ⟨h₂, h₃⟩, hrest⟩ := h
      have hkeep : ∀ (p : Mem) (k : ℕ) (b : UInt8), i ≠ k → p.write k [b] i = p i := by
        intro p k b hne
        rcases Nat.lt_or_gt_of_ne hne with hlt | hgt
        · exact Mem.write_of_lt hlt
        · exact Mem.write_of_ge hgt
      rw [base64DecodeLoop, base64DecodeLoop_frame rest (j + 3) _ hrest]
      by_cases hc₃ : c₃ = base64Pad
      · by_cases hc₂ : c₂ = base64Pad
        · simp only [hc₂, hc₃, ne_eq, not_true_eq_false, if_false, hkeep _ _ _ hj]
        · simp only [hc₂, ne_eq, not_false_eq_true, if_true, List.mem_singleton] at h₂
          simp only [hc₂, hc₃, ne_eq, not_true_eq_false, not_false_eq_true, if_true, if_false,
            hkeep _ _ _ h₂, hkeep _ _ _ hj]
      · simp only [hc₃, ne_eq, not_false_eq_true, if_true, List.mem_singleton] at h₃
        by_cases hc₂ : c₂ = base64Pad
        · simp only [hc₂, hc₃, ne_eq, not_true_eq_false, not_false_eq_true, if_true, if_false,
            hkeep _ _ _ h₃, hkeep _ _ _ hj]
        · simp only [hc₂, ne_eq, not_false_eq_true, if_true, List.mem_singleton] at h₂
          simp only [hc₂, hc₃, ne_eq, not_false_eq_true, if_true, hkeep _ _ _ h₃,
            hkeep _ _ _ h₂, hkeep _ _ _ hj]
  | [], _, _, _ => by rw [base64DecodeLoop.eq_def]
  | [_], _, _, _ => by rw [base64DecodeLoop.eq_def]
  | [_, _], _, _, _ => by rw [base64DecodeLoop.eq_def]
  | [_, _, _], _, _, _ => by rw [base64DecodeLoop.eq_def]

theorem base64DecodeStores_unpadded : ∀ (k : ℕ) (front : Bytes), front.length = 4 * k →
    ∀ (tail : Bytes) (j : ℕ), i ∈ base64DecodeStores (front ++ tail) j →
      i < j + 3 * k ∨ i ∈ base64DecodeStores tail (j + 3 * k)
  | 0, front, hlen, tail, j, h => by
      obtain rfl := List.length_eq_zero_iff.1 hlen
      exact .inr h
  | k + 1, c₀ :: c₁ :: c₂ :: c₃ :: rest, hlen, tail, j, h => by
      have hlen' : rest.length = 4 * k := by
        simp only [List.length_cons] at hlen
        omega
      rw [List.cons_append, List.cons_append, List.cons_append, List.cons_append,
        base64DecodeStores, List.mem_cons, List.mem_append, List.mem_append] at h
      have hnext : j + 3 + 3 * k = j + 3 * (k + 1) := by omega
      obtain rfl | (h | h) | h := h
      · exact .inl (by omega)
      · split at h
        · exact .inl (by rw [List.mem_singleton.1 h]; omega)
        · exact absurd h List.not_mem_nil
      · split at h
        · exact .inl (by rw [List.mem_singleton.1 h]; omega)
        · exact absurd h List.not_mem_nil
      · obtain hlt | hmem := base64DecodeStores_unpadded k rest hlen' tail (j + 3) h
        · exact .inl (by omega)
        · exact .inr (hnext ▸ hmem)

/-- The last group stores no more bytes than it stands for. -/
theorem base64DecodeStores_last {c₀ c₁ c₂ c₃ : UInt8} (horder : c₂ = base64Pad → c₃ = base64Pad)
    (h : i ∈ base64DecodeStores [c₀, c₁, c₂, c₃] j) :
    i < j + (3 - base64Padding [c₀, c₁, c₂, c₃]) := by
  have hpadding : base64Padding ([c₀, c₁] ++ [c₂, c₃]) = _ := base64Padding_append
  simp only [List.cons_append, List.nil_append] at hpadding
  rw [hpadding]
  simp only [base64DecodeStores, List.mem_cons, List.mem_append, List.append_nil] at h
  by_cases h₃ : c₃ = base64Pad
  · by_cases h₂ : c₂ = base64Pad
    · simp only [h₂, h₃, ne_eq, not_true_eq_false, if_false, List.not_mem_nil, or_false] at h
      simp only [h₂, h₃, if_true]
      omega
    · simp only [h₂, h₃, ne_eq, not_true_eq_false, not_false_eq_true, if_true, if_false,
        List.not_mem_nil, List.mem_singleton, or_false] at h
      simp only [h₂, h₃, if_true, if_false]
      omega
  · have h₂ : c₂ ≠ base64Pad := fun heq => h₃ (horder heq)
    simp only [h₂, h₃, ne_eq, not_false_eq_true, if_true, List.mem_singleton] at h
    simp only [h₃, if_false]
    omega

/-- **Text of the format** is stored in as many bytes as it stands for. -/
theorem Base64Text.stores_lt (h : Base64Text text) (hi : i ∈ base64DecodeStores text 0) :
    i < base64TextSize text := by
  obtain rfl | ⟨k, front, c₀, c₁, c₂, c₃, rfl, hfront, -, horder, hpadding⟩ := h.split
  · exact absurd hi List.not_mem_nil
  · have htwo := base64Padding_le [c₀, c₁, c₂, c₃]
    rw [base64TextSize, hpadding, List.length_append, hfront]
    simp only [List.length_cons, List.length_nil]
    obtain hlt | hlast := base64DecodeStores_unpadded k front hfront _ 0 hi
    · omega
    · have hlt := base64DecodeStores_last horder hlast
      omega

/-- **The key stays inside** if its text is of the format and the byte
behind it is no padding character. -/
theorem verkey_inside (h : Base64Text ((pubkeyText B stack enck).read 0 B.pubkey.encodingSize))
    (hbehind : pubkeyText B stack enck B.pubkey.encodingSize ≠ base64Pad)
    (ha : a ∈ qsmpDecodePublicKeyAccesses B stack enck) (harray : a.array = verkey) :
    (a.toAccess B).Inside := by
  obtain ⟨henc, hsize, -, hvk, hlt⟩ := B.sizes
  obtain hin | ⟨-, hkeyid⟩ | rfl | ⟨⟨-, -, hlen, hoff⟩, hfits⟩ :=
    qsmpDecodePublicKeyAccesses_inside ha
  · exact hin
  · rw [hkeyid] at harray
    exact PubkeyArray.noConfusion harray
  · exact PubkeyArray.noConfusion harray
  · have hgroups := h.groups
    rw [Mem.length_read] at hgroups
    have hpos := encodingSize_pos B
    obtain ⟨n, hn⟩ : ∃ n, B.pubkey.encodingSize = n + 2 := ⟨B.pubkey.encodingSize - 2, by omega⟩
    have hstored := h.stores_lt hoff
    have hcount := h.atEnd
    rw [hn] at hcount
    have hpadding := hcount.paddingAtLast_eq
    rw [← hn, if_neg (fun hboth => hbehind hboth.1)] at hpadding
    rw [qscEncodingBase64DecodedSize, base64DecodedSizeLoop_eq (by omega) (by omega), hpadding]
      at hfits
    rw [base64TextSize, Mem.length_read] at hstored
    refine Access.inside_iff.2 (.inr ?_)
    simp only [PubkeyAccess.toAccess, harray, hlen, PubkeyArray.size]
    omega

/-! ## Padding in the text of a key -/

/-- **A key whose text pads elsewhere** than at its end is refused. -/
def RefusesMisplacedPadding (B : PubkeyParams) (C : Clock) (stack : Mem)
    (pubk : QsmpClientSignatureKey) (enck : Mem) : Prop :=
  ¬ PadsAtEnd ((pubkeyText B stack enck).read 0 B.pubkey.encodingSize) →
    (qsmpDecodePublicKey B C stack pubk enck).1 = false

/-- It is refused only for a character that is valid nowhere, or when the
padding last seen leaves too large a key. -/
theorem refusesMisplacedPadding_iff {C : Clock} {pubk : QsmpClientSignatureKey} :
    RefusesMisplacedPadding B C stack pubk enck ↔
      PadsAtEnd ((pubkeyText B stack enck).read 0 B.pubkey.encodingSize) ∨
      (∃ c ∈ (pubkeyText B stack enck).read 0 B.pubkey.encodingSize,
        ¬ (c ∈ base64Enctbl ∨ c = base64Pad)) ∨
      B.verifyKeySize + paddingAtLast (pubkeyText B stack enck) B.pubkey.encodingSize <
        B.pubkey.encodingSize / 4 * 3 := by
  obtain ⟨henc, hsize, -, -, hlt⟩ := B.sizes
  have hgroups : B.pubkey.encodingSize % 4 = 0 := by
    rw [henc, qscEncodingBase64EncodedSize]
    omega
  obtain ⟨output, hdecode⟩ := qsmpDecodePublicKey_decodes (B := B) C stack pubk enck
  have hres : (qscEncodingBase64Decode output B.verifyKeySize (pubkeyText B stack enck)
      B.pubkey.encodingSize).1 = true ↔ _ := qscEncodingBase64Decode_fst (by omega)
  rw [← hdecode, and_iff_right hgroups] at hres
  rw [RefusesMisplacedPadding, ← Bool.not_eq_true, hres]
  by_cases hend : PadsAtEnd ((pubkeyText B stack enck).read 0 B.pubkey.encodingSize)
  · exact iff_of_true (fun hnot => absurd hend hnot) (.inl hend)
  · rw [or_iff_right hend, ← not_le, exists_invalid_iff, ← not_and_or]
    exact ⟨fun h => h hend, fun h _ => h⟩

/-- **When base64 is exact.** The decoder accepts the format and nothing
else for an input that is no whole number of groups, or has a character
valid nowhere, or whose padding does not mislead it; what was encoded is
always decoded; and a key whose text pads elsewhere is refused only for
such a character or for want of room. -/
theorem base64_exact_iff (input : Mem) (inlen otplen : ℕ) (hlt : inlen < 2 ^ 64)
    (B : PubkeyParams) (C : Clock) (stack : Mem) (pubk : QsmpClientSignatureKey) (enck : Mem) :
    (Base64Exact input inlen otplen ↔
      inlen % 4 ≠ 0 ∨ (∃ c ∈ input.read 0 inlen, ¬ (c ∈ base64Enctbl ∨ c = base64Pad)) ∨
        PaddingRead input inlen otplen) ∧
    (∀ (x : Bytes) (dest output : Mem) (cap room : ℕ), x.length < 2 ^ 63 →
      qscEncodingBase64EncodedSize x.length ≤ cap → x.length ≤ room →
        qscEncodingBase64Decode output room (qscEncodingBase64Encode dest cap x)
          (qscEncodingBase64EncodedSize x.length) = (true, output.write 0 x)) ∧
    (RefusesMisplacedPadding B C stack pubk enck ↔
      PadsAtEnd ((pubkeyText B stack enck).read 0 B.pubkey.encodingSize) ∨
      (∃ c ∈ (pubkeyText B stack enck).read 0 B.pubkey.encodingSize,
        ¬ (c ∈ base64Enctbl ∨ c = base64Pad)) ∨
      B.verifyKeySize + paddingAtLast (pubkeyText B stack enck) B.pubkey.encodingSize <
        B.pubkey.encodingSize / 4 * 3) :=
  ⟨base64Exact_iff hlt, fun _ dest output _ _ hx hcap hroom =>
    qscEncodingBase64Decode_encode dest output hx hcap hroom, refusesMisplacedPadding_iff⟩

/-- Three bytes, and a byte behind their text that is no padding. -/
theorem base64_exact_iff_three : Base64Exact (Mem.zero.write 0 (ascii "QUJD")) 4 3 :=
  (base64_exact_iff (Mem.zero.write 0 (ascii "QUJD")) 4 3 (by decide) .dilithiumKyber .may
    Mem.zero .zero Mem.zero).1.2
    (.inr (.inr (.inl ⟨show base64Pad ∉ _ by decide, .inr (.inl (by decide))⟩)))

/-- **A padding character in third place**: the size is found one too small,
the text is accepted, and the byte behind the two there is room for is
stored. -/
theorem not_base64Exact_third :
    ¬ ∀ input inlen otplen, inlen < 2 ^ 64 → Base64Exact input inlen otplen := by
  intro h
  have hacc := ((h (Mem.zero.write 0 (ascii "QQ=Q")) 4 2 (by decide)).accepts Mem.zero).1
    (by decide)
  exact absurd hacc.1.atEnd (show ¬ base64Pad ∉ _ by decide)

end Qsmp
