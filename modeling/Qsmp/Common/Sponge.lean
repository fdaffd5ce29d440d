import Mathlib.Data.Nat.Digits.Lemmas
import Qsmp.Common.Memory
import Qsmp.Common.Transcripts
/-!
# Sponges, and the strings they are given

A sponge takes blocks in, each followed by its permutation, and gives
blocks out, each in front of it. KMAC gives a sponge three strings of
blocks: its name and a customization, the key, and the message with the
length of the tag; cSHAKE gives it a name, a customization and the
message, and SHA3 the message. Lengths are encoded in as few bytes as they
take.
-/

namespace Qsmp

/-! ## The sponge -/

section Sponge

variable {σ : Type*} (add : σ → Bytes → σ) (permute : σ → σ) (out : σ → Bytes)

/-- The state after blocks are taken in. -/
def spongeAbsorb (s : σ) (blocks : List Bytes) : σ :=
  blocks.foldl (fun s block => permute (add s block)) s

/-- The bytes of `n` blocks given out. -/
def spongeSqueeze : ℕ → σ → Bytes
  | 0, _ => []
  | n + 1, s => out s ++ spongeSqueeze n (permute s)

variable {add permute out}

theorem spongeAbsorb_append {s : σ} {blocks blocks' : List Bytes} :
    spongeAbsorb add permute s (blocks ++ blocks') =
      spongeAbsorb add permute (spongeAbsorb add permute s blocks) blocks' :=
  List.foldl_append

/-- The last block is added to what the others left. -/
theorem spongeAbsorb_concat {s : σ} {blocks : List Bytes} {block : Bytes} :
    spongeAbsorb add permute s (blocks ++ [block]) =
      permute (add (spongeAbsorb add permute s blocks) block) :=
  spongeAbsorb_append

/-- **Squeezing goes on where it stopped.** -/
theorem spongeSqueeze_add {m : ℕ} : ∀ {n : ℕ} {s : σ},
    spongeSqueeze permute out (n + m) s =
      spongeSqueeze permute out n s ++ spongeSqueeze permute out m (permute^[n] s)
  | 0, s => by
    rw [Nat.zero_add]
    rfl
  | n + 1, s => by
    rw [Nat.add_right_comm, spongeSqueeze, spongeSqueeze, List.append_assoc, spongeSqueeze_add]
    rfl

end Sponge

/-! ## The strings -/

/-- A number, most significant byte first, in as few bytes as it takes and
at least one. -/
def bigEndian (n : ℕ) : Bytes :=
  if n = 0 then [0] else ((Nat.digits 256 n).map UInt8.ofNat).reverse

/-- A number with its number of bytes in front. -/
def leftEncode (n : ℕ) : Bytes := UInt8.ofNat (bigEndian n).length :: bigEndian n

/-- A number with its number of bytes behind. -/
def rightEncode (n : ℕ) : Bytes := bigEndian n ++ [UInt8.ofNat (bigEndian n).length]

/-- A string with its length in bits in front. -/
def encodeString (s : Bytes) : Bytes := leftEncode (s.length * 8) ++ s

/-- Zeros behind a string, up to whole blocks. -/
def fillUp (rate : ℕ) (s : Bytes) : Bytes :=
  s ++ List.replicate ((rate - s.length % rate) % rate) 0

/-- A string with the length of the blocks in front, filled up. -/
def bytepad (s : Bytes) (rate : ℕ) : Bytes := fillUp rate (leftEncode rate ++ s)

/-- A string with a suffix behind it whose last bit begins the padding, and
the padding up to the last bit of a block. -/
def padSuffix (rate : ℕ) (suffix : UInt8) (s : Bytes) : Bytes :=
  if rate - s.length % rate = 1 then s ++ [suffix ||| 128]
  else s ++ (suffix :: List.replicate (rate - s.length % rate - 2) 0 ++ [128])

/-- **What KMAC gives its sponge**, for blocks of `rate` bytes and a tag of
`bits` bits. -/
def kmacData (rate : ℕ) (key custom message : Bytes) (bits : ℕ) : Bytes :=
  bytepad (encodeString [0x4B, 0x4D, 0x41, 0x43] ++ encodeString custom) rate ++
    bytepad (encodeString key) rate ++ padSuffix rate 0x04 (message ++ rightEncode bits)

/-- What SHA3 gives its sponge. -/
def sha3Data (rate : ℕ) (message : Bytes) : Bytes := padSuffix rate 0x06 message

/-- **What cSHAKE gives its sponge**: the name and the customization in
front, and nothing in front of SHAKE's if both are empty. -/
def cshakeData (rate : ℕ) (message name custom : Bytes) : Bytes :=
  if name = [] ∧ custom = [] then padSuffix rate 0x1F message
  else bytepad (encodeString name ++ encodeString custom) rate ++ padSuffix rate 0x04 message

variable {rate n : ℕ} {suffix : UInt8} {s t rest stream : Bytes} {blocks : List Bytes}

@[simp] theorem bigEndian_ne_nil : bigEndian n ≠ [] := by
  rw [bigEndian]
  split
  · exact List.cons_ne_nil _ _
  · rename_i hn
    simpa using Nat.digits_ne_nil_iff_ne_zero.2 hn

/-- **A number that is not zero** begins with a byte that is not. -/
theorem head_bigEndian (hn : n ≠ 0) : (bigEndian n).head bigEndian_ne_nil ≠ 0 := by
  have hlast := Nat.getLast_digit_ne_zero 256 hn
  have hlt : (Nat.digits 256 n).getLast (Nat.digits_ne_nil_iff_ne_zero.2 hn) < 256 :=
    Nat.digits_lt_base (by decide) (List.getLast_mem _)
  have hhead : (bigEndian n).head bigEndian_ne_nil =
      UInt8.ofNat ((Nat.digits 256 n).getLast (Nat.digits_ne_nil_iff_ne_zero.2 hn)) := by
    simp only [bigEndian, if_neg hn, List.head_reverse, List.getLast_map]
  rw [hhead]
  intro hzero
  have hnat := congrArg UInt8.toNat hzero
  rw [UInt8.toNat_ofNat_of_lt' hlt] at hnat
  exact hlast hnat

theorem rightEncode_eq_cons (hn : n ≠ 0) : ∃ b t, rightEncode n = b :: t ∧ b ≠ 0 := by
  refine ⟨(bigEndian n).head bigEndian_ne_nil,
    (bigEndian n).tail ++ [UInt8.ofNat (bigEndian n).length], ?_, head_bigEndian hn⟩
  rw [rightEncode, ← List.cons_append, List.cons_head_tail]

/-! ## Whole blocks -/

/-- Whole blocks in front do not change where the last one ends. -/
theorem length_mod_of_full (hfull : ∀ block ∈ blocks, block.length = rate) :
    (blocks.flatten ++ s).length % rate = s.length % rate := by
  rw [List.length_append, Chunked.length_flatten hfull, Nat.add_comm,
    Nat.add_mul_mod_self_right]

/-- **Padding looks at the last block alone.** -/
theorem padSuffix_append (hfull : ∀ block ∈ blocks, block.length = rate) :
    padSuffix rate suffix (blocks.flatten ++ s) = blocks.flatten ++ padSuffix rate suffix s := by
  rw [padSuffix, padSuffix, length_mod_of_full hfull]
  split <;> simp only [List.append_assoc]

theorem fillUp_append (hfull : ∀ block ∈ blocks, block.length = rate) :
    fillUp rate (blocks.flatten ++ s) = blocks.flatten ++ fillUp rate s := by
  rw [fillUp, fillUp, length_mod_of_full hfull, List.append_assoc]

/-- A last block that is not empty is filled up to a whole one. -/
theorem fillUp_of_le (hpos : 0 < s.length) (hle : s.length ≤ rate) :
    fillUp rate s = s ++ List.replicate (rate - s.length) 0 := by
  rw [fillUp]
  rcases Nat.eq_or_lt_of_le hle with heq | hlt
  · rw [heq, Nat.mod_self, Nat.sub_zero, Nat.mod_self, Nat.sub_self]
  · rw [Nat.mod_eq_of_lt hlt, Nat.mod_eq_of_lt (by omega)]

theorem length_padSuffix (h : s.length < rate) : (padSuffix rate suffix s).length = rate := by
  rw [padSuffix, Nat.mod_eq_of_lt h]
  split
  · rw [List.length_append, List.length_singleton]
    omega
  · simp only [List.length_append, List.length_cons, List.length_replicate, List.length_nil]
    omega

/-- **A padded string is whole blocks**: those of the string and the padded
rest. -/
theorem Chunked.padSuffix (h : Chunked rate stream blocks rest) (suffix : UInt8) :
    Chunked rate (padSuffix rate suffix stream) (blocks ++ [padSuffix rate suffix rest]) [] := by
  refine ⟨?_, ?_, Nat.lt_of_le_of_lt (Nat.zero_le _) h.short⟩
  · rw [List.append_nil, List.flatten_append, List.flatten_singleton, ← padSuffix_append h.full,
      h.flatten]
  · intro block hblock
    obtain hblock | hblock := List.mem_append.1 hblock
    · exact h.full block hblock
    · rw [List.mem_singleton.1 hblock, length_padSuffix h.short]

/-- Two strings of whole blocks, one behind the other. -/
theorem Chunked.wholeBlocks_append {blocks' : List Bytes} (h : Chunked rate s blocks [])
    (h' : Chunked rate t blocks' []) : wholeBlocks rate (s ++ t) = blocks ++ blocks' :=
  (h.append h').blocks_eq.symm

end Qsmp
