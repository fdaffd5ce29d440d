import Mathlib.Data.Fin.VecNotation
import Mathlib.Tactic.FinCases
import Qsmp.Common.Rijndael
import Qsmp.Qsc.Rcs
/-!
# The block function of RCS

`rcs_transform_256` without the processor's cipher instructions: the
rounds of Rijndael on a block of eight columns, over round keys that are
words in big-endian order. It is a permutation of the blocks under every
key schedule, so distinct counters never meet in one key-stream block.
-/

namespace Qsmp

open Rijndael

/-- `rcs_sbox` -/
def rcsSbox : List UInt8 := [
  0x63, 0x7C, 0x77, 0x7B, 0xF2, 0x6B, 0x6F, 0xC5, 0x30, 0x01, 0x67, 0x2B, 0xFE, 0xD7, 0xAB, 0x76,
  0xCA, 0x82, 0xC9, 0x7D, 0xFA, 0x59, 0x47, 0xF0, 0xAD, 0xD4, 0xA2, 0xAF, 0x9C, 0xA4, 0x72, 0xC0,
  0xB7, 0xFD, 0x93, 0x26, 0x36, 0x3F, 0xF7, 0xCC, 0x34, 0xA5, 0xE5, 0xF1, 0x71, 0xD8, 0x31, 0x15,
  0x04, 0xC7, 0x23, 0xC3, 0x18, 0x96, 0x05, 0x9A, 0x07, 0x12, 0x80, 0xE2, 0xEB, 0x27, 0xB2, 0x75,
  0x09, 0x83, 0x2C, 0x1A, 0x1B, 0x6E, 0x5A, 0xA0, 0x52, 0x3B, 0xD6, 0xB3, 0x29, 0xE3, 0x2F, 0x84,
  0x53, 0xD1, 0x00, 0xED, 0x20, 0xFC, 0xB1, 0x5B, 0x6A, 0xCB, 0xBE, 0x39, 0x4A, 0x4C, 0x58, 0xCF,
  0xD0, 0xEF, 0xAA, 0xFB, 0x43, 0x4D, 0x33, 0x85, 0x45, 0xF9, 0x02, 0x7F, 0x50, 0x3C, 0x9F, 0xA8,
  0x51, 0xA3, 0x40, 0x8F, 0x92, 0x9D, 0x38, 0xF5, 0xBC, 0xB6, 0xDA, 0x21, 0x10, 0xFF, 0xF3, 0xD2,
  0xCD, 0x0C, 0x13, 0xEC, 0x5F, 0x97, 0x44, 0x17, 0xC4, 0xA7, 0x7E, 0x3D, 0x64, 0x5D, 0x19, 0x73,
  0x60, 0x81, 0x4F, 0xDC, 0x22, 0x2A, 0x90, 0x88, 0x46, 0xEE, 0xB8, 0x14, 0xDE, 0x5E, 0x0B, 0xDB,
  0xE0, 0x32, 0x3A, 0x0A, 0x49, 0x06, 0x24, 0x5C, 0xC2, 0xD3, 0xAC, 0x62, 0x91, 0x95, 0xE4, 0x79,
  0xE7, 0xC8, 0x37, 0x6D, 0x8D, 0xD5, 0x4E, 0xA9, 0x6C, 0x56, 0xF4, 0xEA, 0x65, 0x7A, 0xAE, 0x08,
  0xBA, 0x78, 0x25, 0x2E, 0x1C, 0xA6, 0xB4, 0xC6, 0xE8, 0xDD, 0x74, 0x1F, 0x4B, 0xBD, 0x8B, 0x8A,
  0x70, 0x3E, 0xB5, 0x66, 0x48, 0x03, 0xF6, 0x0E, 0x61, 0x35, 0x57, 0xB9, 0x86, 0xC1, 0x1D, 0x9E,
  0xE1, 0xF8, 0x98, 0x11, 0x69, 0xD9, 0x8E, 0x94, 0x9B, 0x1E, 0x87, 0xE9, 0xCE, 0x55, 0x28, 0xDF,
  0x8C, 0xA1, 0x89, 0x0D, 0xBF, 0xE6, 0x42, 0x68, 0x41, 0x99, 0x2D, 0x0F, 0xB0, 0x54, 0xBB, 0x16]

/-- A block as the cipher works on it: eight columns of four bytes. -/
abbrev RcsBuf := Octets (8 * 4)

/-- A 32-bit word as four bytes, the most significant first. -/
def wordBytes (k : UInt32) : Fin 4 → UInt8 :=
  ![(k >>> 24).toUInt8, (k >>> 16).toUInt8, (k >>> 8).toUInt8, k.toUInt8]

/-- `rcs_add_roundkey`: one word of the key for every column. -/
def rcsAddRoundkey (skeys : ℕ → UInt32) : RcsBuf → RcsBuf :=
  Octets.lift fun state i =>
    state i ^^^ wordBytes (skeys (finProdFinEquiv.symm i).1) (finProdFinEquiv.symm i).2

/-- `(uint8_t)(t ^ ((~(t >> 8) + 1) & 0x0000011BUL))`: the carry out of
the byte selects the polynomial. -/
def rcsReduce (t : UInt32) : UInt8 := (t ^^^ ((~~~(t >>> 8) + 1) &&& 0x11B)).toUInt8

/-- One column of `rcs_mix_columns`. -/
def rcsMixColumn (state : Fin 4 → UInt8) : Fin 4 → UInt8 :=
  let s0 := (state 0).toUInt32
  let s1 := (state 1).toUInt32
  let s2 := (state 2).toUInt32
  let s3 := (state 3).toUInt32
  let t0 := (s0 <<< 1) ^^^ s1 ^^^ (s1 <<< 1) ^^^ s2 ^^^ s3
  let t1 := s0 ^^^ (s1 <<< 1) ^^^ s2 ^^^ (s2 <<< 1) ^^^ s3
  let t2 := s0 ^^^ s1 ^^^ (s2 <<< 1) ^^^ s3 ^^^ (s3 <<< 1)
  let t3 := s0 ^^^ (s0 <<< 1) ^^^ s1 ^^^ s2 ^^^ (s3 <<< 1)
  ![rcsReduce t0, rcsReduce t1, rcsReduce t2, rcsReduce t3]

/-- `rcs_mix_columns` -/
def rcsMixColumns : RcsBuf → RcsBuf := Octets.lift (byColumns rcsMixColumn)

/-- The places `rcs_shift_rows` moves bytes along, in its order. -/
def rcsRows : List (List (Fin (8 * 4))) :=
  [[1, 5, 9, 13, 17, 21, 25, 29], [2, 14, 26, 6, 18, 30, 10, 22],
    [3, 19], [7, 23], [11, 27], [15, 31]]

/-- `rcs_shift_rows` -/
def rcsShiftRows : RcsBuf → RcsBuf := Octets.lift (rotateAll rcsRows)

/-- `rcs_sub_bytes` -/
def rcsSubBytes (sbox : List UInt8) : RcsBuf → RcsBuf :=
  Octets.lift fun state i => lookup sbox (state i)

/-- The words `ctx->roundkeys + (i << 3)` on. -/
def RcsRoundkeys.skeys (ctx : RcsRoundkeys) (i : ℕ) (j : ℕ) : UInt32 :=
  ctx.roundkeys.getD (8 * i + j) 0

/-- One turn of the loop of `rcs_transform_256`. -/
def rcsRound (ctx : RcsRoundkeys) (buf : RcsBuf) (i : ℕ) : RcsBuf :=
  rcsAddRoundkey (ctx.skeys i) (rcsMixColumns (rcsShiftRows (rcsSubBytes rcsSbox buf)))

/-- `rcs_transform_256` -/
def rcsTransform256 (ctx : RcsRoundkeys) (input : RcsBuf) : RcsBuf :=
  let buf := rcsAddRoundkey (ctx.skeys 0) input
  let buf := (List.range' 1 (ctx.rounds - 1)).foldl (rcsRound ctx) buf
  rcsAddRoundkey (ctx.skeys ctx.rounds) (rcsShiftRows (rcsSubBytes rcsSbox buf))

/-! ## Every layer is a permutation -/

theorem bijective_rcsSbox : Function.Bijective (lookup rcsSbox) :=
  bijective_lookup (by decide +kernel) (by decide +kernel)

theorem bijective_rcsSubBytes : Function.Bijective (rcsSubBytes rcsSbox) :=
  Octets.bijective_lift (Function.Bijective.piMap fun _ => bijective_rcsSbox)

theorem bijective_rcsShiftRows : Function.Bijective rcsShiftRows := by
  have hrows : ∀ row ∈ rcsRows, row.Nodup := by decide
  exact Octets.bijective_lift (bijective_rotateAll hrows)

theorem bijective_rcsAddRoundkey (skeys : ℕ → UInt32) :
    Function.Bijective (rcsAddRoundkey skeys) :=
  Octets.bijective_lift (bijective_addKey _)

/-- The reduction of a doubled byte with another added to it. -/
theorem rcsReduce_shift (x y : UInt8) :
    rcsReduce ((x.toUInt32 <<< 1) ^^^ y.toUInt32) = xtime x ^^^ y := by
  have hdouble : ∀ x : UInt8, ((x.toUInt32 <<< 1) ^^^
      ((~~~((x.toUInt32 <<< 1) >>> 8) + 1) &&& 0x11B)).toUInt8 = xtime x := by decide +kernel
  have hlow : ∀ y : UInt8, y.toUInt32 >>> 8 = 0 := by decide +kernel
  rw [rcsReduce, UInt32.shiftRight_xor, hlow, UInt32.xor_zero, UInt32.xor_assoc,
    UInt32.xor_comm y.toUInt32, ← UInt32.xor_assoc, UInt32.toUInt8_xor, hdouble,
    UInt8.toUInt8_toUInt32]

/-- One row of the mixing: two doubled bytes and three plain ones. -/
theorem rcsReduce_row {t : UInt32} (a b c d : UInt8)
    (ht : t = (a.toUInt32 <<< 1) ^^^ (b.toUInt32 <<< 1) ^^^
      (b.toUInt32 ^^^ c.toUInt32 ^^^ d.toUInt32)) :
    rcsReduce t = xtime a ^^^ (xtime b ^^^ b) ^^^ c ^^^ d := by
  rw [ht, ← UInt32.shiftLeft_xor, ← UInt8.toUInt32_xor, ← UInt8.toUInt32_xor,
    ← UInt8.toUInt32_xor, rcsReduce_shift, xtime_xor]
  simp only [UInt8.xor_assoc]

/-- **The mixing of the source** is Rijndael's. -/
theorem rcsMixColumn_eq : rcsMixColumn = mixColumn xtime := by
  funext s i
  unfold rcsMixColumn mixColumn
  fin_cases i
  · exact rcsReduce_row (s 0) (s 1) (s 2) (s 3) (by ac_rfl)
  · exact rcsReduce_row (s 1) (s 2) (s 3) (s 0) (by ac_rfl)
  · exact rcsReduce_row (s 2) (s 3) (s 0) (s 1) (by ac_rfl)
  · exact rcsReduce_row (s 3) (s 0) (s 1) (s 2) (by ac_rfl)

theorem bijective_rcsMixColumns : Function.Bijective rcsMixColumns := by
  unfold rcsMixColumns
  rw [rcsMixColumn_eq]
  exact Octets.bijective_lift (bijective_byColumns (bijective_mixColumn xtime_xor))

theorem bijective_rcsRound (ctx : RcsRoundkeys) (i : ℕ) :
    Function.Bijective fun buf => rcsRound ctx buf i :=
  (bijective_rcsAddRoundkey _).comp (bijective_rcsMixColumns.comp
    (bijective_rcsShiftRows.comp bijective_rcsSubBytes))

/-- **The block function is a permutation of the blocks**, under every key
schedule and any number of rounds. -/
theorem bijective_rcsTransform256 (ctx : RcsRoundkeys) :
    Function.Bijective (rcsTransform256 ctx) :=
  (bijective_rcsAddRoundkey _).comp (bijective_rcsShiftRows.comp (bijective_rcsSubBytes.comp
    ((bijective_foldl (bijective_rcsRound ctx) _).comp (bijective_rcsAddRoundkey _))))

end Qsmp
