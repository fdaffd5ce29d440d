import Qsmp.Common.LittleEndian
/-!
# Integer and comparison helpers

The functions of the integer and string utilities the exchange and the
channel call. The byte orders are those of the source on every host: they
are written with shifts, not with casts.
-/

namespace Qsmp

/-! ## Byte order -/

/-- `qsc_intutils_le32to8`: bits 0–7, 8–15, 16–23, 24–31. -/
def qscIntutilsLe32to8 (value : UInt32) : Bytes := leBytes 4 value.toNat

/-- `qsc_intutils_le64to8` -/
def qscIntutilsLe64to8 (value : UInt64) : Bytes := leBytes 8 value.toNat

/-- `qsc_intutils_le8to32`, of the first four bytes at the pointer. -/
def qscIntutilsLe8to32 (input : Mem) : UInt32 := UInt32.ofNat (leNat (input.read 0 4))

/-- `qsc_intutils_le8to64`, of the first eight bytes at the pointer. -/
def qscIntutilsLe8to64 (input : Mem) : UInt64 := UInt64.ofNat (leNat (input.read 0 8))

/-- `qsc_intutils_be8to32`, of four bytes, most significant first. -/
def qscIntutilsBe8to32 (input : Bytes) : UInt32 := UInt32.ofNat (leNat input.reverse)

@[simp] theorem length_qscIntutilsLe32to8 {v : UInt32} : (qscIntutilsLe32to8 v).length = 4 :=
  length_leBytes

@[simp] theorem length_qscIntutilsLe64to8 {v : UInt64} : (qscIntutilsLe64to8 v).length = 8 :=
  length_leBytes

/-- **A 32-bit integer survives its bytes.** -/
theorem qscIntutilsLe8to32_of_read {p : Mem} {v : UInt32} (h : p.read 0 4 = qscIntutilsLe32to8 v) :
    qscIntutilsLe8to32 p = v := by
  rw [qscIntutilsLe8to32, h, qscIntutilsLe32to8, leNat_leBytes,
    Nat.mod_eq_of_lt (by have := v.toNat_lt; omega), UInt32.ofNat_toNat]

/-- **So does a 64-bit integer.** -/
theorem qscIntutilsLe8to64_of_read {p : Mem} {v : UInt64} (h : p.read 0 8 = qscIntutilsLe64to8 v) :
    qscIntutilsLe8to64 p = v := by
  rw [qscIntutilsLe8to64, h, qscIntutilsLe64to8, leNat_leBytes,
    Nat.mod_eq_of_lt (by have := v.toNat_lt; omega), UInt64.ofNat_toNat]

/-- And the bytes survive the integer. -/
theorem qscIntutilsLe32to8_le8to32 {p : Mem} :
    qscIntutilsLe32to8 (qscIntutilsLe8to32 p) = p.read 0 4 := by
  have hlt : leNat (p.read 0 4) < 2 ^ 32 := by simpa using leNat_lt (p.read 0 4)
  have henc := leBytes_leNat (p.read 0 4)
  rwa [Mem.length_read, ← UInt32.toNat_ofNat_of_lt hlt] at henc

theorem qscIntutilsLe64to8_le8to64 {p : Mem} :
    qscIntutilsLe64to8 (qscIntutilsLe8to64 p) = p.read 0 8 := by
  have hlt : leNat (p.read 0 8) < 2 ^ 64 := by simpa using leNat_lt (p.read 0 8)
  have henc := leBytes_leNat (p.read 0 8)
  rwa [Mem.length_read, ← UInt64.toNat_ofNat_of_lt hlt] at henc

/-- The same for the eight bytes alone. -/
theorem le64_le64to8 (v : UInt64) : UInt64.ofNat (leNat (qscIntutilsLe64to8 v)) = v := by
  have hlt : v.toNat < 256 ^ 8 := v.toNat_lt
  rw [qscIntutilsLe64to8, leNat_leBytes, Nat.mod_eq_of_lt hlt, UInt64.ofNat_toNat]

/-! The four functions as the source writes them, with shifts. -/

/-- A byte in front of a number, by bits. -/
theorem leNat_cons_or {b : UInt8} {bs : Bytes} : leNat (b :: bs) = b.toNat ||| leNat bs <<< 8 := by
  have hadd : leNat bs <<< 8 + b.toNat = leNat bs <<< 8 ||| b.toNat :=
    Nat.shiftLeft_add_eq_or_of_lt b.toNat_lt _
  rw [leNat_cons, Nat.or_comm, ← hadd, Nat.shiftLeft_eq]
  omega

theorem qscIntutilsLe32to8_eq {v : UInt32} : qscIntutilsLe32to8 v =
    [v.toUInt8, (v >>> 8).toUInt8, (v >>> 16).toUInt8, (v >>> 24).toUInt8] := by
  simp only [qscIntutilsLe32to8, leBytes, List.cons.injEq, and_true]
  refine ⟨?_, ?_, ?_, ?_⟩ <;>
    simp [← UInt8.toNat_inj, Nat.shiftRight_eq_div_pow, Nat.div_div_eq_div_mul]

theorem qscIntutilsLe64to8_eq {v : UInt64} : qscIntutilsLe64to8 v =
    [v.toUInt8, (v >>> 8).toUInt8, (v >>> 16).toUInt8, (v >>> 24).toUInt8,
      (v >>> 32).toUInt8, (v >>> 40).toUInt8, (v >>> 48).toUInt8, (v >>> 56).toUInt8] := by
  simp only [qscIntutilsLe64to8, leBytes, List.cons.injEq, and_true]
  refine ⟨?_, ?_, ?_, ?_, ?_, ?_, ?_, ?_⟩ <;>
    simp [← UInt8.toNat_inj, Nat.shiftRight_eq_div_pow, Nat.div_div_eq_div_mul]

theorem qscIntutilsLe8to32_eq {p : Mem} : qscIntutilsLe8to32 p =
    (p 0).toUInt32 ||| ((p 1).toUInt32 <<< 8 ||| ((p 2).toUInt32 <<< 16 |||
      (p 3).toUInt32 <<< 24)) := by
  have hread : p.read 0 4 = [p 0, p 1, p 2, p 3] := rfl
  rw [qscIntutilsLe8to32, hread]
  simp only [leNat_cons_or, leNat_nil, Nat.zero_shiftLeft, Nat.or_zero,
    Nat.shiftLeft_or_distrib, ← Nat.shiftLeft_add, UInt32.ofNat_or, Nat.reduceAdd]
  simp

theorem qscIntutilsLe8to64_eq {p : Mem} : qscIntutilsLe8to64 p =
    (p 0).toUInt64 ||| ((p 1).toUInt64 <<< 8 ||| ((p 2).toUInt64 <<< 16 |||
      ((p 3).toUInt64 <<< 24 ||| ((p 4).toUInt64 <<< 32 ||| ((p 5).toUInt64 <<< 40 |||
        ((p 6).toUInt64 <<< 48 ||| (p 7).toUInt64 <<< 56)))))) := by
  have hread : p.read 0 8 = [p 0, p 1, p 2, p 3, p 4, p 5, p 6, p 7] := rfl
  rw [qscIntutilsLe8to64, hread]
  simp only [leNat_cons_or, leNat_nil, Nat.zero_shiftLeft, Nat.or_zero,
    Nat.shiftLeft_or_distrib, ← Nat.shiftLeft_add, UInt64.ofNat_or, Nat.reduceAdd]
  simp

/-! ## The counter -/

/-- `qsc_intutils_le8increment`: add one to the little-endian integer,
stopping at the first byte that does not wrap. -/
def qscIntutilsLe8increment : Bytes → Bytes
  | [] => []
  | b :: bs => if b + 1 ≠ 0 then (b + 1) :: bs else (b + 1) :: qscIntutilsLe8increment bs

@[simp] theorem length_qscIntutilsLe8increment :
    ∀ bs : Bytes, (qscIntutilsLe8increment bs).length = bs.length
  | [] => rfl
  | b :: bs => by
      rw [qscIntutilsLe8increment]
      split <;> simp [length_qscIntutilsLe8increment bs]

/-- **The carry loop adds one**, modulo the width of the counter. -/
theorem leNat_qscIntutilsLe8increment :
    ∀ bs : Bytes, leNat (qscIntutilsLe8increment bs) = (leNat bs + 1) % 256 ^ bs.length
  | [] => (Nat.mod_one _).symm
  | b :: bs => by
      have hbyte := b.toNat_lt
      have hrest := leNat_lt bs
      have hadd : (b + 1).toNat = (b.toNat + 1) % 256 := UInt8.toNat_add b 1
      rw [qscIntutilsLe8increment, List.length_cons, Nat.pow_succ']
      split
      · rename_i hne
        have hlt : b.toNat + 1 < 256 := by
          refine Nat.lt_of_le_of_ne hbyte fun heq => hne (UInt8.toNat_inj.1 ?_)
          rw [hadd, heq]
          rfl
        rw [leNat_cons, leNat_cons, hadd, Nat.mod_eq_of_lt hlt, Nat.mod_eq_of_lt (by omega)]
        omega
      · rename_i hzero
        -- The byte wraps to zero, and what it carries goes to the rest.
        have hwrap : b.toNat + 1 = 256 := by
          rw [not_ne_iff.1 hzero, UInt8.toNat_zero] at hadd
          omega
        have hcarry : b.toNat + 256 * leNat bs + 1 = 256 * (leNat bs + 1) := by omega
        rw [leNat_cons, leNat_cons, hcarry, Nat.mul_mod_mul_left,
          leNat_qscIntutilsLe8increment bs, not_ne_iff.1 hzero, UInt8.toNat_zero, Nat.zero_add]

/-! ## Comparison -/

/-- `qsc_intutils_verify`: the differences are collected in a 16-bit
accumulator, and the result is zero or minus one without a branch. -/
def qscIntutilsVerify (a b : Bytes) : UInt32 :=
  let d : UInt16 := (a.zip b).foldl (fun d p => d ||| (p.1 ^^^ p.2).toUInt16) 0
  ((1 : UInt32) &&& ((d.toUInt32 - 1) >>> 8)) - 1

/-- The accumulator is a byte, and the collected differences of the rest. -/
theorem verify_fold (d : UInt8) : ∀ l : List (UInt8 × UInt8),
    l.foldl (fun (d : UInt16) p => d ||| (p.1 ^^^ p.2).toUInt16) d.toUInt16
      = (l.foldl (fun (d : UInt8) p => d ||| (p.1 ^^^ p.2)) d).toUInt16
  | [] => rfl
  | p :: l => by
      rw [List.foldl_cons, List.foldl_cons, ← UInt8.toUInt16_or, verify_fold _ l]

/-- No difference is collected exactly when there is none. -/
theorem fold_or_xor_eq_zero {d : UInt8} : ∀ {a b : Bytes}, a.length = b.length →
    ((a.zip b).foldl (fun (d : UInt8) p => d ||| (p.1 ^^^ p.2)) d = 0 ↔ d = 0 ∧ a = b)
  | [], [], _ => by simp
  | x :: a, y :: b, h => by
      rw [List.zip_cons_cons, List.foldl_cons, fold_or_xor_eq_zero (by simpa using h),
        UInt8.or_eq_zero_iff, UInt8.xor_eq_zero_iff, List.cons.injEq, and_assoc]

/-- The arithmetic of the result: zero for a zero accumulator, else minus one. -/
theorem verify_mask (d : UInt8) :
    ((1 : UInt32) &&& ((d.toUInt16.toUInt32 - 1) >>> 8)) - 1 = 0 ↔ d = 0 := by
  have hall : ∀ n : Fin 256,
      ((1 : UInt32) &&& (((UInt8.ofFin n).toUInt16.toUInt32 - 1) >>> 8)) - 1 = 0 ↔
        UInt8.ofFin n = 0 := by decide +kernel
  exact hall d.toFin

/-- **Verify accepts exactly equal strings.** -/
theorem qscIntutilsVerify_eq_zero {a b : Bytes} (h : a.length = b.length) :
    qscIntutilsVerify a b = 0 ↔ a = b := by
  have hfold := verify_fold 0 (a.zip b)
  rw [show (0 : UInt8).toUInt16 = 0 from rfl] at hfold
  simp only [qscIntutilsVerify, hfold, verify_mask, fold_or_xor_eq_zero h, true_and]

/-- `qsc_stringutils_compare_strings`: the byte differences are added up
in a `char`. -/
def qscStringutilsCompareStrings (str1 str2 : Bytes) : Bool :=
  (str1.zip str2).foldl (fun (c : UInt8) p => c + (p.1 ^^^ p.2)) 0 == 0

end Qsmp
