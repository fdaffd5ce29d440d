import Mathlib.Data.Nat.Digits.Defs
import Mathlib.Tactic.Common
import Qsmp.Common.Memory
/-!
# Little-endian integers

The `n` low bytes of a number, least significant first, and the number a
byte string denotes. Encoding then decoding reduces modulo `256 ^ n`;
decoding then encoding gives the bytes back.
-/

namespace Qsmp

/-- The low `n` bytes of `v`, least significant first. -/
def leBytes : ℕ → ℕ → Bytes
  | 0, _ => []
  | n + 1, v => UInt8.ofNat v :: leBytes n (v / 256)

/-- The number a little-endian byte string denotes. -/
def leNat (bs : Bytes) : ℕ := Nat.ofDigits 256 (bs.map UInt8.toNat)

@[simp] theorem length_leBytes : ∀ {n v : ℕ}, (leBytes n v).length = n
  | 0, _ => rfl
  | n + 1, _ => by simp [leBytes, length_leBytes (n := n)]

/-- Byte `i` of the encoding. -/
theorem getD_leBytes : ∀ {n v i : ℕ}, i < n → (leBytes n v).getD i 0 = UInt8.ofNat (v / 256 ^ i)
  | n + 1, v, 0, _ => by simp [leBytes]
  | n + 1, v, i + 1, h => by
      rw [leBytes, List.getD_cons_succ, getD_leBytes (Nat.lt_of_succ_lt_succ h), Nat.pow_succ',
        Nat.div_div_eq_div_mul]

@[simp] theorem leNat_nil : leNat [] = 0 := rfl

theorem leNat_cons {b : UInt8} {bs : Bytes} : leNat (b :: bs) = b.toNat + 256 * leNat bs := by
  simp [leNat, Nat.ofDigits_cons]

theorem leNat_lt (bs : Bytes) : leNat bs < 256 ^ bs.length := by
  induction bs with
  | nil => simp
  | cons b bs ih =>
      have hb := b.toNat_lt
      rw [leNat_cons, List.length_cons, Nat.pow_succ]
      omega

/-- **Decoding what was encoded** keeps the low bytes. -/
theorem leNat_leBytes : ∀ {n v : ℕ}, leNat (leBytes n v) = v % 256 ^ n
  | 0, v => by simp [leBytes, Nat.mod_one]
  | n + 1, v => by
      rw [leBytes, leNat_cons, leNat_leBytes (n := n), Nat.pow_succ', Nat.mod_mul]
      simp

/-- **Encoding what was decoded** gives the bytes back. -/
theorem leBytes_leNat : ∀ bs : Bytes, leBytes bs.length (leNat bs) = bs
  | [] => rfl
  | b :: bs => by
      have hb := b.toNat_lt
      have hlow : UInt8.ofNat (b.toNat + 256 * leNat bs) = b := by
        apply UInt8.toNat_inj.1
        simp
      rw [List.length_cons, leBytes, leNat_cons, hlow, Nat.add_mul_div_left _ _ (by omega),
        Nat.div_eq_of_lt hb, Nat.zero_add, leBytes_leNat]

/-- Bit `i` of the number is in byte `i / 8`. -/
theorem testBit_leNat : ∀ (bs : Bytes) (i : ℕ),
    (leNat bs).testBit i = (bs.getD (i / 8) 0).toNat.testBit (i % 8)
  | [], i => by rw [leNat_nil, List.getD_nil, Nat.zero_testBit]; exact (Nat.zero_testBit _).symm
  | b :: bs, i => by
      have hb : b.toNat < 2 ^ 8 := b.toNat_lt
      rw [leNat_cons, Nat.add_comm, show 256 = 2 ^ 8 from rfl, Nat.testBit_two_pow_mul_add _ hb]
      split
      · rename_i h
        rw [Nat.div_eq_of_lt h, Nat.mod_eq_of_lt h, List.getD_cons_zero]
      · rename_i h
        have hdiv : i / 8 = (i - 8) / 8 + 1 := by omega
        rw [testBit_leNat bs, hdiv, List.getD_cons_succ, show i % 8 = (i - 8) % 8 by omega]

end Qsmp
