import Qsmp.Common.Memory
import Mathlib.Algebra.BigOperators.Group.List.Basic
import Mathlib.Algebra.GroupWithZero.Nat
/-!
# Falcon's signed messages

A signature is a vector of small integers, packed bit by bit: a sign and
seven bits for each coefficient, and the rest in unary. Its length varies
with the coefficients, so a signed message starts with it.
-/

namespace Qsmp

/-- The two parameter sets. -/
inductive Falcon where
  | s3shake256f512
  | s5shake256f1024
deriving DecidableEq

namespace Falcon

/-- The logarithm of the number of coefficients. -/
def logn : Falcon → ℕ
  | .s3shake256f512 => 9
  | .s5shake256f1024 => 10

/-- `FALCON_CRYPTO_SIGNATURE_BYTES` -/
def cryptoSignatureBytes : Falcon → ℕ
  | .s3shake256f512 => 690
  | .s5shake256f1024 => 1330

/-- `QSC_FALCON_SIGNATURE_SIZE` -/
def signatureSize : Falcon → ℕ
  | .s3shake256f512 => 658
  | .s5shake256f1024 => 1276

end Falcon

/-- `FALCON_NONCE_SIZE` -/
def falconNonceSize : ℕ := 40

/-! ## Packing -/

/-- The state of `falcon_comp_encode`: the bytes produced, and the bits
that wait in the accumulator. -/
structure CompState where
  buf : Bytes
  acc : UInt32
  acclen : ℕ

/-- `while (acclen >= 8)`, into a buffer of `maxoutlen` bytes. -/
def compProduce (maxoutlen : ℕ) (acc : UInt32) : ℕ → Bytes → Option CompState
  | acclen + 8, buf =>
    if maxoutlen ≤ buf.length then none
    else compProduce maxoutlen acc acclen (buf ++ [(acc >>> .ofNat acclen).toUInt8])
  | acclen, buf => some ⟨buf, acc, acclen⟩

/-- A turn of the loop of `falcon_comp_encode`: the sign, the low seven
bits, and the rest in unary. -/
def compStep (maxoutlen : ℕ) (st : CompState) (x : Int16) : Option CompState :=
  let w : UInt32 := .ofNat x.toInt.natAbs
  let acc := st.acc <<< 1 ||| if x < 0 then 1 else 0
  let acc := acc <<< 7 ||| w &&& 127
  let w := w >>> 7
  let acc := acc <<< (w + 1) ||| 1
  compProduce maxoutlen acc (st.acclen + 8 + (w.toNat + 1)) st.buf

/-- `falcon_comp_encode`, whose 0 stands for nothing produced. -/
def falconCompEncode (maxoutlen : ℕ) (x : List Int16) : Option Bytes :=
  if ∃ c ∈ x, c < -2047 ∨ 2047 < c then none
  else
    match x.foldlM (compStep maxoutlen) ⟨[], 0, 0⟩ with
    | none => none
    | some st =>
      if 0 < st.acclen then
        if maxoutlen ≤ st.buf.length then none
        else some (st.buf ++ [(st.acc <<< .ofNat (8 - st.acclen)).toUInt8])
      else some st.buf

/-- The end of `qsc_falcon_ref_sign`, from the vector the sampler has left:
the length, the nonce, the message and the signature behind it. -/
def qscFalconRefSign (F : Falcon) (nonce m : Bytes) (sig : List Int16) : Option Bytes :=
  (falconCompEncode (F.cryptoSignatureBytes - 2 - falconNonceSize - 1) sig).map fun enc =>
    let esig := UInt8.ofNat (0x20 + F.logn) :: enc
    let siglen := esig.length
    [UInt8.ofNat (siglen >>> 8), UInt8.ofNat siglen] ++ nonce ++ m ++ esig

/-! ## How long a signature is -/

/-- The bits of a coefficient. -/
def compBits (x : Int16) : ℕ := 9 + x.toInt.natAbs / 128

/-- The length of a signature, its header byte included. -/
def falconSiglen (sig : List Int16) : ℕ := 1 + ((sig.map compBits).sum + 7) / 8

variable {F : Falcon} {maxoutlen : ℕ} {acc : UInt32} {st st' : CompState} {x : Int16}
variable {sig : List Int16} {nonce m enc out : Bytes}

/-- Bits become bytes, as far as the buffer goes. -/
theorem compProduce_some {acclen : ℕ} {buf : Bytes}
    (h : compProduce maxoutlen acc acclen buf = some st) :
    8 * st.buf.length + st.acclen = 8 * buf.length + acclen ∧ st.acclen < 8 ∧
      (buf.length ≤ maxoutlen → st.buf.length ≤ maxoutlen) := by
  fun_induction compProduce maxoutlen acc acclen buf with
  | case1 acclen buf hfull => exact absurd h (by simp)
  | case2 acclen buf hroom ih =>
    obtain ⟨hbits, hlt, hle⟩ := ih h
    rw [List.length_append, List.length_singleton] at hbits hle
    exact ⟨by omega, hlt, fun _ => hle (by omega)⟩
  | case3 acclen buf hsmall =>
    obtain rfl : ⟨buf, acc, acclen⟩ = st := Option.some.inj h
    refine ⟨rfl, ?_, fun hle => hle⟩
    by_contra hge
    exact hsmall (acclen - 8) (by simp only at hge; omega)

/-- The part in unary. -/
theorem compUnary_toNat :
    (UInt32.ofNat x.toInt.natAbs >>> 7).toNat = x.toInt.natAbs / 128 := by
  have hsmall : x.toInt.natAbs < 2 ^ 32 := by
    have hlow := x.le_toInt
    have hhigh := x.toInt_lt
    omega
  rw [UInt32.toNat_shiftRight, UInt32.toNat_ofNat_of_lt' hsmall, Nat.shiftRight_eq_div_pow]
  rfl

/-- A coefficient adds its bits. -/
theorem compStep_some (h : compStep maxoutlen st x = some st') :
    8 * st'.buf.length + st'.acclen = 8 * st.buf.length + st.acclen + compBits x ∧
      st'.acclen < 8 ∧ (st.buf.length ≤ maxoutlen → st'.buf.length ≤ maxoutlen) := by
  obtain ⟨hbits, hlt, hle⟩ := compProduce_some h
  rw [compUnary_toNat] at hbits
  exact ⟨by rw [compBits]; omega, hlt, hle⟩

/-- **A vector adds the bits of its coefficients.** -/
theorem foldlM_compStep_some (h : sig.foldlM (compStep maxoutlen) st = some st') :
    8 * st'.buf.length + st'.acclen = 8 * st.buf.length + st.acclen + (sig.map compBits).sum ∧
      (st.acclen < 8 → st'.acclen < 8) ∧
      (st.buf.length ≤ maxoutlen → st'.buf.length ≤ maxoutlen) := by
  induction sig generalizing st with
  | nil =>
    obtain rfl : st = st' := Option.some.inj h
    exact ⟨rfl, fun hlt => hlt, fun hle => hle⟩
  | cons x sig ih =>
    rw [List.foldlM_cons] at h
    obtain ⟨st₁, hstep, hrest⟩ := Option.bind_eq_some_iff.1 h
    obtain ⟨hbits, hlt, hle⟩ := compStep_some hstep
    obtain ⟨hbits', hlt', hle'⟩ := ih hrest
    rw [List.map_cons, List.sum_cons]
    exact ⟨by omega, fun _ => hlt' hlt, fun h => hle' (hle h)⟩

/-- The bytes produced are the bits, rounded up. -/
theorem length_falconCompEncode (h : falconCompEncode maxoutlen sig = some enc) :
    enc.length = ((sig.map compBits).sum + 7) / 8 ∧ enc.length ≤ maxoutlen := by
  rw [falconCompEncode] at h
  split at h
  · exact absurd h (by simp)
  · split at h
    · exact absurd h (by simp)
    · rename_i st hfold
      obtain ⟨hbits, hlt, hle⟩ := foldlM_compStep_some hfold
      have hsmall := hlt (by decide)
      have hroom := hle (Nat.zero_le _)
      rw [List.length_nil, Nat.mul_zero, Nat.zero_add, Nat.zero_add] at hbits
      split at h
      · split at h
        · exact absurd h (by simp)
        · obtain rfl := Option.some.inj h
          rw [List.length_append, List.length_singleton]
          omega
      · obtain rfl := Option.some.inj h
        omega

/-- Bits that fit the buffer are produced. -/
theorem compProduce_isSome {acclen : ℕ} {buf : Bytes}
    (h : 8 * buf.length + acclen ≤ 8 * maxoutlen + 7) :
    (compProduce maxoutlen acc acclen buf).isSome := by
  fun_induction compProduce maxoutlen acc acclen buf with
  | case1 acclen buf hfull => omega
  | case2 acclen buf hroom ih =>
    refine ih ?_
    rw [List.length_append, List.length_singleton]
    omega
  | case3 acclen buf hsmall => rfl

theorem foldlM_compStep_isSome
    (h : 8 * st.buf.length + st.acclen + (sig.map compBits).sum ≤ 8 * maxoutlen + 7) :
    (sig.foldlM (compStep maxoutlen) st).isSome := by
  induction sig generalizing st with
  | nil => rfl
  | cons x sig ih =>
    rw [List.map_cons, List.sum_cons] at h
    have hstep : (compStep maxoutlen st x).isSome := by
      refine compProduce_isSome ?_
      rw [compUnary_toNat]
      rw [compBits] at h
      omega
    obtain ⟨st₁, hst₁⟩ := Option.isSome_iff_exists.1 hstep
    have hbits := (compStep_some hst₁).1
    rw [List.foldlM_cons, hst₁]
    exact ih (by omega)

/-- **What is in range and fits is encoded**, so every length up to that
of the buffer is emitted. -/
theorem falconCompEncode_isSome (hrange : ¬ ∃ c ∈ sig, c < -2047 ∨ 2047 < c)
    (hfit : (sig.map compBits).sum ≤ 8 * maxoutlen) :
    (falconCompEncode maxoutlen sig).isSome := by
  have hfold : (sig.foldlM (compStep maxoutlen) ⟨[], 0, 0⟩).isSome := by
    refine foldlM_compStep_isSome ?_
    dsimp only
    rw [List.length_nil]
    omega
  obtain ⟨st, hst⟩ := Option.isSome_iff_exists.1 hfold
  have hbits := (foldlM_compStep_some hst).1
  dsimp only at hbits
  rw [List.length_nil] at hbits
  rw [falconCompEncode, if_neg hrange, hst]
  dsimp only
  split
  · rw [if_neg (by omega)]
    rfl
  · rfl

/-- Each coefficient has nine bits at least. -/
theorem nine_mul_le_sum_compBits : 9 * sig.length ≤ (sig.map compBits).sum := by
  induction sig with
  | nil => exact Nat.le_refl _
  | cons x sig ih =>
    rw [List.length_cons, List.map_cons, List.sum_cons, compBits]
    omega

/-- **The lengths the encoder can emit.** -/
theorem falconSiglen_bounds (h : qscFalconRefSign F nonce m sig = some out)
    (hsig : sig.length = 2 ^ F.logn) :
    9 * 2 ^ F.logn / 8 + 1 ≤ falconSiglen sig ∧
      falconSiglen sig ≤ F.cryptoSignatureBytes - 2 - falconNonceSize := by
  obtain ⟨enc, hencode, -⟩ := Option.map_eq_some_iff.1 h
  obtain ⟨hlength, hle⟩ := length_falconCompEncode hencode
  have hnine : 9 * sig.length ≤ (sig.map compBits).sum := nine_mul_le_sum_compBits
  rw [hsig] at hnine
  have hroom : 0 < F.cryptoSignatureBytes - 2 - falconNonceSize := by
    cases F <;> decide
  rw [falconSiglen]
  omega

/-- **A signed message**: the length in two bytes, the nonce, the message,
the signature. -/
theorem qscFalconRefSign_some (h : qscFalconRefSign F nonce m sig = some out) :
    ∃ esig, esig.length = falconSiglen sig ∧
      out = [UInt8.ofNat (falconSiglen sig / 256), UInt8.ofNat (falconSiglen sig)] ++ nonce ++ m ++
        esig := by
  obtain ⟨enc, hencode, rfl⟩ := Option.map_eq_some_iff.1 h
  have hlength : (UInt8.ofNat (0x20 + F.logn) :: enc).length = falconSiglen sig := by
    rw [List.length_cons, (length_falconCompEncode hencode).1, falconSiglen, Nat.add_comm]
  refine ⟨_, hlength, ?_⟩
  simp only [hlength, Nat.shiftRight_eq_div_pow]

end Qsmp
