import Qsmp.Qsc.Intutils
/-!
# Keccak: SHA3, cSHAKE and KMAC

The sponge functions of the library over an arbitrary permutation of the
200-byte state, which on a little-endian host the code addresses as
bytes. The buffer holds the bytes an update left over; the code's
`position` is their number.
-/

namespace Qsmp

/-- `QSC_KECCAK_STATE_BYTE_SIZE` -/
def keccakStateByteSize : ℕ := 200

/-- The state array, as bytes. -/
abbrev KeccakArray := Octets keccakStateByteSize

/-- `qsc_keccak_rate`, less the value no caller passes. -/
inductive QscKeccakRate where
  | rate128 | rate256 | rate512
deriving DecidableEq, Repr

/-- The rate in bytes, which is the value of the enumerator. -/
def QscKeccakRate.toNat : QscKeccakRate → ℕ
  | rate128 => 168
  | rate256 => 136
  | rate512 => 72

@[simp] theorem QscKeccakRate.toNat_pos (rate : QscKeccakRate) : 0 < rate.toNat := by
  cases rate <;> decide

@[simp] theorem QscKeccakRate.toNat_le (rate : QscKeccakRate) :
    rate.toNat ≤ keccakStateByteSize := by
  cases rate <;> decide

/-- `qsc_keccak_state` -/
@[ext] structure QscKeccakState where
  state : KeccakArray
  /-- The first `position` bytes of the message buffer. -/
  buffer : Bytes
deriving DecidableEq

namespace QscKeccakState

/-- The number of bytes pending. -/
def position (ctx : QscKeccakState) : ℕ := ctx.buffer.length

/-- `qsc_keccak_initialize_state` -/
def init : QscKeccakState := ⟨Octets.zero _, []⟩

end QscKeccakState

/-- `keccak_fast_absorb`: the message is added into the first bytes. -/
def keccakFastAbsorb (state : KeccakArray) (message : Bytes) : KeccakArray :=
  ⟨List.zipWith (· ^^^ ·) state.val message ++ state.val.drop message.length, by
    simp only [List.length_append, List.length_zipWith, List.length_drop, state.property]
    omega⟩

/-- The number of significant bytes of `v`, at most `fuel`: the loop
`for (n = 0; v != 0 && n < sizeof(size_t); ++n, v >>= 8)`. -/
def keccakEncodeSize : ℕ → ℕ → ℕ
  | 0, _ => 0
  | fuel + 1, v => if v ≠ 0 then keccakEncodeSize fuel (v / 256) + 1 else 0

/-- The significant bytes of `value`, most significant first, at least one. -/
def keccakEncode (value : ℕ) : Bytes := (leBytes (max (keccakEncodeSize 8 value) 1) value).reverse

/-- `keccak_left_encode` -/
def keccakLeftEncode (value : ℕ) : Bytes :=
  UInt8.ofNat (keccakEncode value).length :: keccakEncode value

/-- `keccak_right_encode` -/
def keccakRightEncode (value : ℕ) : Bytes :=
  keccakEncode value ++ [UInt8.ofNat (keccakEncode value).length]

section Sponge

variable (permute : KeccakArray → KeccakArray)

/-- The loop `while (msglen >= rate)` that absorbs whole blocks; it leaves
the state and the bytes that are left. `fuel` bounds the blocks. -/
def keccakAbsorbBlocks (rate : ℕ) : ℕ → KeccakArray → Bytes → KeccakArray × Bytes
  | 0, state, message => (state, message)
  | fuel + 1, state, message =>
    if rate ≤ message.length then
      keccakAbsorbBlocks rate fuel (permute (keccakFastAbsorb state (message.take rate)))
        (message.drop rate)
    else (state, message)

/-- `qsc_keccak_absorb`: the whole message, padded, without the final
permutation. -/
def qscKeccakAbsorb (ctx : QscKeccakState) (rate : QscKeccakRate) (message : Bytes)
    (domain : UInt8) : QscKeccakState :=
  let (state, rest) := keccakAbsorbBlocks permute rate.toNat (message.length + 1) ctx.state message
  let msg := (Mem.zero.write 0 rest).write rest.length [domain]
  let msg := msg.write (rate.toNat - 1) [msg (rate.toNat - 1) ||| 128]
  { ctx with state := keccakFastAbsorb state (msg.read 0 rate.toNat) }

/-- The loop that copies an input into `pad` from offset `oft` on,
absorbing the pad whenever it is full. -/
def keccakAbsorbPad (rate : ℕ) : KeccakArray → Bytes → Bytes → KeccakArray × Bytes
  | state, pad, [] => (state, pad)
  | state, pad, b :: bs =>
    if pad.length = rate then
      keccakAbsorbPad rate (permute (keccakFastAbsorb state pad)) [b] bs
    else keccakAbsorbPad rate state (pad ++ [b]) bs

/-- The pad is cleared from its offset to the rate and absorbed. -/
def keccakAbsorbCleared (rate : ℕ) (state : KeccakArray) (pad : Bytes) : KeccakArray :=
  permute (keccakFastAbsorb state (pad ++ List.replicate (rate - pad.length) 0))

/-- `qsc_keccak_absorb_custom` -/
def qscKeccakAbsorbCustom (ctx : QscKeccakState) (rate : QscKeccakRate) (custom name : Bytes) :
    QscKeccakState :=
  let pad := keccakLeftEncode rate.toNat ++ keccakLeftEncode (name.length * 8)
  let (state, pad) := keccakAbsorbPad permute rate.toNat ctx.state pad name
  let pad := pad ++ keccakLeftEncode (custom.length * 8)
  let (state, pad) := keccakAbsorbPad permute rate.toNat state pad custom
  { ctx with state := keccakAbsorbCleared permute rate.toNat state pad }

/-- `qsc_keccak_absorb_key_custom` -/
def qscKeccakAbsorbKeyCustom (rate : QscKeccakRate) (key custom name : Bytes) : QscKeccakState :=
  let pad := keccakLeftEncode rate.toNat ++ keccakLeftEncode (name.length * 8) ++ name
    ++ keccakLeftEncode (custom.length * 8)
  let (state, pad) := keccakAbsorbPad permute rate.toNat (Octets.zero _) pad custom
  let state := keccakAbsorbCleared permute rate.toNat state pad
  let pad := keccakLeftEncode rate.toNat ++ keccakLeftEncode (key.length * 8)
  let (state, pad) := keccakAbsorbPad permute rate.toNat state pad key
  ⟨keccakAbsorbCleared permute rate.toNat state pad, []⟩

/-- `qsc_keccak_update` -/
def qscKeccakUpdate (ctx : QscKeccakState) (rate : QscKeccakRate) (message : Bytes) :
    QscKeccakState :=
  if message.length ≠ 0 then
    let full : Bool := ctx.position ≠ 0 ∧ rate.toNat ≤ ctx.position + message.length
    let rmdlen := rate.toNat - ctx.position
    let state := if full then
        permute (keccakFastAbsorb ctx.state (ctx.buffer ++ message.take rmdlen))
      else ctx.state
    let buffer := if full then [] else ctx.buffer
    let message := if full then message.drop rmdlen else message
    let (state, rest) := keccakAbsorbBlocks permute rate.toNat (message.length + 1) state message
    ⟨state, buffer ++ rest⟩
  else ctx

/-- `qsc_keccak_squeezeblocks`: each block is the start of the state after
a permutation. -/
def qscKeccakSqueezeblocks (rate : QscKeccakRate) : ℕ → KeccakArray → KeccakArray × Bytes
  | 0, state => (state, [])
  | nblocks + 1, state =>
    let state := permute state
    let rest := qscKeccakSqueezeblocks rate nblocks state
    (rest.1, state.val.take rate.toNat ++ rest.2)

/-- The output loop of `qsc_keccak_finalize`, whole blocks and the rest of
`otplen` bytes: the first `otplen` bytes of the started blocks. -/
def keccakOutput (rate : QscKeccakRate) (state : KeccakArray) (otplen : ℕ) :
    KeccakArray × Bytes :=
  let blocks := qscKeccakSqueezeblocks permute rate
    ((otplen + rate.toNat - 1) / rate.toNat) state
  (blocks.1, blocks.2.take otplen)

/-- `qsc_keccak_finalize`. When the length encoding does not fit behind
the pending bytes they are absorbed on their own, and the pad keeps them
past the place the encoding is then written to. -/
def qscKeccakFinalize (ctx : QscKeccakState) (rate : QscKeccakRate) (otplen : ℕ)
    (domain : UInt8) : QscKeccakState × Bytes :=
  let pad := Mem.zero.write 0 ctx.buffer
  let buf := keccakRightEncode (otplen * 8)
  let flush : Bool := rate.toNat ≤ ctx.position + buf.length
  let state := if flush then permute (keccakFastAbsorb ctx.state ctx.buffer) else ctx.state
  let position := if flush then 0 else ctx.position
  let pad := (pad.write position buf).write (position + buf.length) [domain]
  let pad := pad.write (rate.toNat - 1) [pad (rate.toNat - 1) ||| 128]
  let (state, output) :=
    keccakOutput permute rate (keccakFastAbsorb state (pad.read 0 rate.toNat)) otplen
  (⟨state, []⟩, output)

@[simp] theorem length_qscKeccakSqueezeblocks {rate : QscKeccakRate} :
    ∀ {nblocks : ℕ} {state : KeccakArray},
      (qscKeccakSqueezeblocks permute rate nblocks state).2.length = nblocks * rate.toNat
  | 0, _ => by simp [qscKeccakSqueezeblocks]
  | nblocks + 1, state => by
      have hrate := rate.toNat_le
      rw [qscKeccakSqueezeblocks]
      simp only [List.length_append, List.length_take, (permute state).property,
        length_qscKeccakSqueezeblocks, Nat.succ_mul]
      omega

/-- **Finalize writes as many bytes as it is asked for.** -/
@[simp] theorem length_qscKeccakFinalize {ctx : QscKeccakState} {rate : QscKeccakRate}
    {otplen : ℕ} {domain : UInt8} :
    (qscKeccakFinalize permute ctx rate otplen domain).2.length = otplen := by
  have hpos := rate.toNat_pos
  have hblocks : otplen ≤ (otplen + rate.toNat - 1) / rate.toNat * rate.toNat := by
    have hlt := Nat.lt_div_mul_add hpos (a := otplen + rate.toNat - 1)
    omega
  simp only [qscKeccakFinalize, keccakOutput, List.length_take, length_qscKeccakSqueezeblocks]
  omega

/-! ## SHA3 -/

/-- `QSC_KECCAK_SHA3_DOMAIN_ID` -/
def keccakSha3DomainId : UInt8 := 0x06

/-- The one-call hashes: the first `hlen` bytes of one squeezed block. -/
def qscSha3Compute (rate : QscKeccakRate) (hlen : ℕ) (message : Bytes) : Bytes :=
  let ctx := qscKeccakAbsorb permute .init rate message keccakSha3DomainId
  (qscKeccakSqueezeblocks permute rate 1 ctx.state).2.take hlen

/-- `qsc_sha3_compute256` -/
def qscSha3Compute256 (message : Bytes) : Octets 32 :=
  ⟨qscSha3Compute permute .rate256 32 message, by
    simp [qscSha3Compute, QscKeccakRate.toNat]⟩

/-- `qsc_sha3_compute512` -/
def qscSha3Compute512 (message : Bytes) : Octets 64 :=
  ⟨qscSha3Compute permute .rate512 64 message, by
    simp [qscSha3Compute, QscKeccakRate.toNat]⟩

/-- `qsc_sha3_update` -/
def qscSha3Update (ctx : QscKeccakState) (rate : QscKeccakRate) (message : Bytes) :
    QscKeccakState :=
  qscKeccakUpdate permute ctx rate message

/-- `qsc_sha3_finalize`: the buffer is cleared past the pending bytes,
padded and absorbed; half the capacity is put out. -/
def qscSha3Finalize (ctx : QscKeccakState) (rate : QscKeccakRate) : Bytes :=
  let hlen := (keccakStateByteSize - rate.toNat) / 2
  let buffer := (Mem.zero.write 0 ctx.buffer).write ctx.position [keccakSha3DomainId]
  let buffer := buffer.write (rate.toNat - 1) [buffer (rate.toNat - 1) ||| 128]
  (permute (keccakFastAbsorb ctx.state (buffer.read 0 rate.toNat))).val.take hlen

@[simp] theorem length_qscSha3Finalize {ctx : QscKeccakState} {rate : QscKeccakRate} :
    (qscSha3Finalize permute ctx rate).length = (keccakStateByteSize - rate.toNat) / 2 := by
  have hrate := rate.toNat_pos
  rw [qscSha3Finalize, List.length_take, (permute _).property]
  omega

/-! ## cSHAKE and KMAC -/

/-- `QSC_KECCAK_CSHAKE_DOMAIN_ID` -/
def keccakCshakeDomainId : UInt8 := 0x04
/-- `QSC_KECCAK_KMAC_DOMAIN_ID` -/
def keccakKmacDomainId : UInt8 := 0x04

/-- `qsc_cshake_initialize` -/
def qscCshakeInitialize (rate : QscKeccakRate) (key name custom : Bytes) : QscKeccakState :=
  let ctx := qscKeccakAbsorbCustom permute .init rate custom name
  qscKeccakAbsorb permute ctx rate key keccakCshakeDomainId

/-- `qsc_cshake_squeezeblocks` -/
def qscCshakeSqueezeblocks (ctx : QscKeccakState) (rate : QscKeccakRate) (nblocks : ℕ) :
    QscKeccakState × Bytes :=
  let blocks := qscKeccakSqueezeblocks permute rate nblocks ctx.state
  ({ ctx with state := blocks.1 }, blocks.2)

@[simp] theorem length_qscCshakeSqueezeblocks {ctx : QscKeccakState} {rate : QscKeccakRate}
    {nblocks : ℕ} :
    (qscCshakeSqueezeblocks permute ctx rate nblocks).2.length = nblocks * rate.toNat :=
  length_qscKeccakSqueezeblocks permute

/-- `qsc_kmac_initialize`, under the name `KMAC`. -/
def qscKmacInitialize (rate : QscKeccakRate) (key custom : Bytes) : QscKeccakState :=
  qscKeccakAbsorbKeyCustom permute rate key custom [0x4B, 0x4D, 0x41, 0x43]

/-- `qsc_kmac_update` -/
def qscKmacUpdate (ctx : QscKeccakState) (rate : QscKeccakRate) (message : Bytes) :
    QscKeccakState :=
  qscKeccakUpdate permute ctx rate message

/-- `qsc_kmac_finalize` -/
def qscKmacFinalize (ctx : QscKeccakState) (rate : QscKeccakRate) (otplen : ℕ) :
    QscKeccakState × Bytes :=
  qscKeccakFinalize permute ctx rate otplen keccakKmacDomainId

end Sponge

end Qsmp
