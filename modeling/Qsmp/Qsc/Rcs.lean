import Qsmp.Common.CounterMode
import Qsmp.Qsc.Keccak
/-!
# The RCS authenticated stream cipher

The cipher runs its block function in counter mode and authenticates with
a KMAC state that is keyed once and then carried from one transform to
the next. The Keccak permutation and the block function are parameters.
-/

namespace Qsmp

/-- `QSC_RCS_BLOCK_SIZE` and `QSC_RCS_NONCE_SIZE` -/
def rcsBlockSize : ℕ := 32

/-- One block of the cipher. -/
abbrev RcsBlock := Octets rcsBlockSize

/-- `rcs_cipher_type` -/
inductive RcsCipherType where
  | cipher256 | cipher512
deriving DecidableEq, Repr

namespace RcsCipherType

/-- The rate of the MAC under this cipher type. -/
def rate : RcsCipherType → QscKeccakRate
  | cipher256 => .rate256
  | cipher512 => .rate512

/-- `QSC_RCS_256_MAC_SIZE` and `QSC_RCS_512_MAC_SIZE` -/
def macSize : RcsCipherType → ℕ
  | cipher256 => 32
  | cipher512 => 64

/-- `RCS_256_MACKEY_SIZE` and `RCS_512_MACKEY_SIZE` -/
def mackeySize : RcsCipherType → ℕ
  | cipher256 => 32
  | cipher512 => 64

/-- `RCS_256_ROUND_COUNT` and `RCS_512_ROUND_COUNT` -/
def rounds : RcsCipherType → ℕ
  | cipher256 => 22
  | cipher512 => 30

/-- `RCS_256_ROUNDKEY_SIZE` and `RCS_512_ROUNDKEY_SIZE`, in 32-bit words. -/
def roundkeySize (c : RcsCipherType) : ℕ := (c.rounds + 1) * (rcsBlockSize / 4)

/-- `rcs_256_name` and `rcs_512_name` -/
def name : RcsCipherType → Bytes
  | cipher256 => [0x01, 0, 0, 0, 0, 0, 0, 0, 0, 0x01, 0x52, 0x43, 0x53, 0x4B, 0x32, 0x35, 0x36]
  | cipher512 => [0x01, 0, 0, 0, 0, 0, 0, 0, 0, 0x02, 0x52, 0x43, 0x53, 0x4B, 0x35, 0x31, 0x32]

end RcsCipherType

theorem macSize_pos (c : RcsCipherType) : 0 < c.macSize := by cases c <;> decide

/-- The key schedule: the words of `roundkeys`, how many of them are in
use, and the number of rounds they serve. -/
structure RcsRoundkeys where
  roundkeys : List UInt32
  roundkeylen : ℕ
  rounds : ℕ
deriving DecidableEq

/-- The size of the `roundkeys` array in words. -/
def rcsRoundkeysMax : ℕ := 248

/-- What the cipher takes from outside: the Keccak permutation, and the
block function `rcs_transform_256` under a key schedule. -/
structure Primitives where
  permute : KeccakArray → KeccakArray
  rcsTransform256 : RcsRoundkeys → RcsBlock → RcsBlock

/-- The identity permutation, and the counter as its own key stream: an
instance small enough to compute with. -/
def Primitives.plain : Primitives := ⟨id, fun _ nonce => nonce⟩

/-- `qsc_rcs_keyparams` -/
structure RcsKeyparams where
  key : Bytes
  nonce : RcsBlock
  info : Bytes

/-- `qsc_rcs_state` -/
@[ext] structure RcsState where
  ctype : RcsCipherType
  schedule : RcsRoundkeys
  kstate : QscKeccakState
  nonce : RcsBlock
  counter : UInt64
  encrypt : Bool
deriving DecidableEq

variable (K : Primitives)

/-! ## The cipher's internal functions -/

/-- The key-stream block of a counter value. -/
def rcsKeystream (schedule : RcsRoundkeys) (nonce : RcsBlock) : Bytes :=
  (K.rcsTransform256 schedule nonce).val

/-- The counter after a block. -/
def rcsNextNonce (nonce : RcsBlock) : RcsBlock :=
  ⟨qscIntutilsLe8increment nonce.val, by simp [nonce.property]⟩

/-- `rcs_ctr_transform`: the counter-mode loop over 32-byte blocks. -/
def rcsCtrTransform (ctx : RcsState) (input : Bytes) : RcsState × Bytes :=
  let result := CounterMode.transform (rcsKeystream K ctx.schedule) rcsNextNonce rcsBlockSize
    ctx.nonce input
  ({ ctx with nonce := result.1 }, result.2)

/-- `rcs_mac_update` -/
def rcsMacUpdate (ctx : RcsState) (input : Bytes) : RcsState :=
  { ctx with kstate := qscKmacUpdate K.permute ctx.kstate ctx.ctype.rate input }

/-- `rcs_mac_finalize`: the length counter is absorbed last. -/
def rcsMacFinalize (ctx : RcsState) : RcsState × Bytes :=
  let mctr : UInt64 := 32 + ctx.counter + 8
  let kstate := qscKmacUpdate K.permute ctx.kstate ctx.ctype.rate (qscIntutilsLe64to8 mctr)
  let (kstate, output) := qscKmacFinalize K.permute kstate ctx.ctype.rate ctx.ctype.macSize
  ({ ctx with kstate := kstate }, output)

/-- `rcs_secure_expand`: the key schedule and the MAC key come from one
cSHAKE stream, the MAC key from a block of its own. -/
def rcsSecureExpand (ctype : RcsCipherType) (keyparams : RcsKeyparams) :
    RcsRoundkeys × QscKeccakState :=
  let kstate := qscCshakeInitialize K.permute ctype.rate keyparams.key ctype.name keyparams.info
  let (state, tmpr) := keccakOutput K.permute ctype.rate kstate.state (ctype.roundkeySize * 4)
  let words := (List.range ctype.roundkeySize).map fun i =>
    qscIntutilsBe8to32 ((tmpr.drop (4 * i)).take 4)
  let (_, sbuf) := qscKeccakSqueezeblocks K.permute ctype.rate 1 state
  let mkey := sbuf.take ctype.mackeySize
  (⟨words ++ List.replicate (rcsRoundkeysMax - words.length) 0, ctype.roundkeySize, ctype.rounds⟩,
    qscKmacInitialize K.permute ctype.rate mkey [])

/-! ## The cipher's interface -/

/-- `qsc_rcs_dispose` -/
def qscRcsDispose : RcsState where
  ctype := .cipher256
  schedule := ⟨List.replicate rcsRoundkeysMax 0, 0, 0⟩
  kstate := .init
  nonce := Octets.zero _
  counter := 0
  encrypt := false

/-- `qsc_rcs_initialize` -/
def qscRcsInitialize (keyparams : RcsKeyparams) (encryption : Bool) : RcsState :=
  -- Any other length is taken for a 256-bit key.
  let ctype := if keyparams.key.length = 64 then .cipher512 else .cipher256
  let (schedule, kstate) := rcsSecureExpand K ctype keyparams
  { ctype, schedule, kstate, nonce := keyparams.nonce, counter := 1, encrypt := encryption }

/-- `qsc_rcs_set_associated` -/
def qscRcsSetAssociated (ctx : RcsState) (data : Bytes) : RcsState :=
  if data.length ≠ 0 then
    let ctx := rcsMacUpdate K ctx data
    rcsMacUpdate K ctx (qscIntutilsLe32to8 (UInt32.ofNat data.length))
  else ctx

/-- `qsc_rcs_transform`: encrypt and append the tag, or check the tag and
decrypt. The result is the state, the output memory and the verdict. -/
def qscRcsTransform (ctx : RcsState) (output input : Mem) (length : ℕ) : RcsState × Mem × Bool :=
  let ctx := { ctx with counter := ctx.counter + UInt64.ofNat length }
  let ctx := rcsMacUpdate K ctx ctx.nonce.val
  if ctx.encrypt then
    let (ctx, cpt) := rcsCtrTransform K ctx (input.read 0 length)
    let output := output.write 0 cpt
    let ctx := rcsMacUpdate K ctx (output.read 0 length)
    let (ctx, code) := rcsMacFinalize K ctx
    (ctx, output.write length code, true)
  else
    -- A packet that is refused has moved the MAC state and the counter all the same.
    let ctx := rcsMacUpdate K ctx (input.read 0 length)
    let (ctx, code) := rcsMacFinalize K ctx
    if qscIntutilsVerify code (input.read length ctx.ctype.macSize) = 0 then
      let (ctx, msg) := rcsCtrTransform K ctx (input.read 0 length)
      (ctx, output.write 0 msg, true)
    else (ctx, output, false)

variable {K}
variable {ctx : RcsState} {input : Bytes} {n : UInt64} {e : Bool}

/-! ## What each function touches -/

theorem length_rcsKeystream {schedule : RcsRoundkeys} (nonce : RcsBlock) :
    (rcsKeystream K schedule nonce).length = rcsBlockSize :=
  (K.rcsTransform256 schedule nonce).property

@[simp] theorem length_rcsCtrTransform :
    (rcsCtrTransform K ctx input).2.length = input.length :=
  CounterMode.length_transform length_rcsKeystream (by decide)

/-- Associated data moves the MAC state and nothing else. -/
theorem qscRcsSetAssociated_eq :
    qscRcsSetAssociated K ctx input =
      { ctx with kstate := (qscRcsSetAssociated K ctx input).kstate } := by
  rw [qscRcsSetAssociated]
  split <;> rfl

@[simp] theorem qscRcsSetAssociated_ctype :
    (qscRcsSetAssociated K ctx input).ctype = ctx.ctype := by rw [qscRcsSetAssociated_eq]

@[simp] theorem qscRcsSetAssociated_schedule :
    (qscRcsSetAssociated K ctx input).schedule = ctx.schedule := by rw [qscRcsSetAssociated_eq]

@[simp] theorem qscRcsSetAssociated_nonce :
    (qscRcsSetAssociated K ctx input).nonce = ctx.nonce := by rw [qscRcsSetAssociated_eq]

@[simp] theorem qscRcsSetAssociated_counter :
    (qscRcsSetAssociated K ctx input).counter = ctx.counter := by rw [qscRcsSetAssociated_eq]

@[simp] theorem qscRcsSetAssociated_encrypt :
    (qscRcsSetAssociated K ctx input).encrypt = ctx.encrypt := by rw [qscRcsSetAssociated_eq]

/-! ## The transform in one equation per direction

The MAC state is carried over packets, so both directions are stated by
what they absorb: the counter block they start from, the cipher-text, and
the number of bytes processed so far. -/

/-- The MAC state and the tag after the nonce, a cipher-text and the byte
counter are absorbed. -/
def rcsAuthenticate (K : Primitives) (ctx : RcsState) (cpt : Bytes) : QscKeccakState × Bytes :=
  let kstate := qscKmacUpdate K.permute ctx.kstate ctx.ctype.rate ctx.nonce.val
  let kstate := qscKmacUpdate K.permute kstate ctx.ctype.rate cpt
  let counter := ctx.counter + UInt64.ofNat cpt.length
  let kstate := qscKmacUpdate K.permute kstate ctx.ctype.rate
    (qscIntutilsLe64to8 (32 + counter + 8))
  qscKmacFinalize K.permute kstate ctx.ctype.rate ctx.ctype.macSize

@[simp] theorem length_rcsAuthenticate :
    (rcsAuthenticate K ctx input).2.length = ctx.ctype.macSize :=
  length_qscKeccakFinalize K.permute

/-- The state a transform of `length` bytes ends in: the counter block of
the key stream, the byte counter and the MAC state have moved on. -/
def RcsState.advance (K : Primitives) (ctx : RcsState) (cpt : Bytes) : RcsState :=
  { ctx with
    nonce := (rcsCtrTransform K ctx cpt).1.nonce
    counter := ctx.counter + UInt64.ofNat cpt.length
    kstate := (rcsAuthenticate K ctx cpt).1 }

/-- The key stream undoes itself, from the same position. -/
theorem rcsCtrTransform_rcsCtrTransform :
    rcsCtrTransform K ctx (rcsCtrTransform K ctx input).2
      = ((rcsCtrTransform K ctx input).1, input) := by
  have hinv : ∀ n, CounterMode.transform (rcsKeystream K ctx.schedule) rcsNextNonce rcsBlockSize n
      (CounterMode.transform (rcsKeystream K ctx.schedule) rcsNextNonce rcsBlockSize n input).2 =
      ((CounterMode.transform (rcsKeystream K ctx.schedule) rcsNextNonce rcsBlockSize n input).1,
        input) :=
    fun _ => CounterMode.transform_transform length_rcsKeystream (by decide)
  simp only [rcsCtrTransform, hinv]

/-- **Encryption** writes the cipher-text and, behind it, the tag. -/
theorem qscRcsTransform_encrypt {output inp : Mem} {length : ℕ} {cpt : Bytes}
    (h : ctx.encrypt = true) (hcpt : (rcsCtrTransform K ctx (inp.read 0 length)).2 = cpt) :
    qscRcsTransform K ctx output inp length =
      (ctx.advance K cpt, (output.write 0 cpt).write length (rcsAuthenticate K ctx cpt).2,
        true) := by
  have hlen : cpt.length = length := by simp [← hcpt]
  have hread : (output.write 0 cpt).read 0 length = cpt := by rw [← hlen, Mem.read_write_self]
  have hnonce : (rcsCtrTransform K ctx cpt).1.nonce
      = (rcsCtrTransform K ctx (inp.read 0 length)).1.nonce := by
    rw [← hcpt, rcsCtrTransform_rcsCtrTransform]
  simp only [rcsCtrTransform] at hcpt hnonce
  simp only [qscRcsTransform, rcsCtrTransform, rcsMacUpdate, rcsMacFinalize, h, if_true, hcpt,
    hread, ← hnonce]
  simp only [rcsAuthenticate, RcsState.advance, rcsCtrTransform, hlen, h]

/-- **Decryption** compares the tag with the bytes behind the
cipher-text, and runs the key stream only if they agree. -/
theorem qscRcsTransform_decrypt {output inp : Mem} {length : ℕ} {cpt : Bytes}
    (h : ctx.encrypt = false) (hcpt : inp.read 0 length = cpt) :
    qscRcsTransform K ctx output inp length =
      if (rcsAuthenticate K ctx cpt).2 = inp.read length ctx.ctype.macSize then
        (ctx.advance K cpt, output.write 0 (rcsCtrTransform K ctx cpt).2, true)
      else ({ ctx.advance K cpt with nonce := ctx.nonce }, output, false) := by
  have hlen : cpt.length = length := by simp [← hcpt]
  have hverify : qscIntutilsVerify (rcsAuthenticate K ctx cpt).2
      (inp.read length ctx.ctype.macSize) = 0 ↔
      (rcsAuthenticate K ctx cpt).2 = inp.read length ctx.ctype.macSize :=
    qscIntutilsVerify_eq_zero (by simp)
  simp only [← hverify]
  simp only [qscRcsTransform, rcsCtrTransform, rcsMacUpdate, rcsMacFinalize, h,
    Bool.false_eq_true, if_false, hcpt]
  simp only [rcsAuthenticate, RcsState.advance, rcsCtrTransform, hlen, h]

/-- Neither direction changes the cipher type, the key schedule or the
direction. -/
theorem qscRcsTransform_frame {output inp : Mem} {length : ℕ} :
    (qscRcsTransform K ctx output inp length).1.ctype = ctx.ctype ∧
      (qscRcsTransform K ctx output inp length).1.schedule = ctx.schedule ∧
      (qscRcsTransform K ctx output inp length).1.encrypt = ctx.encrypt := by
  cases h : ctx.encrypt with
  | true =>
    rw [qscRcsTransform_encrypt h rfl]
    exact ⟨rfl, rfl, h⟩
  | false =>
    rw [qscRcsTransform_decrypt h rfl]
    split
    · exact ⟨rfl, rfl, h⟩
    · exact ⟨rfl, rfl, h⟩

/-- Nor does either write behind the place of the tag. -/
theorem qscRcsTransform_behind {output inp : Mem} {length i : ℕ}
    (hi : length + ctx.ctype.macSize ≤ i) :
    (qscRcsTransform K ctx output inp length).2.1 i = output i := by
  cases h : ctx.encrypt with
  | true =>
    rw [qscRcsTransform_encrypt h rfl]
    dsimp only
    rw [Mem.write_of_ge (by rwa [length_rcsAuthenticate]), Mem.write_of_ge (by simp; omega)]
  | false =>
    rw [qscRcsTransform_decrypt h rfl]
    split
    · exact Mem.write_of_ge (by simp; omega)
    · rfl

/-! ## The counter as an integer -/

/-- A step of the counter adds one. -/
theorem leNat_rcsNextNonce (nonce : RcsBlock) :
    leNat (rcsNextNonce nonce).val = (leNat nonce.val + 1) % 2 ^ 256 := by
  have hadd := leNat_qscIntutilsLe8increment nonce.val
  rw [nonce.property] at hadd
  exact hadd

theorem leNat_iterate_rcsNextNonce (nonce : RcsBlock) (i : ℕ) :
    leNat (rcsNextNonce^[i] nonce).val = (leNat nonce.val + i) % 2 ^ 256 := by
  induction i with
  | zero =>
    have hlt := leNat_lt nonce.val
    rw [nonce.property] at hlt
    exact (Nat.mod_eq_of_lt hlt).symm
  | succ i ih =>
    rw [Function.iterate_succ_apply', leNat_rcsNextNonce, ih, Nat.mod_add_mod, Nat.add_assoc]

/-! ## Two ends of one cipher -/

/-- One state encrypts, the other decrypts, and they agree in everything
else: the round keys, the nonce, the MAC state, the byte counter and the
cipher type. -/
structure RcsMirrors (tx rx : RcsState) : Prop where
  ctype : tx.ctype = rx.ctype
  schedule : tx.schedule = rx.schedule
  kstate : tx.kstate = rx.kstate
  nonce : tx.nonce = rx.nonce
  counter : tx.counter = rx.counter
  encrypts : tx.encrypt = true
  decrypts : rx.encrypt = false

namespace RcsMirrors

variable {tx rx : RcsState}

/-- The receiving end is the sending one with the direction turned. -/
theorem eq_rx (h : RcsMirrors tx rx) : rx = { tx with encrypt := false } := by
  ext1 <;> simp [h.ctype, h.schedule, h.kstate, h.nonce, h.counter, h.decrypts]

/-- Turning the direction of an encrypting state gives its mirror. -/
theorem of_encrypt (h : tx.encrypt = true) : RcsMirrors tx { tx with encrypt := false } :=
  ⟨rfl, rfl, rfl, rfl, rfl, h, rfl⟩

/-- Two states initialised from the same key material. -/
theorem of_keyparams {keyparams : RcsKeyparams} :
    RcsMirrors (qscRcsInitialize K keyparams true) (qscRcsInitialize K keyparams false) :=
  of_encrypt rfl

/-- Both ends absorb associated data alike. -/
theorem setAssociated (h : RcsMirrors tx rx) (data : Bytes) :
    RcsMirrors (qscRcsSetAssociated K tx data) (qscRcsSetAssociated K rx data) := by
  rw [h.eq_rx, qscRcsSetAssociated, qscRcsSetAssociated]
  split
  · exact of_encrypt h.encrypts
  · exact of_encrypt h.encrypts

end RcsMirrors

end Qsmp
