import Qsmp.Channel.Connection
/-!
# The parties of a key exchange

The asymmetric primitives a build selects, the state of each of the four
roles, and the two pieces of derivation all of them share: the session
hash and the expansion of the shared secrets into cipher keys.
-/

namespace Qsmp

/-- `qsmp_cipher_*` and `qsmp_signature_*`. A call that draws randomness
takes it as a seed; a call that can fail returns an option. `sign` returns
the signed message, the signature with the message it is over, and
`verify` recovers that message. -/
structure Asymmetric (P : Params) where
  Seed : Type
  generateKeypair : Seed → Octets P.publicKeySize × Octets P.privateKeySize
  encapsulate : Octets P.publicKeySize → Seed → Octets secretSize × Octets P.cipherTextSize
  decapsulate : Octets P.cipherTextSize → Octets P.privateKeySize → Option (Octets secretSize)
  sign : Bytes → Octets P.signingKeySize → Seed → Bytes
  verify : Bytes → Octets P.verifyKeySize → Option Bytes

/-! ## The four roles -/

/-- `qsmp_kex_duplex_client_state` -/
structure QsmpKexDuplexClientState (P : Params) where
  keyid : Octets keyidSize
  schash : Octets duplexHashSize
  prikey : Octets P.privateKeySize
  pubkey : Octets P.publicKeySize
  rverkey : Octets P.verifyKeySize
  sigkey : Octets P.signingKeySize
  ssec : Octets secretSize
  verkey : Octets P.verifyKeySize
  expiration : UInt64

/-- `qsmp_kex_duplex_server_state`. The key query either copies a
verification key out and returns true, or returns false. -/
structure QsmpKexDuplexServerState (P : Params) where
  keyid : Octets keyidSize
  schash : Octets duplexHashSize
  prikey : Octets P.privateKeySize
  pubkey : Octets P.publicKeySize
  rverkey : Octets P.verifyKeySize
  sigkey : Octets P.signingKeySize
  verkey : Octets P.verifyKeySize
  expiration : UInt64
  keyQuery : Octets keyidSize → Option (Octets P.verifyKeySize)

/-- `qsmp_kex_simplex_client_state`. The exchange uses `verkey` as the
server's key. -/
structure QsmpKexSimplexClientState (P : Params) where
  keyid : Octets keyidSize
  rverkey : Octets P.verifyKeySize
  sigkey : Octets P.signingKeySize
  schash : Octets simplexHashSize
  verkey : Octets P.verifyKeySize
  expiration : UInt64

/-- `qsmp_kex_simplex_server_state` -/
structure QsmpKexSimplexServerState (P : Params) where
  keyid : Octets keyidSize
  schash : Octets simplexHashSize
  prikey : Octets P.privateKeySize
  pubkey : Octets P.publicKeySize
  sigkey : Octets P.signingKeySize
  verkey : Octets P.verifyKeySize
  expiration : UInt64

variable {P : Params}

/-- `kex_duplex_client_reset`. The remote key stays, for the asymmetric
ratchet. -/
def kexDuplexClientReset (kcs : QsmpKexDuplexClientState P) : QsmpKexDuplexClientState P :=
  { kcs with
    keyid := Octets.zero _
    schash := Octets.zero _
    prikey := Octets.zero _
    pubkey := Octets.zero _
    verkey := Octets.zero _
    sigkey := Octets.zero _
    ssec := Octets.zero _
    expiration := 0 }

/-- `kex_duplex_server_reset` -/
def kexDuplexServerReset (kss : QsmpKexDuplexServerState P) : QsmpKexDuplexServerState P :=
  { kss with
    keyid := Octets.zero _
    schash := Octets.zero _
    prikey := Octets.zero _
    pubkey := Octets.zero _
    sigkey := Octets.zero _
    verkey := Octets.zero _
    expiration := 0 }

/-- `kex_simplex_client_reset` -/
def kexSimplexClientReset (kcs : QsmpKexSimplexClientState P) : QsmpKexSimplexClientState P :=
  { kcs with
    keyid := Octets.zero _
    schash := Octets.zero _
    verkey := Octets.zero _
    expiration := 0 }

/-- `kex_simplex_server_reset` -/
def kexSimplexServerReset (kss : QsmpKexSimplexServerState P) : QsmpKexSimplexServerState P :=
  { kss with
    keyid := Octets.zero _
    schash := Octets.zero _
    prikey := Octets.zero _
    pubkey := Octets.zero _
    sigkey := Octets.zero _
    verkey := Octets.zero _
    expiration := 0 }

/-- What a step function leaves: its code, and the states and the packet
it was given, as it changed them. -/
structure StepResult (S : Type) where
  qerr : QsmpErrors
  ks : S
  cns : QsmpConnectionState
  packetout : QsmpPacket

/-- A step that fails sets the exchange flag back to none. -/
def StepResult.fail {S : Type} (qerr : QsmpErrors) (ks : S) (cns : QsmpConnectionState)
    (packetout : QsmpPacket) : StepResult S :=
  ⟨qerr, ks, { cns with exflag := .none }, packetout⟩

/-! ## What the roles share -/

/-- The length of the signed hash at the start of a message. A Falcon build
decodes it from the first two bytes; the addition binds tighter than the
disjunction. -/
def signedLength (P : Params) (hashSize : ℕ) (pmessage : Mem) : ℕ :=
  if P.falconSignature then
    ((pmessage 0).toNat <<< 8) ||| ((pmessage 1).toNat + 42 + hashSize)
  else P.signatureSize + hashSize

/-- The hash array a verified signature leaves: the recovered message over
a cleared array. -/
def signedHash (hashSize : ℕ) (message : Bytes) : Bytes :=
  (Mem.zero.write 0 message).read 0 hashSize

@[simp] theorem length_signedHash {hashSize : ℕ} {message : Bytes} :
    (signedHash hashSize message).length = hashSize := Mem.length_read

@[simp] theorem signedHash_self {message : Bytes} :
    signedHash message.length message = message := Mem.read_write_self

variable (K : Primitives)

/-- The comparison of a computed hash with a signed one. -/
theorem qscIntutilsVerify_hash {n : ℕ} {hash : Octets n} {message : Bytes} :
    qscIntutilsVerify hash.val (signedHash n message) = 0 ↔ signedHash n message = hash.val := by
  rw [qscIntutilsVerify_eq_zero (by rw [hash.property, length_signedHash]), eq_comm]

theorem signedHash_of_length {n : ℕ} {hash : Bytes} (h : hash.length = n) :
    signedHash n hash = hash := by
  subst h
  exact signedHash_self

/-- A hash compares equal with itself as it was signed. -/
theorem qscIntutilsVerify_self {n : ℕ} {hash : Bytes} (h : hash.length = n) :
    qscIntutilsVerify hash (signedHash n hash) = 0 := by
  rw [signedHash_of_length h]
  exact (qscIntutilsVerify_eq_zero rfl).2 rfl

/-- A signed message that verifies under a key, the hash signed being that
of `bytes`: the test on every duplex exchange packet. -/
def SignsHash512 (A : Asymmetric P) (signed : Bytes) (verkey : Octets P.verifyKeySize)
    (bytes : Bytes) : Prop :=
  ∃ message, A.verify signed verkey = some message ∧
    signedHash duplexHashSize message = (qscSha3Compute512 K.permute bytes).val

/-- The same test in the simplex exchange. -/
def SignsHash256 (A : Asymmetric P) (signed : Bytes) (verkey : Octets P.verifyKeySize)
    (bytes : Bytes) : Prop :=
  ∃ message, A.verify signed verkey = some message ∧
    signedHash simplexHashSize message = (qscSha3Compute256 K.permute bytes).val

/-- The duplex session hash: the configuration string, the key identity,
and the verification keys of the client and of the server. -/
def duplexSchash (P : Params) (keyid : Octets keyidSize)
    (clientkey serverkey : Octets P.verifyKeySize) : Octets duplexHashSize :=
  let kstate := qscSha3Update K.permute .init .rate512 P.configString.val
  let kstate := qscSha3Update K.permute kstate .rate512 keyid.val
  let kstate := qscSha3Update K.permute kstate .rate512 clientkey.val
  let kstate := qscSha3Update K.permute kstate .rate512 serverkey.val
  ⟨qscSha3Finalize K.permute kstate .rate512, by simp [keccakStateByteSize, QscKeccakRate.toNat,
    duplexHashSize]⟩

/-- The simplex session hash: the configuration string, the key identity
and the server's verification key. -/
def simplexSchash (P : Params) (keyid : Octets keyidSize)
    (serverkey : Octets P.verifyKeySize) : Octets simplexHashSize :=
  let kstate := qscSha3Update K.permute .init .rate256 P.configString.val
  let kstate := qscSha3Update K.permute kstate .rate256 keyid.val
  let kstate := qscSha3Update K.permute kstate .rate256 serverkey.val
  ⟨qscSha3Finalize K.permute kstate .rate256, by simp [keccakStateByteSize, QscKeccakRate.toNat,
    simplexHashSize]⟩

/-- What an expansion yields: the pseudo-random array, and the ratchet key
taken from the state after one more permutation. -/
structure Expansion where
  prnd : Mem
  rtcs : Octets duplexSymmetricKeySize

/-- The expansion of a cSHAKE state into `nblocks` blocks. -/
def expand (kstate : QscKeccakState) (rate : QscKeccakRate) (nblocks : ℕ) : Expansion :=
  let blocks := qscCshakeSqueezeblocks K.permute kstate rate nblocks
  { prnd := Mem.zero.write 0 blocks.2
    rtcs := ⟨(K.permute blocks.1.state).val.take duplexSymmetricKeySize, by
      rw [List.length_take, (K.permute blocks.1.state).property]
      rfl⟩ }

/-- `H(seca, secb, sch)`, the first secret as the key, the session hash as
the name and the second secret as the customisation. -/
def duplexExpand (seca : Octets secretSize) (schash : Octets duplexHashSize)
    (secb : Octets secretSize) : Expansion :=
  expand K (qscCshakeInitialize K.permute .rate512 seca.val schash.val secb.val) .rate512 3

/-- `H(sec, sch)` -/
def simplexExpand (sec : Octets secretSize) (schash : Octets simplexHashSize) : Expansion :=
  expand K (qscCshakeInitialize K.permute .rate256 sec.val schash.val []) .rate256 2

/-- The key and nonce at an offset of the pseudo-random array. -/
def Expansion.keyparams (e : Expansion) (off keySize : ℕ) : RcsKeyparams :=
  ⟨e.prnd.read off keySize, e.prnd.octets (off + keySize) nonceSize, []⟩

/-- The first key and nonce: the client sends under them. -/
def Expansion.first (e : Expansion) (keySize : ℕ) : RcsKeyparams := e.keyparams 0 keySize

/-- The second key and nonce: the server sends under them. -/
def Expansion.second (e : Expansion) (keySize : ℕ) : RcsKeyparams :=
  e.keyparams (keySize + nonceSize) keySize

/-! ## Concrete parties

Primitives that repeat one byte, and a party of each role that holds the
other's key. -/

/-- Every key, cipher-text, secret and signature repeats one byte. -/
def Asymmetric.plain (P : Params) : Asymmetric P where
  Seed := UInt8
  generateKeypair s := (.repeated _ s, .repeated _ s)
  encapsulate _ s := (.repeated _ s, .repeated _ s)
  decapsulate cpt _ := some (.repeated _ (cpt.val.headD 0))
  sign message sigkey _ := List.replicate P.signatureSize (sigkey.val.headD 0) ++ message
  verify signed verkey :=
    if signed.take P.signatureSize = List.replicate P.signatureSize (verkey.val.headD 0) then
      some (signed.drop P.signatureSize)
    else none

/-- A duplex client, whose key is 1. -/
def QsmpKexDuplexClientState.plain (P : Params) : QsmpKexDuplexClientState P where
  keyid := Octets.zero _
  schash := Octets.zero _
  prikey := Octets.zero _
  pubkey := Octets.zero _
  rverkey := .repeated _ 2
  sigkey := .repeated _ 1
  ssec := Octets.zero _
  verkey := .repeated _ 1
  expiration := 9

/-- A duplex server, whose key is 2. -/
def QsmpKexDuplexServerState.plain (P : Params) : QsmpKexDuplexServerState P where
  keyid := Octets.zero _
  schash := Octets.zero _
  prikey := Octets.zero _
  pubkey := Octets.zero _
  rverkey := Octets.zero _
  sigkey := .repeated _ 2
  verkey := .repeated _ 2
  expiration := 9
  keyQuery _ := some (.repeated _ 1)

/-- A simplex client, which holds the key 2. -/
def QsmpKexSimplexClientState.plain (P : Params) : QsmpKexSimplexClientState P where
  keyid := Octets.zero _
  rverkey := Octets.zero _
  sigkey := Octets.zero _
  schash := Octets.zero _
  verkey := .repeated _ 2
  expiration := 9

/-- A simplex server, whose key is 2. -/
def QsmpKexSimplexServerState.plain (P : Params) : QsmpKexSimplexServerState P where
  keyid := Octets.zero _
  schash := Octets.zero _
  prikey := Octets.zero _
  pubkey := Octets.zero _
  sigkey := .repeated _ 2
  verkey := .repeated _ 2
  expiration := 9

end Qsmp
