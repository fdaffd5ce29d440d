import Mathlib.Algebra.Group.Nat.Defs
import Qsmp.Common.Memory
/-!
# The build configuration, the error codes and the flags

The byte sizes QSMP fixes are constants; those that follow from the
asymmetric cipher and signature a build selects are fields of `Params`,
together with the configuration string that names the choice.
-/

namespace Qsmp

/-! ## Sizes every build shares -/

/-- `QSMP_CONFIG_SIZE` -/
def configSize : ℕ := 48
/-- `QSMP_SIMPLEX_HASH_SIZE` and `QSMP_SIMPLEX_SCHASH_SIZE` -/
def simplexHashSize : ℕ := 32
/-- `QSMP_SIMPLEX_MACTAG_SIZE` -/
def simplexMactagSize : UInt32 := 32
/-- `QSMP_SIMPLEX_SYMMETRIC_KEY_SIZE` -/
def simplexSymmetricKeySize : ℕ := 32
/-- `QSMP_DUPLEX_HASH_SIZE` and `QSMP_DUPLEX_SCHASH_SIZE` -/
def duplexHashSize : ℕ := 64
/-- `QSMP_DUPLEX_MACTAG_SIZE` -/
def duplexMactagSize : UInt32 := 64
/-- `QSMP_DUPLEX_SYMMETRIC_KEY_SIZE` -/
def duplexSymmetricKeySize : ℕ := 64
/-- `QSMP_NONCE_SIZE` -/
def nonceSize : ℕ := 32
/-- `QSMP_HEADER_SIZE` -/
def headerSize : ℕ := 13
/-- `QSMP_KEYID_SIZE` -/
def keyidSize : ℕ := 16
/-- `QSMP_SECRET_SIZE` -/
def secretSize : ℕ := 32
/-- `QSMP_SEQUENCE_TERMINATOR` -/
def sequenceTerminator : UInt64 := 0xFFFFFFFF
/-- `QSC_SOCKET_TERMINATOR_SIZE` -/
def socketTerminatorSize : ℕ := 1

/-! ## What a build selects -/

/-- The parameter set of a build. Lengths travel as 32-bit integers, and
the largest packet body fits one. -/
structure Params where
  /-- `QSMP_ASYMMETRIC_CIPHER_TEXT_SIZE` -/
  cipherTextSize : ℕ
  /-- `QSMP_ASYMMETRIC_PRIVATE_KEY_SIZE` -/
  privateKeySize : ℕ
  /-- `QSMP_ASYMMETRIC_PUBLIC_KEY_SIZE` -/
  publicKeySize : ℕ
  /-- `QSMP_ASYMMETRIC_SIGNING_KEY_SIZE` -/
  signingKeySize : ℕ
  /-- `QSMP_ASYMMETRIC_VERIFY_KEY_SIZE` -/
  verifyKeySize : ℕ
  /-- `QSMP_ASYMMETRIC_SIGNATURE_SIZE` -/
  signatureSize : ℕ
  /-- `QSMP_FALCON_SIGNATURE` is defined -/
  falconSignature : Bool
  /-- `QSMP_CONFIG_STRING` -/
  configString : Octets configSize
  /-- The largest packet, its header and terminator included, has an
  `int32_t` length. -/
  fits : 2 * headerSize + cipherTextSize + publicKeySize + duplexHashSize + signatureSize < 2 ^ 31

/-- `QSMP_MESSAGE_MAX` -/
def Params.messageMax (P : Params) : ℕ :=
  headerSize + P.cipherTextSize + P.publicKeySize + duplexHashSize + P.signatureSize

theorem Params.messageMax_lt (P : Params) : headerSize + P.messageMax < 2 ^ 31 := by
  have := P.fits
  simp only [messageMax]
  omega

/-- The default build: Dilithium-S1, Kyber-S1. -/
def Params.dilithiumKyber : Params where
  cipherTextSize := 768
  privateKeySize := 1632
  publicKeySize := 800
  signingKeySize := 2544
  verifyKeySize := 1312
  signatureSize := 2420
  falconSignature := false
  configString :=
    ⟨[100, 105, 108, 105, 116, 104, 105, 117, 109, 45, 115, 49, 95, 107, 121, 98, 101, 114, 45,
      115, 49, 95, 115, 104, 97, 51, 95, 114, 99, 115, 0, 0, 0, 0, 0, 0, 0, 0, 0, 0, 0, 0, 0, 0,
      0, 0, 0, 0], rfl⟩
  fits := by decide

/-- The build with Falcon-S3 and Kyber-S1. -/
def Params.falconKyber : Params where
  cipherTextSize := 768
  privateKeySize := 1632
  publicKeySize := 800
  signingKeySize := 1281
  verifyKeySize := 897
  signatureSize := 658
  falconSignature := true
  configString :=
    ⟨[102, 97, 108, 99, 111, 110, 45, 115, 51, 95, 107, 121, 98, 101, 114, 45, 115, 49, 95, 115,
      104, 97, 51, 95, 114, 99, 115, 0, 0, 0, 0, 0, 0, 0, 0, 0, 0, 0, 0, 0, 0, 0, 0, 0, 0, 0, 0,
      0], rfl⟩
  fits := by decide

/-! ## Error codes -/

/-- `qsmp_errors`. The last constructor is a value the enumeration does
not name: the exchange casts a byte of the peer's packet to this type. -/
inductive QsmpErrors where
  | none | authenticationFailure | badKeepAlive | channelDown | connectionFailure
  | connectFailure | decapsulationFailure | establishFailure | exstartFailure
  | exchangeFailure | hashInvalid | invalidInput | invalidRequest | keepAliveExpired
  | keyExpired | keyUnrecognized | packetUnsequenced | randomFailure | receiveFailure
  | transmitFailure | verifyFailure | unknownProtocol | listenerFail | acceptFail
  | hostsExceeded | memoryAllocation | decryptionFailure | keepaliveTimeout | keychainFail
  | unnamed (code : UInt8)
deriving DecidableEq, Repr

namespace QsmpErrors

/-- The cast of a byte, `(qsmp_errors)b`. -/
def ofByte (b : UInt8) : QsmpErrors :=
  match b with
  | 0x00 => none | 0x01 => authenticationFailure | 0x02 => badKeepAlive | 0x03 => channelDown
  | 0x04 => connectionFailure | 0x05 => connectFailure | 0x06 => decapsulationFailure
  | 0x07 => establishFailure | 0x08 => exstartFailure | 0x09 => exchangeFailure
  | 0x0A => hashInvalid | 0x0B => invalidInput | 0x0C => invalidRequest
  | 0x0D => keepAliveExpired | 0x0E => keyExpired | 0x0F => keyUnrecognized
  | 0x10 => packetUnsequenced | 0x11 => randomFailure | 0x12 => receiveFailure
  | 0x13 => transmitFailure | 0x14 => verifyFailure | 0x15 => unknownProtocol
  | 0x16 => listenerFail | 0x17 => acceptFail | 0x18 => hostsExceeded
  | 0x19 => memoryAllocation | 0x1A => decryptionFailure | 0x1B => keepaliveTimeout
  | 0x1C => keychainFail | b => unnamed b

/-- The cast to a byte, `(uint8_t)err`. -/
def toByte : QsmpErrors → UInt8
  | none => 0x00 | authenticationFailure => 0x01 | badKeepAlive => 0x02 | channelDown => 0x03
  | connectionFailure => 0x04 | connectFailure => 0x05 | decapsulationFailure => 0x06
  | establishFailure => 0x07 | exstartFailure => 0x08 | exchangeFailure => 0x09
  | hashInvalid => 0x0A | invalidInput => 0x0B | invalidRequest => 0x0C
  | keepAliveExpired => 0x0D | keyExpired => 0x0E | keyUnrecognized => 0x0F
  | packetUnsequenced => 0x10 | randomFailure => 0x11 | receiveFailure => 0x12
  | transmitFailure => 0x13 | verifyFailure => 0x14 | unknownProtocol => 0x15
  | listenerFail => 0x16 | acceptFail => 0x17 | hostsExceeded => 0x18
  | memoryAllocation => 0x19 | decryptionFailure => 0x1A | keepaliveTimeout => 0x1B
  | keychainFail => 0x1C | unnamed b => b

/-- **Every error code survives the packet that reports it.** -/
@[simp] theorem toByte_ofByte (b : UInt8) : (ofByte b).toByte = b := by
  unfold ofByte
  split <;> rfl

end QsmpErrors

/-! ## Packet flags -/

/-- `qsmp_flags` -/
inductive QsmpFlags where
  | none | connectRequest | connectResponse | connectionTerminate | encryptedMessage
  | exstartRequest | exstartResponse | exchangeRequest | exchangeResponse | establishRequest
  | establishResponse | keepAliveRequest | keepAliveResponse | remoteConnected
  | remoteTerminated | sessionEstablished | sessionEstablishVerify | unrecognizedProtocol
  | asymmetricRatchetRequest | asymmetricRatchetResponse | symmetricRatchetRequest
  | transferRequest | errorCondition
deriving DecidableEq, Repr

/-- The flag as the header carries it. -/
def QsmpFlags.toByte : QsmpFlags → UInt8
  | none => 0x00 | connectRequest => 0x01 | connectResponse => 0x02
  | connectionTerminate => 0x03 | encryptedMessage => 0x04 | exstartRequest => 0x05
  | exstartResponse => 0x06 | exchangeRequest => 0x07 | exchangeResponse => 0x08
  | establishRequest => 0x09 | establishResponse => 0x0A | keepAliveRequest => 0x0B
  | keepAliveResponse => 0x0C | remoteConnected => 0x0D | remoteTerminated => 0x0E
  | sessionEstablished => 0x0F | sessionEstablishVerify => 0x10
  | unrecognizedProtocol => 0x11 | asymmetricRatchetRequest => 0x12
  | asymmetricRatchetResponse => 0x13 | symmetricRatchetRequest => 0x14
  | transferRequest => 0x15 | errorCondition => 0xFF

/-- **No two flags share a byte.** -/
theorem QsmpFlags.toByte_injective {a b : QsmpFlags} (h : a.toByte = b.toByte) : a = b := by
  cases a <;> cases b <;> first | rfl | exact absurd h (by decide)

end Qsmp
