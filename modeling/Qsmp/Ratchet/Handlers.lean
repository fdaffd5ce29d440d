import Qsmp.Kex.State
/-!
# The ratchets

A duplex connection is keyed anew by a ratchet. The symmetric one sends a
token and keys both ends from it and the ratchet key; the asymmetric one
sends a KEM public key, has a secret encapsulated to it and sent back, and
keys both ends from that. The KEM key pair that waits for the answer, the
own signing key and the peer's verification key lie outside the connection,
in two variables of the process.
-/

namespace Qsmp

/-- `QSMP_RTOK_SIZE` -/
def rtokSize : ℕ := 32

namespace Params

variable (P : Params)

/-- `QSMP_ASYMMETRIC_RATCHET_REQUEST_MESSAGE_SIZE` -/
def ratchetRequestMessageSize : ℕ :=
  P.publicKeySize + P.signatureSize + simplexHashSize + duplexMactagSize.toNat

/-- `QSMP_ASYMMETRIC_RATCHET_RESPONSE_MESSAGE_SIZE` -/
def ratchetResponseMessageSize : ℕ :=
  P.cipherTextSize + P.signatureSize + simplexHashSize + duplexMactagSize.toNat

/-- The signed hash at the start of both messages. -/
def ratchetSignedSize : ℕ := P.signatureSize + simplexHashSize

end Params

/-- `m_cprkeys` and `m_sigkeys` -/
structure RatchetKeys (P : Params) where
  pubkey : Octets P.publicKeySize
  prikey : Octets P.privateKeySize
  sigkey : Octets P.signingKeySize
  verkey : Octets P.verifyKeySize
deriving DecidableEq

/-- What a function of the ratchet leaves: its result, the connection, the
variables of the process, and the bytes it has handed to the socket. -/
structure RatchetResult (P : Params) where
  res : Bool
  cns : QsmpConnectionState
  keys : RatchetKeys P
  out : Option Bytes

variable {P : Params} (K : Primitives) (A : Asymmetric P)

/-- The expansion of a secret under the ratchet key. -/
def ratchetExpand (P : Params) (cns : QsmpConnectionState) (secret : Bytes) : Expansion :=
  expand K (qscCshakeInitialize K.permute .rate512 secret P.configString.val cns.rtcs.val)
    .rate512 3

/-- `symmetric_ratchet` -/
def symmetricRatchet (P : Params) (cns : QsmpConnectionState) (secret : Bytes) :
    QsmpConnectionState :=
  let prnd := ratchetExpand K P cns secret
  if cns.receiver then
    { cns with
      rxcpr := qscRcsInitialize K (prnd.first duplexSymmetricKeySize) false
      txcpr := qscRcsInitialize K (prnd.second duplexSymmetricKeySize) true
      rtcs := prnd.rtcs }
  else
    { cns with
      txcpr := qscRcsInitialize K (prnd.first duplexSymmetricKeySize) true
      rxcpr := qscRcsInitialize K (prnd.second duplexSymmetricKeySize) false
      rtcs := prnd.rtcs }

/-- The length of a message less the tag, as a `size_t`. -/
def ratchetLength (packetin : QsmpPacket) : ℕ :=
  (packetin.msglen.toUInt64 - duplexMactagSize.toUInt64).toNat

/-- `symmetric_ratchet_response` -/
def symmetricRatchetResponse (keys : RatchetKeys P) (cns : QsmpConnectionState)
    (packetin : QsmpPacket) : RatchetResult P :=
  let cns := { cns with rxseq := cns.rxseq + 1 }
  if packetin.sequence = cns.rxseq then
    let rxcpr := qscRcsSetAssociated K cns.rxcpr (qsmpPacketHeaderSerialize packetin)
    let (rxcpr, rkey, res) :=
      qscRcsTransform K rxcpr Mem.zero packetin.pmessage (ratchetLength packetin)
    let cns := { cns with rxcpr }
    if res then ⟨true, symmetricRatchet K P cns (rkey.read 0 rtokSize), keys, none⟩
    else ⟨false, cns, keys, none⟩
  else ⟨false, cns, keys, none⟩

/-- `asymmetric_ratchet_response`. The socket takes `slen` of the bytes;
`stack` is the memory of the message array before it is cleared, of which
the byte behind the array is sent as the terminator. -/
def asymmetricRatchetResponse (encap sign : A.Seed) (slen : ℕ) (stack : Mem)
    (keys : RatchetKeys P) (cns : QsmpConnectionState) (packetin : QsmpPacket) :
    RatchetResult P :=
  let cns := { cns with rxseq := cns.rxseq + 1 }
  if packetin.sequence = cns.rxseq ∧
      packetin.msglen = UInt32.ofNat P.ratchetRequestMessageSize then
    let rxcpr := qscRcsSetAssociated K cns.rxcpr (qsmpPacketHeaderSerialize packetin)
    let (rxcpr, imsg, res) :=
      qscRcsTransform K rxcpr Mem.zero packetin.pmessage (ratchetLength packetin)
    let cns := { cns with rxcpr }
    if res then
      match A.verify (imsg.read 0 P.ratchetSignedSize) keys.verkey with
      | some message =>
        let rhash := signedHash simplexHashSize message
        let rpub := imsg.octets P.ratchetSignedSize P.publicKeySize
        let lhash := qscSha3Compute256 K.permute rpub.val
        if qscIntutilsVerify rhash lhash.val = 0 then
          let enc := A.encapsulate rpub encap
          let mtmp := Mem.zero.write P.ratchetSignedSize enc.2.val
          let khash := qscSha3Compute256 K.permute
            (mtmp.read P.ratchetSignedSize P.cipherTextSize)
          let signed := A.sign khash.val keys.sigkey sign
          let mtmp := mtmp.write 0 signed
          let cns := { cns with txseq := cns.txseq + 1 }
          let pkt : QsmpPacket :=
            { flag := QsmpFlags.asymmetricRatchetResponse.toByte
              msglen := UInt32.ofNat P.ratchetResponseMessageSize
              sequence := cns.txseq
              pmessage := Mem.zero }
          let omsg := stack.clear 0 (headerSize + P.ratchetResponseMessageSize)
          let omsg := omsg.write 0 (qsmpPacketHeaderSerialize pkt)
          let txcpr := qscRcsSetAssociated K cns.txcpr (omsg.read 0 headerSize)
          let (txcpr, body, _) := qscRcsTransform K txcpr (omsg.shift headerSize) mtmp
            (P.ratchetSignedSize + P.cipherTextSize)
          let omsg := omsg.unshift headerSize body
          let mlen := signed.length + headerSize + P.cipherTextSize + duplexMactagSize.toNat
          let cns := { cns with txcpr }
          let out := some (omsg.read 0 (mlen + socketTerminatorSize))
          if slen = mlen + socketTerminatorSize then
            ⟨true, symmetricRatchet K P cns enc.1.val, keys, out⟩
          else ⟨false, cns, keys, out⟩
        else ⟨false, cns, keys, none⟩
      | none => ⟨false, cns, keys, none⟩
    else ⟨false, cns, keys, none⟩
  else ⟨false, cns, keys, none⟩

/-- `asymmetric_ratchet_finalize`. The key pair is cleared once the hash is
verified, whether the secret is decapsulated or not. -/
def asymmetricRatchetFinalize (keys : RatchetKeys P) (cns : QsmpConnectionState)
    (packetin : QsmpPacket) : RatchetResult P :=
  let cns := { cns with rxseq := cns.rxseq + 1 }
  if packetin.sequence = cns.rxseq ∧
      packetin.msglen = UInt32.ofNat P.ratchetResponseMessageSize then
    let rxcpr := qscRcsSetAssociated K cns.rxcpr (qsmpPacketHeaderSerialize packetin)
    let (rxcpr, imsg, res) :=
      qscRcsTransform K rxcpr Mem.zero packetin.pmessage (ratchetLength packetin)
    let cns := { cns with rxcpr }
    if res then
      match A.verify (imsg.read 0 P.ratchetSignedSize) keys.verkey with
      | some message =>
        let rhash := signedHash simplexHashSize message
        let cpt := imsg.octets P.ratchetSignedSize P.cipherTextSize
        let lhash := qscSha3Compute256 K.permute cpt.val
        if qscIntutilsVerify rhash lhash.val = 0 then
          let cleared := { keys with pubkey := Octets.zero _, prikey := Octets.zero _ }
          match A.decapsulate cpt keys.prikey with
          | some secret => ⟨true, symmetricRatchet K P cns secret.val, cleared, none⟩
          | none => ⟨false, cns, cleared, none⟩
        else ⟨false, cns, keys, none⟩
      | none => ⟨false, cns, keys, none⟩
    else ⟨false, cns, keys, none⟩
  else ⟨false, cns, keys, none⟩

/-- `qsmp_duplex_send_asymmetric_ratchet_request` -/
def qsmpDuplexSendAsymmetricRatchetRequest (keypair sign : A.Seed) (slen : ℕ)
    (keys : RatchetKeys P) (cns : QsmpConnectionState) : RatchetResult P :=
  if cns.mode = .duplex then
    let cns := { cns with txseq := cns.txseq + 1 }
    let pkt : QsmpPacket :=
      { flag := QsmpFlags.asymmetricRatchetRequest.toByte
        msglen := UInt32.ofNat P.ratchetRequestMessageSize
        sequence := cns.txseq
        pmessage := Mem.zero }
    let spct := Mem.zero.write 0 (qsmpPacketHeaderSerialize pkt)
    let pair := A.generateKeypair keypair
    let khash := qscSha3Compute256 K.permute pair.1.val
    let signed := A.sign khash.val keys.sigkey sign
    let pmsg := (Mem.zero.write 0 signed).write signed.length pair.1.val
    let txcpr := qscRcsSetAssociated K cns.txcpr (spct.read 0 headerSize)
    let (txcpr, body, _) := qscRcsTransform K txcpr (spct.shift headerSize) pmsg
      (P.ratchetSignedSize + P.publicKeySize)
    let spct := spct.unshift headerSize body
    let mlen := headerSize + signed.length + P.publicKeySize + duplexMactagSize.toNat
    ⟨slen = mlen + socketTerminatorSize, { cns with txcpr },
      { keys with pubkey := pair.1, prikey := pair.2 },
      some (spct.read 0 (mlen + socketTerminatorSize))⟩
  else ⟨false, cns, keys, none⟩

/-- `qsmp_duplex_send_symmetric_ratchet_request`, where the generator
yields the token `rkey` or fails. -/
def qsmpDuplexSendSymmetricRatchetRequest (rkey : Option (Octets rtokSize)) (slen : ℕ)
    (keys : RatchetKeys P) (cns : QsmpConnectionState) : RatchetResult P :=
  if cns.mode = .duplex then
    match rkey with
    | some rkey =>
      let cns := { cns with txseq := cns.txseq + 1 }
      let pkt : QsmpPacket :=
        { flag := QsmpFlags.symmetricRatchetRequest.toByte
          msglen := UInt32.ofNat rtokSize + duplexMactagSize
          sequence := cns.txseq
          pmessage := Mem.zero }
      let txcpr := qscRcsSetAssociated K cns.txcpr (qsmpPacketHeaderSerialize pkt)
      let (txcpr, pmessage, _) :=
        qscRcsTransform K txcpr pkt.pmessage (Mem.zero.write 0 rkey.val) rtokSize
      let cns := { cns with txcpr }
      let (spct, plen) := qsmpPacketToStream P { pkt with pmessage } Mem.zero
      let out := some (spct.read 0 (plen + socketTerminatorSize))
      if slen = plen + socketTerminatorSize then
        ⟨true, symmetricRatchet K P cns rkey.val, keys, out⟩
      else ⟨false, cns, keys, out⟩
    | none => ⟨false, cns, keys, none⟩
  else ⟨false, cns, keys, none⟩

end Qsmp
