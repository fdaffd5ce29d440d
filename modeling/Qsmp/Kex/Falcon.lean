import Qsmp.Kex.Duplex
import Qsmp.Kex.Simplex
import Qsmp.Qsc.Falcon
/-!
# The signed hashes of a Falcon build

The length of a Falcon signature varies, so the step functions that verify
one decode it from the message. They decode it from the start of the
message. There a connect response has its signature; the packets of the
duplex exchange have a cipher-text. And the packets have room for
signatures up to one size, which the encoder can exceed.
-/

namespace Qsmp

/-- A build with Falcon. -/
structure Params.FalconBuild (P : Params) (F : Falcon) : Prop where
  falcon : P.falconSignature = true
  signatureSize : P.signatureSize = F.signatureSize
  cipherText : 2 ≤ P.cipherTextSize

/-- A hash of `n` bytes, signed: whatever the sampler has left, and the
encoder has taken. -/
structure FalconSigned (F : Falcon) (n : ℕ) where
  nonce : Octets falconNonceSize
  hash : Octets n
  sig : List Int16
  coefficients : sig.length = 2 ^ F.logn
  bytes : Bytes
  made : qscFalconRefSign F nonce.val hash.val sig = some bytes

/-- The packets with a signed hash. -/
inductive SignedPacket (P : Params) (F : Falcon) where
  | duplexConnectResponse (signed : FalconSigned F duplexHashSize) (pubk : Octets P.publicKeySize)
  | duplexExchangeRequest (cpt : Octets P.cipherTextSize) (pubk : Octets P.publicKeySize)
      (signed : FalconSigned F duplexHashSize)
  | duplexExchangeResponse (cpt : Octets P.cipherTextSize) (signed : FalconSigned F duplexHashSize)
  | simplexConnectResponse (signed : FalconSigned F simplexHashSize) (pubk : Octets P.publicKeySize)

namespace SignedPacket

variable {P : Params} {F : Falcon}

def hashSize : SignedPacket P F → ℕ
  | simplexConnectResponse _ _ => simplexHashSize
  | _ => duplexHashSize

/-- What stands before the signature. -/
def before : SignedPacket P F → Bytes
  | duplexExchangeRequest cpt pubk _ => cpt.val ++ pubk.val
  | duplexExchangeResponse cpt _ => cpt.val
  | _ => []

/-- The signed message. -/
def signed : SignedPacket P F → Bytes
  | duplexConnectResponse signed _ => signed.bytes
  | duplexExchangeRequest _ _ signed => signed.bytes
  | duplexExchangeResponse _ signed => signed.bytes
  | simplexConnectResponse signed _ => signed.bytes

/-- The length of the signature in it. -/
def siglen : SignedPacket P F → ℕ
  | duplexConnectResponse signed _ => falconSiglen signed.sig
  | duplexExchangeRequest _ _ signed => falconSiglen signed.sig
  | duplexExchangeResponse _ signed => falconSiglen signed.sig
  | simplexConnectResponse signed _ => falconSiglen signed.sig

/-- The KEM key behind it. -/
def behind : SignedPacket P F → Bytes
  | duplexConnectResponse _ pubk => pubk.val
  | simplexConnectResponse _ pubk => pubk.val
  | _ => []

/-- The cipher-text the packet starts with. -/
def cipherText : SignedPacket P F → Option (Octets P.cipherTextSize)
  | duplexExchangeRequest cpt _ _ => some cpt
  | duplexExchangeResponse cpt _ => some cpt
  | _ => none

/-- What the sender puts into the message. -/
def parts (p : SignedPacket P F) : Bytes := p.before ++ p.signed ++ p.behind

/-- `msglen`, as each sender reckons it. -/
def msglen (p : SignedPacket P F) : ℕ :=
  p.before.length + p.hashSize + P.signatureSize + p.behind.length

/-- The message as it is received, over what the message buffer held. -/
def received (p : SignedPacket P F) (rest : Mem) : Mem := rest.write 0 (p.parts.take p.msglen)

/-- **The signature is read right**: the length decoded is that of the
signed message, which is what the verifier is handed, and the KEM key is
read behind it. -/
structure ReadsSigned (p : SignedPacket P F) (rest : Mem) : Prop where
  length : signedLength P p.hashSize (p.received rest) = p.signed.length
  signed : (p.received rest).read p.before.length
    (signedLength P p.hashSize (p.received rest)) = p.signed
  key : (p.received rest).read
    (p.before.length + signedLength P p.hashSize (p.received rest)) p.behind.length = p.behind

/-- **All of it has come**: what `msglen` leaves out lies in the buffer
already. -/
def Whole (p : SignedPacket P F) (rest : Mem) : Prop :=
  rest.read p.msglen (p.parts.length - p.msglen) = p.parts.drop p.msglen

end SignedPacket

/-- Two bytes of a cipher-text that happen to say a length. The length of
the hash and of the nonce is added to the second; from 150 on the sum has
a ninth bit, which is lost where the first is odd. -/
def SaysLength (cpt : Bytes) (siglen : ℕ) : Prop :=
  (cpt.getD 0 0).toNat * 256 + (cpt.getD 1 0).toNat =
    if (cpt.getD 0 0).toNat % 2 = 1 ∧ 150 ≤ (cpt.getD 1 0).toNat then siglen + 256 else siglen

/-! ## The length decoded -/

/-- A disjunction that may lose the ninth bit of the sum. -/
theorem shiftLeft_eight_or {a r : ℕ} (hr : r < 512) :
    a <<< 8 ||| r = if a % 2 = 1 ∧ 256 ≤ r then a * 256 + r - 256 else a * 256 + r := by
  by_cases hsmall : r < 256
  · rw [if_neg (by omega), ← Nat.shiftLeft_add_eq_or_of_lt (show r < 2 ^ 8 from hsmall),
      Nat.shiftLeft_eq]
  · have hhalf : ∀ k : ℕ, k <<< 9 ||| r = k * 512 + r := fun k => by
      rw [← Nat.shiftLeft_add_eq_or_of_lt (show r < 2 ^ 9 from hr), Nat.shiftLeft_eq]
    rcases Nat.even_or_odd' a with ⟨k, rfl | rfl⟩
    · rw [if_neg (by omega), show (2 * k) <<< 8 = k <<< 9 by
        rw [Nat.shiftLeft_eq, Nat.shiftLeft_eq]; omega, hhalf]
      omega
    · -- the ninth bit is there already
      have hninth : (1 <<< 8) ||| r = r := by
        have hsum : r = (1 <<< 8) ||| (r - 256) := by
          rw [← Nat.shiftLeft_add_eq_or_of_lt (show r - 256 < 2 ^ 8 by omega)]
          omega
        rw [hsum, ← Nat.or_assoc, Nat.or_self]
      have hodd : (2 * k + 1) <<< 8 = k <<< 9 ||| (1 <<< 8) := by
        rw [← Nat.shiftLeft_add_eq_or_of_lt (show (1 <<< 8) < 2 ^ 9 by decide), Nat.shiftLeft_eq,
          Nat.shiftLeft_eq]
        omega
      rw [if_pos (by omega), hodd, Nat.or_assoc, hninth, hhalf]
      omega

variable {P : Params} {F : Falcon}

theorem signedLength_falcon (hf : P.falconSignature = true) {hashSize : ℕ} {m : Mem}
    (hhash : hashSize ≤ 64) : signedLength P hashSize m =
      if (m 0).toNat % 2 = 1 ∧ 214 ≤ (m 1).toNat + hashSize then
        (m 0).toNat * 256 + (m 1).toNat + 42 + hashSize - 256
      else (m 0).toNat * 256 + (m 1).toNat + 42 + hashSize := by
  have hbyte := (m 1).toNat_lt
  rw [signedLength, hf, if_pos rfl, shiftLeft_eight_or (by omega)]
  split <;> split <;> omega

/-! ## The signed message in the packet -/

namespace FalconSigned

variable {n : ℕ} (s : FalconSigned F n)

theorem length_bytes : s.bytes.length = 42 + n + falconSiglen s.sig := by
  obtain ⟨esig, hlength, hbytes⟩ := qscFalconRefSign_some s.made
  rw [hbytes, List.length_append, List.length_append, List.length_append, s.nonce.property,
    s.hash.property, hlength]
  rfl

/-- The signature starts with its length. -/
theorem getD_bytes :
    (s.bytes.getD 0 0).toNat * 256 + (s.bytes.getD 1 0).toNat = falconSiglen s.sig := by
  obtain ⟨esig, -, hbytes⟩ := qscFalconRefSign_some s.made
  have hle : falconSiglen s.sig ≤ F.cryptoSignatureBytes - 2 - falconNonceSize :=
    (falconSiglen_bounds s.made s.coefficients).2
  have hmax : F.cryptoSignatureBytes ≤ 1330 := by cases F <;> decide
  rw [hbytes]
  simp only [List.cons_append, List.getD_cons_zero, List.getD_cons_succ, UInt8.toNat_ofNat']
  omega

/-- **No length that is emitted loses the ninth bit.** -/
theorem ninth_bit : ¬ ((s.bytes.getD 0 0).toNat % 2 = 1 ∧ 150 ≤ (s.bytes.getD 1 0).toNat) := by
  have hsiglen := s.getD_bytes
  obtain ⟨hlow, hhigh⟩ := falconSiglen_bounds s.made s.coefficients
  have hbyte := (s.bytes.getD 1 0).toNat_lt
  cases F with
  | s3shake256f512 =>
    -- from 577 to 648: the first byte is two
    simp only [Falcon.logn, Falcon.cryptoSignatureBytes, falconNonceSize] at hlow hhigh
    omega
  | s5shake256f1024 =>
    -- from 1153 to 1288: it is four, or five and the second at most eight
    simp only [Falcon.logn, Falcon.cryptoSignatureBytes, falconNonceSize] at hlow hhigh
    omega

end FalconSigned

/-- Zeros are packed in nine bits each. -/
theorem sum_compBits_zeros : ((List.replicate 512 (0 : Int16)).map compBits).sum = 4608 := by
  rw [List.map_replicate, List.sum_replicate]
  rfl

theorem qscFalconRefSign_zeros (nonce m : Bytes) :
    (qscFalconRefSign .s3shake256f512 nonce m (List.replicate 512 0)).isSome := by
  rw [qscFalconRefSign, Option.isSome_map]
  refine falconCompEncode_isSome ?_ ?_
  · rintro ⟨c, hc, hrange⟩
    rw [List.eq_of_mem_replicate hc] at hrange
    exact absurd hrange (by decide)
  · rw [sum_compBits_zeros]
    decide

/-- The shortest signature, over a hash of zeros. -/
def FalconSigned.zeros : FalconSigned .s3shake256f512 duplexHashSize where
  nonce := Octets.zero _
  hash := Octets.zero _
  sig := List.replicate 512 0
  coefficients := List.length_replicate
  bytes := (qscFalconRefSign .s3shake256f512 _ _ _).get (qscFalconRefSign_zeros _ _)
  made := (Option.some_get _).symm

theorem falconSiglen_zeros : falconSiglen FalconSigned.zeros.sig = 577 := by
  rw [falconSiglen, FalconSigned.zeros, sum_compBits_zeros]

namespace SignedPacket

variable {p : SignedPacket P F} {rest : Mem}

theorem length_signed : p.signed.length = 42 + p.hashSize + p.siglen := by
  cases p with
  | duplexConnectResponse signed pubk => exact signed.length_bytes
  | duplexExchangeRequest cpt pubk signed => exact signed.length_bytes
  | duplexExchangeResponse cpt signed => exact signed.length_bytes
  | simplexConnectResponse signed pubk => exact signed.length_bytes

theorem length_parts :
    p.parts.length = p.before.length + (42 + p.hashSize + p.siglen) + p.behind.length := by
  rw [parts, List.length_append, List.length_append, length_signed]

/-- A signature of the size the build provides for is there whole. -/
theorem whole_of_le (h : 42 + p.siglen ≤ P.signatureSize) : p.Whole rest := by
  have hle : p.parts.length ≤ p.msglen := by
    rw [length_parts, msglen]
    omega
  rw [Whole, Nat.sub_eq_zero_of_le hle, List.drop_eq_nil_of_le hle, Mem.read_zero_len]

/-- What is received reads as what was sent exactly if it is there whole. -/
theorem read_received_iff : (p.received rest).read 0 p.parts.length = p.parts ↔ p.Whole rest := by
  rcases Nat.le_total p.parts.length p.msglen with hle | hge
  · refine iff_of_true ?_ ?_
    · rw [received, List.take_of_length_le hle]
      exact Mem.read_write_self
    · rw [Whole, Nat.sub_eq_zero_of_le hle, List.drop_eq_nil_of_le hle, Mem.read_zero_len]
  · have htake : (p.parts.take p.msglen).length = p.msglen := List.length_take_of_le hge
    have hread : (p.received rest).read 0 p.parts.length =
        p.parts.take p.msglen ++ rest.read p.msglen (p.parts.length - p.msglen) := by
      rw [show p.parts.length = p.msglen + (p.parts.length - p.msglen) by omega, Mem.read_add,
        received, Mem.read_write_of_length htake, Nat.zero_add,
        Mem.read_write_above (by omega)]
      simp only [Nat.add_sub_cancel_left]
    rw [hread, Whole]
    constructor
    · intro h
      exact List.append_cancel_left (h.trans (List.take_append_drop p.msglen p.parts).symm)
    · intro h
      rw [h, List.take_append_drop]

/-- What stands before the signature is always received. -/
theorem read_received_before : (p.received rest).read 0 p.before.length = p.before := by
  have hle : p.before.length ≤ (p.parts.take p.msglen).length := by
    rw [List.length_take, length_parts, msglen]
    omega
  rw [received, Mem.read_write_start hle, List.take_take, Nat.min_eq_left (by rw [msglen]; omega),
    parts, List.append_assoc, List.take_left' rfl]

theorem hashSize_bounds : 32 ≤ p.hashSize ∧ p.hashSize ≤ 64 := by
  cases p <;> simp [hashSize, duplexHashSize, simplexHashSize]

/-- The first two bytes are always received. -/
theorem received_apply {i : ℕ} (hi : i < 2) : (p.received rest) i = p.parts.getD i 0 := by
  have hhash := p.hashSize_bounds
  have hlt : i < (p.parts.take p.msglen).length := by
    rw [List.length_take, length_parts, msglen]
    omega
  have hbyte : (p.received rest) (0 + i) = (p.parts.take p.msglen)[i] := Mem.write_add hlt
  rw [Nat.zero_add] at hbyte
  rw [hbyte, List.getElem_take, List.getD_eq_getElem]

/-- The length decoded, from the first two bytes sent. -/
theorem signedLength_received (hP : P.FalconBuild F) :
    signedLength P p.hashSize (p.received rest) =
      if (p.parts.getD 0 0).toNat % 2 = 1 ∧ 214 ≤ (p.parts.getD 1 0).toNat + p.hashSize then
        (p.parts.getD 0 0).toNat * 256 + (p.parts.getD 1 0).toNat + 42 + p.hashSize - 256
      else (p.parts.getD 0 0).toNat * 256 + (p.parts.getD 1 0).toNat + 42 + p.hashSize := by
  rw [signedLength_falcon hP.falcon p.hashSize_bounds.2, received_apply (by decide),
    received_apply (by decide)]

/-- A packet that starts with the signature starts with its length. -/
theorem signedLength_received_first (hP : P.FalconBuild F) {n : ℕ} {s : FalconSigned F n}
    {key : Bytes} (hparts : p.parts = s.bytes ++ key) (hsiglen : p.siglen = falconSiglen s.sig) :
    signedLength P p.hashSize (p.received rest) = p.signed.length := by
  have hlength := s.length_bytes
  have hbyte : ∀ i < 2, p.parts.getD i 0 = s.bytes.getD i 0 := fun i hi => by
    rw [hparts, List.getD_append _ _ _ _ (by omega)]
  have hhash := p.hashSize_bounds
  have hninth := s.ninth_bit
  have hstored := s.getD_bytes
  rw [signedLength_received hP, hbyte 0 (by decide), hbyte 1 (by decide), length_signed, hsiglen]
  rw [← hstored, if_neg fun hcarry => hninth ⟨hcarry.1, by omega⟩, Nat.add_assoc _ 42,
    Nat.add_comm]

/-- A packet that starts with a cipher-text starts with two bytes of it. -/
theorem signedLength_received_cipherText (hP : P.FalconBuild F) {cpt : Octets P.cipherTextSize}
    {tail : Bytes} (hparts : p.parts = cpt.val ++ tail) (hhash : p.hashSize = 64) :
    signedLength P p.hashSize (p.received rest) = p.signed.length ↔
      SaysLength cpt.val p.siglen := by
  have hlength := cpt.property
  have hcpt := hP.cipherText
  have hbyte : ∀ i < 2, p.parts.getD i 0 = cpt.val.getD i 0 := fun i hi => by
    rw [hparts, List.getD_append _ _ _ _ (by omega)]
  rw [signedLength_received hP, hbyte 0 (by decide), hbyte 1 (by decide), length_signed, hhash,
    SaysLength]
  split <;> split <;> omega

/-- **The length decoded** is that of the signed message exactly if the
cipher-text before it, where there is one, happens to say so. -/
theorem signedLength_received_iff (hP : P.FalconBuild F) :
    signedLength P p.hashSize (p.received rest) = p.signed.length ↔
      ∀ cpt, p.cipherText = some cpt → SaysLength cpt.val p.siglen := by
  cases p with
  | duplexConnectResponse signed pubk =>
    exact iff_of_true (signedLength_received_first hP rfl rfl) fun cpt h => by
      simp [cipherText] at h
  | simplexConnectResponse signed pubk =>
    exact iff_of_true (signedLength_received_first hP rfl rfl) fun cpt h => by
      simp [cipherText] at h
  | duplexExchangeRequest cpt pubk signed =>
    have hparts : (duplexExchangeRequest cpt pubk signed).parts =
        cpt.val ++ (pubk.val ++ signed.bytes ++ []) := by
      rw [parts, before, List.append_assoc, List.append_assoc, List.append_assoc]
      rfl
    rw [signedLength_received_cipherText hP hparts rfl]
    simp [cipherText]
  | duplexExchangeResponse cpt signed =>
    have hparts : (duplexExchangeResponse cpt signed).parts = cpt.val ++ (signed.bytes ++ []) := by
      rw [parts, before, List.append_assoc]
      rfl
    rw [signedLength_received_cipherText hP hparts rfl]
    simp [cipherText]

/-- **Signatures are read right** exactly in the packets that have come
whole and start with the signature, or with a cipher-text that happens to
say its length. -/
theorem readsSigned_iff (hP : P.FalconBuild F) (p : SignedPacket P F) (rest : Mem) :
    p.ReadsSigned rest ↔
      (∀ cpt, p.cipherText = some cpt → SaysLength cpt.val p.siglen) ∧ p.Whole rest := by
  have hdecoded : signedLength P p.hashSize (p.received rest) = p.signed.length ↔
      ∀ cpt, p.cipherText = some cpt → SaysLength cpt.val p.siglen := signedLength_received_iff hP
  rw [← hdecoded, ← read_received_iff]
  constructor
  · rintro ⟨hlength, hsigned, hkey⟩
    refine ⟨hlength, ?_⟩
    rw [hlength] at hsigned hkey
    rw [parts, List.length_append, List.length_append, Mem.read_add, Mem.read_add, Nat.zero_add,
      Nat.zero_add, read_received_before, hsigned, hkey]
  · rintro ⟨hlength, hread⟩
    refine ⟨hlength, ?_, ?_⟩
    · rw [hlength]
      exact Mem.read_middle (hread.trans (List.append_assoc _ _ _)) rfl rfl
    · rw [hlength]
      have hall : (p.received rest).read 0 p.parts.length =
          p.before ++ p.signed ++ (p.behind ++ []) := by
        rw [hread, List.append_nil, parts]
      exact Mem.read_middle hall List.length_append rfl

theorem falconKyber_build : Params.falconKyber.FalconBuild .s3shake256f512 :=
  ⟨rfl, rfl, by decide⟩

/-- A connect response with the shortest signature is read right. -/
theorem readsSigned_iff_zeros :
    (duplexConnectResponse (P := .falconKyber) .zeros (Octets.zero _)).ReadsSigned Mem.zero := by
  rw [readsSigned_iff falconKyber_build]
  refine ⟨fun cpt h => by simp [cipherText] at h, whole_of_le ?_⟩
  rw [siglen, falconSiglen_zeros]
  decide

/-- The same signature behind a cipher-text of zeros is not: the length
decoded is that of the hash and the nonce alone. -/
theorem not_readsSigned_zeros :
    ¬ (duplexExchangeResponse (P := .falconKyber) (Octets.zero _) .zeros).ReadsSigned Mem.zero := by
  intro h
  have hsays := (signedLength_received_iff falconKyber_build).1 h.length _ rfl
  rw [SaysLength, siglen, falconSiglen_zeros] at hsays
  exact absurd hsays (by decide +kernel)

end SignedPacket

/-! ## Whence the packets come, and where they go -/

/-- A packet made by a step: the parts in its message, and the length of
the fixed size. -/
structure SendsSigned (packet : QsmpPacket) (p : SignedPacket P F) : Prop where
  message : packet.pmessage.read 0 p.parts.length = p.parts
  msglen : packet.msglen.toNat = p.msglen

section Steps

variable {K : Primitives} {A : Asymmetric P} {tm : UInt64} {encap keypair sign : A.Seed}
variable {cns : QsmpConnectionState} {packetin packetout : QsmpPacket} {rest : Mem}
variable {signed : FalconSigned F duplexHashSize} {p : SignedPacket P F}

/-- The packets fit the largest message. -/
theorem SignedPacket.msglen_le : p.msglen ≤ P.messageMax := by
  cases p with
  | duplexConnectResponse signed pubk =>
    simp only [msglen, before, hashSize, behind, List.length_nil, pubk.property,
      Params.messageMax]
    omega
  | duplexExchangeRequest cpt pubk signed =>
    simp only [msglen, before, hashSize, behind, List.length_append, List.length_nil,
      pubk.property, cpt.property, Params.messageMax]
    omega
  | duplexExchangeResponse cpt signed =>
    simp only [msglen, before, hashSize, behind, List.length_nil, cpt.property,
      Params.messageMax]
    omega
  | simplexConnectResponse signed pubk =>
    simp only [msglen, before, hashSize, behind, List.length_nil, pubk.property,
      Params.messageMax, simplexHashSize, duplexHashSize]
    omega

/-- The parts in one store. -/
theorem SendsSigned.of_write {flag : UInt8} {sequence : UInt64} {m : Mem} {n : ℕ} {bs : Bytes}
    (hbs : bs = p.parts) (hn : n = p.msglen) :
    SendsSigned ⟨flag, .ofNat n, sequence, m.write 0 bs⟩ p where
  message := by
    rw [hbs]
    exact Mem.read_write_self
  msglen := by
    have hmax := P.messageMax_lt
    have hle : p.msglen ≤ P.messageMax := SignedPacket.msglen_le
    rw [hn, UInt32.toNat_ofNat_of_lt' (by simp only [UInt32.size]; omega)]

theorem kexDuplexServerConnectResponse_sends {kss : QsmpKexDuplexServerState P}
    {r : StepResult (QsmpKexDuplexServerState P)}
    (hr : r = kexDuplexServerConnectResponse K A tm keypair sign kss cns packetin packetout)
    (h : r.qerr = .none)
    (hsign : A.sign (qscSha3Compute512 K.permute (A.generateKeypair keypair).1.val).val kss.sigkey
      sign = signed.bytes) :
    SendsSigned r.packetout (.duplexConnectResponse signed (A.generateKeypair keypair).1) := by
  have hpubk := (A.generateKeypair keypair).1.property
  simp only [kexDuplexServerConnectResponse] at hr
  split at hr
  · split at hr
    · split at hr
      · split at hr
        · subst hr
          dsimp only
          rw [hsign, Mem.write_behind rfl]
          refine .of_write rfl ?_
          simp only [SignedPacket.msglen, SignedPacket.before, SignedPacket.hashSize,
            SignedPacket.behind, List.length_nil, hpubk]
          omega
        · exact absurd h (by simp [hr, StepResult.fail])
      · exact absurd h (by simp [hr, StepResult.fail])
    · exact absurd h (by simp [hr, StepResult.fail])
  · exact absurd h (by simp [hr, StepResult.fail])

theorem kexSimplexServerConnectResponse_sends {kss : QsmpKexSimplexServerState P}
    {signed : FalconSigned F simplexHashSize} {r : StepResult (QsmpKexSimplexServerState P)}
    (hr : r = kexSimplexServerConnectResponse K A tm keypair sign kss cns packetin packetout)
    (h : r.qerr = .none)
    (hsign : A.sign (qscSha3Compute256 K.permute (A.generateKeypair keypair).1.val).val kss.sigkey
      sign = signed.bytes) :
    SendsSigned r.packetout (.simplexConnectResponse signed (A.generateKeypair keypair).1) := by
  have hpubk := (A.generateKeypair keypair).1.property
  simp only [kexSimplexServerConnectResponse] at hr
  split at hr
  · split at hr
    · split at hr
      · split at hr
        · subst hr
          dsimp only
          rw [hsign, Mem.write_behind rfl]
          refine .of_write rfl ?_
          simp only [SignedPacket.msglen, SignedPacket.before, SignedPacket.hashSize,
            SignedPacket.behind, List.length_nil, hpubk]
          omega
        · exact absurd h (by simp [hr, StepResult.fail])
      · exact absurd h (by simp [hr, StepResult.fail])
    · exact absurd h (by simp [hr, StepResult.fail])
  · exact absurd h (by simp [hr, StepResult.fail])

/-- The client signs what it has put into the message. -/
theorem kexDuplexClientExchangeRequest_sends {kcs : QsmpKexDuplexClientState P}
    {r : StepResult (QsmpKexDuplexClientState P)}
    (hr : r = kexDuplexClientExchangeRequest K A encap keypair sign kcs cns packetin packetout)
    (h : r.qerr = .none) {pubk : Octets P.publicKeySize}
    (hpubk : pubk = packetin.pmessage.octets
      (signedLength P duplexHashSize packetin.pmessage) P.publicKeySize)
    (hsign : A.sign (qscSha3Compute512 K.permute
      ((A.encapsulate pubk encap).2.val ++ (A.generateKeypair keypair).1.val)).val kcs.sigkey
      sign = signed.bytes) :
    SendsSigned r.packetout (.duplexExchangeRequest (A.encapsulate pubk encap).2
      (A.generateKeypair keypair).1 signed) := by
  have hkey := (A.generateKeypair keypair).1.property
  have hcpt := (A.encapsulate pubk encap).2.property
  have hlength : ((A.encapsulate pubk encap).2.val ++ (A.generateKeypair keypair).1.val).length =
      P.cipherTextSize + P.publicKeySize := by rw [List.length_append, hcpt, hkey]
  simp only [kexDuplexClientExchangeRequest, ← hpubk] at hr
  split at hr
  · split at hr
    · split at hr
      · subst hr
        dsimp only
        rw [Mem.write_behind hcpt, Mem.read_write_of_length hlength, hsign,
          Mem.write_behind hlength, ← List.append_nil (_ ++ signed.bytes)]
        refine .of_write rfl ?_
        rw [SignedPacket.msglen, SignedPacket.before, hlength]
        rfl
      · exact absurd h (by simp [hr, StepResult.fail])
    · exact absurd h (by simp [hr, StepResult.fail])
  · exact absurd h (by simp [hr, StepResult.fail])

theorem kexDuplexServerExchangeResponse_sends {kss : QsmpKexDuplexServerState P}
    {r : StepResult (QsmpKexDuplexServerState P)}
    (hr : r = kexDuplexServerExchangeResponse K A encap sign kss cns packetin packetout)
    (h : r.qerr = .none) {cpt : Octets P.cipherTextSize}
    (hcpt : cpt = (A.encapsulate
      (packetin.pmessage.octets P.cipherTextSize P.publicKeySize) encap).2)
    (hsign : A.sign (qscSha3Compute512 K.permute cpt.val).val kss.sigkey sign = signed.bytes) :
    SendsSigned r.packetout (.duplexExchangeResponse cpt signed) := by
  have hlength := cpt.property
  simp only [kexDuplexServerExchangeResponse, ← hcpt] at hr
  split at hr
  · split at hr
    · split at hr
      · split at hr
        · subst hr
          dsimp only
          rw [Mem.read_write_of_length hlength, hsign, Mem.write_behind hlength,
            ← List.append_nil (_ ++ signed.bytes)]
          refine .of_write rfl ?_
          rw [SignedPacket.msglen, SignedPacket.before, hlength]
          rfl
        · exact absurd h (by simp [hr, StepResult.fail])
      · exact absurd h (by simp [hr, StepResult.fail])
    · exact absurd h (by simp [hr, StepResult.fail])
  · exact absurd h (by simp [hr, StepResult.fail])

/-! ## What is read right is authenticated

A step that has read a packet right rejects it as forged exactly if the
verifier rejects the message that was signed. -/

theorem kexDuplexClientExchangeRequest_authenticates {kcs : QsmpKexDuplexClientState P}
    {pubk : Octets P.publicKeySize} (hpos : cns.exflag = .connectRequest)
    (hflag : packetin.flag = QsmpFlags.connectResponse.toByte)
    (hmessage : packetin.pmessage = (SignedPacket.duplexConnectResponse signed pubk).received rest)
    (hreads : (SignedPacket.duplexConnectResponse signed pubk).ReadsSigned rest) :
    (kexDuplexClientExchangeRequest K A encap keypair sign kcs cns packetin packetout).qerr =
        .authenticationFailure ↔
      A.verify signed.bytes kcs.rverkey = none := by
  have hread : packetin.pmessage.read 0 (signedLength P duplexHashSize packetin.pmessage) =
      signed.bytes := by
    rw [hmessage]
    exact hreads.signed
  simp only [kexDuplexClientExchangeRequest, if_pos (And.intro hpos hflag), hread]
  cases A.verify signed.bytes kcs.rverkey with
  | none => simp [StepResult.fail]
  | some message =>
    dsimp only
    split <;> simp [StepResult.fail]

theorem kexDuplexServerExchangeResponse_authenticates {kss : QsmpKexDuplexServerState P}
    {cpt : Octets P.cipherTextSize} {pubk : Octets P.publicKeySize}
    (hpos : cns.exflag = .connectResponse)
    (hflag : packetin.flag = QsmpFlags.exchangeRequest.toByte)
    (hmessage : packetin.pmessage =
      (SignedPacket.duplexExchangeRequest cpt pubk signed).received rest)
    (hreads : (SignedPacket.duplexExchangeRequest cpt pubk signed).ReadsSigned rest) :
    (kexDuplexServerExchangeResponse K A encap sign kss cns packetin packetout).qerr =
        .authenticationFailure ↔
      A.verify signed.bytes kss.rverkey = none := by
  have hlength : (cpt.val ++ pubk.val).length = P.cipherTextSize + P.publicKeySize := by
    rw [List.length_append, cpt.property, pubk.property]
  have hread : packetin.pmessage.read (P.cipherTextSize + P.publicKeySize)
      (signedLength P duplexHashSize packetin.pmessage) = signed.bytes := by
    rw [hmessage, ← hlength]
    exact hreads.signed
  simp only [kexDuplexServerExchangeResponse, if_pos (And.intro hpos hflag), hread]
  cases A.verify signed.bytes kss.rverkey with
  | none => simp [StepResult.fail]
  | some message =>
    dsimp only
    split
    · split <;> simp [StepResult.fail]
    · simp [StepResult.fail]

theorem kexDuplexClientEstablishRequest_authenticates {kcs : QsmpKexDuplexClientState P}
    {cpt : Octets P.cipherTextSize} (hpos : cns.exflag = .exchangeRequest)
    (hflag : packetin.flag = QsmpFlags.exchangeResponse.toByte)
    (hmessage : packetin.pmessage = (SignedPacket.duplexExchangeResponse cpt signed).received rest)
    (hreads : (SignedPacket.duplexExchangeResponse cpt signed).ReadsSigned rest) :
    (kexDuplexClientEstablishRequest K A kcs cns packetin packetout).qerr =
        .authenticationFailure ↔
      A.verify signed.bytes kcs.rverkey = none := by
  have hread : packetin.pmessage.read P.cipherTextSize
      (signedLength P duplexHashSize packetin.pmessage) = signed.bytes := by
    rw [hmessage, ← cpt.property]
    exact hreads.signed
  simp only [kexDuplexClientEstablishRequest, if_pos (And.intro hpos hflag), hread]
  cases A.verify signed.bytes kcs.rverkey with
  | none => simp [StepResult.fail]
  | some message =>
    dsimp only
    split
    · split <;> simp [StepResult.fail]
    · simp [StepResult.fail]

theorem kexSimplexClientExchangeRequest_authenticates {kcs : QsmpKexSimplexClientState P}
    {signed : FalconSigned F simplexHashSize} {pubk : Octets P.publicKeySize}
    (hpos : cns.exflag = .connectRequest)
    (hflag : packetin.flag = QsmpFlags.connectResponse.toByte)
    (hmessage : packetin.pmessage =
      (SignedPacket.simplexConnectResponse signed pubk).received rest)
    (hreads : (SignedPacket.simplexConnectResponse signed pubk).ReadsSigned rest) :
    (kexSimplexClientExchangeRequest K A encap kcs cns packetin packetout).qerr =
        .authenticationFailure ↔
      A.verify signed.bytes kcs.verkey = none := by
  have hread : packetin.pmessage.read 0 (signedLength P simplexHashSize packetin.pmessage) =
      signed.bytes := by
    rw [hmessage]
    exact hreads.signed
  simp only [kexSimplexClientExchangeRequest, if_pos (And.intro hpos hflag), hread]
  cases A.verify signed.bytes kcs.verkey with
  | none => simp [StepResult.fail]
  | some message =>
    dsimp only
    split <;> simp [StepResult.fail]

end Steps

end Qsmp
