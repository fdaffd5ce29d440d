import Qsmp.Channel.Correctness
import Qsmp.Channel.Sealing
import Qsmp.Kex.Messages
import Qsmp.Ratchet.Handlers
/-!
# What the ratchets send, and what they do with it

Each function that sends puts one letter on the wire and each handler opens
one, if its sender's cipher mirrors the receiver's and the sequence numbers
meet. One equation a function says what it leaves of both.
-/

namespace Qsmp

variable {P : Params} {K : Primitives} {A : Asymmetric P}

/-! ## The letters -/

/-- A message of the channel. -/
def messageLetter (cns : QsmpConnectionState) (m : Bytes) : Letter :=
  ⟨.encryptedMessage, cns.txseq + 1, m, cns.maclen⟩

/-- The token of a symmetric ratchet. -/
def tokenLetter (cns : QsmpConnectionState) (rkey : Octets rtokSize) : Letter :=
  ⟨.symmetricRatchetRequest, cns.txseq + 1, rkey.val, duplexMactagSize⟩

/-- The public key of an asymmetric ratchet, behind its signed hash. -/
def requestLetter (K : Primitives) (A : Asymmetric P) (sigkey : Octets P.signingKeySize)
    (pubkey : Octets P.publicKeySize) (sign : A.Seed) (cns : QsmpConnectionState) : Letter :=
  ⟨.asymmetricRatchetRequest, cns.txseq + 1,
    signed256 K A pubkey.val sigkey sign ++ pubkey.val, duplexMactagSize⟩

/-- The cipher-text that answers it. -/
def responseLetter (K : Primitives) (A : Asymmetric P) (sigkey : Octets P.signingKeySize)
    (cpt : Octets P.cipherTextSize) (sign : A.Seed) (cns : QsmpConnectionState) : Letter :=
  ⟨.asymmetricRatchetResponse, cns.txseq + 1,
    signed256 K A cpt.val sigkey sign ++ cpt.val, duplexMactagSize⟩

namespace QsmpConnectionState

/-- The connection after it has sent a letter. -/
def posted (K : Primitives) (cns : QsmpConnectionState) (l : Letter) : QsmpConnectionState :=
  { cns with txseq := cns.txseq + 1, txcpr := l.next K cns.txcpr }

/-- The connection after it has opened a letter sealed by the cipher
`tx`. -/
def opened (K : Primitives) (cns : QsmpConnectionState) (tx : RcsState) (l : Letter) :
    QsmpConnectionState :=
  { cns with rxseq := cns.rxseq + 1, rxcpr := { l.next K tx with encrypt := false } }

/-- What is sent does not change the tag size. -/
theorem posted_maclen {cns : QsmpConnectionState} {l : Letter} :
    (cns.posted K l).maclen = cns.maclen := by
  have hctype : (cns.posted K l).txcpr.ctype = cns.txcpr.ctype := Letter.next_ctype
  rw [maclen, maclen, hctype]

end QsmpConnectionState

variable {cns : QsmpConnectionState} {keys : RatchetKeys P} {tx : RcsState} {bytes : Bytes}

/-! ## Messages -/

/-- A message encrypted, serialised and handed to the socket: the code, the
connection and the bytes. -/
def sendMessage (P : Params) (K : Primitives) (packetout : QsmpPacket) (stream : Mem)
    (cns : QsmpConnectionState) (m : Bytes) : QsmpErrors × QsmpConnectionState × Bytes :=
  let enc := qsmpEncryptPacket P K cns packetout m
  let sent := qsmpPacketToStream P enc.2.2 stream
  (enc.1, enc.2.1, sent.1.read 0 (sent.2 + socketTerminatorSize))

theorem sendMessage_posts (he : cns.exflag = .sessionEstablished) (htx : cns.txcpr.encrypt = true)
    {m : Bytes} (hm : m ≠ []) (hfit : m.length + cns.txcpr.ctype.macSize ≤ P.messageMax)
    (packetout : QsmpPacket) (stream : Mem) :
    (sendMessage P K packetout stream cns m).1 = .none ∧
      (sendMessage P K packetout stream cns m).2.1 = cns.posted K (messageLetter cns m) ∧
      (messageLetter cns m).On K cns.txcpr (sendMessage P K packetout stream cns m).2.2 := by
  obtain ⟨out, hout⟩ : ∃ out, packetout.pmessage.clear 0 P.messageMax = out := ⟨_, rfl⟩
  have hbody : encryptBody K cns (encryptHeader P cns packetout m) m =
      ((messageLetter cns m).next K cns.txcpr,
        out.write 0 (((messageLetter cns m).bound K cns.txcpr).sealed K m), true) := by
    rw [← hout]
    exact encryptBody_seals htx _
  have hlen : (UInt32.ofNat m.length + cns.maclen).toNat = m.length + cns.txcpr.ctype.macSize :=
    msglen_toNat_of_fits hfit
  simp only [sendMessage, qsmpEncryptPacket_eq he hm, hbody]
  exact ⟨trivial, rfl, Letter.on_stream stream hlen.ge (hlen.trans_le hfit)
    (Mem.read_write_of_length Letter.length_sealed_bound)⟩

theorem qsmpDecryptPacket_opens {l : Letter} (h : l.On K tx bytes)
    (he : cns.exflag = .sessionEstablished) (hm : RcsMirrors tx cns.rxcpr)
    (hseq : l.sequence = cns.rxseq + 1) (htag : l.taglen = cns.maclen)
    (hlen : l.plain.length < 2 ^ 32) (buff message : Mem) :
    qsmpDecryptPacket K cns message (delivered buff bytes) =
      (.none, cns.opened K tx l, message.write 0 l.plain, l.plain.length) := by
  have hcount : ((delivered buff bytes).msglen - cns.maclen).toNat = l.plain.length := by
    rw [h.msglen, htag, UInt32.add_sub_cancel, UInt32.toNat_ofNat_of_lt' hlen]
  rw [qsmpDecryptPacket, if_pos ((h.sequence buff).trans hseq)]
  dsimp only
  rw [if_pos he]
  have hopens := h.opens hm buff message
  rw [← hcount] at hopens
  have hmaclen : QsmpConnectionState.maclen { cns with rxseq := cns.rxseq + 1 } = cns.maclen := rfl
  rw [hmaclen, hopens, hcount]
  rfl

/-! ## The symmetric ratchet -/

/-- The handlers take off the tag that the header counts. -/
theorem ratchetLength_delivered {l : Letter} (h : l.On K tx bytes)
    (htag : l.taglen = duplexMactagSize) (hlen : l.plain.length + 64 < 2 ^ 32) (buff : Mem) :
    ratchetLength (delivered buff bytes) = l.plain.length := by
  have hsum : (UInt32.ofNat l.plain.length + duplexMactagSize).toUInt64.toNat
      = l.plain.length + 64 := by
    rw [UInt32.toNat_toUInt64, UInt32.toNat_add, UInt32.toNat_ofNat_of_lt'
      (Nat.lt_of_le_of_lt (Nat.le_add_right _ 64) hlen)]
    exact Nat.mod_eq_of_lt hlen
  have htagNat : duplexMactagSize.toUInt64.toNat = 64 := rfl
  rw [ratchetLength, h.msglen, htag, UInt64.toNat_sub_of_le, hsum, htagNat, Nat.add_sub_cancel]
  rw [UInt64.le_iff_toNat_le, hsum, htagNat]
  exact Nat.le_add_left _ _

/-- The tag of any cipher has room in what the ratchets count for it. -/
theorem macSize_le_duplexMactagSize (t : RcsCipherType) :
    t.macSize ≤ duplexMactagSize.toNat := by
  cases t <;> decide

variable (keys)

/-- **A token is sent** whole, and the sender is keyed anew at once. -/
theorem sendSymmetricRatchetRequest_posts (hmode : cns.mode = .duplex)
    (htx : cns.txcpr.encrypt = true) (hmax : rtokSize + duplexMactagSize.toNat ≤ P.messageMax)
    (rkey : Octets rtokSize) {slen : ℕ}
    (hslen : slen = headerSize + rtokSize + duplexMactagSize.toNat + socketTerminatorSize) :
    ∃ out, qsmpDuplexSendSymmetricRatchetRequest K (some rkey) slen keys cns =
        ⟨true, symmetricRatchet K P (cns.posted K (tokenLetter cns rkey)) rkey.val, keys,
          some out⟩ ∧
      (tokenLetter cns rkey).On K cns.txcpr out := by
  have hmsglen : (UInt32.ofNat rtokSize + duplexMactagSize).toNat
      = rtokSize + duplexMactagSize.toNat := rfl
  have hheader : (tokenLetter cns rkey).header = ⟨QsmpFlags.symmetricRatchetRequest.toByte,
      UInt32.ofNat rtokSize + duplexMactagSize, cns.txseq + 1, Mem.zero⟩ := by
    simp only [Letter.header, tokenLetter, rkey.property]
  obtain ⟨pmessage, hpmessage⟩ : ∃ pmessage, Mem.zero.write 0
      (((tokenLetter cns rkey).bound K cns.txcpr).sealed K rkey.val) = pmessage := ⟨_, rfl⟩
  have hseal : qscRcsTransform K ((tokenLetter cns rkey).bound K cns.txcpr) Mem.zero
      (Mem.zero.write 0 rkey.val) rtokSize =
      ((tokenLetter cns rkey).next K cns.txcpr, pmessage, true) := by
    rw [← hpmessage]
    exact RcsState.transform_seals (qscRcsSetAssociated_encrypt.trans htx)
      (Mem.read_write_of_length rkey.property)
  have htag := macSize_le_duplexMactagSize cns.txcpr.ctype
  have hread : pmessage.read 0 ((tokenLetter cns rkey).plain.length + cns.txcpr.ctype.macSize)
      = ((tokenLetter cns rkey).bound K cns.txcpr).sealed K (tokenLetter cns rkey).plain := by
    rw [← hpmessage]
    exact Mem.read_write_of_length Letter.length_sealed_bound
  have hon := Letter.on_stream (P := P) Mem.zero
    (by rw [hheader]; simp only [hmsglen, tokenLetter, rkey.property]; omega)
    (by rw [hheader]; exact hmax) hread
  rw [Letter.bound, hheader] at hseal
  rw [hheader] at hon
  refine ⟨_, ?_, hon⟩
  simp only [qsmpDuplexSendSymmetricRatchetRequest, if_pos hmode, hseal]
  -- The socket takes the whole of it.
  rw [if_pos]
  · rfl
  · rw [qsmpPacketToStream_of_le (by exact hmax), hslen, Nat.add_assoc headerSize]
    rfl

/-- **The token is taken**: the receiver is keyed anew by it. -/
theorem symmetricRatchetResponse_opens {l : Letter} {rkey : Octets rtokSize} (h : l.On K tx bytes)
    (hm : RcsMirrors tx cns.rxcpr) (hseq : l.sequence = cns.rxseq + 1)
    (hplain : l.plain = rkey.val) (htag : l.taglen = duplexMactagSize) (buff : Mem) :
    symmetricRatchetResponse K keys cns (delivered buff bytes) =
      ⟨true, symmetricRatchet K P (cns.opened K tx l) rkey.val, keys, none⟩ := by
  have hsize : l.plain.length = rtokSize := by rw [hplain, rkey.property]
  have hlength : ratchetLength (delivered buff bytes) = l.plain.length :=
    ratchetLength_delivered h htag (by rw [hsize]; decide) buff
  have hread : (Mem.zero.write 0 l.plain).read 0 rtokSize = rkey.val := by
    rw [hplain]
    exact Mem.read_write_of_length rkey.property
  rw [symmetricRatchetResponse]
  dsimp only
  rw [if_pos ((h.sequence buff).trans hseq), hlength, h.opens hm buff Mem.zero]
  dsimp only
  rw [if_pos rfl, hread]
  rfl

/-! ## The asymmetric ratchet -/

section Asymmetric

variable {sigkey : Octets P.signingKeySize} {verkey : Octets P.verifyKeySize} {slen : ℕ}

/-- The comparison the handlers make of a signed hash with their own. -/
theorem verify_signedHash {hashed : Bytes} :
    qscIntutilsVerify (signedHash simplexHashSize (qscSha3Compute256 K.permute hashed).val)
      (qscSha3Compute256 K.permute hashed).val = 0 := by
  rw [signedHash_of_length (n := simplexHashSize) (qscSha3Compute256 K.permute hashed).property]
  exact (qscIntutilsVerify_eq_zero rfl).2 rfl

/-- The length in the header of a signed hash and what it signs. -/
theorem msglen_signed {n : ℕ} : UInt32.ofNat (P.ratchetSignedSize + n) + duplexMactagSize =
    UInt32.ofNat (n + P.signatureSize + simplexHashSize + duplexMactagSize.toNat) := by
  rw [UInt32.ofNat_add _ duplexMactagSize.toNat, UInt32.ofNat_toNat, Params.ratchetSignedSize]
  congr 2
  omega

/-- The signed hash and what it signs, as the handlers read them. -/
theorem read_signed {x : Bytes} {n : ℕ} {y : Octets n} (hx : x.length = P.ratchetSignedSize) :
    (Mem.zero.write 0 (x ++ y.val)).read 0 P.ratchetSignedSize = x ∧
      (Mem.zero.write 0 (x ++ y.val)).octets P.ratchetSignedSize n = y := by
  have hall : (Mem.zero.write 0 (x ++ y.val)).read 0 (P.ratchetSignedSize + n) = x ++ y.val :=
    Mem.read_write_of_length (by rw [List.length_append, hx, y.property])
  rw [Mem.read_add, Nat.zero_add] at hall
  obtain ⟨hleft, hright⟩ := List.append_inj hall (by rw [Mem.length_read, hx])
  exact ⟨hleft, Subtype.ext hright⟩

/-- **A request is sent**, whatever the size of its signed hash: the array
is sealed whole, and as much is sent as the signed hash counts. That is all
of it if the hash falls short of its size by no more than the room behind
the tag. -/
theorem sendAsymmetricRatchetRequest_seals (hmode : cns.mode = .duplex)
    (htx : cns.txcpr.encrypt = true) (keypair sign : A.Seed) {signed : Bytes} {l : Letter}
    (hsigned : signed256 K A (A.generateKeypair keypair).1.val keys.sigkey sign = signed)
    (hl : l = ⟨.asymmetricRatchetRequest, cns.txseq + 1, (Mem.zero.write 0
      (signed ++ (A.generateKeypair keypair).1.val)).read 0 (P.ratchetSignedSize + P.publicKeySize),
      duplexMactagSize⟩)
    (hshort : P.ratchetSignedSize + cns.txcpr.ctype.macSize
      ≤ signed.length + duplexMactagSize.toNat + socketTerminatorSize)
    (hslen : slen = headerSize + signed.length + P.publicKeySize + duplexMactagSize.toNat
      + socketTerminatorSize) :
    ∃ out, qsmpDuplexSendAsymmetricRatchetRequest K A keypair sign slen keys cns =
        ⟨true, cns.posted K l, { keys with
          pubkey := (A.generateKeypair keypair).1
          prikey := (A.generateKeypair keypair).2 }, some out⟩ ∧
      l.On K cns.txcpr out := by
  obtain ⟨⟨pubkey, prikey⟩, hpair⟩ : ∃ pair, A.generateKeypair keypair = pair := ⟨_, rfl⟩
  rw [hpair] at hsigned hl ⊢
  have hplain : ((Mem.zero.write 0 signed).write signed.length pubkey.val).read 0
      (P.ratchetSignedSize + P.publicKeySize) = l.plain := by
    rw [Mem.write_behind rfl, hl]
  have hsize : l.plain.length = P.ratchetSignedSize + P.publicKeySize := by
    rw [hl, Mem.length_read]
  have hheader : l.header = ⟨QsmpFlags.asymmetricRatchetRequest.toByte,
      UInt32.ofNat P.ratchetRequestMessageSize, cns.txseq + 1, Mem.zero⟩ := by
    rw [Letter.header, hsize, hl, msglen_signed]
    rfl
  obtain ⟨hread, body, hseal, hon⟩ := Letter.seals_behind (K := K) htx hheader Mem.zero hplain
  rw [signed256] at hsigned
  refine ⟨_, ?_, hon (headerSize + signed.length + P.publicKeySize + duplexMactagSize.toNat
    + socketTerminatorSize) (by omega)⟩
  simp only [qsmpDuplexSendAsymmetricRatchetRequest, if_pos hmode, hpair, hsigned, hread, hseal]
  rw [decide_eq_true hslen]
  rfl

/-- A signed hash of its size makes the array full. -/
theorem sendAsymmetricRatchetRequest_posts (hmode : cns.mode = .duplex)
    (htx : cns.txcpr.encrypt = true) (keypair sign : A.Seed)
    (hsigned : (signed256 K A (A.generateKeypair keypair).1.val keys.sigkey sign).length
      = P.ratchetSignedSize)
    (hslen : slen = headerSize + P.ratchetRequestMessageSize + socketTerminatorSize) :
    ∃ out, qsmpDuplexSendAsymmetricRatchetRequest K A keypair sign slen keys cns =
        ⟨true, cns.posted K (requestLetter K A keys.sigkey (A.generateKeypair keypair).1 sign cns),
          { keys with
            pubkey := (A.generateKeypair keypair).1
            prikey := (A.generateKeypair keypair).2 }, some out⟩ ∧
      (requestLetter K A keys.sigkey (A.generateKeypair keypair).1 sign cns).On K cns.txcpr
        out := by
  have hfull : (Mem.zero.write 0 (signed256 K A (A.generateKeypair keypair).1.val keys.sigkey sign
      ++ (A.generateKeypair keypair).1.val)).read 0 (P.ratchetSignedSize + P.publicKeySize)
      = signed256 K A (A.generateKeypair keypair).1.val keys.sigkey sign
        ++ (A.generateKeypair keypair).1.val := Mem.read_write_of_length (by
    rw [List.length_append, hsigned, (A.generateKeypair keypair).1.property])
  refine sendAsymmetricRatchetRequest_seals keys hmode htx keypair sign rfl ?_ ?_ ?_
  · rw [hfull, requestLetter]
  · have htag := macSize_le_duplexMactagSize cns.txcpr.ctype
    omega
  · rw [hslen, hsigned, Params.ratchetRequestMessageSize, Params.ratchetSignedSize]
    omega

/-- The handlers of both messages read one whole, of the size they ask for. -/
theorem ratchetLength_signed {l : Letter} {n : ℕ} (h : l.On K tx bytes)
    (hlen : l.plain.length = P.ratchetSignedSize + n) (htag : l.taglen = duplexMactagSize)
    (hn : n ≤ P.publicKeySize + P.cipherTextSize) (buff : Mem) :
    (delivered buff bytes).msglen = UInt32.ofNat (n + P.signatureSize + simplexHashSize
        + duplexMactagSize.toNat) ∧
      ratchetLength (delivered buff bytes) = l.plain.length := by
  constructor
  · rw [h.msglen, htag, hlen, msglen_signed]
  · refine ratchetLength_delivered h htag ?_ buff
    have hfits := P.fits
    simp only [Params.ratchetSignedSize, simplexHashSize, headerSize, duplexHashSize] at hlen hfits
    omega

/-- **The request is answered**: the secret is encapsulated to the key it
carries, and the answering side is keyed anew at once. -/
theorem asymmetricRatchetResponse_opens {l : Letter} {pubkey : Octets P.publicKeySize}
    {sign : A.Seed} (h : l.On K tx bytes) (hm : RcsMirrors tx cns.rxcpr)
    (hseq : l.sequence = cns.rxseq + 1)
    (hplain : l.plain = signed256 K A pubkey.val sigkey sign ++ pubkey.val)
    (htag : l.taglen = duplexMactagSize)
    (hsigned : (signed256 K A pubkey.val sigkey sign).length = P.ratchetSignedSize)
    (hverify : A.verify (signed256 K A pubkey.val sigkey sign) keys.verkey
      = some (qscSha3Compute256 K.permute pubkey.val).val)
    (htx : cns.txcpr.encrypt = true) (encap sign' : A.Seed)
    (hown : (signed256 K A (A.encapsulate pubkey encap).2.val keys.sigkey sign').length
      = P.ratchetSignedSize)
    (hslen : slen = headerSize + P.ratchetResponseMessageSize + socketTerminatorSize)
    (stack buff : Mem) :
    ∃ out, asymmetricRatchetResponse K A encap sign' slen stack keys cns (delivered buff bytes) =
        ⟨true, symmetricRatchet K P ((cns.opened K tx l).posted K
          (responseLetter K A keys.sigkey (A.encapsulate pubkey encap).2 sign' cns))
          (A.encapsulate pubkey encap).1.val, keys, some out⟩ ∧
      (responseLetter K A keys.sigkey (A.encapsulate pubkey encap).2 sign' cns).On K cns.txcpr
        out := by
  obtain ⟨⟨secret, cpt⟩, henc⟩ : ∃ enc, A.encapsulate pubkey encap = enc := ⟨_, rfl⟩
  rw [henc] at hown ⊢
  obtain ⟨signed, hsign⟩ : ∃ signed, signed256 K A cpt.val keys.sigkey sign' = signed :=
    ⟨_, rfl⟩
  obtain ⟨resp, hresp⟩ : ∃ resp, responseLetter K A keys.sigkey cpt sign' cns = resp := ⟨_, rfl⟩
  have hplain' : resp.plain = signed ++ cpt.val := by rw [← hresp, ← hsign]; rfl
  rw [hsign] at hown
  have hsize : resp.plain.length = P.ratchetSignedSize + P.cipherTextSize := by
    rw [hplain', List.length_append, hown, cpt.property]
  have hheader : resp.header = ⟨QsmpFlags.asymmetricRatchetResponse.toByte,
      UInt32.ofNat P.ratchetResponseMessageSize, cns.txseq + 1, Mem.zero⟩ := by
    rw [Letter.header, hsize, ← hresp, responseLetter, msglen_signed]
    rfl
  obtain ⟨omsg, homsg⟩ : ∃ omsg,
      stack.clear 0 (headerSize + P.ratchetResponseMessageSize) = omsg := ⟨_, rfl⟩
  -- The cipher-text lies behind the room that is kept for the signed hash.
  have hcopy : (Mem.zero.write P.ratchetSignedSize cpt.val).read P.ratchetSignedSize
      P.cipherTextSize = cpt.val := Mem.read_write_of_length cpt.property
  have hinput : ((Mem.zero.write P.ratchetSignedSize cpt.val).write 0 signed).read 0
      (P.ratchetSignedSize + P.cipherTextSize) = resp.plain := by
    rw [hplain', Mem.read_add, Nat.zero_add, Mem.read_write_of_length hown,
      Mem.read_write_above (by omega), hcopy]
  obtain ⟨hread, body, hseal, hon⟩ := Letter.seals_behind (K := K) htx hheader omsg hinput
  rw [signed256] at hsign
  have hlen : l.plain.length = P.ratchetSignedSize + P.publicKeySize := by
    rw [hplain, List.length_append, hsigned, pubkey.property]
  obtain ⟨hmsglen, hlength⟩ := ratchetLength_signed h hlen htag (Nat.le_add_right _ _) buff
  obtain ⟨hleft, hright⟩ := read_signed (y := pubkey) hsigned
  have htagSize := macSize_le_duplexMactagSize cns.txcpr.ctype
  rw [hresp]
  refine ⟨_, ?_, hon (signed.length + headerSize + P.cipherTextSize + duplexMactagSize.toNat
    + socketTerminatorSize) (by omega)⟩
  have hpos : (delivered buff bytes).sequence = cns.rxseq + 1 ∧ (delivered buff bytes).msglen
      = UInt32.ofNat P.ratchetRequestMessageSize := ⟨(h.sequence buff).trans hseq, hmsglen⟩
  have hcount : slen = signed.length + headerSize + P.cipherTextSize + duplexMactagSize.toNat
      + socketTerminatorSize := by
    rw [hslen, hown, Params.ratchetResponseMessageSize, Params.ratchetSignedSize]
    omega
  rw [asymmetricRatchetResponse]
  dsimp only
  rw [if_pos hpos, hlength, h.opens hm buff Mem.zero]
  dsimp only
  rw [if_pos rfl, hplain, hleft, hverify]
  dsimp only
  rw [hright, if_pos verify_signedHash, henc]
  dsimp only
  rw [homsg, hcopy, hsign, hread, hseal]
  dsimp only
  rw [if_pos hcount]
  rfl

/-- A request whose signed hash does not verify is not answered. -/
theorem asymmetricRatchetResponse_unverified {l : Letter} (h : l.On K tx bytes)
    (hm : RcsMirrors tx cns.rxcpr) (hseq : l.sequence = cns.rxseq + 1)
    (hlen : l.plain.length = P.ratchetSignedSize + P.publicKeySize)
    (htag : l.taglen = duplexMactagSize)
    (hverify : A.verify (l.plain.take P.ratchetSignedSize) keys.verkey = none)
    (encap sign' : A.Seed) (stack buff : Mem) :
    (asymmetricRatchetResponse K A encap sign' slen stack keys cns (delivered buff bytes)).res
      = false := by
  have hread : (Mem.zero.write 0 l.plain).read 0 P.ratchetSignedSize
      = l.plain.take P.ratchetSignedSize := Mem.read_write_start (by omega)
  obtain ⟨hmsglen, hlength⟩ := ratchetLength_signed h hlen htag (Nat.le_add_right _ _) buff
  have hpos : (delivered buff bytes).sequence = cns.rxseq + 1 ∧ (delivered buff bytes).msglen
      = UInt32.ofNat P.ratchetRequestMessageSize := ⟨(h.sequence buff).trans hseq, hmsglen⟩
  rw [asymmetricRatchetResponse]
  dsimp only
  rw [if_pos hpos, hlength, h.opens hm buff Mem.zero]
  dsimp only
  rw [if_pos rfl, hread, hverify]

/-- **The answer is taken**: the secret is decapsulated, the key pair
cleared, and the asking side keyed anew. -/
theorem asymmetricRatchetFinalize_opens {l : Letter} {cpt : Octets P.cipherTextSize}
    {secret : Octets secretSize} {sign : A.Seed} (h : l.On K tx bytes)
    (hm : RcsMirrors tx cns.rxcpr) (hseq : l.sequence = cns.rxseq + 1)
    (hplain : l.plain = signed256 K A cpt.val sigkey sign ++ cpt.val)
    (htag : l.taglen = duplexMactagSize)
    (hsigned : (signed256 K A cpt.val sigkey sign).length = P.ratchetSignedSize)
    (hverify : A.verify (signed256 K A cpt.val sigkey sign) keys.verkey
      = some (qscSha3Compute256 K.permute cpt.val).val)
    (hdec : A.decapsulate cpt keys.prikey = some secret) (buff : Mem) :
    asymmetricRatchetFinalize K A keys cns (delivered buff bytes) =
      ⟨true, symmetricRatchet K P (cns.opened K tx l) secret.val,
        { keys with pubkey := Octets.zero _, prikey := Octets.zero _ }, none⟩ := by
  have hlen : l.plain.length = P.ratchetSignedSize + P.cipherTextSize := by
    rw [hplain, List.length_append, hsigned, cpt.property]
  obtain ⟨hmsglen, hlength⟩ := ratchetLength_signed h hlen htag (Nat.le_add_left _ _) buff
  obtain ⟨hleft, hright⟩ := read_signed (y := cpt) hsigned
  have hpos : (delivered buff bytes).sequence = cns.rxseq + 1 ∧ (delivered buff bytes).msglen
      = UInt32.ofNat P.ratchetResponseMessageSize := ⟨(h.sequence buff).trans hseq, hmsglen⟩
  rw [asymmetricRatchetFinalize]
  dsimp only
  rw [if_pos hpos, hlength, h.opens hm buff Mem.zero]
  dsimp only
  rw [if_pos rfl, hplain, hleft, hverify]
  dsimp only
  rw [hright, if_pos verify_signedHash, hdec]
  rfl

end Asymmetric

end Qsmp
