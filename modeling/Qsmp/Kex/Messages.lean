import Qsmp.Kex.Configuration
import Qsmp.Kex.Driver
/-!
# The messages of an honest exchange

With a correct signature scheme and a correct KEM, each step function
accepts the message its peer's step function makes, and answers with the
next. `Says` is what a packet and its parse have in common: the flag, the
sequence number and the body.
-/

namespace Qsmp

variable {P : Params}

/-! ## Bodies -/

/-- A packet that carries `body`. -/
structure Says (p : QsmpPacket) (flag : QsmpFlags) (sequence : UInt64) (body : Bytes) : Prop where
  flag : p.flag = flag.toByte
  sequence : p.sequence = sequence
  msglen : p.msglen.toNat = body.length
  body : p.pmessage.read 0 body.length = body

namespace Says

variable {p : QsmpPacket} {flag : QsmpFlags} {sequence : UInt64} {body : Bytes}

/-- The message as one store. -/
theorem of_write {m : Mem} {n : ℕ} (hn : body.length = n)
    (hfit : headerSize + body.length ≤ P.messageMax) :
    Says ⟨flag.toByte, UInt32.ofNat n, sequence, m.write 0 body⟩ flag sequence body where
  flag := rfl
  sequence := rfl
  msglen := by
    have := P.messageMax_lt
    rw [UInt32.toNat_ofNat_of_lt' (by simp only [UInt32.size]; omega), hn]
  body := Mem.read_write_self

/-- A part of the body. -/
theorem read (h : Says p flag sequence body) {x y z : Bytes} {off n : ℕ}
    (hbody : body = x ++ y ++ z) (hx : x.length = off) (hy : y.length = n) :
    p.pmessage.read off n = y := by
  have hread := h.body
  subst hx hy
  rw [hbody, List.length_append, List.length_append, Nat.add_assoc, Mem.read_add, Mem.read_add,
    Nat.zero_add, List.append_assoc] at hread
  exact (List.append_inj (List.append_inj hread (by simp)).2 (by simp)).1

end Says

/-- The bytes on the wire of a packet that carries `body`: the header, the
body, and the terminator. -/
def frame (flag : QsmpFlags) (sequence : UInt64) (body : Bytes) : Bytes :=
  qsmpPacketHeaderSerialize ⟨flag.toByte, UInt32.ofNat body.length, sequence, .zero⟩ ++ body ++ [0]

section Frame

variable {p resp : QsmpPacket} {flag : QsmpFlags} {sequence : UInt64} {body : Bytes}
variable {stack : Mem}

theorem length_frame : (frame flag sequence body).length
    = body.length + headerSize + socketTerminatorSize := by
  rw [frame, List.length_append, List.length_append, length_qsmpPacketHeaderSerialize,
    Nat.add_comm headerSize]
  rfl

/-- **What is sent.** The stream buffer is clear behind the packet, so the
bytes are those of the frame. -/
theorem Says.wire_eq (h : Says p flag sequence body)
    (hfit : headerSize + body.length ≤ P.messageMax) :
    wire P stack (some p) = frame flag sequence body := by
  have hle : p.msglen.toNat ≤ P.messageMax := by rw [h.msglen]; omega
  have hlen : p.msglen = UInt32.ofNat body.length := by
    rw [← h.msglen, UInt32.ofNat_toNat]
  have hheader : qsmpPacketHeaderSerialize p
      = qsmpPacketHeaderSerialize ⟨flag.toByte, UInt32.ofNat body.length, sequence, .zero⟩ := by
    simp only [qsmpPacketHeaderSerialize, h.flag, h.sequence, hlen]
  have hbody : p.pmessage.read 0 p.msglen.toNat = body := by rw [h.msglen, h.body]
  have hread : (qsmpPacketToStream P p (streamBuffer P stack)).1.read 0
      (headerSize + p.msglen.toNat)
      = qsmpPacketHeaderSerialize p ++ p.pmessage.read 0 p.msglen.toNat :=
    read_qsmpPacketToStream hle
  rw [hheader, hbody] at hread
  have hlast : ((qsmpPacketToStream P p (streamBuffer P stack)).1.read
      (headerSize + p.msglen.toNat) socketTerminatorSize) = [0] := by
    rw [qsmpPacketToStream_of_le hle, Mem.read_write_above (by simp), h.msglen]
    rw [show socketTerminatorSize = 0 + 1 from rfl, Mem.read_succ, Mem.read_zero_len,
      streamBuffer, if_pos (by omega)]
  have hcount : (qsmpPacketToStream P p (streamBuffer P stack)).2
      = headerSize + p.msglen.toNat := by
    rw [qsmpPacketToStream_of_le hle]
  rw [wire, Option.getD_some, frame]
  rw [hcount, Mem.read_add, Nat.zero_add, hread, hlast]

/-- **What is parsed**, over whatever the receiver's packet held. -/
theorem says_parse_frame (hfit : headerSize + body.length ≤ P.messageMax) :
    Says (parse P stack (frame flag sequence body) resp) flag sequence body := by
  have hmax := P.messageMax_lt
  obtain ⟨q, hq⟩ : ∃ q : QsmpPacket, q = ⟨flag.toByte, UInt32.ofNat body.length, sequence,
    Mem.zero.write 0 body⟩ := ⟨_, rfl⟩
  have hwritten : Says q flag sequence body := by
    rw [hq]
    exact .of_write (P := P) rfl hfit
  have hle : q.msglen.toNat ≤ P.messageMax := by rw [hwritten.msglen]; omega
  have hread : ((streamBuffer P stack).write 0 (frame flag sequence body)).read 0
      (headerSize + q.msglen.toNat)
      = qsmpPacketHeaderSerialize q ++ q.pmessage.read 0 q.msglen.toNat := by
    rw [hwritten.msglen, hwritten.body, Mem.read_write_start (by rw [length_frame]; omega), frame,
      List.take_append_of_le_length (by simp), List.take_of_length_le (by simp), hq]
    rfl
  rw [parse, qsmpStreamToPacket_of_read hle hread]
  refine ⟨hwritten.flag, hwritten.sequence, hwritten.msglen, ?_⟩
  dsimp only
  rw [hwritten.msglen, hwritten.body, Mem.read_write_self]

end Frame

/-- A step that succeeds: the state it leaves, the connection, and the
packet it makes, which carries the connection's sequence number. -/
structure Answers {S : Type} (r : StepResult S) (ks : S) (cns : QsmpConnectionState)
    (flag : QsmpFlags) (body : Bytes) : Prop where
  qerr : r.qerr = .none
  role : r.ks = ks
  connection : r.cns = cns
  packet : Says r.packetout flag cns.txseq body

/-! ## What is assumed of the primitives -/

/-- A correct KEM: the private key of a pair gets back what was
encapsulated to the public key. -/
def Asymmetric.KemCorrect (A : Asymmetric P) : Prop :=
  ∀ keypair encap,
    A.decapsulate (A.encapsulate (A.generateKeypair keypair).1 encap).2
      (A.generateKeypair keypair).2 = some (A.encapsulate (A.generateKeypair keypair).1 encap).1

/-- A correct signature key pair, with signatures of the fixed size. -/
def Asymmetric.SignsFor (A : Asymmetric P) (sigkey : Octets P.signingKeySize)
    (verkey : Octets P.verifyKeySize) : Prop :=
  ∀ message sign, A.verify (A.sign message sigkey sign) verkey = some message ∧
    (A.sign message sigkey sign).length = P.signatureSize + message.length

theorem headD_repeated {n : ℕ} {b : UInt8} (h : 0 < n) : (Octets.repeated n b).val.headD 0 = b := by
  obtain ⟨m, rfl⟩ := Nat.exists_eq_succ_of_ne_zero (Nat.ne_of_gt h)
  rfl

/-- The primitives that repeat one byte are correct. -/
theorem Asymmetric.plain_kemCorrect (h : 0 < P.cipherTextSize) :
    (Asymmetric.plain P).KemCorrect := by
  intro keypair (encap : UInt8)
  exact congrArg (fun b => some (Octets.repeated secretSize b)) (headD_repeated (b := encap) h)

theorem Asymmetric.plain_signsFor {b : UInt8} (hs : 0 < P.signingKeySize)
    (hv : 0 < P.verifyKeySize) :
    (Asymmetric.plain P).SignsFor (.repeated _ b) (.repeated _ b) := by
  intro message sign
  have hsign : (Asymmetric.plain P).sign message (.repeated _ b) sign
      = List.replicate P.signatureSize b ++ message :=
    congrArg (fun c => List.replicate P.signatureSize c ++ message) (headD_repeated hs)
  rw [hsign]
  constructor
  · simp only [Asymmetric.plain, headD_repeated hv]
    rw [if_pos (by simp), List.drop_left' (by simp)]
  · simp

section Signed

variable {K : Primitives} {A : Asymmetric P} {sigkey : Octets P.signingKeySize}
variable {verkey : Octets P.verifyKeySize} {p : QsmpPacket} {flag : QsmpFlags}
variable {sequence : UInt64} {body x z bytes : Bytes} {seed : A.Seed} {off : ℕ}

/-- `A.sign` of a SHA3-512 hash, as the duplex messages carry it. -/
def signed512 (K : Primitives) (A : Asymmetric P) (bytes : Bytes) (sigkey : Octets P.signingKeySize)
    (seed : A.Seed) : Bytes := A.sign (qscSha3Compute512 K.permute bytes).val sigkey seed

/-- `A.sign` of a SHA3-256 hash, as the simplex message carries it. -/
def signed256 (K : Primitives) (A : Asymmetric P) (bytes : Bytes) (sigkey : Octets P.signingKeySize)
    (seed : A.Seed) : Bytes := A.sign (qscSha3Compute256 K.permute bytes).val sigkey seed

theorem length_signed512 (hs : A.SignsFor sigkey verkey) :
    (signed512 K A bytes sigkey seed).length = P.signatureSize + duplexHashSize :=
  (hs _ _).2.trans (by rw [(qscSha3Compute512 K.permute bytes).property]; rfl)

theorem length_signed256 (hs : A.SignsFor sigkey verkey) :
    (signed256 K A bytes sigkey seed).length = P.signatureSize + simplexHashSize :=
  (hs _ _).2.trans (by rw [(qscSha3Compute256 K.permute bytes).property]; rfl)

/-- Without Falcon the signed hash has the fixed length. -/
theorem signedLength_fixed (hf : P.falconSignature = false) {hashSize : ℕ} {m : Mem} :
    signedLength P hashSize m = P.signatureSize + hashSize := by
  rw [signedLength, hf]
  rfl

/-- A signed hash read back from a message verifies, and is the hash. -/
theorem Says.verify512 (h : Says p flag sequence body) (hf : P.falconSignature = false)
    (hs : A.SignsFor sigkey verkey) (hbody : body = x ++ signed512 K A bytes sigkey seed ++ z)
    (hx : x.length = off) :
    A.verify (p.pmessage.read off (signedLength P duplexHashSize p.pmessage)) verkey
      = some (qscSha3Compute512 K.permute bytes).val := by
  rw [signedLength_fixed hf, h.read hbody hx (length_signed512 hs)]
  exact (hs _ _).1

theorem Says.verify256 (h : Says p flag sequence body) (hf : P.falconSignature = false)
    (hs : A.SignsFor sigkey verkey) (hbody : body = x ++ signed256 K A bytes sigkey seed ++ z)
    (hx : x.length = off) :
    A.verify (p.pmessage.read off (signedLength P simplexHashSize p.pmessage)) verkey
      = some (qscSha3Compute256 K.permute bytes).val := by
  rw [signedLength_fixed hf, h.read hbody hx (length_signed256 hs)]
  exact (hs _ _).1

end Signed

/-! ## The duplex messages -/

section Duplex

variable {K : Primitives} {A : Asymmetric P} {tm : UInt64} {cns : QsmpConnectionState}
variable {packetin packetout : QsmpPacket} {sequence : UInt64} {encap keypair sign : A.Seed}

/-- The body of a connect request. -/
def connectRequestBody (P : Params) (keyid : Octets keyidSize) : Bytes :=
  keyid.val ++ P.configString.val

/-- The body of a duplex connect response: the signed hash of the KEM key,
and the key. -/
def duplexConnectResponseBody (K : Primitives) (A : Asymmetric P)
    (sigkey : Octets P.signingKeySize) (keypair sign : A.Seed) : Bytes :=
  signed512 K A (A.generateKeypair keypair).1.val sigkey sign ++ (A.generateKeypair keypair).1.val

/-- The cipher-text and the KEM key of an exchange request. -/
def exchangeRequestParts (A : Asymmetric P) (pubk : Octets P.publicKeySize)
    (encap keypair : A.Seed) : Bytes :=
  (A.encapsulate pubk encap).2.val ++ (A.generateKeypair keypair).1.val

/-- The body of a duplex exchange request. -/
def duplexExchangeRequestBody (K : Primitives) (A : Asymmetric P) (pubk : Octets P.publicKeySize)
    (sigkey : Octets P.signingKeySize) (encap keypair sign : A.Seed) : Bytes :=
  exchangeRequestParts A pubk encap keypair ++
    signed512 K A (exchangeRequestParts A pubk encap keypair) sigkey sign

/-- The body of a duplex exchange response. -/
def duplexExchangeResponseBody (K : Primitives) (A : Asymmetric P)
    (pubk : Octets P.publicKeySize) (sigkey : Octets P.signingKeySize) (encap sign : A.Seed) :
    Bytes :=
  (A.encapsulate pubk encap).2.val ++ signed512 K A (A.encapsulate pubk encap).2.val sigkey sign

section Lengths

variable {keyid : Octets keyidSize} {pubk : Octets P.publicKeySize}
variable {sigkey : Octets P.signingKeySize} {verkey : Octets P.verifyKeySize}

theorem length_connectRequestBody :
    (connectRequestBody P keyid).length = keyidSize + configSize := by
  rw [connectRequestBody, List.length_append, keyid.property, P.configString.property]

theorem length_duplexConnectResponseBody (hs : A.SignsFor sigkey verkey) :
    (duplexConnectResponseBody K A sigkey keypair sign).length
      = duplexHashSize + P.signatureSize + P.publicKeySize := by
  rw [duplexConnectResponseBody, List.length_append, length_signed512 hs,
    (A.generateKeypair keypair).1.property, Nat.add_comm P.signatureSize]

theorem length_exchangeRequestParts :
    (exchangeRequestParts A pubk encap keypair).length = P.cipherTextSize + P.publicKeySize := by
  rw [exchangeRequestParts, List.length_append, (A.encapsulate pubk encap).2.property,
    (A.generateKeypair keypair).1.property]

theorem length_duplexExchangeRequestBody (hs : A.SignsFor sigkey verkey) :
    (duplexExchangeRequestBody K A pubk sigkey encap keypair sign).length
      = P.cipherTextSize + P.publicKeySize + duplexHashSize + P.signatureSize := by
  rw [duplexExchangeRequestBody, List.length_append, length_exchangeRequestParts,
    length_signed512 hs]
  omega

theorem length_duplexExchangeResponseBody (hs : A.SignsFor sigkey verkey) :
    (duplexExchangeResponseBody K A pubk sigkey encap sign).length
      = P.cipherTextSize + duplexHashSize + P.signatureSize := by
  rw [duplexExchangeResponseBody, List.length_append, (A.encapsulate pubk encap).2.property,
    length_signed512 hs]
  omega

/-- Every body fits a packet with its header. -/
theorem fits_connectRequestBody :
    headerSize + (connectRequestBody P keyid).length ≤ P.messageMax := by
  rw [length_connectRequestBody]
  simp only [Params.messageMax, headerSize, keyidSize, configSize, duplexHashSize]
  omega

theorem fits_duplexConnectResponseBody (hs : A.SignsFor sigkey verkey) :
    headerSize + (duplexConnectResponseBody K A sigkey keypair sign).length ≤ P.messageMax := by
  rw [length_duplexConnectResponseBody hs, Params.messageMax]
  omega

theorem fits_duplexExchangeRequestBody (hs : A.SignsFor sigkey verkey) :
    headerSize + (duplexExchangeRequestBody K A pubk sigkey encap keypair sign).length
      ≤ P.messageMax := by
  rw [length_duplexExchangeRequestBody hs, Params.messageMax]
  omega

theorem fits_duplexExchangeResponseBody (hs : A.SignsFor sigkey verkey) :
    headerSize + (duplexExchangeResponseBody K A pubk sigkey encap sign).length
      ≤ P.messageMax := by
  rw [length_duplexExchangeResponseBody hs, Params.messageMax]
  omega

/-- So does a bare header. -/
theorem fits_nil : headerSize + ([] : Bytes).length ≤ P.messageMax := by
  rw [Params.messageMax, List.length_nil]
  omega

end Lengths

/-- The duplex client asks to connect. -/
theorem kexDuplexClientConnectRequest_answers {kcs : QsmpKexDuplexClientState P}
    (htime : tm ≤ kcs.expiration) :
    Answers (kexDuplexClientConnectRequest K tm kcs cns packetout)
      { kcs with schash := duplexSchash K P kcs.keyid kcs.verkey kcs.rverkey }
      { cns with exflag := .connectRequest } .connectRequest (connectRequestBody P kcs.keyid) := by
  simp only [kexDuplexClientConnectRequest, if_pos htime]
  rw [Mem.write_behind kcs.keyid.property]
  exact ⟨rfl, rfl, rfl, .of_write length_connectRequestBody fits_connectRequestBody⟩

/-- The duplex server answers with a KEM key. -/
theorem kexDuplexServerConnectResponse_answers {kss : QsmpKexDuplexServerState P}
    {keyid : Octets keyidSize} {rverkey verkey : Octets P.verifyKeySize}
    (hin : Says packetin .connectRequest sequence (connectRequestBody P keyid))
    (hquery : kss.keyQuery keyid = some rverkey) (htime : tm ≤ kss.expiration)
    (hs : A.SignsFor kss.sigkey verkey) :
    Answers (kexDuplexServerConnectResponse K A tm keypair sign kss cns packetin packetout)
      { kss with rverkey := rverkey,
                 schash := duplexSchash K P kss.keyid rverkey kss.verkey,
                 pubkey := (A.generateKeypair keypair).1,
                 prikey := (A.generateKeypair keypair).2 }
      { cns with exflag := .connectResponse } .connectResponse
      (duplexConnectResponseBody K A kss.sigkey keypair sign) := by
  have hkeyid : packetin.pmessage.octets 0 keyidSize = keyid :=
    Subtype.ext (hin.read (x := []) rfl rfl keyid.property)
  have hconf : packetin.pmessage.read keyidSize configSize = P.configString.val :=
    hin.read (z := []) (by rw [List.append_nil]; rfl) keyid.property P.configString.property
  simp only [kexDuplexServerConnectResponse, if_pos hin.flag, hkeyid, hquery, if_pos htime, hconf,
    qscStringutilsCompareStrings_self, if_true]
  rw [Mem.write_behind rfl]
  exact ⟨rfl, rfl, rfl, .of_write (length_duplexConnectResponseBody hs)
    (fits_duplexConnectResponseBody hs)⟩

/-- The duplex client answers with a cipher-text and a KEM key of its own. -/
theorem kexDuplexClientExchangeRequest_answers {kcs : QsmpKexDuplexClientState P}
    {sigkey : Octets P.signingKeySize} {verkey : Octets P.verifyKeySize}
    {keypair' sign' : A.Seed} (hf : P.falconSignature = false)
    (hflag : cns.exflag = .connectRequest)
    (hin : Says packetin .connectResponse sequence
      (duplexConnectResponseBody K A sigkey keypair' sign'))
    (hpeer : A.SignsFor sigkey kcs.rverkey) (hs : A.SignsFor kcs.sigkey verkey) :
    Answers (kexDuplexClientExchangeRequest K A encap keypair sign kcs cns packetin packetout)
      { kcs with ssec := (A.encapsulate (A.generateKeypair keypair').1 encap).1,
                 pubkey := (A.generateKeypair keypair).1,
                 prikey := (A.generateKeypair keypair).2 }
      { cns with exflag := .exchangeRequest } .exchangeRequest
      (duplexExchangeRequestBody K A (A.generateKeypair keypair').1 kcs.sigkey encap keypair
        sign) := by
  have hverify : A.verify (packetin.pmessage.read 0 (signedLength P duplexHashSize
      packetin.pmessage)) kcs.rverkey = some (qscSha3Compute512 K.permute
        (A.generateKeypair keypair').1.val).val := hin.verify512 (x := []) hf hpeer rfl rfl
  have hpubk : packetin.pmessage.octets (signedLength P duplexHashSize packetin.pmessage)
      P.publicKeySize = (A.generateKeypair keypair').1 :=
    Subtype.ext (hin.read (z := []) (by rw [List.append_nil]; rfl)
      (by rw [signedLength_fixed hf, length_signed512 hpeer])
      (A.generateKeypair keypair').1.property)
  obtain ⟨pubk, hpubk'⟩ : ∃ k, (A.generateKeypair keypair').1 = k := ⟨_, rfl⟩
  rw [hpubk'] at hverify hpubk ⊢
  have hwrite : ∀ m : Mem, (m.write 0 (A.encapsulate pubk encap).2.val).write P.cipherTextSize
      (A.generateKeypair keypair).1.val
      = m.write 0 (exchangeRequestParts A pubk encap keypair) :=
    fun m => Mem.write_behind (A.encapsulate pubk encap).2.property
  have hread : ∀ m : Mem, (m.write 0 (exchangeRequestParts A pubk encap keypair)).read 0
      (P.cipherTextSize + P.publicKeySize) = exchangeRequestParts A pubk encap keypair :=
    fun m => Mem.read_write_of_length length_exchangeRequestParts
  have hbody : ∀ m : Mem, (m.write 0 (exchangeRequestParts A pubk encap keypair)).write
      (P.cipherTextSize + P.publicKeySize) (A.sign (qscSha3Compute512 K.permute
        (exchangeRequestParts A pubk encap keypair)).val kcs.sigkey sign)
      = m.write 0 (duplexExchangeRequestBody K A pubk kcs.sigkey encap keypair sign) :=
    fun m => Mem.write_behind length_exchangeRequestParts
  have hpos : cns.exflag = .connectRequest ∧
      packetin.flag = QsmpFlags.connectResponse.toByte := ⟨hflag, hin.flag⟩
  simp only [kexDuplexClientExchangeRequest, if_pos hpos, hverify, hpubk, if_true, hwrite, hread,
    hbody, qscIntutilsVerify_self (n := duplexHashSize) (qscSha3Compute512 K.permute _).property]
  exact ⟨rfl, rfl, rfl, .of_write (length_duplexExchangeRequestBody hs)
    (fits_duplexExchangeRequestBody hs)⟩

/-- What a server reads back from an exchange request. -/
theorem Says.exchangeRequest {pubk : Octets P.publicKeySize} {sigkey : Octets P.signingKeySize}
    (h : Says packetin .exchangeRequest sequence
      (duplexExchangeRequestBody K A pubk sigkey encap keypair sign)) :
    packetin.pmessage.read 0 (P.cipherTextSize + P.publicKeySize)
        = exchangeRequestParts A pubk encap keypair ∧
      packetin.pmessage.octets 0 P.cipherTextSize = (A.encapsulate pubk encap).2 ∧
      packetin.pmessage.octets P.cipherTextSize P.publicKeySize
        = (A.generateKeypair keypair).1 := by
  have hcpt := (A.encapsulate pubk encap).2.property
  have hbody : duplexExchangeRequestBody K A pubk sigkey encap keypair sign
      = [] ++ (A.encapsulate pubk encap).2.val ++ ((A.generateKeypair keypair).1.val ++
          signed512 K A (exchangeRequestParts A pubk encap keypair) sigkey sign) := by
    rw [duplexExchangeRequestBody, exchangeRequestParts, List.append_assoc, List.nil_append]
  -- The same bytes, cut in three ways.
  exact ⟨h.read (x := []) rfl rfl length_exchangeRequestParts,
    Subtype.ext (h.read hbody rfl hcpt),
    Subtype.ext (h.read rfl hcpt (A.generateKeypair keypair).1.property)⟩

/-- The duplex server answers with a cipher-text of its own, and keys the
channel. -/
theorem kexDuplexServerExchangeResponse_answers {kss : QsmpKexDuplexServerState P}
    {pubk : Octets P.publicKeySize} {sigkey : Octets P.signingKeySize}
    {verkey : Octets P.verifyKeySize} {seca : Octets secretSize} {encap' keypair' sign' : A.Seed}
    (hf : P.falconSignature = false) (hflag : cns.exflag = .connectResponse)
    (hin : Says packetin .exchangeRequest sequence
      (duplexExchangeRequestBody K A pubk sigkey encap' keypair' sign'))
    (hpeer : A.SignsFor sigkey kss.rverkey) (hs : A.SignsFor kss.sigkey verkey)
    (hdecap : A.decapsulate (A.encapsulate pubk encap').2 kss.prikey = some seca) :
    let secb := (A.encapsulate (A.generateKeypair keypair').1 encap).1
    let keys := duplexExpand K seca kss.schash secb
    Answers (kexDuplexServerExchangeResponse K A encap sign kss cns packetin packetout) kss
      { cns with
        rtcs := keys.rtcs
        rxcpr := qscRcsInitialize K (keys.first duplexSymmetricKeySize) false
        txcpr := qscRcsInitialize K (keys.second duplexSymmetricKeySize) true
        exflag := .exchangeResponse } .exchangeResponse
      (duplexExchangeResponseBody K A (A.generateKeypair keypair').1 kss.sigkey encap sign) := by
  have hverify : A.verify (packetin.pmessage.read (P.cipherTextSize + P.publicKeySize)
      (signedLength P duplexHashSize packetin.pmessage)) kss.rverkey
        = some (qscSha3Compute512 K.permute (exchangeRequestParts A pubk encap' keypair')).val :=
    hin.verify512 (z := []) hf hpeer (by rw [List.append_nil]; rfl) length_exchangeRequestParts
  obtain ⟨hread, hcpt, hpubk⟩ := hin.exchangeRequest
  obtain ⟨enc, henc⟩ : ∃ e, A.encapsulate (A.generateKeypair keypair').1 encap = e := ⟨_, rfl⟩
  have hbody : duplexExchangeResponseBody K A (A.generateKeypair keypair').1 kss.sigkey encap sign
      = enc.2.val ++ signed512 K A enc.2.val kss.sigkey sign := by
    rw [duplexExchangeResponseBody, henc]
  have hlen : (enc.2.val ++ signed512 K A enc.2.val kss.sigkey sign).length
      = P.cipherTextSize + duplexHashSize + P.signatureSize :=
    hbody ▸ length_duplexExchangeResponseBody hs
  have hfits : headerSize + (enc.2.val ++ signed512 K A enc.2.val kss.sigkey sign).length
      ≤ P.messageMax := hbody ▸ fits_duplexExchangeResponseBody hs
  have hown : ∀ m : Mem, (m.write 0 enc.2.val).read 0 P.cipherTextSize = enc.2.val :=
    fun m => Mem.read_write_of_length enc.2.property
  have hwrite : ∀ m : Mem, (m.write 0 enc.2.val).write P.cipherTextSize
      (A.sign (qscSha3Compute512 K.permute enc.2.val).val kss.sigkey sign)
      = m.write 0 (enc.2.val ++ signed512 K A enc.2.val kss.sigkey sign) :=
    fun m => Mem.write_behind enc.2.property
  have hpos : cns.exflag = .connectResponse ∧
      packetin.flag = QsmpFlags.exchangeRequest.toByte := ⟨hflag, hin.flag⟩
  simp only [kexDuplexServerExchangeResponse, if_pos hpos, hverify, hread, hcpt, hpubk, if_true,
    hdecap, henc, hown, hwrite, hbody,
    qscIntutilsVerify_self (n := duplexHashSize) (qscSha3Compute512 K.permute _).property]
  exact ⟨rfl, rfl, rfl, .of_write hlen hfits⟩

/-- The duplex client keys the channel, and answers with a bare header. -/
theorem kexDuplexClientEstablishRequest_answers {kcs : QsmpKexDuplexClientState P}
    {pubk : Octets P.publicKeySize} {sigkey : Octets P.signingKeySize} {secb : Octets secretSize}
    {encap' sign' : A.Seed} (hf : P.falconSignature = false)
    (hflag : cns.exflag = .exchangeRequest)
    (hin : Says packetin .exchangeResponse sequence
      (duplexExchangeResponseBody K A pubk sigkey encap' sign'))
    (hpeer : A.SignsFor sigkey kcs.rverkey)
    (hdecap : A.decapsulate (A.encapsulate pubk encap').2 kcs.prikey = some secb) :
    let keys := duplexExpand K kcs.ssec kcs.schash secb
    Answers (kexDuplexClientEstablishRequest K A kcs cns packetin packetout) kcs
      { cns with
        rtcs := keys.rtcs
        txcpr := qscRcsInitialize K (keys.first duplexSymmetricKeySize) true
        rxcpr := qscRcsInitialize K (keys.second duplexSymmetricKeySize) false
        exflag := .establishRequest } .establishRequest [] := by
  have hcpt : packetin.pmessage.octets 0 P.cipherTextSize = (A.encapsulate pubk encap').2 :=
    Subtype.ext (hin.read (x := []) rfl rfl (A.encapsulate pubk encap').2.property)
  have hverify : A.verify (packetin.pmessage.read P.cipherTextSize
      (signedLength P duplexHashSize packetin.pmessage)) kcs.rverkey
        = some (qscSha3Compute512 K.permute (A.encapsulate pubk encap').2.val).val :=
    hin.verify512 (z := []) hf hpeer (by rw [List.append_nil]; rfl)
      (A.encapsulate pubk encap').2.property
  have hpos : cns.exflag = .exchangeRequest ∧
      packetin.flag = QsmpFlags.exchangeResponse.toByte := ⟨hflag, hin.flag⟩
  simp only [kexDuplexClientEstablishRequest, if_pos hpos, hverify, hcpt, if_true, hdecap,
    qscIntutilsVerify_self (n := duplexHashSize) (qscSha3Compute512 K.permute _).property]
  exact ⟨rfl, rfl, rfl, rfl, rfl, rfl, rfl⟩

/-- The duplex server answers with a bare header. -/
theorem kexDuplexServerEstablishResponse_answers {kss : QsmpKexDuplexServerState P}
    (hflag : cns.exflag = .exchangeResponse) (hin : Says packetin .establishRequest sequence []) :
    Answers (kexDuplexServerEstablishResponse kss cns packetin packetout) kss
      { cns with exflag := .sessionEstablished } .establishResponse [] := by
  have hpos : cns.exflag = .exchangeResponse ∧
      packetin.flag = QsmpFlags.establishRequest.toByte := ⟨hflag, hin.flag⟩
  simp only [kexDuplexServerEstablishResponse, if_pos hpos]
  exact ⟨rfl, rfl, rfl, rfl, rfl, rfl, rfl⟩

/-- The duplex client is done. -/
theorem kexDuplexClientEstablishVerify_answers {kcs : QsmpKexDuplexClientState P}
    (hflag : cns.exflag = .establishRequest) (hin : Says packetin .establishResponse sequence []) :
    (kexDuplexClientEstablishVerify kcs cns packetin packetout).qerr = .none ∧
      (kexDuplexClientEstablishVerify kcs cns packetin packetout).cns
        = { cns with exflag := .sessionEstablished } := by
  have hpos : cns.exflag = .establishRequest ∧
      packetin.flag = QsmpFlags.establishResponse.toByte := ⟨hflag, hin.flag⟩
  rw [kexDuplexClientEstablishVerify, if_pos hpos]
  exact ⟨rfl, rfl⟩

end Duplex

/-! ## The simplex messages -/

section Simplex

variable {K : Primitives} {A : Asymmetric P} {tm : UInt64} {cns : QsmpConnectionState}
variable {packetin packetout : QsmpPacket} {sequence : UInt64} {encap keypair sign : A.Seed}

/-- The body of a simplex connect response. -/
def simplexConnectResponseBody (K : Primitives) (A : Asymmetric P)
    (sigkey : Octets P.signingKeySize) (keypair sign : A.Seed) : Bytes :=
  signed256 K A (A.generateKeypair keypair).1.val sigkey sign ++ (A.generateKeypair keypair).1.val

theorem length_simplexConnectResponseBody {sigkey : Octets P.signingKeySize}
    {verkey : Octets P.verifyKeySize} (hs : A.SignsFor sigkey verkey) :
    (simplexConnectResponseBody K A sigkey keypair sign).length
      = P.signatureSize + simplexHashSize + P.publicKeySize := by
  rw [simplexConnectResponseBody, List.length_append, length_signed256 hs,
    (A.generateKeypair keypair).1.property]

theorem fits_simplexConnectResponseBody {sigkey : Octets P.signingKeySize}
    {verkey : Octets P.verifyKeySize} (hs : A.SignsFor sigkey verkey) :
    headerSize + (simplexConnectResponseBody K A sigkey keypair sign).length ≤ P.messageMax := by
  rw [length_simplexConnectResponseBody hs]
  simp only [Params.messageMax, simplexHashSize, duplexHashSize]
  omega

theorem fits_cipherText {cpt : Octets P.cipherTextSize} :
    headerSize + cpt.val.length ≤ P.messageMax := by
  rw [cpt.property, Params.messageMax]
  omega

/-- The simplex client asks to connect. -/
theorem kexSimplexClientConnectRequest_answers {kcs : QsmpKexSimplexClientState P}
    (htime : tm ≤ kcs.expiration) :
    Answers (kexSimplexClientConnectRequest K tm kcs cns packetout)
      { kcs with schash := simplexSchash K P kcs.keyid kcs.verkey }
      { cns with exflag := .connectRequest } .connectRequest (connectRequestBody P kcs.keyid) := by
  simp only [kexSimplexClientConnectRequest, if_pos htime]
  rw [Mem.write_behind kcs.keyid.property]
  exact ⟨rfl, rfl, rfl, .of_write length_connectRequestBody fits_connectRequestBody⟩

/-- The simplex server answers with a KEM key. -/
theorem kexSimplexServerConnectResponse_answers {kss : QsmpKexSimplexServerState P}
    {verkey : Octets P.verifyKeySize}
    (hin : Says packetin .connectRequest sequence (connectRequestBody P kss.keyid))
    (htime : tm ≤ kss.expiration) (hs : A.SignsFor kss.sigkey verkey) :
    Answers (kexSimplexServerConnectResponse K A tm keypair sign kss cns packetin packetout)
      { kss with schash := simplexSchash K P kss.keyid kss.verkey,
                 pubkey := (A.generateKeypair keypair).1,
                 prikey := (A.generateKeypair keypair).2 }
      { cns with exflag := .connectResponse } .connectResponse
      (simplexConnectResponseBody K A kss.sigkey keypair sign) := by
  have hkeyid : packetin.pmessage.read 0 keyidSize = kss.keyid.val :=
    hin.read (x := []) rfl rfl kss.keyid.property
  have hverify : kexSimplexServerKeyidVerify kss.keyid packetin.pmessage = true := by
    rw [kexSimplexServerKeyidVerify, hkeyid, beq_iff_eq, qscIntutilsVerify_eq_zero rfl]
  have hconf : packetin.pmessage.read keyidSize configSize = P.configString.val :=
    hin.read (z := []) (by rw [List.append_nil]; rfl) kss.keyid.property P.configString.property
  simp only [kexSimplexServerConnectResponse, if_pos hin.flag, hverify, if_pos htime, hconf,
    qscStringutilsCompareStrings_self, if_true]
  rw [Mem.write_behind rfl]
  exact ⟨rfl, rfl, rfl, .of_write (length_simplexConnectResponseBody hs)
    (fits_simplexConnectResponseBody hs)⟩

/-- The simplex client keys the channel, and answers with a cipher-text. -/
theorem kexSimplexClientExchangeRequest_answers {kcs : QsmpKexSimplexClientState P}
    {sigkey : Octets P.signingKeySize} {keypair' sign' : A.Seed}
    (hf : P.falconSignature = false) (hflag : cns.exflag = .connectRequest)
    (hin : Says packetin .connectResponse sequence
      (simplexConnectResponseBody K A sigkey keypair' sign'))
    (hpeer : A.SignsFor sigkey kcs.verkey) :
    let enc := A.encapsulate (A.generateKeypair keypair').1 encap
    let keys := simplexExpand K enc.1 kcs.schash
    Answers (kexSimplexClientExchangeRequest K A encap kcs cns packetin packetout) kcs
      { cns with
        rtcs := keys.rtcs
        txcpr := qscRcsInitialize K (keys.first simplexSymmetricKeySize) true
        rxcpr := qscRcsInitialize K (keys.second simplexSymmetricKeySize) false
        exflag := .exchangeRequest } .exchangeRequest enc.2.val := by
  have hverify : A.verify (packetin.pmessage.read 0 (signedLength P simplexHashSize
      packetin.pmessage)) kcs.verkey = some (qscSha3Compute256 K.permute
        (A.generateKeypair keypair').1.val).val := hin.verify256 (x := []) hf hpeer rfl rfl
  have hpubk : packetin.pmessage.octets (signedLength P simplexHashSize packetin.pmessage)
      P.publicKeySize = (A.generateKeypair keypair').1 :=
    Subtype.ext (hin.read (z := []) (by rw [List.append_nil]; rfl)
      (by rw [signedLength_fixed hf, length_signed256 hpeer])
      (A.generateKeypair keypair').1.property)
  have hpos : cns.exflag = .connectRequest ∧
      packetin.flag = QsmpFlags.connectResponse.toByte := ⟨hflag, hin.flag⟩
  obtain ⟨enc, henc⟩ : ∃ e, A.encapsulate (A.generateKeypair keypair').1 encap = e := ⟨_, rfl⟩
  simp only [kexSimplexClientExchangeRequest, if_pos hpos, hverify, hpubk, if_true, henc,
    qscIntutilsVerify_self (n := simplexHashSize) (qscSha3Compute256 K.permute _).property]
  exact ⟨rfl, rfl, rfl, .of_write enc.2.property fits_cipherText⟩

/-- The simplex server keys the channel, and answers with a bare header. -/
theorem kexSimplexServerExchangeResponse_answers {kss : QsmpKexSimplexServerState P}
    {cpt : Octets P.cipherTextSize} {ssec : Octets secretSize}
    (hflag : cns.exflag = .connectResponse)
    (hin : Says packetin .exchangeRequest sequence cpt.val)
    (hdecap : A.decapsulate cpt kss.prikey = some ssec) :
    let keys := simplexExpand K ssec kss.schash
    Answers (kexSimplexServerExchangeResponse K A kss cns packetin packetout) kss
      { cns with
        rtcs := keys.rtcs
        rxcpr := qscRcsInitialize K (keys.first simplexSymmetricKeySize) false
        txcpr := qscRcsInitialize K (keys.second simplexSymmetricKeySize) true
        exflag := .sessionEstablished } .exchangeResponse [] := by
  have hcpt : packetin.pmessage.octets 0 P.cipherTextSize = cpt :=
    Subtype.ext (hin.read (x := []) (z := []) (by rw [List.append_nil]; rfl) rfl cpt.property)
  have hpos : cns.exflag = .connectResponse ∧
      packetin.flag = QsmpFlags.exchangeRequest.toByte := ⟨hflag, hin.flag⟩
  simp only [kexSimplexServerExchangeResponse, if_pos hpos, hcpt, hdecap]
  exact ⟨rfl, rfl, rfl, rfl, rfl, rfl, rfl⟩

/-- The simplex client is done. -/
theorem kexSimplexClientEstablishVerify_answers {kcs : QsmpKexSimplexClientState P}
    (hflag : cns.exflag = .exchangeRequest) (hin : Says packetin .exchangeResponse sequence []) :
    (kexSimplexClientEstablishVerify kcs cns packetin packetout).qerr = .none ∧
      (kexSimplexClientEstablishVerify kcs cns packetin packetout).cns
        = { cns with exflag := .sessionEstablished } := by
  have hpos : cns.exflag = .exchangeRequest ∧
      packetin.flag = QsmpFlags.exchangeResponse.toByte := ⟨hflag, hin.flag⟩
  rw [kexSimplexClientEstablishVerify, if_pos hpos]
  exact ⟨rfl, rfl⟩

end Simplex

end Qsmp
