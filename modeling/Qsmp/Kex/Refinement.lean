import Qsmp.Kex.Checks
import Qsmp.Kex.Protocol
/-!
# The step functions are those of the protocol

Over the suite of a build's byte strings the protocol is what the source
computes: each step function succeeds exactly where the protocol steps on
the message its packet carries, goes to the state the protocol goes to, and
makes a packet that carries the answer. A run that ends established is a
run of the protocol.
-/

namespace Qsmp

open Dialogue

variable {P : Params}

/-- **The suite of a build.** -/
abbrev Asymmetric.suite (K : Primitives) (A : Asymmetric P) : Suite where
  Seed := A.Seed
  Keyid := Octets keyidSize
  Config := Bytes
  VerifyKey := Octets P.verifyKeySize
  SigningKey := Octets P.signingKeySize
  PublicKey := Octets P.publicKeySize
  PrivateKey := Octets P.privateKeySize
  CipherText := Octets P.cipherTextSize
  Secret := Octets secretSize
  Signed := Bytes
  Digest := Bytes
  Keys := Expansion
  config := P.configString.val
  compareConfig config := qscStringutilsCompareStrings config P.configString.val
  compareKeyid keyid keyid' := qscIntutilsVerify keyid.val keyid'.val == 0
  generateKeypair := A.generateKeypair
  encapsulate := A.encapsulate
  decapsulate := A.decapsulate
  sign := A.sign
  duplexVerify signed verkey := (A.verify signed verkey).map (signedHash duplexHashSize)
  duplexKeyHash pubk := (qscSha3Compute512 K.permute pubk.val).val
  duplexRequestHash cpt pubk := (qscSha3Compute512 K.permute (cpt.val ++ pubk.val)).val
  duplexCipherTextHash cpt := (qscSha3Compute512 K.permute cpt.val).val
  duplexKeys seca keyid clientkey serverkey secb :=
    duplexExpand K seca (duplexSchash K P keyid clientkey serverkey) secb
  simplexVerify signed verkey := (A.verify signed verkey).map (signedHash simplexHashSize)
  simplexKeyHash pubk := (qscSha3Compute256 K.permute pubk.val).val
  simplexKeys ssec keyid serverkey := simplexExpand K ssec (simplexSchash K P keyid serverkey)

/-- The draws of a role. -/
abbrev Draws.suite (K : Primitives) {A : Asymmetric P} (d : Draws A) : SuiteDraws (A.suite K) :=
  ⟨d.keypair, d.encap, d.sign, d.resign⟩

variable {K : Primitives} {A : Asymmetric P} {d : Draws A} {cns : QsmpConnectionState}
variable {packetin packetout : QsmpPacket}

/-! ## Packets and messages -/

/-- A packet carries a body behind a flag. -/
structure Carries (p : QsmpPacket) (flag : QsmpFlags) (body : Bytes) : Prop where
  flag : p.flag = flag.toByte
  body : p.pmessage.read 0 body.length = body

/-- The flag of a message. -/
def Message.flag : Message (A.suite K) → QsmpFlags
  | .connectRequest .. => .connectRequest
  | .connectResponse .. => .connectResponse
  | .duplexExchangeRequest .. | .simplexExchangeRequest .. => .exchangeRequest
  | .duplexExchangeResponse .. | .simplexExchangeResponse => .exchangeResponse
  | .establishRequest => .establishRequest
  | .establishResponse => .establishResponse

/-- The body of a message, its parts in the order they are laid out. -/
def Message.body : Message (A.suite K) → Bytes
  | .connectRequest keyid config => keyid.val ++ config
  | .connectResponse signed pubk => signed ++ pubk.val
  | .duplexExchangeRequest cpt pubk signed => cpt.val ++ pubk.val ++ signed
  | .duplexExchangeResponse cpt signed => cpt.val ++ signed
  | .simplexExchangeRequest cpt => cpt.val
  | .establishRequest | .establishResponse | .simplexExchangeResponse => []

/-- What a server reads from a connect request. -/
def connectRequestOf (K : Primitives) (A : Asymmetric P) (p : QsmpPacket) : Message (A.suite K) :=
  .connectRequest (p.pmessage.octets 0 keyidSize) (p.pmessage.read keyidSize configSize)

/-- What a client reads from a connect response; the hash size is that of
its exchange. -/
def connectResponseOf (K : Primitives) (A : Asymmetric P) (hashSize : ℕ) (p : QsmpPacket) :
    Message (A.suite K) :=
  let mlen := signedLength P hashSize p.pmessage
  .connectResponse (p.pmessage.read 0 mlen) (p.pmessage.octets mlen P.publicKeySize)

/-- What a duplex server reads from an exchange request. -/
def duplexExchangeRequestOf (K : Primitives) (A : Asymmetric P) (p : QsmpPacket) :
    Message (A.suite K) :=
  .duplexExchangeRequest (p.pmessage.octets 0 P.cipherTextSize)
    (p.pmessage.octets P.cipherTextSize P.publicKeySize)
    (p.pmessage.read (P.cipherTextSize + P.publicKeySize)
      (signedLength P duplexHashSize p.pmessage))

/-- What a duplex client reads from an exchange response. -/
def duplexExchangeResponseOf (K : Primitives) (A : Asymmetric P) (p : QsmpPacket) :
    Message (A.suite K) :=
  .duplexExchangeResponse (p.pmessage.octets 0 P.cipherTextSize)
    (p.pmessage.read P.cipherTextSize (signedLength P duplexHashSize p.pmessage))

/-- What a simplex server reads from an exchange request. -/
def simplexExchangeRequestOf (K : Primitives) (A : Asymmetric P) (p : QsmpPacket) :
    Message (A.suite K) :=
  .simplexExchangeRequest (p.pmessage.octets 0 P.cipherTextSize)

/-! ## The states of the source -/

/-- The configuration of a role's state. -/
def QsmpKexDuplexClientState.config (K : Primitives) (A : Asymmetric P)
    (kcs : QsmpKexDuplexClientState P) : DuplexClientConfig (A.suite K) :=
  ⟨kcs.keyid, kcs.verkey, kcs.sigkey, kcs.rverkey⟩

def QsmpKexDuplexServerState.config (K : Primitives) (A : Asymmetric P)
    (kss : QsmpKexDuplexServerState P) : DuplexServerConfig (A.suite K) :=
  ⟨kss.keyid, kss.verkey, kss.sigkey, kss.keyQuery⟩

def QsmpKexSimplexClientState.config (K : Primitives) (A : Asymmetric P)
    (kcs : QsmpKexSimplexClientState P) : SimplexClientConfig (A.suite K) :=
  ⟨kcs.keyid, kcs.verkey⟩

def QsmpKexSimplexServerState.config (K : Primitives) (A : Asymmetric P)
    (kss : QsmpKexSimplexServerState P) : SimplexServerConfig (A.suite K) :=
  ⟨kss.keyid, kss.verkey, kss.sigkey⟩

/-- **A duplex client at a session**: the exchange flag is that of the
session, the state holds what the session holds, and once the secrets are
shared the ciphers are keyed from them. -/
def DuplexClientAt (K : Primitives) (A : Asymmetric P) (kcs : QsmpKexDuplexClientState P)
    (cns : QsmpConnectionState) : Session (A.suite K) → Prop
  | .duplexClientConnectRequest cfg =>
      cns.exflag = .connectRequest ∧ cfg = kcs.config K A ∧
        kcs.schash = duplexSchash K P cfg.keyid cfg.verkey cfg.rverkey
  | .duplexClientExchangeRequest cfg ssec pubkey prikey =>
      cns.exflag = .exchangeRequest ∧ cfg = kcs.config K A ∧
        kcs.schash = duplexSchash K P cfg.keyid cfg.verkey cfg.rverkey ∧
        ssec = kcs.ssec ∧ pubkey = kcs.pubkey ∧ prikey = kcs.prikey
  | .duplexClientEstablishRequest cfg ssec _ _ secb =>
      let e := (A.suite K).duplexKeys ssec cfg.keyid cfg.verkey cfg.rverkey secb
      cns.exflag = .establishRequest ∧ cfg = kcs.config K A ∧
        Keyed K e (e.first duplexSymmetricKeySize) (e.second duplexSymmetricKeySize) cns
  | .duplexClientEstablished cfg ssec _ _ secb =>
      let e := (A.suite K).duplexKeys ssec cfg.keyid cfg.verkey cfg.rverkey secb
      cns.exflag = .sessionEstablished ∧ cfg = kcs.config K A ∧
        Keyed K e (e.first duplexSymmetricKeySize) (e.second duplexSymmetricKeySize) cns
  | _ => False

/-- **A duplex server at a session.** -/
def DuplexServerAt (K : Primitives) (A : Asymmetric P) (kss : QsmpKexDuplexServerState P)
    (cns : QsmpConnectionState) : Session (A.suite K) → Prop
  | .duplexServerNone cfg => cns.exflag = .none ∧ cfg = kss.config K A
  | .duplexServerConnectResponse cfg rverkey pubkey prikey =>
      cns.exflag = .connectResponse ∧ cfg = kss.config K A ∧
        kss.schash = duplexSchash K P cfg.keyid rverkey cfg.verkey ∧
        rverkey = kss.rverkey ∧ pubkey = kss.pubkey ∧ prikey = kss.prikey
  | .duplexServerExchangeResponse cfg rverkey _ _ seca secb =>
      let e := (A.suite K).duplexKeys seca cfg.keyid rverkey cfg.verkey secb
      cns.exflag = .exchangeResponse ∧ cfg = kss.config K A ∧
        Keyed K e (e.second duplexSymmetricKeySize) (e.first duplexSymmetricKeySize) cns
  | .duplexServerEstablished cfg rverkey _ _ seca secb =>
      let e := (A.suite K).duplexKeys seca cfg.keyid rverkey cfg.verkey secb
      cns.exflag = .sessionEstablished ∧ cfg = kss.config K A ∧
        Keyed K e (e.second duplexSymmetricKeySize) (e.first duplexSymmetricKeySize) cns
  | _ => False

/-- **A simplex client at a session.** The ciphers are keyed before it
sends its request. -/
def SimplexClientAt (K : Primitives) (A : Asymmetric P) (kcs : QsmpKexSimplexClientState P)
    (cns : QsmpConnectionState) : Session (A.suite K) → Prop
  | .simplexClientConnectRequest cfg =>
      cns.exflag = .connectRequest ∧ cfg = kcs.config K A ∧
        kcs.schash = simplexSchash K P cfg.keyid cfg.verkey
  | .simplexClientExchangeRequest cfg ssec =>
      let e := (A.suite K).simplexKeys ssec cfg.keyid cfg.verkey
      cns.exflag = .exchangeRequest ∧ cfg = kcs.config K A ∧
        Keyed K e (e.first simplexSymmetricKeySize) (e.second simplexSymmetricKeySize) cns
  | .simplexClientEstablished cfg ssec =>
      let e := (A.suite K).simplexKeys ssec cfg.keyid cfg.verkey
      cns.exflag = .sessionEstablished ∧ cfg = kcs.config K A ∧
        Keyed K e (e.first simplexSymmetricKeySize) (e.second simplexSymmetricKeySize) cns
  | _ => False

/-- **A simplex server at a session.** -/
def SimplexServerAt (K : Primitives) (A : Asymmetric P) (kss : QsmpKexSimplexServerState P)
    (cns : QsmpConnectionState) : Session (A.suite K) → Prop
  | .simplexServerNone cfg => cns.exflag = .none ∧ cfg = kss.config K A
  | .simplexServerConnectResponse cfg pubkey prikey =>
      cns.exflag = .connectResponse ∧ cfg = kss.config K A ∧
        kss.schash = simplexSchash K P cfg.keyid cfg.verkey ∧
        pubkey = kss.pubkey ∧ prikey = kss.prikey
  | .simplexServerEstablished cfg _ _ ssec =>
      let e := (A.suite K).simplexKeys ssec cfg.keyid cfg.verkey
      cns.exflag = .sessionEstablished ∧ cfg = kss.config K A ∧
        Keyed K e (e.second simplexSymmetricKeySize) (e.first simplexSymmetricKeySize) cns
  | _ => False

/-- **A step function refines a step of the protocol**: it succeeds where
the protocol steps, in the state stepped to, with a packet that carries the
answer, and fails where the protocol refuses. -/
def Refines {S : Type} (R : S → QsmpConnectionState → Session (A.suite K) → Prop)
    (r : StepResult S) (step : Option (Session (A.suite K) × Option (Message (A.suite K)))) :
    Prop :=
  match step with
  | some (s', out) => r.qerr = .none ∧ R r.ks r.cns s' ∧
      ∀ m ∈ out, Carries r.packetout m.flag m.body
  | none => r.qerr ≠ .none

section

variable {T : Type} {R : T → QsmpConnectionState → Session (A.suite K) → Prop}
variable {r r₁ r₂ : StepResult T} {signed bytes : Bytes} {verkey : Octets P.verifyKeySize}
variable {step : Option (Session (A.suite K) × Option (Message (A.suite K)))}

/-- A step function that verifies a signature and compares the hash refines
a step of the protocol that does, whatever the size of the hash. -/
theorem refines_verify {n : ℕ} {hash : Octets n} (h : Refines R r step) (h₁ : r₁.qerr ≠ .none)
    (h₂ : r₂.qerr ≠ .none) :
    Refines R
      (match A.verify signed verkey with
        | some message =>
          if qscIntutilsVerify hash.val (signedHash n message) = 0 then r else r₁
        | none => r₂)
      (if (A.verify signed verkey).map (signedHash n) = some hash.val then step else none) := by
  cases hverify : A.verify signed verkey with
  | none =>
    rw [if_neg (by simp)]
    exact h₂
  | some message =>
    simp only [Option.map_some, Option.some.injEq]
    by_cases hhash : signedHash n message = hash.val
    · -- Both go on.
      rw [if_pos (qscIntutilsVerify_hash.2 hhash), if_pos hhash]
      exact h
    · -- Both refuse; the source tells an invalid signature from an invalid hash.
      rw [if_neg (mt qscIntutilsVerify_hash.1 hhash), if_neg hhash]
      exact h₁

/-- A step function that decapsulates refines a step that does. -/
theorem refines_decapsulate {cpt : Octets P.cipherTextSize} {prikey : Octets P.privateKeySize}
    {f : Octets secretSize → StepResult T}
    {g : Octets secretSize → Session (A.suite K) × Option (Message (A.suite K))}
    (h : ∀ sec, Refines R (f sec) (some (g sec))) (h₁ : r₁.qerr ≠ .none) :
    Refines R
      (match A.decapsulate cpt prikey with
        | some sec => f sec
        | none => r₁)
      (((A.suite K).decapsulate cpt prikey).map g) := by
  show Refines R _ ((A.decapsulate cpt prikey).map g)
  cases A.decapsulate cpt prikey with
  | none => exact h₁
  | some sec => exact h sec

end

/-- A failed step. -/
theorem qerr_fail {T : Type} {qerr : QsmpErrors} {ks : T} (h : qerr ≠ .none) :
    (StepResult.fail qerr ks cns packetout).qerr ≠ .none := h

/-- Two parts laid out one behind the other. -/
theorem read_write_two {m : Mem} {x y : Bytes} {n : ℕ} (hx : x.length = n) :
    ((m.write 0 x).write n y).read 0 (x ++ y).length = x ++ y := by
  rw [Mem.write_behind hx, Mem.read_write_self]

/-- Three parts. -/
theorem read_write_three {m : Mem} {x y z : Bytes} {n l : ℕ} (hx : x.length = n)
    (hl : (x ++ y).length = l) :
    (((m.write 0 x).write n y).write l z).read 0 (x ++ y ++ z).length = x ++ y ++ z := by
  rw [Mem.write_behind hx]
  exact read_write_two hl

/-- Two octet strings one behind the other. -/
theorem length_octets_append {n l : ℕ} (x : Octets n) (y : Octets l) :
    (x.val ++ y.val).length = n + l := by
  rw [List.length_append, x.property, y.property]

/-! ## The duplex client -/

section

variable {kcs : QsmpKexDuplexClientState P} {cfg : DuplexClientConfig (A.suite K)}
variable {ssec secb : Octets secretSize} {pubkey : Octets P.publicKeySize}
variable {prikey : Octets P.privateKeySize}

/-- On a key in date. -/
theorem kexDuplexClientConnectRequest_refines (htime : d.tm ≤ kcs.expiration) :
    Refines (DuplexClientAt K A) (kexDuplexClientConnectRequest K d.tm kcs cns packetout)
      (some (.duplexClientConnectRequest (kcs.config K A),
        Session.opening (.duplexClientConnectRequest (kcs.config K A)))) := by
  simp only [kexDuplexClientConnectRequest, if_pos htime]
  refine ⟨rfl, ⟨rfl, rfl, rfl⟩, ?_⟩
  rintro m ⟨rfl⟩
  exact ⟨rfl, read_write_two kcs.keyid.property⟩

theorem kexDuplexClientExchangeRequest_refines
    (h : DuplexClientAt K A kcs cns (.duplexClientConnectRequest cfg))
    (hflag : packetin.flag = QsmpFlags.connectResponse.toByte) :
    Refines (DuplexClientAt K A)
      (kexDuplexClientExchangeRequest K A d.encap d.keypair d.sign kcs cns packetin packetout)
      (Session.receive (d.suite K) (.duplexClientConnectRequest cfg)
        (connectResponseOf K A duplexHashSize packetin)) := by
  obtain ⟨hex, rfl, hsch⟩ := h
  simp only [kexDuplexClientExchangeRequest, if_pos (And.intro hex hflag)]
  refine refines_verify ?_ (qerr_fail (by decide)) (qerr_fail (by decide))
  refine ⟨rfl, ⟨rfl, rfl, hsch, rfl, rfl, rfl⟩, ?_⟩
  rintro m ⟨rfl⟩
  refine ⟨rfl, ?_⟩
  obtain ⟨enc, henc⟩ : ∃ enc, enc = A.encapsulate (packetin.pmessage.octets
    (signedLength P duplexHashSize packetin.pmessage) P.publicKeySize) d.encap := ⟨_, rfl⟩
  have hparts := read_write_two (m := packetout.pmessage.clear 0 P.messageMax)
    (y := (A.generateKeypair d.keypair).1.val) enc.2.property
  rw [length_octets_append] at hparts
  simp only [← henc, hparts]
  exact read_write_three enc.2.property (length_octets_append _ _)

theorem kexDuplexClientEstablishRequest_refines
    (h : DuplexClientAt K A kcs cns (.duplexClientExchangeRequest cfg ssec pubkey prikey))
    (hflag : packetin.flag = QsmpFlags.exchangeResponse.toByte) :
    Refines (DuplexClientAt K A) (kexDuplexClientEstablishRequest K A kcs cns packetin packetout)
      (Session.receive (d.suite K) (.duplexClientExchangeRequest cfg ssec pubkey prikey)
        (duplexExchangeResponseOf K A packetin)) := by
  obtain ⟨hex, rfl, hsch, rfl, rfl, rfl⟩ := h
  simp only [kexDuplexClientEstablishRequest, if_pos (And.intro hex hflag)]
  refine refines_verify ?_ (qerr_fail (by decide)) (qerr_fail (by decide))
  refine refines_decapsulate (fun secb => ?_) (qerr_fail (by decide))
  rw [hsch]
  refine ⟨rfl, ⟨rfl, rfl, rfl, rfl, rfl⟩, ?_⟩
  rintro m ⟨rfl⟩
  exact ⟨rfl, rfl⟩

theorem kexDuplexClientEstablishVerify_refines
    (h : DuplexClientAt K A kcs cns (.duplexClientEstablishRequest cfg ssec pubkey prikey secb))
    (hflag : packetin.flag = QsmpFlags.establishResponse.toByte) :
    Refines (DuplexClientAt K A) (kexDuplexClientEstablishVerify kcs cns packetin packetout)
      (Session.receive (d.suite K) (.duplexClientEstablishRequest cfg ssec pubkey prikey secb)
        .establishResponse) := by
  obtain ⟨hex, rfl, hkeyed⟩ := h
  simp only [kexDuplexClientEstablishVerify, if_pos (And.intro hex hflag)]
  exact ⟨rfl, ⟨rfl, rfl, hkeyed.rtcs, hkeyed.txcpr, hkeyed.rxcpr⟩,
    fun _ hm => absurd hm (Option.not_mem_none _)⟩

end

/-! ## The duplex server -/

section

variable {kss : QsmpKexDuplexServerState P} {cfg : DuplexServerConfig (A.suite K)}
variable {rverkey : Octets P.verifyKeySize} {seca secb : Octets secretSize}
variable {pubkey : Octets P.publicKeySize} {prikey : Octets P.privateKeySize}

/-- On a key in date. -/
theorem kexDuplexServerConnectResponse_refines (htime : d.tm ≤ kss.expiration)
    (h : DuplexServerAt K A kss cns (.duplexServerNone cfg))
    (hflag : packetin.flag = QsmpFlags.connectRequest.toByte) :
    Refines (DuplexServerAt K A)
      (kexDuplexServerConnectResponse K A d.tm d.keypair d.sign kss cns packetin packetout)
      (Session.receive (d.suite K) (.duplexServerNone cfg) (connectRequestOf K A packetin)) := by
  obtain ⟨hex, rfl⟩ := h
  simp only [kexDuplexServerConnectResponse, if_pos hflag]
  show Refines _ _ (Option.bind (kss.keyQuery (packetin.pmessage.octets 0 keyidSize)) _)
  cases kss.keyQuery (packetin.pmessage.octets 0 keyidSize) with
  | none => exact qerr_fail (by decide)
  | some rverkey =>
    simp only [if_pos htime, Option.bind_some]
    split
    · refine ⟨rfl, ⟨rfl, rfl, rfl, rfl, rfl, rfl⟩, ?_⟩
      rintro m ⟨rfl⟩
      exact ⟨rfl, read_write_two rfl⟩
    · exact qerr_fail (by decide)

theorem kexDuplexServerExchangeResponse_refines
    (h : DuplexServerAt K A kss cns (.duplexServerConnectResponse cfg rverkey pubkey prikey))
    (hflag : packetin.flag = QsmpFlags.exchangeRequest.toByte) :
    Refines (DuplexServerAt K A)
      (kexDuplexServerExchangeResponse K A d.encap d.resign kss cns packetin packetout)
      (Session.receive (d.suite K) (.duplexServerConnectResponse cfg rverkey pubkey prikey)
        (duplexExchangeRequestOf K A packetin)) := by
  obtain ⟨hex, rfl, hsch, rfl, rfl, rfl⟩ := h
  simp only [kexDuplexServerExchangeResponse, if_pos (And.intro hex hflag), Mem.read_add,
    Nat.zero_add]
  refine refines_verify ?_ (qerr_fail (by decide)) (qerr_fail (by decide))
  refine refines_decapsulate (fun seca => ?_) (qerr_fail (by decide))
  obtain ⟨enc, henc⟩ : ∃ enc, enc = A.encapsulate (packetin.pmessage.octets P.cipherTextSize
    P.publicKeySize) d.encap := ⟨_, rfl⟩
  have hcpt : (packetout.pmessage.write 0 enc.2.val).read 0 P.cipherTextSize = enc.2.val :=
    Mem.read_write_of_length enc.2.property
  rw [hsch]
  simp only [← henc, hcpt]
  refine ⟨rfl, ⟨rfl, rfl, rfl, rfl, rfl⟩, ?_⟩
  rintro m ⟨rfl⟩
  exact ⟨rfl, read_write_two enc.2.property⟩

theorem kexDuplexServerEstablishResponse_refines
    (h : DuplexServerAt K A kss cns
      (.duplexServerExchangeResponse cfg rverkey pubkey prikey seca secb))
    (hflag : packetin.flag = QsmpFlags.establishRequest.toByte) :
    Refines (DuplexServerAt K A) (kexDuplexServerEstablishResponse kss cns packetin packetout)
      (Session.receive (d.suite K)
        (.duplexServerExchangeResponse cfg rverkey pubkey prikey seca secb)
        .establishRequest) := by
  obtain ⟨hex, rfl, hkeyed⟩ := h
  simp only [kexDuplexServerEstablishResponse, if_pos (And.intro hex hflag)]
  refine ⟨rfl, ⟨rfl, rfl, hkeyed.rtcs, hkeyed.txcpr, hkeyed.rxcpr⟩, ?_⟩
  rintro m ⟨rfl⟩
  exact ⟨rfl, rfl⟩

end

/-! ## The simplex exchange -/

section

variable {kcs : QsmpKexSimplexClientState P} {cfg : SimplexClientConfig (A.suite K)}
variable {ssec : Octets secretSize}

/-- On a key in date. -/
theorem kexSimplexClientConnectRequest_refines (htime : d.tm ≤ kcs.expiration) :
    Refines (SimplexClientAt K A) (kexSimplexClientConnectRequest K d.tm kcs cns packetout)
      (some (.simplexClientConnectRequest (kcs.config K A),
        Session.opening (.simplexClientConnectRequest (kcs.config K A)))) := by
  simp only [kexSimplexClientConnectRequest, if_pos htime]
  refine ⟨rfl, ⟨rfl, rfl, rfl⟩, ?_⟩
  rintro m ⟨rfl⟩
  exact ⟨rfl, read_write_two kcs.keyid.property⟩

theorem kexSimplexClientExchangeRequest_refines
    (h : SimplexClientAt K A kcs cns (.simplexClientConnectRequest cfg))
    (hflag : packetin.flag = QsmpFlags.connectResponse.toByte) :
    Refines (SimplexClientAt K A)
      (kexSimplexClientExchangeRequest K A d.encap kcs cns packetin packetout)
      (Session.receive (d.suite K) (.simplexClientConnectRequest cfg)
        (connectResponseOf K A simplexHashSize packetin)) := by
  obtain ⟨hex, rfl, hsch⟩ := h
  simp only [kexSimplexClientExchangeRequest, if_pos (And.intro hex hflag)]
  refine refines_verify ?_ (qerr_fail (by decide)) (qerr_fail (by decide))
  rw [hsch]
  refine ⟨rfl, ⟨rfl, rfl, rfl, rfl, rfl⟩, ?_⟩
  rintro m ⟨rfl⟩
  exact ⟨rfl, Mem.read_write_self⟩

theorem kexSimplexClientEstablishVerify_refines
    (h : SimplexClientAt K A kcs cns (.simplexClientExchangeRequest cfg ssec))
    (hflag : packetin.flag = QsmpFlags.exchangeResponse.toByte) :
    Refines (SimplexClientAt K A) (kexSimplexClientEstablishVerify kcs cns packetin packetout)
      (Session.receive (d.suite K) (.simplexClientExchangeRequest cfg ssec)
        .simplexExchangeResponse) := by
  obtain ⟨hex, rfl, hkeyed⟩ := h
  simp only [kexSimplexClientEstablishVerify, if_pos (And.intro hex hflag)]
  exact ⟨rfl, ⟨rfl, rfl, hkeyed.rtcs, hkeyed.txcpr, hkeyed.rxcpr⟩,
    fun _ hm => absurd hm (Option.not_mem_none _)⟩

end

section

variable {kss : QsmpKexSimplexServerState P} {cfg : SimplexServerConfig (A.suite K)}
variable {pubkey : Octets P.publicKeySize} {prikey : Octets P.privateKeySize}

/-- On a key in date. -/
theorem kexSimplexServerConnectResponse_refines (htime : d.tm ≤ kss.expiration)
    (h : SimplexServerAt K A kss cns (.simplexServerNone cfg))
    (hflag : packetin.flag = QsmpFlags.connectRequest.toByte) :
    Refines (SimplexServerAt K A)
      (kexSimplexServerConnectResponse K A d.tm d.keypair d.sign kss cns packetin packetout)
      (Session.receive (d.suite K) (.simplexServerNone cfg) (connectRequestOf K A packetin)) := by
  obtain ⟨hex, rfl⟩ := h
  simp only [kexSimplexServerConnectResponse, if_pos hflag, if_pos htime]
  show Refines _ _ (if kexSimplexServerKeyidVerify kss.keyid packetin.pmessage = true ∧
    qscStringutilsCompareStrings (packetin.pmessage.read keyidSize configSize)
      P.configString.val = true then _ else none)
  by_cases hkeyid : kexSimplexServerKeyidVerify kss.keyid packetin.pmessage = true
  · by_cases hconf : qscStringutilsCompareStrings (packetin.pmessage.read keyidSize configSize)
        P.configString.val = true
    · rw [if_pos hkeyid, if_pos hconf, if_pos ⟨hkeyid, hconf⟩]
      refine ⟨rfl, ⟨rfl, rfl, rfl, rfl, rfl⟩, ?_⟩
      rintro m ⟨rfl⟩
      exact ⟨rfl, read_write_two rfl⟩
    · rw [if_pos hkeyid, if_neg hconf, if_neg fun h => hconf h.2]
      exact qerr_fail (by decide)
  · rw [if_neg hkeyid, if_neg fun h => hkeyid h.1]
    exact qerr_fail (by decide)

theorem kexSimplexServerExchangeResponse_refines
    (h : SimplexServerAt K A kss cns (.simplexServerConnectResponse cfg pubkey prikey))
    (hflag : packetin.flag = QsmpFlags.exchangeRequest.toByte) :
    Refines (SimplexServerAt K A)
      (kexSimplexServerExchangeResponse K A kss cns packetin packetout)
      (Session.receive (d.suite K) (.simplexServerConnectResponse cfg pubkey prikey)
        (simplexExchangeRequestOf K A packetin)) := by
  obtain ⟨hex, rfl, hsch, rfl, rfl⟩ := h
  simp only [kexSimplexServerExchangeResponse, if_pos (And.intro hex hflag)]
  refine refines_decapsulate (fun ssec => ?_) (qerr_fail (by decide))
  rw [hsch]
  refine ⟨rfl, ⟨rfl, rfl, rfl, rfl, rfl⟩, ?_⟩
  rintro m ⟨rfl⟩
  exact ⟨rfl, rfl⟩

end

/-! ## Runs -/

section

variable {T : Type} {R : T → QsmpConnectionState → Session (A.suite K) → Prop}
variable {r : StepResult T} {s : Session (A.suite K)} {m : Message (A.suite K)}

/-- A step that succeeds is a step of the protocol. -/
theorem Refines.receives (h : Refines R r (s.receive (d.suite K) m)) (hr : r.qerr = .none) :
    ∃ s' out, Receives (d.suite K) s m s' out ∧ R r.ks r.cns s' := by
  cases hrec : s.receive (d.suite K) m with
  | none =>
    rw [hrec] at h
    exact absurd hr h
  | some step =>
    rw [hrec] at h
    exact ⟨step.1, step.2, receives_iff.2 hrec, h.2.1⟩

/-- A stage that has run its step function has stepped. -/
theorem Ran.receives {flag : QsmpFlags} {step : KexStep T} {l l' : Locals T}
    (h : Ran flag step l l')
    (hstep : ∀ reqt, l'.resp.flag = flag.toByte →
      Refines R (step l.ks (l.countReceived l'.resp).cns l'.resp reqt)
        (s.receive (d.suite K) m)) :
    ∃ s' out, Receives (d.suite K) s m s' out ∧ R l'.ks l'.cns s' := by
  obtain ⟨hflag, reqt, r, rfl, hqerr, hks, hcns⟩ := h
  rw [hks, hcns]
  exact (hstep reqt hflag).receives hqerr

end

/-- Two connections with the same exchange flag and the same keys. -/
structure SameChannel (cns cns' : QsmpConnectionState) : Prop where
  exflag : cns'.exflag = cns.exflag
  rtcs : cns'.rtcs = cns.rtcs
  txcpr : cns'.txcpr = cns.txcpr
  rxcpr : cns'.rxcpr = cns.rxcpr

theorem SameChannel.keyed {cns' : QsmpConnectionState} {e : Expansion} {tx rx : RcsKeyparams}
    (h : SameChannel cns cns') (hkeyed : Keyed K e tx rx cns) : Keyed K e tx rx cns' :=
  ⟨h.rtcs.trans hkeyed.rtcs, h.txcpr.trans hkeyed.txcpr, h.rxcpr.trans hkeyed.rxcpr⟩

theorem SameChannel.duplexClientAt {cns' : QsmpConnectionState}
    {kcs : QsmpKexDuplexClientState P} {s : Session (A.suite K)} (h : SameChannel cns cns')
    (hat : DuplexClientAt K A kcs cns s) : DuplexClientAt K A kcs cns' s := by
  have hex := h.exflag
  cases s
  case duplexClientConnectRequest => exact ⟨hex.trans hat.1, hat.2⟩
  case duplexClientExchangeRequest => exact ⟨hex.trans hat.1, hat.2⟩
  case duplexClientEstablishRequest => exact ⟨hex.trans hat.1, hat.2.1, h.keyed hat.2.2⟩
  case duplexClientEstablished => exact ⟨hex.trans hat.1, hat.2.1, h.keyed hat.2.2⟩
  all_goals exact hat

theorem SameChannel.duplexServerAt {cns' : QsmpConnectionState}
    {kss : QsmpKexDuplexServerState P} {s : Session (A.suite K)} (h : SameChannel cns cns')
    (hat : DuplexServerAt K A kss cns s) : DuplexServerAt K A kss cns' s := by
  have hex := h.exflag
  cases s
  case duplexServerNone => exact ⟨hex.trans hat.1, hat.2⟩
  case duplexServerConnectResponse => exact ⟨hex.trans hat.1, hat.2⟩
  case duplexServerExchangeResponse => exact ⟨hex.trans hat.1, hat.2.1, h.keyed hat.2.2⟩
  case duplexServerEstablished => exact ⟨hex.trans hat.1, hat.2.1, h.keyed hat.2.2⟩
  all_goals exact hat

theorem SameChannel.simplexClientAt {cns' : QsmpConnectionState}
    {kcs : QsmpKexSimplexClientState P} {s : Session (A.suite K)} (h : SameChannel cns cns')
    (hat : SimplexClientAt K A kcs cns s) : SimplexClientAt K A kcs cns' s := by
  have hex := h.exflag
  cases s
  case simplexClientConnectRequest => exact ⟨hex.trans hat.1, hat.2⟩
  case simplexClientExchangeRequest => exact ⟨hex.trans hat.1, hat.2.1, h.keyed hat.2.2⟩
  case simplexClientEstablished => exact ⟨hex.trans hat.1, hat.2.1, h.keyed hat.2.2⟩
  all_goals exact hat

theorem SameChannel.simplexServerAt {cns' : QsmpConnectionState}
    {kss : QsmpKexSimplexServerState P} {s : Session (A.suite K)} (h : SameChannel cns cns')
    (hat : SimplexServerAt K A kss cns s) : SimplexServerAt K A kss cns' s := by
  have hex := h.exflag
  cases s
  case simplexServerNone => exact ⟨hex.trans hat.1, hat.2⟩
  case simplexServerConnectResponse => exact ⟨hex.trans hat.1, hat.2⟩
  case simplexServerEstablished => exact ⟨hex.trans hat.1, hat.2.1, h.keyed hat.2.2⟩
  all_goals exact hat

section

variable {stack : Mem} {tr : List Event} {bs₁ bs₂ bs₃ : Bytes}

/-- Counting packets and clearing the response keep the channel. -/
theorem Locals.sameChannel_sent {T : Type} {l : Locals T} {p : QsmpPacket} :
    SameChannel l.cns (l.countSent.countReceived p).cns := ⟨rfl, rfl, rfl, rfl⟩

theorem Locals.sameChannel_received {T : Type} {l : Locals T} {p : QsmpPacket} :
    SameChannel l.cns (l.countReceived p).cns := ⟨rfl, rfl, rfl, rfl⟩

theorem duplexClientAt_start {kcs : QsmpKexDuplexClientState P} (htime : d.tm ≤ kcs.expiration) :
    DuplexClientAt K A (duplexClientStart K d kcs cns).ks (duplexClientStart K d kcs cns).cns
      (.duplexClientConnectRequest (kcs.config K A)) :=
  (kexDuplexClientConnectRequest_refines htime).2.1

theorem simplexClientAt_start {kcs : QsmpKexSimplexClientState P}
    (htime : d.tm ≤ kcs.expiration) :
    SimplexClientAt K A (simplexClientStart K d kcs cns).ks (simplexClientStart K d kcs cns).cns
      (.simplexClientConnectRequest (kcs.config K A)) :=
  (kexSimplexClientConnectRequest_refines htime).2.1

/-- **A duplex client that ends established has run the protocol** on the
messages of its packets. -/
theorem DuplexClientRun.refines {kcs : QsmpKexDuplexClientState P}
    {l₁ l₂ l₃ : Locals (QsmpKexDuplexClientState P)}
    (h : DuplexClientRun K A stack d kcs cns tr bs₁ bs₂ bs₃ l₁ l₂ l₃)
    (hest : l₃.cns.exflag = .sessionEstablished) :
    ∃ s, (Session.duplexClientConnectRequest (kcs.config K A)).after (d.suite K)
        [connectResponseOf K A duplexHashSize l₁.resp, duplexExchangeResponseOf K A l₂.resp,
          .establishResponse] = some s ∧ DuplexClientAt K A l₃.ks l₃.cns s := by
  -- Each stage starts where the protocol has gone with the one before it.
  obtain ⟨h₁, h₂, h₃⟩ := h.ran hest
  obtain ⟨s₁, _, hs₁, hat₁⟩ := h₁.receives fun _ hflag =>
    kexDuplexClientExchangeRequest_refines (Locals.sameChannel_sent.duplexClientAt
      (duplexClientAt_start (h.checked hest).unexpired)) hflag
  rw [hs₁.after]
  cases hs₁
  obtain ⟨s₂, _, hs₂, hat₂⟩ := h₂.receives fun _ hflag =>
    kexDuplexClientEstablishRequest_refines (d := d)
      (Locals.sameChannel_sent.duplexClientAt hat₁) hflag
  rw [hs₂.after]
  cases hs₂
  obtain ⟨s₃, _, hs₃, hat₃⟩ := h₃.receives fun _ hflag =>
    kexDuplexClientEstablishVerify_refines (d := d)
      (Locals.sameChannel_sent.duplexClientAt hat₂) hflag
  rw [hs₃.after]
  exact ⟨s₃, rfl, hat₃⟩

/-- The count a server's last answer leaves is no part of the protocol. -/
theorem refines_countedStep {kss : QsmpKexDuplexServerState P}
    {step : KexStep (QsmpKexDuplexServerState P)}
    {next : Option (Session (A.suite K) × Option (Message (A.suite K)))}
    (h : Refines (DuplexServerAt K A) (step kss cns packetin packetout) next) :
    Refines (DuplexServerAt K A) (countedStep step kss cns packetin packetout) next := by
  cases next with
  | none => exact h
  | some next =>
    have hcns : SameChannel (step kss cns packetin packetout).cns
        (countedStep step kss cns packetin packetout).cns := ⟨rfl, rfl, rfl, rfl⟩
    exact ⟨h.1, hcns.duplexServerAt h.2.1, h.2.2⟩

/-- **And a duplex server**, its key query having known the client. -/
theorem DuplexServerRun.refines {kss : QsmpKexDuplexServerState P}
    {l₁ l₂ l₃ : Locals (QsmpKexDuplexServerState P)}
    (h : DuplexServerRun K A stack d kss cns tr bs₁ bs₂ bs₃ l₁ l₂ l₃)
    (hcns : cns.exflag = .none) (hest : l₃.cns.exflag = .sessionEstablished) :
    ∃ s, (Session.duplexServerNone (kss.config K A)).after (d.suite K)
        [connectRequestOf K A l₁.resp, duplexExchangeRequestOf K A l₂.resp, .establishRequest]
          = some s ∧ DuplexServerAt K A l₃.ks l₃.cns s := by
  obtain ⟨h₁, h₂, h₃⟩ := h.ran hcns hest
  have hat : DuplexServerAt K A kss cns (.duplexServerNone (kss.config K A)) := ⟨hcns, rfl⟩
  obtain ⟨s₁, _, hs₁, hat₁⟩ := h₁.receives fun _ hflag =>
    kexDuplexServerConnectResponse_refines (h.checked hcns hest).unexpired
      (Locals.sameChannel_received.duplexServerAt hat) hflag
  rw [hs₁.after]
  cases hs₁
  obtain ⟨s₂, _, hs₂, hat₂⟩ := h₂.receives fun _ hflag =>
    kexDuplexServerExchangeResponse_refines (Locals.sameChannel_sent.duplexServerAt hat₁) hflag
  rw [hs₂.after]
  cases hs₂
  obtain ⟨s₃, _, hs₃, hat₃⟩ := h₃.receives fun _ hflag => refines_countedStep
    (kexDuplexServerEstablishResponse_refines (d := d)
      (Locals.sameChannel_sent.duplexServerAt hat₂) hflag)
  rw [hs₃.after]
  exact ⟨s₃, rfl, hat₃⟩

/-- **And a simplex client.** -/
theorem SimplexClientRun.refines {kcs : QsmpKexSimplexClientState P}
    {l₁ l₂ : Locals (QsmpKexSimplexClientState P)}
    (h : SimplexClientRun K A stack d kcs cns tr bs₁ bs₂ l₁ l₂)
    (hest : l₂.cns.exflag = .sessionEstablished) :
    ∃ s, (Session.simplexClientConnectRequest (kcs.config K A)).after (d.suite K)
        [connectResponseOf K A simplexHashSize l₁.resp, .simplexExchangeResponse] = some s ∧
      SimplexClientAt K A l₂.ks l₂.cns s := by
  obtain ⟨h₁, h₂⟩ := h.ran hest
  obtain ⟨s₁, _, hs₁, hat₁⟩ := h₁.receives fun _ hflag =>
    kexSimplexClientExchangeRequest_refines (Locals.sameChannel_sent.simplexClientAt
      (simplexClientAt_start (h.checked hest).unexpired)) hflag
  rw [hs₁.after]
  cases hs₁
  obtain ⟨s₂, _, hs₂, hat₂⟩ := h₂.receives fun _ hflag =>
    kexSimplexClientEstablishVerify_refines (d := d)
      (Locals.sameChannel_sent.simplexClientAt hat₁) hflag
  rw [hs₂.after]
  exact ⟨s₂, rfl, hat₂⟩

/-- **And a simplex server.** -/
theorem SimplexServerRun.refines {kss : QsmpKexSimplexServerState P}
    {l₁ l₂ : Locals (QsmpKexSimplexServerState P)}
    (h : SimplexServerRun K A stack d kss cns tr bs₁ bs₂ l₁ l₂)
    (hcns : cns.exflag = .none) (hest : l₂.cns.exflag = .sessionEstablished) :
    ∃ s, (Session.simplexServerNone (kss.config K A)).after (d.suite K)
        [connectRequestOf K A l₁.resp, simplexExchangeRequestOf K A l₂.resp] = some s ∧
      SimplexServerAt K A l₂.ks l₂.cns s := by
  obtain ⟨h₁, h₂⟩ := h.ran hcns hest
  have hat : SimplexServerAt K A kss cns (.simplexServerNone (kss.config K A)) := ⟨hcns, rfl⟩
  obtain ⟨s₁, _, hs₁, hat₁⟩ := h₁.receives fun _ hflag =>
    kexSimplexServerConnectResponse_refines (h.checked hcns hest).unexpired
      (Locals.sameChannel_received.simplexServerAt hat) hflag
  rw [hs₁.after]
  cases hs₁
  obtain ⟨s₂, _, hs₂, hat₂⟩ := h₂.receives fun _ hflag =>
    kexSimplexServerExchangeResponse_refines (d := d)
      (Locals.sameChannel_sent.simplexServerAt hat₁) hflag
  rw [hs₂.after]
  exact ⟨s₂, rfl, hat₂⟩

end

/-! ## The drivers

Whatever the socket delivers, a driver that returns with the exchange flag
on `session_established` is where the protocol is after the messages of the
packets it took. -/

section

variable {stack : Mem} {tr : List Event} {qerr : QsmpErrors} {cns' : QsmpConnectionState}

theorem duplexClient_refines {kcs ks : QsmpKexDuplexClientState P}
    (h : Runs (qsmpKexDuplexClientKeyExchange K A stack d kcs cns) tr (some (qerr, ks, cns')))
    (hest : cns'.exflag = .sessionEstablished) :
    ∃ p₁ p₂ p₃ ks' s, clientPackets P stack tr = [p₁, p₂, p₃] ∧
      (Session.duplexClientConnectRequest (kcs.config K A)).after (d.suite K)
        [connectResponseOf K A duplexHashSize p₁, duplexExchangeResponseOf K A p₂,
          .establishResponse] = some s ∧ DuplexClientAt K A ks' cns' s := by
  obtain ⟨_, _, _, _, _, _, hrun, rfl⟩ := duplexClient_established h hest
  obtain ⟨s, hafter, hat⟩ := hrun.refines hest
  exact ⟨_, _, _, _, s, hrun.packets_eq, hafter, hat⟩

theorem duplexServer_refines {kss ks : QsmpKexDuplexServerState P}
    (h : Runs (qsmpKexDuplexServerKeyExchange K A stack d kss cns) tr (some (qerr, ks, cns')))
    (hcns : cns.exflag = .none) (hest : cns'.exflag = .sessionEstablished) :
    ∃ p₁ p₂ p₃ ks' s, serverPackets P stack tr = [p₁, p₂, p₃] ∧
      (Session.duplexServerNone (kss.config K A)).after (d.suite K)
        [connectRequestOf K A p₁, duplexExchangeRequestOf K A p₂, .establishRequest] = some s ∧
      DuplexServerAt K A ks' cns' s := by
  obtain ⟨_, _, _, _, _, _, hrun, rfl⟩ := duplexServer_established h hest
  obtain ⟨s, hafter, hat⟩ := hrun.refines hcns hest
  exact ⟨_, _, _, _, s, hrun.packets_eq, hafter, hat⟩

theorem simplexClient_refines {kcs ks : QsmpKexSimplexClientState P}
    (h : Runs (qsmpKexSimplexClientKeyExchange K A stack d kcs cns) tr (some (qerr, ks, cns')))
    (hest : cns'.exflag = .sessionEstablished) :
    ∃ p₁ p₂ ks' s, clientPackets P stack tr = [p₁, p₂] ∧
      (Session.simplexClientConnectRequest (kcs.config K A)).after (d.suite K)
        [connectResponseOf K A simplexHashSize p₁, .simplexExchangeResponse] = some s ∧
      SimplexClientAt K A ks' cns' s := by
  obtain ⟨_, _, _, _, hrun, rfl⟩ := simplexClient_established h hest
  obtain ⟨s, hafter, hat⟩ := hrun.refines hest
  exact ⟨_, _, _, s, hrun.packets_eq, hafter, hat⟩

theorem simplexServer_refines {kss ks : QsmpKexSimplexServerState P}
    (h : Runs (qsmpKexSimplexServerKeyExchange K A stack d kss cns) tr (some (qerr, ks, cns')))
    (hcns : cns.exflag = .none) (hest : cns'.exflag = .sessionEstablished) :
    ∃ p₁ p₂ ks' s, serverPackets P stack tr = [p₁, p₂] ∧
      (Session.simplexServerNone (kss.config K A)).after (d.suite K)
        [connectRequestOf K A p₁, simplexExchangeRequestOf K A p₂] = some s ∧
      SimplexServerAt K A ks' cns' s := by
  obtain ⟨_, _, _, _, hrun, rfl⟩ := simplexServer_established h hest
  obtain ⟨s, hafter, hat⟩ := hrun.refines hcns hest
  have hcns : ∀ l : Locals (QsmpKexSimplexServerState P), SameChannel l.cns l.countSent.cns :=
    fun l => ⟨rfl, rfl, rfl, rfl⟩
  exact ⟨_, _, _, s, hrun.packets_eq, hafter, (hcns _).simplexServerAt hat⟩

end

end Qsmp
