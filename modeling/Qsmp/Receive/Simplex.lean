import Qsmp.Common.Histories
import Qsmp.Kex.Simplex
import Qsmp.Receive.Bounds
import Qsmp.Ratchet.Letters
/-!
# Simplex sessions and the ratchets

The functions that start a ratchet refuse a connection that is not duplex.
The three handlers do not look at the mode: a packet of a ratchet that is
authentic keys a simplex connection anew, with the key length of a duplex
one. Nothing else in the receive loops touches the keys.
-/

namespace Qsmp

variable {P : Params} (K : Primitives) {A : Asymmetric P}

/-! ## Simplex connections -/

/-- **What the simplex exchange leaves**, on either side: the ratchet key
and both ciphers come from one expansion. -/
structure SimplexEstablished (cns : QsmpConnectionState) : Prop where
  mode : cns.mode = .simplex
  keyed : ∃ sec schash, cns.rtcs = (simplexExpand K sec schash).rtcs ∧
    ((cns.txcpr =
          qscRcsInitialize K ((simplexExpand K sec schash).first simplexSymmetricKeySize) true ∧
        cns.rxcpr =
          qscRcsInitialize K ((simplexExpand K sec schash).second simplexSymmetricKeySize) false) ∨
      (cns.rxcpr =
          qscRcsInitialize K ((simplexExpand K sec schash).first simplexSymmetricKeySize) false ∧
        cns.txcpr =
          qscRcsInitialize K ((simplexExpand K sec schash).second simplexSymmetricKeySize) true))

/-- **A connection that has kept its keys**: simplex still, both ciphers
RCS-256 with the round keys of `first`, and the ratchet key untouched. -/
structure KeepsExchange (first cns : QsmpConnectionState) : Prop where
  mode : cns.mode = .simplex
  rxtype : cns.rxcpr.ctype = .cipher256
  txtype : cns.txcpr.ctype = .cipher256
  rxkeys : cns.rxcpr.schedule = first.rxcpr.schedule
  txkeys : cns.txcpr.schedule = first.txcpr.schedule
  rtcs : cns.rtcs = first.rtcs

/-- What happens on a connection: a pass of the receive loop, a call of one
of the functions that send, or what other threads do to the rest of the
state the loop shares. -/
inductive SimplexStep {P : Params} (A : Asymmetric P) where
  | pass (e : ReceiveEvent A)
  | encrypt (packetout : QsmpPacket) (message : Bytes)
  | symmetricRequest (rkey : Option (Octets rtokSize)) (slen : ℕ)
  | asymmetricRequest (keypair sign : A.Seed) (slen : ℕ)
  | others (kpa : QsmpKeepAliveState) (keys : RatchetKeys P)

/-- One step of `client_receive_loop` or `listener_receive_loop`, or beside
it. -/
def simplexStep (role : ReceiveRole) (s : ReceiveLoop P) :
    SimplexStep A → Option (ReceiveLoop P)
  | .pass e => if s.Runs then some (receiveLoopPass K role s e).loop else none
  | .encrypt packetout message =>
    some { s with prcv := { s.prcv with
      cns := (qsmpEncryptPacket P K s.prcv.cns packetout message).2.1 } }
  | .symmetricRequest rkey slen =>
    let r := qsmpDuplexSendSymmetricRatchetRequest K rkey slen s.prcv.keys s.prcv.cns
    some { s with prcv := { s.prcv with cns := r.cns, keys := r.keys } }
  | .asymmetricRequest keypair sign slen =>
    let r := qsmpDuplexSendAsymmetricRatchetRequest K A keypair sign slen s.prcv.keys s.prcv.cns
    some { s with prcv := { s.prcv with cns := r.cns, keys := r.keys } }
  | .others kpa keys => some { s with prcv := { s.prcv with kpa, keys } }

/-! ## Packets of a ratchet that are accepted -/

/-- A packet of a ratchet is in sequence, and its tag verifies. -/
def OpensRatchet (cns : QsmpConnectionState) (pkt : QsmpPacket) : Prop :=
  pkt.sequence = cns.rxseq + 1 ∧
    (qscRcsTransform K (qscRcsSetAssociated K cns.rxcpr (qsmpPacketHeaderSerialize pkt)) Mem.zero
      pkt.pmessage (ratchetLength pkt)).2.2 = true

/-- Its plain text. -/
def ratchetText (cns : QsmpConnectionState) (pkt : QsmpPacket) : Mem :=
  (qscRcsTransform K (qscRcsSetAssociated K cns.rxcpr (qsmpPacketHeaderSerialize pkt)) Mem.zero
    pkt.pmessage (ratchetLength pkt)).2.1

/-- The plain text starts with the signed hash of the `n` bytes behind
it. -/
def SignsRatchet (A : Asymmetric P) (verkey : Octets P.verifyKeySize) (text : Mem) (n : ℕ) :
    Prop :=
  ∃ message, A.verify (text.read 0 P.ratchetSignedSize) verkey = some message ∧
    qscIntutilsVerify (signedHash simplexHashSize message)
      (qscSha3Compute256 K.permute (text.octets P.ratchetSignedSize n).val).val = 0

/-- The length of the answer to an asymmetric request, with the
terminator. -/
def ratchetAnswerLength (A : Asymmetric P) (keys : RatchetKeys P) (encap sign : A.Seed)
    (rpub : Octets P.publicKeySize) : ℕ :=
  let khash := qscSha3Compute256 K.permute
    ((Mem.zero.write P.ratchetSignedSize (A.encapsulate rpub encap).2.val).read
      P.ratchetSignedSize P.cipherTextSize)
  (A.sign khash.val keys.sigkey sign).length + headerSize + P.cipherTextSize +
    duplexMactagSize.toNat + socketTerminatorSize

/-- **A packet of a ratchet that its handler accepts.** The mode is not
among the conditions. -/
def RatchetAccepted (role : ReceiveRole) (prcv : ReceiverState P) (e : ReceiveEvent A)
    (pkt : QsmpPacket) : Prop :=
  let text := ratchetText K prcv.cns pkt
  match ReceiveBranch.of role pkt.flag with
  | .symmetricRatchetRequest => OpensRatchet K prcv.cns pkt
  | .asymmetricRatchetRequest =>
    OpensRatchet K prcv.cns pkt ∧ pkt.msglen = UInt32.ofNat P.ratchetRequestMessageSize ∧
      SignsRatchet K A prcv.keys.verkey text P.publicKeySize ∧
      e.slen = ratchetAnswerLength K A prcv.keys e.encap e.sign
        (text.octets P.ratchetSignedSize P.publicKeySize)
  | .asymmetricRatchetResponse =>
    OpensRatchet K prcv.cns pkt ∧ pkt.msglen = UInt32.ofNat P.ratchetResponseMessageSize ∧
      SignsRatchet K A prcv.keys.verkey text P.cipherTextSize ∧
      A.decapsulate (text.octets P.ratchetSignedSize P.cipherTextSize) prcv.keys.prikey ≠ none
  | _ => False

/-! ## What the handlers do -/

/-- A handler that keys the connection anew just if `accepted`, and fails
with the keys as they were otherwise. -/
def Settles (cns : QsmpConnectionState) (r : RatchetResult P) (accepted : Prop) : Prop :=
  (accepted ∧ r.res = true ∧ ∃ cns secret, r.cns = symmetricRatchet K P cns secret) ∨
    (¬ accepted ∧ r.res = false ∧
      ∀ first, KeepsExchange first cns → KeepsExchange first r.cns)

section Handlers

variable {K} {keys : RatchetKeys P} {cns first : QsmpConnectionState} {pkt : QsmpPacket}
variable {encap sign : A.Seed} {slen : ℕ} {stack : Mem} {secret : Bytes}

/-- A packet moves a cipher on under the same round keys. -/
theorem qscRcsTransform_bound {ctx : RcsState} {data : Bytes} {output input : Mem} {n : ℕ}
    {opened : RcsState × Mem × Bool}
    (h : qscRcsTransform K (qscRcsSetAssociated K ctx data) output input n = opened) :
    opened.1.ctype = ctx.ctype ∧ opened.1.schedule = ctx.schedule := by
  subst h
  exact ⟨qscRcsTransform_frame.1.trans qscRcsSetAssociated_ctype,
    qscRcsTransform_frame.2.1.trans qscRcsSetAssociated_schedule⟩

/-- The receiving cipher has moved on. -/
theorem KeepsExchange.received {rxcpr : RcsState} {rxseq : UInt64} (h : KeepsExchange first cns)
    (hbound : rxcpr.ctype = cns.rxcpr.ctype ∧ rxcpr.schedule = cns.rxcpr.schedule) :
    KeepsExchange first { cns with rxcpr, rxseq } :=
  { h with rxtype := hbound.1.trans h.rxtype, rxkeys := hbound.2.trans h.rxkeys }

/-- A handler that fails leaves the connection with that cipher. -/
theorem Settles.refused {accepted : Prop} {rxcpr : RcsState} {rxseq : UInt64} {out : Option Bytes}
    (hbound : rxcpr.ctype = cns.rxcpr.ctype ∧ rxcpr.schedule = cns.rxcpr.schedule)
    (hnot : ¬ accepted) : Settles K cns ⟨false, { cns with rxcpr, rxseq }, keys, out⟩ accepted :=
  .inr ⟨hnot, rfl, fun _ h => h.received hbound⟩

/-- What is signed is decided by the message the verifier gives back. -/
theorem signsRatchet_iff {verkey : Octets P.verifyKeySize} {text : Mem} {n : ℕ} {message : Bytes}
    (h : A.verify (text.read 0 P.ratchetSignedSize) verkey = some message) :
    SignsRatchet K A verkey text n ↔ qscIntutilsVerify (signedHash simplexHashSize message)
      (qscSha3Compute256 K.permute (text.octets P.ratchetSignedSize n).val).val = 0 := by
  constructor
  · rintro ⟨message', hmessage, hhash⟩
    obtain rfl := Option.some.inj (h.symm.trans hmessage)
    exact hhash
  · exact fun hhash => ⟨message, h, hhash⟩

theorem symmetricRatchetResponse_settles :
    Settles K cns (symmetricRatchetResponse K keys cns pkt) (OpensRatchet K cns pkt) := by
  rw [symmetricRatchetResponse, OpensRatchet]
  dsimp only
  by_cases hseq : pkt.sequence = cns.rxseq + 1
  · rw [if_pos hseq]
    cases hres : (qscRcsTransform K (qscRcsSetAssociated K cns.rxcpr
        (qsmpPacketHeaderSerialize pkt)) Mem.zero pkt.pmessage (ratchetLength pkt)).2.2 with
    | true => exact .inl ⟨⟨hseq, rfl⟩, rfl, _, _, rfl⟩
    | false => exact .refused (qscRcsTransform_bound rfl) fun h => absurd h.2 (by simp)
  · rw [if_neg hseq]
    exact .refused ⟨rfl, rfl⟩ fun h => hseq h.1

theorem asymmetricRatchetResponse_settles :
    Settles K cns (asymmetricRatchetResponse K A encap sign slen stack keys cns pkt)
      (OpensRatchet K cns pkt ∧ pkt.msglen = UInt32.ofNat P.ratchetRequestMessageSize ∧
        SignsRatchet K A keys.verkey (ratchetText K cns pkt) P.publicKeySize ∧
        slen = ratchetAnswerLength K A keys encap sign
          ((ratchetText K cns pkt).octets P.ratchetSignedSize P.publicKeySize)) := by
  rw [asymmetricRatchetResponse, OpensRatchet, ratchetText]
  dsimp only
  by_cases hpkt : pkt.sequence = cns.rxseq + 1 ∧
      pkt.msglen = UInt32.ofNat P.ratchetRequestMessageSize
  · rw [if_pos hpkt]
    obtain ⟨hseq, hmsglen⟩ := hpkt
    obtain ⟨⟨rxcpr, imsg, res⟩, hopened⟩ : ∃ opened, qscRcsTransform K (qscRcsSetAssociated K
      cns.rxcpr (qsmpPacketHeaderSerialize pkt)) Mem.zero pkt.pmessage (ratchetLength pkt) =
        opened := ⟨_, rfl⟩
    have hbound := qscRcsTransform_bound hopened
    rw [hopened]
    dsimp only
    cases res with
    | false => exact .refused hbound fun h => absurd h.1.2 (by simp)
    | true =>
      rw [if_pos rfl]
      cases hverify : A.verify (imsg.read 0 P.ratchetSignedSize) keys.verkey with
      | none =>
        refine .refused hbound fun h => ?_
        obtain ⟨message, hmessage, -⟩ := h.2.2.1
        exact absurd (hverify.symm.trans hmessage) (by simp)
      | some message =>
        dsimp only
        by_cases hhash : qscIntutilsVerify (signedHash simplexHashSize message) (qscSha3Compute256
            K.permute (imsg.octets P.ratchetSignedSize P.publicKeySize).val).val = 0
        · rw [if_pos hhash]
          split
          · rename_i hslen
            exact .inl ⟨⟨⟨hseq, rfl⟩, hmsglen, (signsRatchet_iff hverify).2 hhash, hslen⟩, rfl, _,
              _, rfl⟩
          · rename_i hslen
            refine .inr ⟨fun h => hslen h.2.2.2, rfl, fun _ h => ?_⟩
            have hreceived : KeepsExchange _ { cns with rxcpr, rxseq := cns.rxseq + 1 } :=
              h.received hbound
            exact { hreceived with
              txtype := (qscRcsTransform_bound rfl).1.trans h.txtype
              txkeys := (qscRcsTransform_bound rfl).2.trans h.txkeys }
        · rw [if_neg hhash]
          exact .refused hbound fun h => hhash ((signsRatchet_iff hverify).1 h.2.2.1)
  · rw [if_neg hpkt]
    exact .refused ⟨rfl, rfl⟩ fun h => hpkt ⟨h.1.1, h.2.1⟩

theorem asymmetricRatchetFinalize_settles :
    Settles K cns (asymmetricRatchetFinalize K A keys cns pkt)
      (OpensRatchet K cns pkt ∧ pkt.msglen = UInt32.ofNat P.ratchetResponseMessageSize ∧
        SignsRatchet K A keys.verkey (ratchetText K cns pkt) P.cipherTextSize ∧
        A.decapsulate ((ratchetText K cns pkt).octets P.ratchetSignedSize P.cipherTextSize)
          keys.prikey ≠ none) := by
  rw [asymmetricRatchetFinalize, OpensRatchet, ratchetText]
  dsimp only
  by_cases hpkt : pkt.sequence = cns.rxseq + 1 ∧
      pkt.msglen = UInt32.ofNat P.ratchetResponseMessageSize
  · rw [if_pos hpkt]
    obtain ⟨hseq, hmsglen⟩ := hpkt
    obtain ⟨⟨rxcpr, imsg, res⟩, hopened⟩ : ∃ opened, qscRcsTransform K (qscRcsSetAssociated K
      cns.rxcpr (qsmpPacketHeaderSerialize pkt)) Mem.zero pkt.pmessage (ratchetLength pkt) =
        opened := ⟨_, rfl⟩
    have hbound := qscRcsTransform_bound hopened
    rw [hopened]
    dsimp only
    cases res with
    | false => exact .refused hbound fun h => absurd h.1.2 (by simp)
    | true =>
      rw [if_pos rfl]
      cases hverify : A.verify (imsg.read 0 P.ratchetSignedSize) keys.verkey with
      | none =>
        refine .refused hbound fun h => ?_
        obtain ⟨message, hmessage, -⟩ := h.2.2.1
        exact absurd (hverify.symm.trans hmessage) (by simp)
      | some message =>
        dsimp only
        by_cases hhash : qscIntutilsVerify (signedHash simplexHashSize message) (qscSha3Compute256
            K.permute (imsg.octets P.ratchetSignedSize P.cipherTextSize).val).val = 0
        · rw [if_pos hhash]
          cases hdecap : A.decapsulate (imsg.octets P.ratchetSignedSize P.cipherTextSize)
              keys.prikey with
          | none => exact .refused hbound fun h => h.2.2.2 rfl
          | some secret =>
            exact .inl ⟨⟨⟨hseq, rfl⟩, hmsglen, (signsRatchet_iff hverify).2 hhash, by simp⟩, rfl, _,
              _, rfl⟩
        · rw [if_neg hhash]
          exact .refused hbound fun h => hhash ((signsRatchet_iff hverify).1 h.2.2.1)
  · rw [if_neg hpkt]
    exact .refused ⟨rfl, rfl⟩ fun h => hpkt ⟨h.1.1, h.2.1⟩

/-- **A ratchet leaves the keys of the exchange**: it keys with 64 bytes. -/
theorem not_keepsExchange_symmetricRatchet :
    ¬ KeepsExchange first (symmetricRatchet K P cns secret) := by
  intro h
  have htype := h.rxtype
  rw [symmetricRatchet] at htype
  have hlength : ∀ {e : Expansion}, (e.first duplexSymmetricKeySize).key.length = 64 ∧
      (e.second duplexSymmetricKeySize).key.length = 64 := fun {e} =>
    ⟨Mem.length_read, Mem.length_read⟩
  split at htype
  · rw [qscRcsInitialize] at htype
    dsimp only at htype
    rw [if_pos hlength.1] at htype
    exact absurd htype (by simp)
  · rw [qscRcsInitialize] at htype
    dsimp only at htype
    rw [if_pos hlength.2] at htype
    exact absurd htype (by simp)

theorem KeepsExchange.encrypt {packetout : QsmpPacket} {message : Bytes}
    (h : KeepsExchange first cns) :
    KeepsExchange first (qsmpEncryptPacket P K cns packetout message).2.1 := by
  rw [qsmpEncryptPacket]
  split
  · exact { h with
      txtype := (qscRcsTransform_bound rfl).1.trans h.txtype
      txkeys := (qscRcsTransform_bound rfl).2.trans h.txkeys }
  · exact h

theorem KeepsExchange.decrypt {message : Mem} (h : KeepsExchange first cns) :
    KeepsExchange first (qsmpDecryptPacket K cns message pkt).2.1 := by
  rw [qsmpDecryptPacket]
  dsimp only
  split
  · split
    · split
      · exact h.received (qscRcsTransform_bound rfl)
      · exact h.received (qscRcsTransform_bound rfl)
    · exact { h with }
  · exact { h with }

/-- The functions that start a ratchet look at the mode. -/
theorem symmetricRequest_refuses {rkey : Option (Octets rtokSize)} (h : cns.mode = .simplex) :
    qsmpDuplexSendSymmetricRatchetRequest K rkey slen keys cns = ⟨false, cns, keys, none⟩ :=
  if_neg (by simp [h])

theorem asymmetricRequest_refuses {keypair : A.Seed} (h : cns.mode = .simplex) :
    qsmpDuplexSendAsymmetricRatchetRequest K A keypair sign slen keys cns =
      ⟨false, cns, keys, none⟩ :=
  if_neg (by simp [h])

end Handlers

/-! ## What a step does -/

section Steps

variable {K} {role : ReceiveRole} {s s' : ReceiveLoop P} {e : ReceiveEvent A} {pkt : QsmpPacket}
variable {first : QsmpConnectionState}

/-- A handler keeps them just if it fails. -/
theorem receiveRatchet_keeps_iff {reads : ℕ} {r : RatchetResult P} {err : QsmpErrors}
    {accepted : Prop} (h : KeepsExchange first s.prcv.cns) (hr : Settles K s.prcv.cns r accepted) :
    KeepsExchange first (receiveRatchet s reads r err).loop.prcv.cns ↔ ¬ accepted := by
  have hcns : (receiveRatchet s reads r err).loop.prcv.cns = r.cns := by
    rw [receiveRatchet]
    dsimp only
    split
    · rfl
    · rfl
  rw [hcns]
  rcases hr with ⟨haccepted, -, cns, secret, hkeyed⟩ | ⟨hnot, -, hkept⟩
  · refine iff_of_false (fun hkeeps => ?_) (not_not.2 haccepted)
    rw [hkeyed] at hkeeps
    exact not_keepsExchange_symmetricRatchet hkeeps
  · exact iff_of_true (hkept first h) hnot

/-- **A packet**: the keys are kept just if no handler of a ratchet accepts
it. -/
theorem receivePacket_keeps_iff (h : KeepsExchange first s.prcv.cns) :
    KeepsExchange first (receivePacket K role s e pkt).loop.prcv.cns ↔
      ¬ RatchetAccepted K role s.prcv e pkt := by
  rw [receivePacket, RatchetAccepted]
  cases ReceiveBranch.of role pkt.flag with
  | encryptedMessage =>
    refine iff_of_true ?_ not_false
    rw [receiveEncryptedMessage]
    dsimp only
    split
    · exact h
    · split
      · exact h.decrypt
      · exact h.decrypt
  | connectionTerminate => exact iff_of_true h not_false
  | keepAliveRequest => exact iff_of_true h not_false
  | keepAliveResponse =>
    refine iff_of_true ?_ not_false
    dsimp only
    rw [receiveKeepAliveResponse]
    split
    · dsimp only
      split
      · exact h
      · exact h
    · exact h
  | symmetricRatchetRequest => exact receiveRatchet_keeps_iff h symmetricRatchetResponse_settles
  | asymmetricRatchetRequest => exact receiveRatchet_keeps_iff h asymmetricRatchetResponse_settles
  | asymmetricRatchetResponse => exact receiveRatchet_keeps_iff h asymmetricRatchetFinalize_settles
  | other =>
    refine iff_of_true ?_ not_false
    dsimp only
    split
    · exact h
    · exact h

/-- A pass in which no packet comes, by the header it peeks at and the bytes
it receives, that a handler of a ratchet accepts. -/
def NoRatchet (K : Primitives) (role : ReceiveRole) (s : ReceiveLoop P) : SimplexStep A → Prop
  | .pass e => ∀ pkt ∈ e.comes s.buff, ¬ RatchetAccepted K role s.prcv e pkt
  | _ => True

/-- **A step** keeps the keys just if no handler accepts a packet in it. -/
theorem simplexStep_keeps_iff {a : SimplexStep A} (h : KeepsExchange first s.prcv.cns)
    (hstep : simplexStep K role s a = some s') :
    KeepsExchange first s'.prcv.cns ↔ NoRatchet K role s a := by
  cases a with
  | pass e =>
    obtain ⟨-, hs⟩ := Option.ite_none_right_eq_some.1 hstep
    obtain rfl := Option.some.inj hs
    rw [NoRatchet, ← receiveLoopPass_handled K role s e]
    rcases receiveLoopPass_hands K role s e with ⟨hhandled, hprcv⟩ | ⟨buff, pkt, hhandled, hloop⟩
    · refine iff_of_true ?_ fun pkt hpkt => absurd hpkt (by simp [hhandled])
      rw [hprcv]
      exact h
    · have hpacket : KeepsExchange first
          (receivePacket K role { s with buff } e pkt).loop.prcv.cns ↔
            ¬ RatchetAccepted K role s.prcv e pkt := receivePacket_keeps_iff h
      rw [hloop, hhandled, hpacket]
      simp
  | encrypt packetout message =>
    obtain rfl := Option.some.inj hstep
    exact iff_of_true h.encrypt trivial
  | symmetricRequest rkey slen =>
    obtain rfl := Option.some.inj hstep
    refine iff_of_true ?_ trivial
    dsimp only
    rw [symmetricRequest_refuses h.mode]
    exact h
  | asymmetricRequest keypair sign slen =>
    obtain rfl := Option.some.inj hstep
    refine iff_of_true ?_ trivial
    dsimp only
    rw [asymmetricRequest_refuses h.mode]
    exact h
  | others kpa keys =>
    obtain rfl := Option.some.inj hstep
    exact iff_of_true h trivial

end Steps

/-! ## Established by the exchange -/

section Established

variable {K} {cns : QsmpConnectionState} {packetin packetout : QsmpPacket}

/-- A 32-byte key makes an RCS-256 cipher. -/
theorem qscRcsInitialize_simplex {k : RcsKeyparams} {encryption : Bool}
    (h : k.key.length = simplexSymmetricKeySize) :
    (qscRcsInitialize K k encryption).ctype = .cipher256 := by
  rw [qscRcsInitialize]
  dsimp only
  exact if_neg (by rw [h]; decide)

theorem SimplexEstablished.keeps (h : SimplexEstablished K cns) : KeepsExchange cns cns := by
  obtain ⟨sec, schash, -, hciphers⟩ := h.keyed
  have htypes : cns.rxcpr.ctype = .cipher256 ∧ cns.txcpr.ctype = .cipher256 := by
    rcases hciphers with ⟨htx, hrx⟩ | ⟨hrx, htx⟩
    · rw [htx, hrx]
      exact ⟨qscRcsInitialize_simplex Mem.length_read, qscRcsInitialize_simplex Mem.length_read⟩
    · rw [htx, hrx]
      exact ⟨qscRcsInitialize_simplex Mem.length_read, qscRcsInitialize_simplex Mem.length_read⟩
  exact ⟨h.mode, htypes.1, htypes.2, rfl, rfl, rfl⟩

/-- The client's last steps leave such a connection. -/
theorem simplexEstablished_client {encap : A.Seed} {kcs kcs' : QsmpKexSimplexClientState P}
    {packetin' packetout' : QsmpPacket} {r r' : StepResult (QsmpKexSimplexClientState P)}
    (hr : r = kexSimplexClientExchangeRequest K A encap kcs cns packetin packetout)
    (h : r.qerr = .none)
    (hr' : r' = kexSimplexClientEstablishVerify kcs' r.cns packetin' packetout')
    (h' : r'.qerr = .none) (hmode : cns.mode = .simplex) : SimplexEstablished K r'.cns := by
  obtain ⟨-, -, -, hcns⟩ := kexSimplexClientExchangeRequest_of_none hr h
  obtain ⟨-, -, hcns'⟩ := kexSimplexClientEstablishVerify_of_none hr' h'
  rw [hcns', hcns]
  exact ⟨hmode, _, _, rfl, .inl ⟨rfl, rfl⟩⟩

/-- So does the server's. -/
theorem simplexEstablished_server {kss : QsmpKexSimplexServerState P}
    {r : StepResult (QsmpKexSimplexServerState P)}
    (hr : r = kexSimplexServerExchangeResponse K A kss cns packetin packetout)
    (h : r.qerr = .none) (hmode : cns.mode = .simplex) : SimplexEstablished K r.cns := by
  obtain ⟨-, ssec, -, -, hcns⟩ := kexSimplexServerExchangeResponse_of_none hr h
  rw [hcns]
  exact ⟨hmode, _, _, rfl, .inr ⟨rfl, rfl⟩⟩

end Established

/-! ## A peer that holds the keys -/

/-- The token of a symmetric ratchet, which a peer that holds the keys may
send at any time. -/
def rekeyLetter (cns : QsmpConnectionState) : Letter :=
  ⟨.symmetricRatchetRequest, cns.rxseq + 1, (Octets.zero rtokSize).val, duplexMactagSize⟩

/-- It on the wire: sealed by the mirror of the receive cipher, and filled
up to the length of a duplex tag. -/
def rekeyBytes (K : Primitives) (cns : QsmpConnectionState) : Bytes :=
  qsmpPacketHeaderSerialize (rekeyLetter cns).header ++
    (((rekeyLetter cns).bound K { cns.rxcpr with encrypt := true }).sealed K
      (rekeyLetter cns).plain ++ List.replicate 32 0)

/-- A pass that receives it. -/
def rekeyEvent (P : Params) (K : Primitives) (cns : QsmpConnectionState) :
    ReceiveEvent (Asymmetric.plain P) :=
  .plain P (rekeyBytes K cns) (rekeyBytes K cns)

section Peer

variable {K} {role : ReceiveRole} {s : ReceiveLoop P} {cns : QsmpConnectionState} {buff : Mem}

/-- **Any running session accepts it**, if it receives. -/
theorem rekeyBytes_accepted {prcv : ReceiverState P} {e : ReceiveEvent A}
    (hdir : prcv.cns.rxcpr.encrypt = false) :
    RatchetAccepted K role prcv e (delivered buff (rekeyBytes K prcv.cns)) := by
  have hon : (rekeyLetter prcv.cns).On K { prcv.cns.rxcpr with encrypt := true }
      (rekeyBytes K prcv.cns) := ⟨_, rfl⟩
  have hmirrors : RcsMirrors { prcv.cns.rxcpr with encrypt := true } prcv.cns.rxcpr :=
    ⟨rfl, rfl, rfl, rfl, rfl, rfl, hdir⟩
  have hbranch : ReceiveBranch.of role (delivered buff (rekeyBytes K prcv.cns)).flag =
      .symmetricRatchetRequest := by
    rw [hon.flag]
    cases role <;> rfl
  have hplain : (rekeyLetter prcv.cns).plain.length = 32 := (Octets.zero rtokSize).property
  rw [RatchetAccepted, hbranch]
  refine ⟨hon.sequence buff, ?_⟩
  rw [ratchetLength_delivered hon rfl (by rw [hplain]; decide), hon.opens hmirrors]

/-- The header, the token with its tag, and what fills it up. -/
theorem length_rekeyBytes (htype : cns.rxcpr.ctype = .cipher256) :
    (rekeyBytes K cns).length = 109 := by
  rw [rekeyBytes, List.length_append, List.length_append, length_qsmpPacketHeaderSerialize,
    Letter.length_sealed_bound, List.length_replicate]
  change headerSize + ((rekeyLetter cns).plain.length + cns.rxcpr.ctype.macSize + 32) = 109
  rw [htype]
  rfl

theorem rekeyEvent_hdr :
    (rekeyEvent P K cns).hdr = qsmpPacketHeaderSerialize (rekeyLetter cns).header :=
  List.take_left' length_qsmpPacketHeaderSerialize

theorem rekeyEvent_pkt : (rekeyEvent P K cns).pkt =
    { (rekeyLetter cns).header with pmessage := QsmpPacket.init.pmessage } := by
  rw [ReceiveEvent.pkt, rekeyEvent_hdr]
  exact qsmpPacketHeaderDeserialize_of_read
    (Mem.read_write_of_length length_qsmpPacketHeaderSerialize)

/-- **It comes** as it was sent. -/
theorem rekeyEvent_comes (htype : cns.rxcpr.ctype = .cipher256) (hmax : 96 ≤ P.messageMax)
    (block : Block) :
    ∃ buff, (rekeyEvent P K cns).comes block = some (delivered buff (rekeyBytes K cns)) := by
  have hon : (rekeyLetter cns).On K { cns.rxcpr with encrypt := true } (rekeyBytes K cns) :=
    ⟨_, rfl⟩
  have hlength : (rekeyBytes K cns).length = 109 := length_rekeyBytes htype
  have hmsglen : (rekeyEvent P K cns).pkt.msglen.toNat = 96 := by
    rw [rekeyEvent_pkt]
    rfl
  have hrange : P.InRange (rekeyEvent P K cns).pkt := by
    rw [Params.InRange, hmsglen]
    exact ⟨by decide, hmax⟩
  -- Room for two terminators lies behind the message.
  have hreceive : P.receiveLength (rekeyEvent P K cns).pkt = 111 := by
    rw [Params.receiveLength, if_pos hrange, hmsglen]
    rfl
  have hreceived : (rekeyEvent P K cns).received = rekeyBytes K cns := by
    rw [ReceiveEvent.received, hreceive]
    exact List.take_of_length_le (by rw [rekeyEvent, ReceiveEvent.plain, hlength]; decide)
  have hresize : resizeBuff P block (rekeyEvent P K cns).pkt (rekeyEvent P K cns).buffGrant =
      some (block.resize 111 Mem.zero) := by
    rw [resizeBuff, if_pos hrange, hreceive]
    rfl
  have hne : (rekeyEvent P K cns).received ≠ [] := by
    rw [hreceived, ← List.length_pos_iff, hlength]
    decide
  have hfields : ∀ pmessage, { (rekeyEvent P K cns).pkt with pmessage } =
      { (rekeyLetter cns).header with pmessage } := fun pmessage => by rw [rekeyEvent_pkt]
  refine ⟨((block.resize 111 Mem.zero).clear 111).mem, ?_⟩
  rw [ReceiveEvent.comes,
    if_pos ⟨by rw [rekeyEvent_hdr, length_qsmpPacketHeaderSerialize], hne⟩, hresize,
    Option.map_some, hreceive, hreceived, hon.delivered_eq]
  exact congrArg some (hfields _)

end Peer

/-! ## When a simplex session keeps its keys -/

/-- **Simplex sessions never ratchet**: in every history both ciphers keep
their type and their keys, and the ratchet key stays. -/
def NeverRatchets (K : Primitives) (A : Asymmetric P) : Prop :=
  ∀ (role : ReceiveRole) (s : ReceiveLoop P) (steps : List (SimplexStep A)),
    SimplexEstablished K s.prcv.cns →
    Along (simplexStep K role) (fun _ _ s' => KeepsExchange s.prcv.cns s'.prcv.cns) s steps

/-- **A simplex session keeps its keys** exactly as long as no handler of a
ratchet accepts a packet. -/
theorem neverRatchets_iff (K : Primitives) (A : Asymmetric P) (role : ReceiveRole)
    (s : ReceiveLoop P) (steps : List (SimplexStep A)) (h : SimplexEstablished K s.prcv.cns) :
    Along (simplexStep K role) (fun _ _ s' => KeepsExchange s.prcv.cns s'.prcv.cns) s steps ↔
      Along (simplexStep K role) (fun s a _ => NoRatchet K role s a) s steps :=
  along_iff_along (I := fun t => KeepsExchange s.prcv.cns t.prcv.cns)
    (fun _ _ _ _ _ hkeeps => hkeeps) (fun _ _ _ hkeeps hstep => simplexStep_keeps_iff hkeeps hstep)
    h.keeps

/-- A client's end of a simplex session, keyed by zeros. -/
def simplexSession (P : Params) : ReceiveLoop P :=
  let prnd := simplexExpand .plain (Octets.zero _) (Octets.zero _)
  let first := prnd.first simplexSymmetricKeySize
  let second := prnd.second simplexSymmetricKeySize
  .start { ReceiverState.plain P with
    cns := { (ReceiverState.plain P).cns with
      rtcs := prnd.rtcs
      txcpr := qscRcsInitialize .plain first true
      rxcpr := qscRcsInitialize .plain second false
      mode := .simplex } } .zero .zero

theorem simplexEstablished_session : SimplexEstablished .plain (simplexSession P).prcv.cns :=
  ⟨rfl, _, _, rfl, .inl ⟨rfl, rfl⟩⟩

theorem neverRatchets_iff_session :
    SimplexEstablished .plain (simplexSession .dilithiumKyber).prcv.cns ∧
      (Along (simplexStep .plain .client) (fun _ _ s' =>
          KeepsExchange (simplexSession .dilithiumKyber).prcv.cns s'.prcv.cns)
          (simplexSession .dilithiumKyber)
          [.pass (rekeyEvent .dilithiumKyber .plain (simplexSession .dilithiumKyber).prcv.cns)] ↔
        Along (simplexStep .plain .client) (fun s a _ => NoRatchet .plain .client s a)
          (simplexSession .dilithiumKyber)
          [.pass (rekeyEvent .dilithiumKyber .plain (simplexSession .dilithiumKyber).prcv.cns)]) :=
  ⟨simplexEstablished_session, neverRatchets_iff .plain (Asymmetric.plain _) .client _ _
    simplexEstablished_session⟩

/-- **The peer ratchets a simplex session**, with a token it seals under
the session keys. -/
theorem not_neverRatchets_rekey :
    ¬ NeverRatchets .plain (Asymmetric.plain .dilithiumKyber) := by
  intro hnever
  obtain ⟨s, hs⟩ : ∃ s, s = simplexSession .dilithiumKyber := ⟨_, rfl⟩
  have hestablished : SimplexEstablished .plain s.prcv.cns := hs ▸ simplexEstablished_session
  have hdir : s.prcv.cns.rxcpr.encrypt = false := by
    rw [hs]
    rfl
  have hruns : s.Runs := by
    rw [hs]
    exact ⟨rfl, rfl⟩
  have hstep : simplexStep .plain .client s
      (.pass (rekeyEvent .dilithiumKyber .plain s.prcv.cns)) =
        some (receiveLoopPass .plain .client s
          (rekeyEvent .dilithiumKyber .plain s.prcv.cns)).loop :=
    if_pos hruns
  obtain ⟨hkept, -⟩ := hnever .client s [_] hestablished _ hstep
  obtain ⟨buff, hcomes⟩ := rekeyEvent_comes (P := .dilithiumKyber) (K := .plain)
    hestablished.keeps.rxtype (by decide) s.buff
  have hnone := (simplexStep_keeps_iff hestablished.keeps hstep).1 hkept
  exact hnone _ hcomes (rekeyBytes_accepted hdir)

end Qsmp
