import Qsmp.Common.Sharing
import Qsmp.Ratchet.Agreement
/-!
# Connections that share the ratchet keys

The signing key, the peer's verification key and the KEM key pair of the
asymmetric ratchet are two variables of the process, however many duplex
connections it has. A connection gets out of its operations what it would
get alone as long as each finds in these variables what the connection's
own operations have put there; a second connection that is made in between
puts its own keys there.
-/

namespace Qsmp

variable {P : Params} {K : Primitives} {A : Asymmetric P}

/-! ## The operations -/

/-- The operations of a duplex connection that touch the variables. A key
exchange touches neither before it is over, so that what it comes to is an
input here: whether it returns `qsmp_error_none`, the connection it leaves,
and the keys it was given. -/
inductive RatchetOp (A : Asymmetric P) where
  | connect (established : Bool) (cns : QsmpConnectionState) (sigkey : Octets P.signingKeySize)
      (verkey : Octets P.verifyKeySize)
  | request (keypair sign : A.Seed) (slen : ℕ)
  | response (encap sign : A.Seed) (slen : ℕ) (stack : Mem) (packetin : QsmpPacket)
  | finalize (packetin : QsmpPacket)

/-- What `qsmp_client_duplex_connect_ipv4`, its IPv6 twin and
`listener_duplex_start` do once the key exchange is over: they store the
signing key and the remote verification key for the asymmetric ratchet. -/
def storeSigkeys (established : Bool) (cns : QsmpConnectionState)
    (sigkey : Octets P.signingKeySize) (verkey : Octets P.verifyKeySize) (keys : RatchetKeys P) :
    RatchetResult P :=
  if established then ⟨true, cns, { keys with sigkey, verkey }, none⟩
  else ⟨false, cns, keys, none⟩

namespace RatchetOp

variable (K)

/-- The operation on a connection and the variables. -/
def run (keys : RatchetKeys P) (cns : QsmpConnectionState) : RatchetOp A → RatchetResult P
  | connect established left sigkey verkey => storeSigkeys established left sigkey verkey keys
  | request keypair sign slen =>
    qsmpDuplexSendAsymmetricRatchetRequest K A keypair sign slen keys cns
  | response encap sign slen stack packetin =>
    asymmetricRatchetResponse K A encap sign slen stack keys cns packetin
  | finalize packetin => asymmetricRatchetFinalize K A keys cns packetin

/-- The outcome of an operation: success or failure, the connection with
the keys it has then, and the bytes sent. -/
structure Outcome where
  res : Bool
  cns : QsmpConnectionState
  out : Option Bytes

/-- The operation as a step of connections that share the variables. -/
def act (o : RatchetOp A) (keys : RatchetKeys P) (cns : QsmpConnectionState) :
    Shared (RatchetKeys P) QsmpConnectionState Outcome :=
  let r := o.run K keys cns
  ⟨⟨r.res, r.cns, r.out⟩, r.keys, r.cns⟩

/-- The test of the two handlers before they read a key: the packet is in
sequence, has the size of its message, and its tag is authentic. -/
def opens (size : ℕ) (cns : QsmpConnectionState) (packetin : QsmpPacket) : Bool :=
  packetin.sequence = cns.rxseq + 1 ∧ packetin.msglen = UInt32.ofNat size ∧
    (qscRcsTransform K (qscRcsSetAssociated K cns.rxcpr (qsmpPacketHeaderSerialize packetin))
      Mem.zero packetin.pmessage (ratchetLength packetin)).2.2 = true

/-- Their test before they read a key of the connection's own: the signature
verifies under the key of the peer, and the hash that is signed is that of
the `size` bytes behind it. -/
def verifies (P : Params) (A : Asymmetric P) (size : ℕ) (cns : QsmpConnectionState)
    (verkey : Octets P.verifyKeySize) (packetin : QsmpPacket) : Bool :=
  let imsg := (qscRcsTransform K
    (qscRcsSetAssociated K cns.rxcpr (qsmpPacketHeaderSerialize packetin)) Mem.zero
    packetin.pmessage (ratchetLength packetin)).2.1
  (A.verify (imsg.read 0 P.ratchetSignedSize) verkey).any fun message =>
    qscIntutilsVerify (signedHash simplexHashSize message)
      (qscSha3Compute256 K.permute (imsg.read P.ratchetSignedSize size)).val = 0

/-- **What an operation reads** of the variables: the request the signing
key; the response and the end of the ratchet the verification key, if the
packet opens, and the signing key or the private key, if it verifies. -/
def reads (o : RatchetOp A) (cns : QsmpConnectionState) (keys : RatchetKeys P) :
    Option (Octets P.signingKeySize) × Option (Octets P.verifyKeySize) ×
      Option (Octets P.privateKeySize) :=
  match o with
  | connect _ _ _ _ => (none, none, none)
  | request _ _ _ => (some keys.sigkey, none, none)
  | response _ _ _ _ packetin =>
    if opens K P.ratchetRequestMessageSize cns packetin then
      (if verifies K P A P.publicKeySize cns keys.verkey packetin then some keys.sigkey else none,
        some keys.verkey, none)
    else (none, none, none)
  | finalize packetin =>
    if opens K P.ratchetResponseMessageSize cns packetin then
      (none, some keys.verkey,
        if verifies K P A P.cipherTextSize cns keys.verkey packetin then some keys.prikey else none)
    else (none, none, none)

end RatchetOp

/-! ## An operation depends on what it reads -/

/-- Two results that differ in the variables only. -/
def SameOutcome (r r' : RatchetResult P) : Prop :=
  r.res = r'.res ∧ r.cns = r'.cns ∧ r.out = r'.out

section Reads

variable {cns : QsmpConnectionState} {keys keys' : RatchetKeys P} {packetin : QsmpPacket}

theorem request_of_reads {keypair sign : A.Seed} {slen : ℕ} (h : keys.sigkey = keys'.sigkey) :
    SameOutcome (qsmpDuplexSendAsymmetricRatchetRequest K A keypair sign slen keys cns)
      (qsmpDuplexSendAsymmetricRatchetRequest K A keypair sign slen keys' cns) := by
  simp only [qsmpDuplexSendAsymmetricRatchetRequest, h]
  split <;> exact ⟨rfl, rfl, rfl⟩

/-- A packet that does not open is refused before a key is read. -/
theorem response_of_closed {encap sign : A.Seed} {slen : ℕ} {stack : Mem}
    (h : ¬ RatchetOp.opens K P.ratchetRequestMessageSize cns packetin) :
    SameOutcome (asymmetricRatchetResponse K A encap sign slen stack keys cns packetin)
      (asymmetricRatchetResponse K A encap sign slen stack keys' cns packetin) := by
  simp only [RatchetOp.opens, decide_eq_true_eq, not_and] at h
  simp only [asymmetricRatchetResponse]
  split
  · rename_i hpos
    rw [if_neg (h hpos.1 hpos.2), if_neg (h hpos.1 hpos.2)]
    exact ⟨rfl, rfl, rfl⟩
  · exact ⟨rfl, rfl, rfl⟩

theorem response_of_reads {encap sign : A.Seed} {slen : ℕ} {stack : Mem}
    (hsigkey : keys.sigkey = keys'.sigkey) (hverkey : keys.verkey = keys'.verkey) :
    SameOutcome (asymmetricRatchetResponse K A encap sign slen stack keys cns packetin)
      (asymmetricRatchetResponse K A encap sign slen stack keys' cns packetin) := by
  simp only [asymmetricRatchetResponse, hsigkey, hverkey]
  repeat' split
  all_goals exact ⟨rfl, rfl, rfl⟩

/-- One that does not verify is refused before a key of its own is. -/
theorem response_of_unverified {encap sign : A.Seed} {slen : ℕ} {stack : Mem}
    (hverkey : keys.verkey = keys'.verkey)
    (h : ¬ RatchetOp.verifies K P A P.publicKeySize cns keys'.verkey packetin) :
    SameOutcome (asymmetricRatchetResponse K A encap sign slen stack keys cns packetin)
      (asymmetricRatchetResponse K A encap sign slen stack keys' cns packetin) := by
  simp only [RatchetOp.verifies] at h
  simp only [asymmetricRatchetResponse, hverkey]
  split
  · split
    · split
      · rename_i message hmessage
        rw [hmessage, Option.any_some, decide_eq_true_eq] at h
        have hhash : ¬ qscIntutilsVerify (signedHash simplexHashSize message) (qscSha3Compute256
            K.permute ((qscRcsTransform K (qscRcsSetAssociated K cns.rxcpr
              (qsmpPacketHeaderSerialize packetin)) Mem.zero packetin.pmessage
              (ratchetLength packetin)).2.1.octets P.ratchetSignedSize P.publicKeySize).val).val
            = 0 := h
        rw [if_neg hhash, if_neg hhash]
        exact ⟨rfl, rfl, rfl⟩
      · exact ⟨rfl, rfl, rfl⟩
    · exact ⟨rfl, rfl, rfl⟩
  · exact ⟨rfl, rfl, rfl⟩

theorem finalize_of_closed (h : ¬ RatchetOp.opens K P.ratchetResponseMessageSize cns packetin) :
    SameOutcome (asymmetricRatchetFinalize K A keys cns packetin)
      (asymmetricRatchetFinalize K A keys' cns packetin) := by
  simp only [RatchetOp.opens, decide_eq_true_eq, not_and] at h
  simp only [asymmetricRatchetFinalize]
  split
  · rename_i hpos
    rw [if_neg (h hpos.1 hpos.2), if_neg (h hpos.1 hpos.2)]
    exact ⟨rfl, rfl, rfl⟩
  · exact ⟨rfl, rfl, rfl⟩

theorem finalize_of_reads (hverkey : keys.verkey = keys'.verkey)
    (hprikey : keys.prikey = keys'.prikey) :
    SameOutcome (asymmetricRatchetFinalize K A keys cns packetin)
      (asymmetricRatchetFinalize K A keys' cns packetin) := by
  simp only [asymmetricRatchetFinalize, hverkey, hprikey]
  repeat' split
  all_goals exact ⟨rfl, rfl, rfl⟩

theorem finalize_of_unverified (hverkey : keys.verkey = keys'.verkey)
    (h : ¬ RatchetOp.verifies K P A P.cipherTextSize cns keys'.verkey packetin) :
    SameOutcome (asymmetricRatchetFinalize K A keys cns packetin)
      (asymmetricRatchetFinalize K A keys' cns packetin) := by
  simp only [RatchetOp.verifies] at h
  simp only [asymmetricRatchetFinalize, hverkey]
  split
  · split
    · split
      · rename_i message hmessage
        rw [hmessage, Option.any_some, decide_eq_true_eq] at h
        have hhash : ¬ qscIntutilsVerify (signedHash simplexHashSize message) (qscSha3Compute256
            K.permute ((qscRcsTransform K (qscRcsSetAssociated K cns.rxcpr
              (qsmpPacketHeaderSerialize packetin)) Mem.zero packetin.pmessage
              (ratchetLength packetin)).2.1.octets P.ratchetSignedSize P.cipherTextSize).val).val
            = 0 := h
        rw [if_neg hhash, if_neg hhash]
        exact ⟨rfl, rfl, rfl⟩
      · exact ⟨rfl, rfl, rfl⟩
    · exact ⟨rfl, rfl, rfl⟩
  · exact ⟨rfl, rfl, rfl⟩

/-- **The outcome of an operation depends on what it reads**, and on its
connection. -/
theorem run_of_reads (o : RatchetOp A) (h : o.reads K cns keys = o.reads K cns keys') :
    SameOutcome (o.run K keys cns) (o.run K keys' cns) := by
  cases o with
  | connect established left sigkey verkey =>
    cases established <;> exact ⟨rfl, rfl, rfl⟩
  | request keypair sign slen =>
    exact request_of_reads (Option.some.inj (congrArg Prod.fst h))
  | response encap sign slen stack packetin =>
    by_cases hopens : RatchetOp.opens K P.ratchetRequestMessageSize cns packetin
    · simp only [RatchetOp.reads, if_pos hopens, Prod.mk.injEq, Option.some.injEq] at h
      obtain ⟨hsigkey, hverkey, -⟩ := h
      by_cases hverifies : RatchetOp.verifies K P A P.publicKeySize cns keys'.verkey packetin
      · rw [hverkey, if_pos hverifies, if_pos hverifies] at hsigkey
        exact response_of_reads (Option.some.inj hsigkey) hverkey
      · exact response_of_unverified hverkey hverifies
    · exact response_of_closed hopens
  | finalize packetin =>
    by_cases hopens : RatchetOp.opens K P.ratchetResponseMessageSize cns packetin
    · simp only [RatchetOp.reads, if_pos hopens, Prod.mk.injEq, Option.some.injEq] at h
      obtain ⟨-, hverkey, hprikey⟩ := h
      by_cases hverifies : RatchetOp.verifies K P A P.cipherTextSize cns keys'.verkey packetin
      · rw [hverkey, if_pos hverifies, if_pos hverifies] at hprikey
        exact finalize_of_reads hverkey (Option.some.inj hprikey)
      · exact finalize_of_unverified hverkey hverifies
    · exact finalize_of_closed hopens

end Reads

/-! ## Any number of connections -/

section Connections

variable {ι : Type} [DecidableEq ι]

/-- A process: the variables, and its duplex connections. -/
abbrev RatchetProcess (ι : Type) (P : Params) := Sharing ι (RatchetKeys P) QsmpConnectionState

/-- **The connection finds its own keys**: each of its operations reads from
the variables what the connection's own operations have left there. -/
def RatchetProcess.FindsOwnKeys (K : Primitives) (s : RatchetProcess ι P) (c : ι)
    (history : List (ι × RatchetOp A)) : Prop :=
  Sharing.FindsOwn (RatchetOp.act K) (RatchetOp.reads K) c s.store s history

/-- **Connections that find their own keys are isolated**: two histories
with the same operations of a connection, in the same order, give these
operations the same outcomes, whatever the operations of the others. -/
theorem ratchets_isolated (s : RatchetProcess ι P) (c : ι)
    (history history' : List (ι × RatchetOp A))
    (hown : Sharing.own c history = Sharing.own c history')
    (h : s.FindsOwnKeys K c history) (h' : s.FindsOwnKeys K c history') :
    Sharing.outcomes (RatchetOp.act K) c s history
      = Sharing.outcomes (RatchetOp.act K) c s history' := by
  refine Sharing.outcomes_eq (fun o cns keys keys' hreads => ?_) hown h h'
  obtain ⟨hres, hcns, hout⟩ := run_of_reads o hreads
  refine ⟨?_, hcns⟩
  simp only [RatchetOp.act, hres, hcns, hout]

end Connections

/-! ## A second connection -/

/-- A process before any connection. -/
def RatchetProcess.plain (P : Params) : RatchetProcess ℕ P where
  store := ⟨Octets.zero _, Octets.zero _, Octets.zero _, Octets.zero _⟩
  parties _ := .initial .duplex false

/-- The connection of a side that signs with the byte `own` and verifies
with the byte `peer`. -/
def RatchetOp.connectPlain (P : Params) (own peer : UInt8) : RatchetOp (Asymmetric.plain P) :=
  .connect true (RatchetPeer.plain P false own peer).cns (.repeated _ own) (.repeated _ peer)

/-- A connection made before this one makes no difference to it, nor does its
request in between, which writes the KEM key pair. -/
theorem ratchets_isolated_plain :
    Sharing.outcomes (RatchetOp.act .plain) 0 (RatchetProcess.plain .dilithiumKyber)
        [(0, .connectPlain _ 1 2), (0, .request (7 : UInt8) (8 : UInt8) 0)] =
      Sharing.outcomes (RatchetOp.act .plain) 0 (RatchetProcess.plain .dilithiumKyber)
        [(1, .connectPlain _ 3 4), (0, .connectPlain _ 1 2),
          (1, .request (5 : UInt8) (6 : UInt8) 0), (0, .request (7 : UInt8) (8 : UInt8) 0)] :=
  ratchets_isolated _ _ _ _ rfl ⟨rfl, rfl, trivial⟩ ⟨rfl, rfl, trivial⟩

/-- **Isolation** of the connections of one process. -/
def RatchetsIsolated (P : Params) (K : Primitives) (A : Asymmetric P) : Prop :=
  ∀ (s : RatchetProcess ℕ P) (c : ℕ) (history history' : List (ℕ × RatchetOp A)),
    Sharing.own c history = Sharing.own c history' →
    Sharing.outcomes (RatchetOp.act K) c s history
      = Sharing.outcomes (RatchetOp.act K) c s history'

/-- A signature under one byte does not verify under another. -/
theorem plain_verify_other {b c : UInt8} (hsize : 0 < P.signatureSize) (hs : 0 < P.signingKeySize)
    (hv : 0 < P.verifyKeySize) (hne : b ≠ c) {m : Bytes} {seed : UInt8} :
    (Asymmetric.plain P).verify ((Asymmetric.plain P).sign m (.repeated _ b) seed) (.repeated _ c)
      = none := by
  have hsign : (Asymmetric.plain P).sign m (.repeated _ b) seed
      = List.replicate P.signatureSize b ++ m :=
    congrArg (fun d => List.replicate P.signatureSize d ++ m) (headD_repeated hs)
  rw [hsign]
  simp only [Asymmetric.plain, headD_repeated hv]
  rw [List.take_left' List.length_replicate, if_neg]
  intro heq
  exact hne ((List.replicate_inj.1 heq).2.resolve_left (Nat.ne_of_gt hsize))

/-- **A request is answered under the right key only**: the packet of an
honest request is answered by a connection that finds its peer's key in the
variables, and refused by one that finds a key under which the request does
not verify. -/
theorem request_answered {s : RatchetPeers P} (h : s.Agreed A)
    (keypair sign encap sign' : A.Seed)
    (hsize : (Exchange.asymmetric keypair sign encap sign').FullSize K s) :
    ∃ packetin,
      (asymmetricRatchetResponse K A encap sign'
        (headerSize + P.ratchetResponseMessageSize + socketTerminatorSize) .zero s.answerer.keys
        s.answerer.cns packetin).res = true ∧
      ∀ keys : RatchetKeys P, A.verify (signed256 K A (A.generateKeypair keypair).1.val
          s.starter.keys.sigkey sign) keys.verkey = none →
        (asymmetricRatchetResponse K A encap sign'
          (headerSize + P.ratchetResponseMessageSize + socketTerminatorSize) .zero keys
          s.answerer.cns packetin).res = false := by
  obtain ⟨out, -, hon⟩ := sendAsymmetricRatchetRequest_posts (K := K) s.starter.keys
    h.paired.duplexX h.paired.forth.ciphers.encrypts keypair sign hsize.1 rfl
  have hseq : s.starter.cns.txseq + 1 = s.answerer.cns.rxseq + 1 :=
    congrArg (· + 1) h.paired.forth.sequence
  refine ⟨delivered .zero out, ?_, fun keys hverify => ?_⟩
  · obtain ⟨_, hres, -⟩ := asymmetricRatchetResponse_opens s.answerer.keys hon
      h.paired.forth.ciphers hseq rfl rfl hsize.1 (h.forth _ _) h.paired.back.ciphers.encrypts
      encap sign' hsize.2 rfl .zero .zero
    rw [hres]
  · refine asymmetricRatchetResponse_unverified keys hon h.paired.forth.ciphers hseq ?_ rfl ?_
      encap sign' .zero .zero
    · rw [requestLetter, List.length_append, hsize.1, (A.generateKeypair keypair).1.property]
    · rw [requestLetter, List.take_left' hsize.1]
      exact hverify

/-- **A second connection spoils a ratchet** of the first: it puts another
verification key in the place of the first one's, and the request of the
first one's peer does not verify any more. -/
theorem not_ratchetsIsolated_connect :
    ¬ RatchetsIsolated .dilithiumKyber .plain (Asymmetric.plain .dilithiumKyber) := by
  intro hisolated
  have hagreed : ((RatchetPeers.plain .dilithiumKyber).turned true).Agreed
      (Asymmetric.plain .dilithiumKyber) :=
    ⟨RatchetPeers.paired_plain.symm,
      fun m seed => (Asymmetric.plain_signsFor (by decide) (by decide) m seed).1,
      fun m seed => (Asymmetric.plain_signsFor (by decide) (by decide) m seed).1⟩
  -- The peer of the first connection sends a request.
  obtain ⟨packetin, hanswered, hrefused⟩ := request_answered (K := .plain) hagreed (5 : UInt8)
    (6 : UInt8) (7 : UInt8) (8 : UInt8) ⟨Asymmetric.length_plain, Asymmetric.length_plain⟩
  have hspoiled := hrefused ⟨Octets.zero _, Octets.zero _, .repeated _ 3, .repeated _ 4⟩
    (plain_verify_other (by decide) (by decide) (by decide) (by decide))
  have hsame := congrArg (List.map RatchetOp.Outcome.res) (hisolated (.plain .dilithiumKyber) 0
    [(0, .connectPlain _ 1 2), (0, .response (7 : UInt8) (8 : UInt8)
      (headerSize + Params.dilithiumKyber.ratchetResponseMessageSize + socketTerminatorSize)
      .zero packetin)]
    [(0, .connectPlain _ 1 2), (1, .connectPlain _ 3 4), (0, .response (7 : UInt8) (8 : UInt8)
      (headerSize + Params.dilithiumKyber.ratchetResponseMessageSize + socketTerminatorSize)
      .zero packetin)] rfl)
  have hres : [true, true] = [true, false] :=
    ((congrArg (fun b => [true, b]) hanswered).symm.trans hsame).trans
      (congrArg (fun b => [true, b]) hspoiled)
  exact absurd hres (by decide)

end Qsmp
