import Qsmp.Common.Duet
import Qsmp.Channel.Correctness
import Qsmp.Kex.Messages
import Qsmp.Kex.Runs
/-!
# Honest parties agree

Run against each other over an in-order, loss-free stream, the two drivers
of a mode exchange the messages of `Messages`, return without error, and
leave connections that mirror each other in both directions.
-/

namespace Qsmp

open Dialogue

variable {P : Params} {K : Primitives} {A : Asymmetric P} {stack : Mem}

/-! ## Stages that go through -/

section Stages

variable {S : Type} {l l' : Locals S} {step : KexStep S} {len : ℕ} {failure : QsmpErrors}
variable {flag flag' : QsmpFlags} {sequence sequence' : UInt64} {body body' : Bytes}
variable {p q : QsmpPacket}

theorem runs_transmit (hreqt : l.reqt = some q) (hq : Says q flag sequence body)
    (hfit : headerSize + body.length ≤ P.messageMax) :
    Runs (transmit P stack l) [.sentAll (frame flag sequence body)] (some l.countSent) := by
  have hwire : wire P stack l.reqt = frame flag sequence body := by rw [hreqt, hq.wire_eq hfit]
  rw [transmit, hwire]
  refine .send (Nat.le_refl _) ?_
  rw [if_pos rfl]
  exact .done _

theorem runs_receive (hfit : headerSize + body.length ≤ P.messageMax)
    (hlen : len = body.length + headerSize + socketTerminatorSize)
    (hp : p = parse P stack (frame flag l.cns.rxseq body) l.resp) :
    Runs (receive P stack len l) [.receivedAll (frame flag l.cns.rxseq body)]
      (some (l.countReceived p)) := by
  have hframe : (frame flag l.cns.rxseq body).length = len := length_frame.trans hlen.symm
  subst hframe
  refine .recv (Nat.le_refl _) ?_
  have hseq : p.sequence = l.cns.rxseq := hp ▸ (says_parse_frame hfit).sequence
  rw [if_pos rfl, ← hp, if_pos hseq]
  exact .done _

/-- A receive stage whose frame comes in sequence with the flag expected
does what it does with the packet. -/
theorem runs_receiveStage {accept : Locals S → Dialogue (Locals S)} {tr : List Event}
    (hl : l.qerr = .none) (hfit : headerSize + body.length ≤ P.messageMax)
    (hlen : len = body.length + headerSize + socketTerminatorSize)
    (hp : p = parse P stack (frame flag l.cns.rxseq body) l.resp)
    (haccept : Runs (accept (l.countReceived p)) tr (some l')) :
    Runs (receiveStage P stack len flag failure accept l)
      (.receivedAll (frame flag l.cns.rxseq body) :: tr) (some l') := by
  have hin : Says p flag l.cns.rxseq body := hp ▸ says_parse_frame hfit
  have hflag : (l.countReceived p).resp.flag = flag.toByte := hin.flag
  refine (runs_receive hfit hlen hp).bind ?_
  rw [ifNone_of_none (l := l.countReceived _) hl, dispatch, if_pos hflag]
  exact haccept

/-- A send, and a receive stage. -/
theorem runs_exchangeStage {accept : Locals S → Dialogue (Locals S)} {tr : List Event}
    (hl : l.qerr = .none) (hreqt : l.reqt = some q) (hq : Says q flag' sequence body')
    (hfit' : headerSize + body'.length ≤ P.messageMax)
    (hfit : headerSize + body.length ≤ P.messageMax)
    (hlen : len = body.length + headerSize + socketTerminatorSize)
    (hp : p = parse P stack (frame flag l.cns.rxseq body) l.resp)
    (haccept : Runs (accept (l.countSent.countReceived p)) tr (some l')) :
    Runs (exchangeStage P stack len flag failure accept l)
      (.sentAll (frame flag' sequence body') :: .receivedAll (frame flag l.cns.rxseq body) :: tr)
      (some l') := by
  refine (runs_transmit hreqt hq hfit').bind (f := ifNone _) ?_
  rw [ifNone_of_none (l := l.countSent) hl]
  exact runs_receiveStage (l := l.countSent) hl hfit hlen hp haccept

theorem runs_answer (hreqt : l.reqt = some q) :
    Runs (answer step l) []
      (some (l.apply (step l.ks l.cns l.resp (qsmpPacketClear q)))) := by
  rw [answer, hreqt]
  exact .done _

theorem runs_ifNone {f : Locals S → Dialogue (Locals S)} {tr : List Event} (hl : l.qerr = .none)
    (h : Runs (f l) tr (some l')) : Runs (ifNone f l) tr (some l') := by
  rw [ifNone_of_none hl]
  exact h

theorem runs_ifNone_clearResponse {f : Locals S → Dialogue (Locals S)} {tr : List Event}
    (hl : l.qerr = .none) (h : Runs (f l.cleared) tr (some l')) :
    Runs (ifNone (clearResponse f) l) tr (some l') := runs_ifNone hl h

/-- With no error set, the driver ends on its connection. -/
theorem runs_finish (P : Params) (stack : Mem) (sequence : UInt64) (reset : S → S)
    (hl : l.qerr = .none) :
    Runs (finish P stack sequence reset l) [] (some (.none, reset l.ks, l.cns)) := by
  rw [finish, if_pos hl, hl]
  exact .done _

/-- Locals that go on: no error, the role's state, the connection, and a
packet to send. -/
structure Ready (l : Locals S) (ks : S) (cns : QsmpConnectionState) (flag : QsmpFlags)
    (body : Bytes) : Prop where
  qerr : l.qerr = .none
  role : l.ks = ks
  connection : l.cns = cns
  packet : ∃ q, l.reqt = some q ∧ Says q flag cns.txseq body

theorem Ready.cleared {ks : S} {cns : QsmpConnectionState} (h : Ready l ks cns flag body) :
    Ready l.cleared ks cns flag body := ⟨h.qerr, h.role, h.connection, h.packet⟩

theorem Answers.ready {ks : S} {cns : QsmpConnectionState} {r : StepResult S}
    (h : Answers r ks cns flag body) : Ready (l.apply r) ks cns flag body :=
  ⟨h.qerr, h.role, h.connection, r.packetout, rfl, h.packet⟩

theorem Answers.ofStep {ks : S} {cns : QsmpConnectionState} {r : StepResult S}
    (h : Answers r ks cns flag body) : Ready (.ofStep r) ks cns flag body :=
  ⟨h.qerr, h.role, h.connection, r.packetout, rfl, h.packet⟩

/-- One packet sent and one received. -/
def QsmpConnectionState.counted (cns : QsmpConnectionState) : QsmpConnectionState :=
  { cns with txseq := cns.txseq + 1, rxseq := cns.rxseq + 1 }

variable {ks ks' : S} {cns cns' : QsmpConnectionState} {flag'' : QsmpFlags} {body'' : Bytes}

/-- **A stage that goes through**: it sends what it is ready to send, takes
the frame it expects, and is ready to send what its step answers. -/
theorem ready_exchangeStage (P : Params) (stack : Mem) (step : KexStep S) (len : ℕ)
    (flag : QsmpFlags) (failure : QsmpErrors) (h : Ready l ks cns flag' body')
    (hfit' : headerSize + body'.length ≤ P.messageMax)
    (hfit : headerSize + body.length ≤ P.messageMax)
    (hlen : len = body.length + headerSize + socketTerminatorSize)
    (hstep : ∀ p q, Says p flag cns.rxseq body →
      Answers (step ks cns.counted p q) ks' cns' flag'' body'') :
    ∃ l', Runs (exchangeStage P stack len flag failure (answer step) l)
        [.sentAll (frame flag' cns.txseq body'), .receivedAll (frame flag cns.rxseq body)]
        (some l') ∧ Ready l' ks' cns' flag'' body'' := by
  obtain ⟨hl, rfl, rfl, q, hreqt, hq⟩ := h
  obtain ⟨p, hp⟩ : ∃ p, p = parse P stack (frame flag l.cns.rxseq body) l.resp := ⟨_, rfl⟩
  have hin : Says p flag l.cns.rxseq body := hp ▸ says_parse_frame hfit
  exact ⟨_, runs_exchangeStage hl hreqt hq hfit' hfit hlen hp (runs_answer hreqt),
    (hstep p (qsmpPacketClear q) hin).ready⟩

/-- The same, of a last stage that makes no packet. -/
theorem ready_verifyStage (P : Params) (stack : Mem) (step : KexStep S) (len : ℕ)
    (flag : QsmpFlags) (failure : QsmpErrors) (h : Ready l ks cns flag' body')
    (hfit' : headerSize + body'.length ≤ P.messageMax)
    (hfit : headerSize + body.length ≤ P.messageMax)
    (hlen : len = body.length + headerSize + socketTerminatorSize)
    (hstep : ∀ p q, Says p flag cns.rxseq body →
      (step ks cns.counted p q).qerr = .none ∧ (step ks cns.counted p q).cns = cns') :
    ∃ l', Runs (exchangeStage P stack len flag failure (verify step) l)
        [.sentAll (frame flag' cns.txseq body'), .receivedAll (frame flag cns.rxseq body)]
        (some l') ∧ l'.qerr = .none ∧ l'.cns = cns' := by
  obtain ⟨hl, rfl, rfl, q, hreqt, hq⟩ := h
  obtain ⟨p, hp⟩ : ∃ p, p = parse P stack (frame flag l.cns.rxseq body) l.resp := ⟨_, rfl⟩
  have hin : Says p flag l.cns.rxseq body := hp ▸ says_parse_frame hfit
  obtain ⟨hqerr, hcns⟩ := hstep p (l.reqt.getD .init) hin
  exact ⟨_, runs_exchangeStage hl hreqt hq hfit' hfit hlen hp (.done _), hqerr, hcns⟩

/-- A server's first stage, which sends nothing before. -/
theorem ready_firstStage (P : Params) (stack : Mem) (step : KexStep S) (len : ℕ)
    (flag : QsmpFlags) (failure : QsmpErrors) (hfit : headerSize + body.length ≤ P.messageMax)
    (hlen : len = body.length + headerSize + socketTerminatorSize)
    (hstep : ∀ p q, Says p flag cns.rxseq body →
      Answers (step ks { cns with rxseq := cns.rxseq + 1 } p q) ks' cns' flag' body') :
    ∃ l', Runs (receiveStage P stack len flag failure (answerFirst step) (.start ks cns))
        [.receivedAll (frame flag cns.rxseq body)] (some l') ∧ Ready l' ks' cns' flag' body' := by
  obtain ⟨p, hp⟩ : ∃ p, p = parse P stack (frame flag cns.rxseq body) .init := ⟨_, rfl⟩
  have hin : Says p flag cns.rxseq body := hp ▸ says_parse_frame hfit
  exact ⟨_, runs_receiveStage (l := .start ks cns) rfl hfit hlen hp (.done _),
    (hstep p (qsmpPacketClear .init) hin).ready⟩

/-- The establish stage of the duplex server, whatever sequence number the
establish request carries. -/
theorem ready_establishStage (P : Params) (stack : Mem) (step : KexStep S) (sequence : UInt64)
    (h : Ready l ks cns flag' body') (hfit' : headerSize + body'.length ≤ P.messageMax)
    (hstep : ∀ p q, Says p .establishRequest sequence [] →
      Answers (step ks cns.counted p q) ks' cns' .establishResponse []) :
    ∃ l', Runs (duplexServerEstablishStage (P := P) stack step l)
        [.sentAll (frame flag' cns.txseq body'),
          .receivedAll (frame .establishRequest sequence []),
          .sentAll (frame .establishResponse cns'.txseq [])]
        (some l') ∧ l'.qerr = .none ∧ l'.cns = { cns' with txseq := cns'.txseq + 1 } := by
  obtain ⟨hl, rfl, rfl, q, hreqt, hq⟩ := h
  obtain ⟨p, hp⟩ : ∃ p, p = parse P stack (frame .establishRequest sequence []) l.resp := ⟨_, rfl⟩
  have hin : Says p .establishRequest sequence [] := hp ▸ says_parse_frame fits_nil
  obtain ⟨l₁, hl₁⟩ : ∃ l₁, l₁ = (l.countSent.countReceived p).apply
    (step l.ks l.cns.counted p (qsmpPacketClear q)) := ⟨_, rfl⟩
  obtain ⟨hqerr, hks, hcns, q₁, hreqt₁, hq₁⟩ : Ready l₁ ks' cns' .establishResponse [] :=
    hl₁ ▸ (hstep p (qsmpPacketClear q) hin).ready
  have hanswer : Runs (answer step (l.countSent.countReceived p)) [] (some l₁) :=
    hl₁ ▸ runs_answer (l := l.countSent.countReceived p) hreqt
  have hlen : (frame .establishRequest sequence []).length = estlen := length_frame
  refine ⟨l₁.countSent, (runs_transmit hreqt hq hfit').bind (f := ifNone _) ?_, hqerr,
    by rw [← hcns]; rfl⟩
  rw [ifNone_of_none (l := l.countSent) hl]
  have hflag : (l.countSent.countReceived p).resp.flag = QsmpFlags.establishRequest.toByte :=
    hin.flag
  rw [Event.receivedAll, hlen]
  refine .recv (Nat.le_of_eq hlen) ?_
  rw [if_pos hlen, show l.countSent.resp = l.resp from rfl, ← hp, dispatch, if_pos hflag]
  refine hanswer.bind ?_
  rw [if_pos hqerr]
  exact runs_transmit hreqt₁ hq₁ fits_nil

end Stages

/-! ## What agreement is -/

/-- The connection once the channel is keyed and `n` packets have passed
each way. -/
def QsmpConnectionState.keyed (K : Primitives) (cns : QsmpConnectionState)
    (rtcs : Octets duplexSymmetricKeySize) (tx rx : RcsKeyparams) (n : UInt64) :
    QsmpConnectionState :=
  { cns with
    rtcs := rtcs
    txcpr := qscRcsInitialize K tx true
    rxcpr := qscRcsInitialize K rx false
    exflag := .sessionEstablished
    txseq := cns.txseq + n
    rxseq := cns.rxseq + n }

theorem iterate_succ_eq_add (n : ℕ) (a : UInt64) : (· + 1)^[n] a = a + .ofNat n := by
  induction n with
  | zero => exact (UInt64.add_zero a).symm
  | succ n ih =>
    rw [Function.iterate_succ_apply', ih, UInt64.ofNat_add, UInt64.add_assoc]
    rfl

/-- **The rounds count.** A connection that was keyed, and whose two numbers
were counted up once in each of `n` rounds, in whatever order the steps set
these fields. -/
theorem counted_rounds (n : ℕ) (cns : QsmpConnectionState)
    {rtcs : Octets duplexSymmetricKeySize} {tx rx : RcsKeyparams} :
    ({ cns with
        rtcs := rtcs
        txcpr := qscRcsInitialize K tx true
        rxcpr := qscRcsInitialize K rx false
        exflag := .sessionEstablished
        txseq := (· + 1)^[n] cns.txseq
        rxseq := (· + 1)^[n] cns.rxseq } : QsmpConnectionState)
      = cns.keyed K rtcs tx rx (.ofNat n) := by
  rw [iterate_succ_eq_add, iterate_succ_eq_add]
  rfl

/-- **Agreement** of two connections on an expansion `e` of the KDF output
`out`: they mirror each other both ways, hold the same ratchet key, are
keyed from adjacent slices of the output, and the first packet either way
is decrypted to what was encrypted. -/
structure Agreed (P : Params) (K : Primitives) (out : Bytes) (e : Expansion) (keySize : ℕ)
    (A B : QsmpConnectionState) : Prop where
  forth : Mirrored A B
  back : Mirrored B A
  rtcs : A.rtcs = e.rtcs ∧ B.rtcs = e.rtcs
  keyed : A.txcpr = qscRcsInitialize K (e.first keySize) true ∧
    A.rxcpr = qscRcsInitialize K (e.second keySize) false
  slices : (e.first keySize).key ++ (e.first keySize).nonce.val ++ (e.second keySize).key
    ++ (e.second keySize).nonce.val <+: out
  first : ∀ m buf, m ≠ [] → m.length + A.txcpr.ctype.macSize ≤ P.messageMax →
    (transfer P K A B m buf).1 = ⟨.none, .none, m, m.length⟩ ∧
      (transfer P K B A m buf).1 = ⟨.none, .none, m, m.length⟩

/-- The type of a cipher is that of its key length. -/
theorem ctype_qscRcsInitialize {kp kp' : RcsKeyparams} {b b' : Bool}
    (h : kp.key.length = kp'.key.length) :
    (qscRcsInitialize K kp b).ctype = (qscRcsInitialize K kp' b').ctype := by
  show (if kp.key.length = 64 then _ else _) = (if kp'.key.length = 64 then _ else _)
  rw [h]

/-- Connections keyed crosswise mirror each other. -/
theorem mirrored_keyed {A B : QsmpConnectionState} {rtcs : Octets duplexSymmetricKeySize}
    {a b : RcsKeyparams} {n : UInt64} (hseq : A.txseq = B.rxseq)
    (hlen : b.key.length = a.key.length) :
    Mirrored (A.keyed K rtcs a b n) (B.keyed K rtcs b a n) where
  establishedA := rfl
  establishedB := rfl
  ciphers := .of_keyparams
  tagType := ctype_qscRcsInitialize hlen
  sequence := congrArg (· + n) hseq

/-- The keys and nonces of both directions are adjacent slices of the
array. -/
theorem Expansion.slices_eq (e : Expansion) (keySize : ℕ) :
    (e.first keySize).key ++ (e.first keySize).nonce.val ++ (e.second keySize).key
      ++ (e.second keySize).nonce.val = e.prnd.read 0 (2 * (keySize + nonceSize)) := by
  have hsum : 2 * (keySize + nonceSize) = keySize + nonceSize + keySize + nonceSize := by omega
  rw [hsum, Mem.read_add, Mem.read_add, Mem.read_add]
  simp only [Expansion.first, Expansion.second, Expansion.keyparams, Mem.octets_val, Nat.zero_add]

/-- Two fresh connections keyed from one expansion agree on it. -/
theorem agreed_keyed {A B : QsmpConnectionState} {e : Expansion} {keySize : ℕ} {out : Bytes}
    {n : UInt64} (hA : A.Fresh) (hB : B.Fresh) (hprnd : e.prnd = Mem.zero.write 0 out)
    (hout : 2 * (keySize + nonceSize) ≤ out.length) :
    Agreed P K out e keySize (A.keyed K e.rtcs (e.first keySize) (e.second keySize) n)
      (B.keyed K e.rtcs (e.second keySize) (e.first keySize) n) := by
  have hlen : (e.second keySize).key.length = (e.first keySize).key.length := by
    rw [Expansion.second, Expansion.first, Expansion.keyparams, Expansion.keyparams,
      Mem.length_read, Mem.length_read]
  have hforth : Mirrored (A.keyed K e.rtcs (e.first keySize) (e.second keySize) n)
      (B.keyed K e.rtcs (e.second keySize) (e.first keySize) n) :=
    mirrored_keyed (hA.2.2.trans hB.2.1.symm) hlen
  have hback : Mirrored (B.keyed K e.rtcs (e.second keySize) (e.first keySize) n)
      (A.keyed K e.rtcs (e.first keySize) (e.second keySize) n) :=
    mirrored_keyed (hB.2.2.trans hA.2.1.symm) hlen.symm
  refine ⟨hforth, hback, ⟨rfl, rfl⟩, ⟨rfl, rfl⟩, ?_, fun m buf hm hfit => ?_⟩
  · rw [e.slices_eq, hprnd, Mem.read_write_start hout]
    exact List.take_prefix _ _
  · have htype : (B.keyed K e.rtcs (e.second keySize) (e.first keySize) n).txcpr.ctype
        = (A.keyed K e.rtcs (e.first keySize) (e.second keySize) n).txcpr.ctype :=
      ctype_qscRcsInitialize hlen
    exact ⟨(mirrored_transfer hforth hm hfit buf).1,
      (mirrored_transfer hback hm (htype ▸ hfit) buf).1⟩

/-! ## The duplex exchange -/

section Duplex

variable {kcs : QsmpKexDuplexClientState P} {kss : QsmpKexDuplexServerState P}
variable {cns : QsmpConnectionState} {d ds : Draws A} {keyid : Octets keyidSize}

/-- The expansion both duplex parties compute. -/
def duplexKeys (K : Primitives) (A : Asymmetric P) (schash : Octets duplexHashSize)
    (client server : Draws A) : Expansion :=
  duplexExpand K (A.encapsulate (A.generateKeypair server.keypair).1 client.encap).1 schash
    (A.encapsulate (A.generateKeypair client.keypair).1 server.encap).1

/-- The duplex events as the client sees them, the parties' sequence
numbers starting at `tx` and `rx`. -/
def duplexEvents (K : Primitives) (A : Asymmetric P) (keyid : Octets keyidSize)
    (clientkey serverkey : Octets P.signingKeySize) (client server : Draws A) (tx rx : UInt64) :
    List Event :=
  [.sentAll (frame .connectRequest tx (connectRequestBody P keyid)),
    .receivedAll (frame .connectResponse rx
      (duplexConnectResponseBody K A serverkey server.keypair server.sign)),
    .sentAll (frame .exchangeRequest (tx + 1) (duplexExchangeRequestBody K A
      (A.generateKeypair server.keypair).1 clientkey client.encap client.keypair client.sign)),
    .receivedAll (frame .exchangeResponse (rx + 1) (duplexExchangeResponseBody K A
      (A.generateKeypair client.keypair).1 serverkey server.encap server.resign)),
    .sentAll (frame .establishRequest (tx + 1 + 1) []),
    .receivedAll (frame .establishResponse (rx + 1 + 1) [])]

/-- **The duplex client**, against the messages of an honest server. -/
theorem duplexClient_run (K : Primitives) (A : Asymmetric P) (stack : Mem) (d ds : Draws A)
    (kcs : QsmpKexDuplexClientState P) (cns : QsmpConnectionState)
    {sigkey : Octets P.signingKeySize} {verkey : Octets P.verifyKeySize}
    (hf : P.falconSignature = false) (hkem : A.KemCorrect) (htime : d.tm ≤ kcs.expiration)
    (hpeer : A.SignsFor sigkey kcs.rverkey) (hs : A.SignsFor kcs.sigkey verkey) :
    let keys := duplexKeys K A (duplexSchash K P kcs.keyid kcs.verkey kcs.rverkey) d ds
    ∃ ks, Runs (qsmpKexDuplexClientKeyExchange K A stack d kcs cns)
      (duplexEvents K A kcs.keyid kcs.sigkey sigkey d ds cns.txseq cns.rxseq)
      (some (.none, ks, cns.keyed K keys.rtcs (keys.first duplexSymmetricKeySize)
        (keys.second duplexSymmetricKeySize) 3)) := by
  intro keys
  have h₀ : Ready (.ofStep (kexDuplexClientConnectRequest K d.tm kcs cns .init)) _ _ _ _ :=
    (kexDuplexClientConnectRequest_answers htime).ofStep
  obtain ⟨l₁, hrun₁, h₁⟩ := ready_exchangeStage P stack
    (kexDuplexClientExchangeRequest K A d.encap d.keypair d.sign) (duplexClientConlen P)
    .connectResponse .connectFailure h₀ fits_connectRequestBody
    (fits_duplexConnectResponseBody hpeer)
    (by rw [length_duplexConnectResponseBody hpeer]; rfl)
    fun p q (hin : Says p _ _ (duplexConnectResponseBody K A sigkey ds.keypair ds.sign)) =>
      kexDuplexClientExchangeRequest_answers hf rfl hin hpeer hs
  obtain ⟨l₂, hrun₂, h₂⟩ := ready_exchangeStage P stack (kexDuplexClientEstablishRequest K A)
    (duplexClientExclen P) .exchangeResponse .establishFailure h₁.cleared
    (fits_duplexExchangeRequestBody hs) (fits_duplexExchangeResponseBody hpeer)
    (by rw [length_duplexExchangeResponseBody hpeer]; rfl)
    fun p q (hin : Says p _ _ (duplexExchangeResponseBody K A _ sigkey ds.encap ds.resign)) =>
      kexDuplexClientEstablishRequest_answers hf rfl hin hpeer (hkem d.keypair ds.encap)
  obtain ⟨l₃, hrun₃, hqerr, hcns⟩ := ready_verifyStage P stack kexDuplexClientEstablishVerify
    estlen .establishResponse .establishFailure h₂.cleared fits_nil fits_nil rfl
    fun p q (hin : Says p _ _ []) => kexDuplexClientEstablishVerify_answers rfl hin
  replace hcns := hcns.trans (counted_rounds 3 cns)
  have hend := runs_finish P stack 0xFF kexDuplexClientReset hqerr
  rw [hcns] at hend
  exact ⟨_, (runs_ifNone h₀.qerr hrun₁).bind ((runs_ifNone_clearResponse h₁.qerr hrun₂).bind
    ((runs_ifNone_clearResponse h₂.qerr hrun₃).bind hend))⟩

/-- The duplex events as the server sees them, but for the number of the
establish request. -/
def duplexServerEvents (K : Primitives) (A : Asymmetric P) (keyid : Octets keyidSize)
    (clientkey serverkey : Octets P.signingKeySize) (client server : Draws A)
    (tx rx third : UInt64) : List Event :=
  [.receivedAll (frame .connectRequest rx (connectRequestBody P keyid)),
    .sentAll (frame .connectResponse tx
      (duplexConnectResponseBody K A serverkey server.keypair server.sign)),
    .receivedAll (frame .exchangeRequest (rx + 1) (duplexExchangeRequestBody K A
      (A.generateKeypair server.keypair).1 clientkey client.encap client.keypair client.sign)),
    .sentAll (frame .exchangeResponse (tx + 1) (duplexExchangeResponseBody K A
      (A.generateKeypair client.keypair).1 serverkey server.encap server.resign)),
    .receivedAll (frame .establishRequest third []),
    .sentAll (frame .establishResponse (tx + 1 + 1) [])]

theorem received_duplexEvents {clientkey serverkey : Octets P.signingKeySize} {tx rx : UInt64} :
    received (duplexEvents K A keyid clientkey serverkey d ds tx rx) =
      [frame .connectResponse rx (duplexConnectResponseBody K A serverkey ds.keypair ds.sign),
        frame .exchangeResponse (rx + 1) (duplexExchangeResponseBody K A
          (A.generateKeypair d.keypair).1 serverkey ds.encap ds.resign),
        frame .establishResponse (rx + 1 + 1) []] := by
  simp only [duplexEvents, Event.receivedAll, Event.sentAll, received, if_true]

theorem received_duplexServerEvents {clientkey serverkey : Octets P.signingKeySize}
    {tx rx third : UInt64} :
    received (duplexServerEvents K A keyid clientkey serverkey d ds tx rx third) =
      [frame .connectRequest rx (connectRequestBody P keyid),
        frame .exchangeRequest (rx + 1) (duplexExchangeRequestBody K A
          (A.generateKeypair ds.keypair).1 clientkey d.encap d.keypair d.sign),
        frame .establishRequest third []] := by
  simp only [duplexServerEvents, Event.receivedAll, Event.sentAll, received, if_true]

/-- **The duplex server**, against the messages of an honest client; the
establish request may carry any number. -/
theorem duplexServer_run (K : Primitives) (A : Asymmetric P) (stack : Mem) (d ds : Draws A)
    (kss : QsmpKexDuplexServerState P) (cns : QsmpConnectionState)
    {sigkey : Octets P.signingKeySize} {rverkey verkey : Octets P.verifyKeySize}
    (hf : P.falconSignature = false) (hkem : A.KemCorrect) (htime : ds.tm ≤ kss.expiration)
    (hquery : kss.keyQuery keyid = some rverkey) (hpeer : A.SignsFor sigkey rverkey)
    (hs : A.SignsFor kss.sigkey verkey) (third : UInt64) :
    let keys := duplexKeys K A (duplexSchash K P kss.keyid rverkey kss.verkey) d ds
    ∃ ks, Runs (qsmpKexDuplexServerKeyExchange K A stack ds kss cns)
      (duplexServerEvents K A keyid sigkey kss.sigkey d ds cns.txseq cns.rxseq third)
      (some (.none, ks, cns.keyed K keys.rtcs (keys.second duplexSymmetricKeySize)
        (keys.first duplexSymmetricKeySize) 3)) := by
  intro keys
  obtain ⟨l₁, hrun₁, h₁⟩ := ready_firstStage P stack
    (kexDuplexServerConnectResponse K A ds.tm ds.keypair ds.sign) serverConlen .connectRequest
    .connectFailure fits_connectRequestBody (by rw [length_connectRequestBody]; rfl)
    fun p q (hin : Says p _ cns.rxseq (connectRequestBody P keyid)) =>
      kexDuplexServerConnectResponse_answers hin hquery htime hs
  obtain ⟨l₂, hrun₂, h₂⟩ := ready_exchangeStage P stack
    (kexDuplexServerExchangeResponse K A ds.encap ds.resign) (duplexServerExclen P)
    .exchangeRequest .exchangeFailure h₁ (fits_duplexConnectResponseBody hs)
    (fits_duplexExchangeRequestBody hpeer)
    (by rw [length_duplexExchangeRequestBody hpeer]; rfl)
    fun p q (hin : Says p _ _ (duplexExchangeRequestBody K A (A.generateKeypair ds.keypair).1
        sigkey d.encap d.keypair d.sign)) =>
      kexDuplexServerExchangeResponse_answers hf rfl hin hpeer hs (hkem ds.keypair d.encap)
  obtain ⟨l₃, hrun₃, hqerr, hcns⟩ := ready_establishStage P stack kexDuplexServerEstablishResponse
    third h₂ (fits_duplexExchangeResponseBody hs)
    fun p q hin => kexDuplexServerEstablishResponse_answers rfl hin
  replace hcns := hcns.trans (counted_rounds 3 cns)
  have hend := runs_finish P stack sequenceTerminator kexDuplexServerReset hqerr
  rw [hcns] at hend
  exact ⟨_, hrun₁.bind ((runs_ifNone h₁.qerr hrun₂).bind ((runs_ifNone h₂.qerr hrun₃).bind hend))⟩

/-- The KDF output both duplex parties squeeze. -/
def duplexKdfOutput (K : Primitives) (A : Asymmetric P) (schash : Octets duplexHashSize)
    (client server : Draws A) : Bytes :=
  (qscCshakeSqueezeblocks K.permute (qscCshakeInitialize K.permute .rate512
    (A.encapsulate (A.generateKeypair server.keypair).1 client.encap).1.val schash.val
    (A.encapsulate (A.generateKeypair client.keypair).1 server.encap).1.val) .rate512 3).2

/-- Both duplex drivers have returned without error, nothing is left on the
way, and the connections agree. -/
def DuplexAgreed (K : Primitives) (A : Asymmetric P) (kcs : QsmpKexDuplexClientState P)
    (d ds : Draws A) (c : Duet (Returned (QsmpKexDuplexClientState P))
      (Returned (QsmpKexDuplexServerState P))) : Prop :=
  let schash := duplexSchash K P kcs.keyid kcs.verkey kcs.rverkey
  ∃ ks ks' A' B', c = Duet.start (.done (.none, ks, A')) (.done (.none, ks', B')) ∧
    Agreed P K (duplexKdfOutput K A schash d ds) (duplexKeys K A schash d ds)
      duplexSymmetricKeySize A' B'

/-- **Duplex agreement.** Whatever the schedule, the two drivers return
without error and the connections agree. -/
theorem duplex_agreement {cns' : QsmpConnectionState} {stack' : Mem}
    (hf : P.falconSignature = false) (hkem : A.KemCorrect)
    (hclient : A.SignsFor kcs.sigkey kcs.verkey) (hserver : A.SignsFor kss.sigkey kss.verkey)
    (hrverkey : kcs.rverkey = kss.verkey) (hquery : kss.keyQuery kcs.keyid = some kcs.verkey)
    (hkeyid : kcs.keyid = kss.keyid) (htime : d.tm ≤ kcs.expiration)
    (htime' : ds.tm ≤ kss.expiration) (hfresh : cns.Fresh) (hfresh' : cns'.Fresh) :
    Inevitably Duet.Step (DuplexAgreed K A kcs d ds)
      (Duet.start (qsmpKexDuplexClientKeyExchange K A stack d kcs cns)
        (qsmpKexDuplexServerKeyExchange K A stack' ds kss cns')) := by
  obtain ⟨ks, hc⟩ := duplexClient_run K A stack d ds kcs cns hf hkem htime (hrverkey ▸ hserver)
    hclient
  obtain ⟨ks', hs⟩ := duplexServer_run K A stack' d ds kss cns' hf hkem htime' hquery hclient
    hserver (cns'.rxseq + 1 + 1)
  rw [← hkeyid, ← hrverkey] at hs
  -- The two runs are dual: what one sends the other receives, so they decide every schedule.
  refine Duet.inevitably_of_dual ?_ hc hs ⟨ks, ks', _, _, rfl, agreed_keyed hfresh hfresh' rfl ?_⟩
  · rw [hfresh.2.1, hfresh.2.2, hfresh'.2.1, hfresh'.2.2]
    exact .sent (.received (.sent (.received (.sent (.received .nil)))))
  · rw [duplexKdfOutput, length_qscCshakeSqueezeblocks]
    decide

end Duplex

/-! ## The simplex exchange -/

section Simplex

variable {kcs : QsmpKexSimplexClientState P} {kss : QsmpKexSimplexServerState P}
variable {cns : QsmpConnectionState} {d ds : Draws A} {keyid : Octets keyidSize}

/-- The expansion both simplex parties compute. -/
def simplexKeys (K : Primitives) (A : Asymmetric P) (schash : Octets simplexHashSize)
    (client server : Draws A) : Expansion :=
  simplexExpand K (A.encapsulate (A.generateKeypair server.keypair).1 client.encap).1 schash

/-- The KDF output both simplex parties squeeze. -/
def simplexKdfOutput (K : Primitives) (A : Asymmetric P) (schash : Octets simplexHashSize)
    (client server : Draws A) : Bytes :=
  (qscCshakeSqueezeblocks K.permute (qscCshakeInitialize K.permute .rate256
    (A.encapsulate (A.generateKeypair server.keypair).1 client.encap).1.val schash.val [])
    .rate256 2).2

/-- The simplex events as the client sees them. -/
def simplexEvents (K : Primitives) (A : Asymmetric P) (keyid : Octets keyidSize)
    (serverkey : Octets P.signingKeySize) (client server : Draws A) (tx rx : UInt64) :
    List Event :=
  [.sentAll (frame .connectRequest tx (connectRequestBody P keyid)),
    .receivedAll (frame .connectResponse rx
      (simplexConnectResponseBody K A serverkey server.keypair server.sign)),
    .sentAll (frame .exchangeRequest (tx + 1)
      (A.encapsulate (A.generateKeypair server.keypair).1 client.encap).2.val),
    .receivedAll (frame .exchangeResponse (rx + 1) [])]

/-- The simplex events as the server sees them. -/
def simplexServerEvents (K : Primitives) (A : Asymmetric P) (keyid : Octets keyidSize)
    (serverkey : Octets P.signingKeySize) (client server : Draws A) (tx rx : UInt64) :
    List Event :=
  [.receivedAll (frame .connectRequest rx (connectRequestBody P keyid)),
    .sentAll (frame .connectResponse tx
      (simplexConnectResponseBody K A serverkey server.keypair server.sign)),
    .receivedAll (frame .exchangeRequest (rx + 1)
      (A.encapsulate (A.generateKeypair server.keypair).1 client.encap).2.val),
    .sentAll (frame .exchangeResponse (tx + 1) [])]

theorem received_simplexEvents {serverkey : Octets P.signingKeySize} {tx rx : UInt64} :
    received (simplexEvents K A keyid serverkey d ds tx rx) =
      [frame .connectResponse rx (simplexConnectResponseBody K A serverkey ds.keypair ds.sign),
        frame .exchangeResponse (rx + 1) []] := by
  simp only [simplexEvents, Event.receivedAll, Event.sentAll, received, if_true]

theorem received_simplexServerEvents {serverkey : Octets P.signingKeySize} {tx rx : UInt64} :
    received (simplexServerEvents K A keyid serverkey d ds tx rx) =
      [frame .connectRequest rx (connectRequestBody P keyid),
        frame .exchangeRequest (rx + 1)
          (A.encapsulate (A.generateKeypair ds.keypair).1 d.encap).2.val] := by
  simp only [simplexServerEvents, Event.receivedAll, Event.sentAll, received, if_true]

/-- **The simplex client**, against the messages of an honest server. -/
theorem simplexClient_run (K : Primitives) (A : Asymmetric P) (stack : Mem) (d ds : Draws A)
    (kcs : QsmpKexSimplexClientState P) (cns : QsmpConnectionState)
    {sigkey : Octets P.signingKeySize} (hf : P.falconSignature = false)
    (htime : d.tm ≤ kcs.expiration) (hpeer : A.SignsFor sigkey kcs.verkey) :
    let keys := simplexKeys K A (simplexSchash K P kcs.keyid kcs.verkey) d ds
    ∃ ks, Runs (qsmpKexSimplexClientKeyExchange K A stack d kcs cns)
      (simplexEvents K A kcs.keyid sigkey d ds cns.txseq cns.rxseq)
      (some (.none, ks, cns.keyed K keys.rtcs (keys.first simplexSymmetricKeySize)
        (keys.second simplexSymmetricKeySize) 2)) := by
  intro keys
  have h₀ : Ready (.ofStep (kexSimplexClientConnectRequest K d.tm kcs cns .init)) _ _ _ _ :=
    (kexSimplexClientConnectRequest_answers htime).ofStep
  obtain ⟨l₁, hrun₁, h₁⟩ := ready_exchangeStage P stack
    (kexSimplexClientExchangeRequest K A d.encap) (simplexClientConlen P)
    .connectResponse .connectFailure h₀ fits_connectRequestBody
    (fits_simplexConnectResponseBody hpeer)
    (by rw [length_simplexConnectResponseBody hpeer]; rfl)
    fun p q (hin : Says p _ _ (simplexConnectResponseBody K A sigkey ds.keypair ds.sign)) =>
      kexSimplexClientExchangeRequest_answers hf rfl hin hpeer
  obtain ⟨l₂, hrun₂, hqerr, hcns⟩ := ready_verifyStage P stack kexSimplexClientEstablishVerify
    estlen .exchangeResponse .establishFailure h₁.cleared fits_cipherText fits_nil rfl
    fun p q (hin : Says p _ _ []) => kexSimplexClientEstablishVerify_answers rfl hin
  replace hcns := hcns.trans (counted_rounds 2 cns)
  have hend := runs_finish P stack 0xFF kexSimplexClientReset hqerr
  rw [hcns] at hend
  exact ⟨_, (runs_ifNone h₀.qerr hrun₁).bind ((runs_ifNone_clearResponse h₁.qerr hrun₂).bind
    hend)⟩

/-- **The simplex server**, against the messages of an honest client. -/
theorem simplexServer_run (K : Primitives) (A : Asymmetric P) (stack : Mem) (d ds : Draws A)
    (kss : QsmpKexSimplexServerState P) (cns : QsmpConnectionState)
    {verkey : Octets P.verifyKeySize} (hkem : A.KemCorrect)
    (htime : ds.tm ≤ kss.expiration) (hs : A.SignsFor kss.sigkey verkey) :
    let keys := simplexKeys K A (simplexSchash K P kss.keyid kss.verkey) d ds
    ∃ ks, Runs (qsmpKexSimplexServerKeyExchange K A stack ds kss cns)
      (simplexServerEvents K A kss.keyid kss.sigkey d ds cns.txseq cns.rxseq)
      (some (.none, ks, cns.keyed K keys.rtcs (keys.second simplexSymmetricKeySize)
        (keys.first simplexSymmetricKeySize) 2)) := by
  intro keys
  obtain ⟨l₁, hrun₁, h₁⟩ := ready_firstStage P stack
    (kexSimplexServerConnectResponse K A ds.tm ds.keypair ds.sign) serverConlen .connectRequest
    .connectFailure fits_connectRequestBody (by rw [length_connectRequestBody]; rfl)
    fun p q (hin : Says p _ cns.rxseq (connectRequestBody P kss.keyid)) =>
      kexSimplexServerConnectResponse_answers hin htime hs
  obtain ⟨l₂, hrun₂, h₂⟩ := ready_exchangeStage P stack (kexSimplexServerExchangeResponse K A)
    (simplexServerExclen P) .exchangeRequest .exchangeFailure h₁
    (fits_simplexConnectResponseBody hs) fits_cipherText
    (by rw [(A.encapsulate (A.generateKeypair ds.keypair).1 d.encap).2.property]; rfl)
    fun p q hin => kexSimplexServerExchangeResponse_answers rfl hin (hkem ds.keypair d.encap)
  obtain ⟨hqerr, -, hcns, q, hreqt, hq⟩ := h₂
  have hcount : l₂.countSent.cns = _ := congrArg
    (fun c : QsmpConnectionState => { c with txseq := c.txseq + 1 }) hcns
  replace hcount := hcount.trans (counted_rounds 2 cns)
  have hend := runs_finish (l := l₂.countSent) P stack sequenceTerminator kexSimplexServerReset
    hqerr
  rw [hcount] at hend
  exact ⟨_, hrun₁.bind ((runs_ifNone h₁.qerr hrun₂).bind
    ((runs_ifNone hqerr (runs_transmit hreqt hq fits_nil)).bind hend))⟩

/-- The same, of the simplex drivers. -/
def SimplexAgreed (K : Primitives) (A : Asymmetric P) (kcs : QsmpKexSimplexClientState P)
    (d ds : Draws A) (c : Duet (Returned (QsmpKexSimplexClientState P))
      (Returned (QsmpKexSimplexServerState P))) : Prop :=
  let schash := simplexSchash K P kcs.keyid kcs.verkey
  ∃ ks ks' A' B', c = Duet.start (.done (.none, ks, A')) (.done (.none, ks', B')) ∧
    Agreed P K (simplexKdfOutput K A schash d ds) (simplexKeys K A schash d ds)
      simplexSymmetricKeySize A' B'

/-- **Simplex agreement.** -/
theorem simplex_agreement {cns' : QsmpConnectionState} {stack' : Mem}
    (hf : P.falconSignature = false) (hkem : A.KemCorrect)
    (hserver : A.SignsFor kss.sigkey kss.verkey) (hverkey : kcs.verkey = kss.verkey)
    (hkeyid : kcs.keyid = kss.keyid) (htime : d.tm ≤ kcs.expiration)
    (htime' : ds.tm ≤ kss.expiration) (hfresh : cns.Fresh) (hfresh' : cns'.Fresh) :
    Inevitably Duet.Step (SimplexAgreed K A kcs d ds)
      (Duet.start (qsmpKexSimplexClientKeyExchange K A stack d kcs cns)
        (qsmpKexSimplexServerKeyExchange K A stack' ds kss cns')) := by
  obtain ⟨ks, hc⟩ := simplexClient_run K A stack d ds kcs cns hf htime (hverkey ▸ hserver)
  obtain ⟨ks', hs⟩ := simplexServer_run K A stack' d ds kss cns' hkem htime' hserver
  rw [← hkeyid, ← hverkey] at hs
  refine Duet.inevitably_of_dual ?_ hc hs ⟨ks, ks', _, _, rfl, agreed_keyed hfresh hfresh' rfl ?_⟩
  · rw [hfresh.2.1, hfresh.2.2, hfresh'.2.1, hfresh'.2.2]
    exact .sent (.received (.sent (.received .nil)))
  · rw [simplexKdfOutput, length_qscCshakeSqueezeblocks]
    decide

end Simplex

/-! ## Both modes -/

/-- **Honest agreement.** With a correct KEM and correct signatures of a
fixed size, unexpired keys, one key identity, the peers holding each
other's keys, and fresh connections: every schedule of a client driver and
a server driver over an in-order, loss-free stream comes to an end, and
there both have returned without error on connections that agree. -/
theorem honest_agreement (K : Primitives) (A : Asymmetric P) (hf : P.falconSignature = false)
    (hkem : A.KemCorrect) (stack stack' : Mem) (d ds : Draws A)
    (cns cns' : QsmpConnectionState) (hfresh : cns.Fresh) (hfresh' : cns'.Fresh) :
    (∀ (kcs : QsmpKexDuplexClientState P) (kss : QsmpKexDuplexServerState P),
      A.SignsFor kcs.sigkey kcs.verkey → A.SignsFor kss.sigkey kss.verkey →
      kcs.rverkey = kss.verkey → kss.keyQuery kcs.keyid = some kcs.verkey →
      kcs.keyid = kss.keyid → d.tm ≤ kcs.expiration → ds.tm ≤ kss.expiration →
      Inevitably Duet.Step (DuplexAgreed K A kcs d ds)
        (Duet.start (qsmpKexDuplexClientKeyExchange K A stack d kcs cns)
          (qsmpKexDuplexServerKeyExchange K A stack' ds kss cns'))) ∧
    (∀ (kcs : QsmpKexSimplexClientState P) (kss : QsmpKexSimplexServerState P),
      A.SignsFor kss.sigkey kss.verkey → kcs.verkey = kss.verkey → kcs.keyid = kss.keyid →
      d.tm ≤ kcs.expiration → ds.tm ≤ kss.expiration →
      Inevitably Duet.Step (SimplexAgreed K A kcs d ds)
        (Duet.start (qsmpKexSimplexClientKeyExchange K A stack d kcs cns)
          (qsmpKexSimplexServerKeyExchange K A stack' ds kss cns'))) := by
  constructor
  · intro kcs kss hclient hserver hrverkey hquery hkeyid htime htime'
    exact duplex_agreement hf hkem hclient hserver hrverkey hquery hkeyid htime htime' hfresh
      hfresh'
  · intro kcs kss hserver hverkey hkeyid htime htime'
    exact simplex_agreement hf hkem hserver hverkey hkeyid htime htime' hfresh hfresh'

/-- The draws of a concrete run. -/
def Draws.plain (P : Params) : Draws (.plain P) := ⟨5, (3 : UInt8), (4 : UInt8), (5 : UInt8),
  (6 : UInt8)⟩

/-- The drivers of the default build over the primitives that repeat one
byte, each against an honest peer: they return with the session
established. -/
theorem duplexClient_plain :
    ∃ ks cns', Runs (qsmpKexDuplexClientKeyExchange .plain (.plain .dilithiumKyber) .zero (.plain _)
        (.plain .dilithiumKyber) (.initial .duplex false))
      (duplexEvents .plain (.plain .dilithiumKyber) (Octets.zero _) (.repeated _ 1)
        (.repeated _ 2) (.plain _) (.plain _) 0 0) (some (.none, ks, cns')) ∧
      cns'.exflag = .sessionEstablished := by
  obtain ⟨ks, h⟩ := duplexClient_run .plain (.plain .dilithiumKyber) .zero (.plain _) (.plain _)
    (.plain .dilithiumKyber) (.initial .duplex false) rfl
    (Asymmetric.plain_kemCorrect (by decide)) (by decide)
    (Asymmetric.plain_signsFor (by decide) (by decide))
    (Asymmetric.plain_signsFor (by decide) (by decide))
  exact ⟨ks, _, h, rfl⟩

theorem duplexServer_plain (third : UInt64) :
    ∃ ks cns', Runs (qsmpKexDuplexServerKeyExchange .plain (.plain .dilithiumKyber) .zero (.plain _)
        (.plain .dilithiumKyber) (.initial .duplex true))
      (duplexServerEvents .plain (.plain .dilithiumKyber) (Octets.zero _) (.repeated _ 1)
        (.repeated _ 2) (.plain _) (.plain _) 0 0 third) (some (.none, ks, cns')) ∧
      cns'.exflag = .sessionEstablished := by
  obtain ⟨ks, h⟩ := duplexServer_run .plain (.plain .dilithiumKyber) .zero (.plain _) (.plain _)
    (.plain .dilithiumKyber) (.initial .duplex true) rfl
    (Asymmetric.plain_kemCorrect (by decide)) (by decide) rfl
    (Asymmetric.plain_signsFor (by decide) (by decide))
    (Asymmetric.plain_signsFor (by decide) (by decide)) third
  exact ⟨ks, _, h, rfl⟩

theorem simplexClient_plain :
    ∃ ks cns', Runs (qsmpKexSimplexClientKeyExchange .plain (.plain .dilithiumKyber) .zero
        (.plain _) (.plain .dilithiumKyber) (.initial .simplex false))
      (simplexEvents .plain (.plain .dilithiumKyber) (Octets.zero _) (.repeated _ 2) (.plain _)
        (.plain _) 0 0) (some (.none, ks, cns')) ∧ cns'.exflag = .sessionEstablished := by
  obtain ⟨ks, h⟩ := simplexClient_run .plain (.plain .dilithiumKyber) .zero (.plain _) (.plain _)
    (.plain .dilithiumKyber) (.initial .simplex false) rfl (by decide)
    (Asymmetric.plain_signsFor (by decide) (by decide))
  exact ⟨ks, _, h, rfl⟩

theorem simplexServer_plain :
    ∃ ks cns', Runs (qsmpKexSimplexServerKeyExchange .plain (.plain .dilithiumKyber) .zero
        (.plain _) (.plain .dilithiumKyber) (.initial .simplex true))
      (simplexServerEvents .plain (.plain .dilithiumKyber) (Octets.zero _) (.repeated _ 2)
        (.plain _) (.plain _) 0 0) (some (.none, ks, cns')) ∧
      cns'.exflag = .sessionEstablished := by
  obtain ⟨ks, h⟩ := simplexServer_run .plain (.plain .dilithiumKyber) .zero (.plain _) (.plain _)
    (.plain .dilithiumKyber) (.initial .simplex true)
    (Asymmetric.plain_kemCorrect (by decide)) (by decide)
    (Asymmetric.plain_signsFor (by decide) (by decide))
  exact ⟨ks, _, h, rfl⟩

/-- The default build, over the primitives that repeat one byte. -/
theorem honest_agreement_plain :
    Inevitably Duet.Step (DuplexAgreed .plain (.plain .dilithiumKyber)
        (.plain .dilithiumKyber) (.plain _) (.plain _))
      (Duet.start
        (qsmpKexDuplexClientKeyExchange .plain (.plain .dilithiumKyber) .zero (.plain _)
          (.plain .dilithiumKyber) (.initial .duplex false))
        (qsmpKexDuplexServerKeyExchange .plain (.plain .dilithiumKyber) .zero (.plain _)
          (.plain .dilithiumKyber) (.initial .duplex true))) ∧
    Inevitably Duet.Step (SimplexAgreed .plain (.plain .dilithiumKyber)
        (.plain .dilithiumKyber) (.plain _) (.plain _))
      (Duet.start
        (qsmpKexSimplexClientKeyExchange .plain (.plain .dilithiumKyber) .zero (.plain _)
          (.plain .dilithiumKyber) (.initial .simplex false))
        (qsmpKexSimplexServerKeyExchange .plain (.plain .dilithiumKyber) .zero (.plain _)
          (.plain .dilithiumKyber) (.initial .simplex true))) :=
  ⟨(honest_agreement .plain (.plain .dilithiumKyber) rfl (Asymmetric.plain_kemCorrect (by decide))
      .zero .zero (.plain _) (.plain _) _ _ QsmpConnectionState.fresh_initial
      QsmpConnectionState.fresh_initial).1 _ _
      (Asymmetric.plain_signsFor (by decide) (by decide))
      (Asymmetric.plain_signsFor (by decide) (by decide)) rfl rfl rfl (by decide) (by decide),
    (honest_agreement .plain (.plain .dilithiumKyber) rfl (Asymmetric.plain_kemCorrect (by decide))
      .zero .zero (.plain _) (.plain _) _ _ QsmpConnectionState.fresh_initial
      QsmpConnectionState.fresh_initial).2 _ _
      (Asymmetric.plain_signsFor (by decide) (by decide)) rfl rfl (by decide) (by decide)⟩

end Qsmp
