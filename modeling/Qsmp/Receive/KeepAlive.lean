import Qsmp.Receive.Bounds
import Qsmp.Common.Histories
/-!
# The keep-alive exchange of a listener

`listener_keepalive_loop` runs beside `listener_receive_loop` and shares
the keep-alive state with it. The mutex it takes is made afresh for each
round, so a pass of the receive loop may come between any two of its
steps. In a round it clears the flag, sends a request, tests the flag and
only then sleeps: what the receive loop does while it sleeps comes too late
for the test.
-/

namespace Qsmp

/-! ## The keep-alive loop -/

/-- `listener_send_keep_alive`, at the time `etime`: the code, the state,
and the packet the socket has been given, of which it took `slen` bytes. -/
def listenerSendKeepAlive (P : Params) (kctx : QsmpKeepAliveState) (connected : Bool)
    (etime : UInt64) (slen : ℕ) : QsmpErrors × QsmpKeepAliveState × Option QsmpPacket :=
  if connected then
    let kctx := { kctx with etime }
    let resp : QsmpPacket :=
      { flag := QsmpFlags.keepAliveRequest.toByte
        msglen := 8
        sequence := kctx.seqctr
        pmessage := Mem.zero.write 0 (qscIntutilsLe64to8 etime) }
    let plen := (qsmpPacketToStream P resp .zero).2
    (if plen ≤ slen then .none else .badKeepAlive, kctx, some resp)
  else (.badKeepAlive, kctx, none)

/-- The step `listener_keepalive_loop` takes next: it clears the flag, sends
a request, tests the flag, sleeps, or has ended. -/
inductive KeepAlivePoint where
  | clear | send | test | sleep | ended
deriving DecidableEq

/-- The two loops of a listener. Beside them stands what has been seen on
the wire: the last request, until it is answered, and how many have been
answered. -/
structure KeepAliveSystem (P : Params) where
  loop : ReceiveLoop P
  point : KeepAlivePoint
  qerr : QsmpErrors
  request : Option QsmpPacket
  answered : ℕ

/-- A step of the keep-alive loop, a pass of the receive loop, or what the
thread that sends does to the connection. -/
inductive KeepAliveStep {P : Params} (A : Asymmetric P) where
  | clear
  | send (connected : Bool) (etime : UInt64) (slen : ℕ)
  | test
  | wake
  | pass (e : ReceiveEvent A)
  | others (cns : QsmpConnectionState) (keys : RatchetKeys P)

variable {P : Params} (K : Primitives) {A : Asymmetric P}

/-- The keep-alive state two loops share. -/
def ReceiveLoop.kpa (s : ReceiveLoop P) : QsmpKeepAliveState := s.prcv.kpa

def ReceiveLoop.setKpa (s : ReceiveLoop P) (kpa : QsmpKeepAliveState) : ReceiveLoop P :=
  { s with prcv := { s.prcv with kpa } }

/-- The keep-alive response a pass has handled. -/
def ReceivePass.response (r : ReceivePass P) : Option QsmpPacket :=
  r.handled.filter (·.flag = QsmpFlags.keepAliveResponse.toByte)

/-- A response that answers a request: it has its sequence number and
brings back its time. -/
def QsmpPacket.Responds (pkt request : QsmpPacket) : Prop :=
  pkt.sequence = request.sequence ∧
    qscIntutilsLe8to64 pkt.pmessage = qscIntutilsLe8to64 request.pmessage

instance (pkt request : QsmpPacket) : Decidable (pkt.Responds request) :=
  inferInstanceAs (Decidable (_ ∧ _))

/-- What is seen of a pass: whether it has handled an answer to the request
that waits for one. -/
def KeepAliveSystem.observe (s : KeepAliveSystem P) (r : ReceivePass P) : KeepAliveSystem P :=
  if ∃ pkt ∈ r.response, ∃ request ∈ s.request, pkt.Responds request then
    { s with loop := r.loop, request := none, answered := s.answered + 1 }
  else { s with loop := r.loop }

/-- One step of the listener. -/
def keepAliveStep (s : KeepAliveSystem P) : KeepAliveStep A → Option (KeepAliveSystem P)
  | .clear =>
    if s.point = .clear then
      some { s with loop := s.loop.setKpa { s.loop.kpa with recd := false }, point := .send }
    else none
  | .send connected etime slen =>
    if s.point = .send then
      let (qerr, kpa, packet) := listenerSendKeepAlive P s.loop.kpa connected etime slen
      some { s with
        loop := s.loop.setKpa kpa
        point := .test
        qerr
        request := packet.or s.request }
    else none
  | .test =>
    if s.point = .test then
      some { s with
        point := .sleep
        qerr := if s.loop.kpa.recd = false then .keepAliveExpired else s.qerr }
    else none
  | .wake =>
    if s.point = .sleep then
      some { s with point := if s.qerr = .none then .clear else .ended }
    else none
  | .pass e =>
    if s.loop.Runs then some (s.observe (receiveLoopPass K .listener s.loop e)) else none
  | .others cns keys =>
    some { s with loop := { s.loop with prcv := { s.loop.prcv with cns, keys } } }

/-- The two loops as their threads are started. -/
def KeepAliveSystem.start (loop : ReceiveLoop P) : KeepAliveSystem P :=
  { loop := loop.setKpa ⟨0, 0, false⟩, point := .clear, qerr := .none, request := none
    answered := 0 }

/-! ## What a pass does to the keep-alive state -/

@[simp] theorem setKpa_kpa {s : ReceiveLoop P} {kpa : QsmpKeepAliveState} :
    (s.setKpa kpa).kpa = kpa := rfl

/-- The keep-alive state after a response: the next sequence number, if it
is accepted. -/
def QsmpKeepAliveState.after (kpa : QsmpKeepAliveState) (pkt : QsmpPacket) : QsmpKeepAliveState :=
  if pkt.sequence = kpa.seqctr ∧ kpa.etime = qscIntutilsLe8to64 pkt.pmessage then
    { kpa with seqctr := kpa.seqctr + 1, recd := true }
  else kpa

section Pass

variable {K} {s : ReceiveLoop P} {e : ReceiveEvent A} {pkt : QsmpPacket}

theorem branch_keepAliveResponse_iff {flag : UInt8} :
    ReceiveBranch.of .listener flag = .keepAliveResponse ↔
      flag = QsmpFlags.keepAliveResponse.toByte := by
  have hall : ∀ n : Fin 256, ReceiveBranch.of .listener (UInt8.ofFin n) = .keepAliveResponse ↔
      UInt8.ofFin n = QsmpFlags.keepAliveResponse.toByte := by decide +kernel
  exact hall flag.toFin

theorem receiveKeepAliveResponse_kpa :
    (receiveKeepAliveResponse s pkt).loop.kpa = s.kpa.after pkt := by
  rw [receiveKeepAliveResponse, QsmpKeepAliveState.after]
  split
  · rename_i hsequence
    dsimp only
    split
    · rename_i htime
      rw [if_pos ⟨hsequence, htime⟩]
      rfl
    · rename_i htime
      rw [if_neg fun h => htime h.2]
      rfl
  · rename_i hsequence
    rw [if_neg fun h => hsequence h.1]
    rfl

/-- No other branch touches it. -/
theorem receivePacket_kpa : (receivePacket K .listener s e pkt).loop.kpa =
    if pkt.flag = QsmpFlags.keepAliveResponse.toByte then s.kpa.after pkt else s.kpa := by
  by_cases hflag : pkt.flag = QsmpFlags.keepAliveResponse.toByte
  · rw [if_pos hflag, receivePacket, branch_keepAliveResponse_iff.2 hflag]
    exact receiveKeepAliveResponse_kpa
  · rw [if_neg hflag, receivePacket]
    split
    · rw [receiveEncryptedMessage]
      dsimp only
      split
      · rfl
      · split <;> rfl
    · rfl
    · rfl
    · rename_i hbranch
      exact absurd (branch_keepAliveResponse_iff.1 hbranch) hflag
    · rw [receiveRatchet]
      dsimp only
      split <;> rfl
    · rw [receiveRatchet]
      dsimp only
      split <;> rfl
    · rw [receiveRatchet]
      dsimp only
      split <;> rfl
    · dsimp only
      split <;> rfl

/-- **A pass** changes it by the response it has handled. -/
theorem receiveLoopPass_kpa : (receiveLoopPass K .listener s e).loop.kpa =
    (receiveLoopPass K .listener s e).response.elim s.kpa s.kpa.after := by
  rw [ReceivePass.response]
  rcases receiveLoopPass_hands K .listener s e with ⟨hhandled, hprcv⟩ | ⟨buff, pkt, hhandled, hloop⟩
  · rw [hhandled]
    exact congrArg ReceiverState.kpa hprcv
  · rw [hhandled, hloop, receivePacket_kpa, Option.filter_some]
    by_cases hflag : pkt.flag = QsmpFlags.keepAliveResponse.toByte
    · rw [if_pos hflag, if_pos (decide_eq_true hflag)]
      rfl
    · rw [if_neg hflag, if_neg fun h => hflag (of_decide_eq_true h)]
      rfl

end Pass

/-! ## The law -/

/-- **The peer answers in time**: the socket takes each request, a response
answers the request that waits for one, and the sleep is not over before
that has been handled. -/
def Timely (s : KeepAliveSystem P) : KeepAliveStep A → Prop
  | .send connected etime slen =>
    (listenerSendKeepAlive P s.loop.kpa connected etime slen).1 = .none
  | .pass e => ∀ pkt ∈ (receiveLoopPass K .listener s.loop e).response,
    ∃ request ∈ s.request, pkt.Responds request
  | .wake => s.request = none
  | _ => True

/-- **The loop goes on**: it has not ended and is not about to, and has
counted what has been answered. -/
structure GoesOn (s : KeepAliveSystem P) : Prop where
  running : s.point ≠ .ended
  awakes : s.point = .sleep → s.qerr = .none
  counted : s.loop.kpa.seqctr = .ofNat s.answered

/-- A request that is still unanswered when the loop wakes up ends it. -/
def EndsUnanswered (s : KeepAliveSystem P) (a : KeepAliveStep A) (s' : KeepAliveSystem P) : Prop :=
  match a with
  | .wake => s.request ≠ none → s'.point = .ended
  | _ => True

/-- **The response is handled before the test**, which stands between the
request and the sleep. -/
def Prompt (s : KeepAliveSystem P) : KeepAliveStep A → Prop
  | .test => s.request = none
  | _ => True

/-- No response is accepted between the clearing of the flag and the
request. -/
def Uninvited (s : KeepAliveSystem P) : KeepAliveStep A → Prop
  | .pass e => s.point = .send → ∀ pkt ∈ (receiveLoopPass K .listener s.loop e).response,
    ¬ (pkt.sequence = s.loop.kpa.seqctr ∧ s.loop.kpa.etime = qscIntutilsLe8to64 pkt.pmessage)
  | _ => True

/-! ## A request and the shared state -/

section Steps

variable {K} {s s' : KeepAliveSystem P} {a : KeepAliveStep A} {e : ReceiveEvent A}
variable {kpa kpa' : QsmpKeepAliveState} {connected : Bool} {etime : UInt64} {slen : ℕ}

/-- The request that waits for an answer has the counter and the time of
the shared state. -/
def Pending (s : KeepAliveSystem P) : Prop :=
  ∀ request ∈ s.request, request.sequence = s.loop.kpa.seqctr ∧
    qscIntutilsLe8to64 request.pmessage = s.loop.kpa.etime

/-- A request that is sent. -/
theorem listenerSendKeepAlive_connected :
    ∃ qerr resp, listenerSendKeepAlive P kpa true etime slen =
        (qerr, { kpa with etime }, some resp) ∧
      resp.sequence = kpa.seqctr ∧ qscIntutilsLe8to64 resp.pmessage = etime := by
  refine ⟨_, _, rfl, rfl, qscIntutilsLe8to64_of_read ?_⟩
  exact Mem.read_write_of_length length_qscIntutilsLe64to8

/-- Where a request waits, a response is accepted just if it answers it. -/
theorem Pending.responds_iff (hpending : Pending s) {request pkt : QsmpPacket}
    (hrequest : s.request = some request) : pkt.Responds request ↔
      pkt.sequence = s.loop.kpa.seqctr ∧
        s.loop.kpa.etime = qscIntutilsLe8to64 pkt.pmessage := by
  obtain ⟨hsequence, htime⟩ := hpending request hrequest
  rw [QsmpPacket.Responds, hsequence, htime, eq_comm (b := s.loop.kpa.etime)]

/-- A pass that handles an answer. -/
theorem observe_of_responds {r : ReceivePass P} {pkt request : QsmpPacket}
    (hpkt : r.response = some pkt) (hrequest : s.request = some request)
    (h : pkt.Responds request) :
    s.observe r = { s with loop := r.loop, request := none, answered := s.answered + 1 } :=
  if_pos ⟨pkt, hpkt, request, hrequest, h⟩

/-- A pass that handles none. -/
theorem observe_of_not {r : ReceivePass P}
    (h : ∀ pkt ∈ r.response, ∀ request ∈ s.request, ¬ pkt.Responds request) :
    s.observe r = { s with loop := r.loop } :=
  if_neg fun ⟨pkt, hpkt, request, hrequest, hresponds⟩ => h pkt hpkt request hrequest hresponds

/-! ## What each step does -/

theorem keepAliveStep_clear (h : keepAliveStep K s (.clear : KeepAliveStep A) = some s') :
    s.point = .clear ∧
      s' = { s with loop := s.loop.setKpa { s.loop.kpa with recd := false }, point := .send } := by
  obtain ⟨hpoint, hs⟩ := Option.ite_none_right_eq_some.1 h
  exact ⟨hpoint, (Option.some.inj hs).symm⟩

theorem keepAliveStep_send {qerr : QsmpErrors} {packet : Option QsmpPacket}
    (h : keepAliveStep K s (.send connected etime slen : KeepAliveStep A) = some s')
    (hsend : listenerSendKeepAlive P s.loop.kpa connected etime slen = (qerr, kpa, packet)) :
    s.point = .send ∧ s' = { s with
      loop := s.loop.setKpa kpa, point := .test, qerr, request := packet.or s.request } := by
  simp only [keepAliveStep, hsend] at h
  obtain ⟨hpoint, hs⟩ := Option.ite_none_right_eq_some.1 h
  exact ⟨hpoint, (Option.some.inj hs).symm⟩

/-- **A request that is sent** waits for its own answer. -/
theorem keepAliveStep_request
    (h : keepAliveStep K s (.send true etime slen : KeepAliveStep A) = some s') :
    s.point = .send ∧ Pending s' ∧
      ∃ qerr resp, (listenerSendKeepAlive P s.loop.kpa true etime slen).1 = qerr ∧
        s' = { s with
          loop := s.loop.setKpa { s.loop.kpa with etime }
          point := .test
          qerr
          request := some resp } := by
  obtain ⟨qerr, resp, hsend, hsequence, htime⟩ :
    ∃ qerr resp, listenerSendKeepAlive P s.loop.kpa true etime slen =
      (qerr, { s.loop.kpa with etime }, some resp) ∧
    resp.sequence = s.loop.kpa.seqctr ∧ qscIntutilsLe8to64 resp.pmessage = etime :=
    listenerSendKeepAlive_connected
  obtain ⟨hpoint, rfl⟩ := keepAliveStep_send h hsend
  refine ⟨hpoint, fun request hrequest => ?_, qerr, resp, congrArg Prod.fst hsend, rfl⟩
  obtain rfl : resp = request := Option.some.inj hrequest
  exact ⟨hsequence, htime⟩

theorem keepAliveStep_test (h : keepAliveStep K s (.test : KeepAliveStep A) = some s') :
    s.point = .test ∧ s' = { s with
      point := .sleep
      qerr := if s.loop.kpa.recd = false then .keepAliveExpired else s.qerr } := by
  obtain ⟨hpoint, hs⟩ := Option.ite_none_right_eq_some.1 h
  exact ⟨hpoint, (Option.some.inj hs).symm⟩

theorem keepAliveStep_wake (h : keepAliveStep K s (.wake : KeepAliveStep A) = some s') :
    s.point = .sleep ∧ s' = { s with point := if s.qerr = .none then .clear else .ended } := by
  obtain ⟨hpoint, hs⟩ := Option.ite_none_right_eq_some.1 h
  exact ⟨hpoint, (Option.some.inj hs).symm⟩

theorem keepAliveStep_pass (h : keepAliveStep K s (.pass e) = some s') :
    s' = s.observe (receiveLoopPass K .listener s.loop e) := by
  obtain ⟨-, hs⟩ := Option.ite_none_right_eq_some.1 h
  exact (Option.some.inj hs).symm

/-! ## Runs in which the peer answers -/

/-- Where a round stands, as long as the peer answers in time: behind the
request the flag is set just if the answer has been handled. -/
def InRound (s : KeepAliveSystem P) : Prop :=
  match s.point with
  | .clear => s.request = none
  | .send => s.request = none ∧ s.loop.kpa.recd = false
  | .test => s.qerr = .none ∧ (s.loop.kpa.recd = true ↔ s.request = none)
  | .sleep => s.qerr = .none
  | .ended => False

/-- The invariant of such runs. -/
structure Answered (s : KeepAliveSystem P) : Prop where
  pending : Pending s
  counted : s.loop.kpa.seqctr = .ofNat s.answered
  inRound : InRound s

theorem Answered.goesOn (h : Answered s) : GoesOn s where
  running hended := by
    have hround := h.inRound
    rw [InRound, hended] at hround
    exact hround
  awakes hsleep := by
    have hround := h.inRound
    rw [InRound, hsleep] at hround
    exact hround
  counted := h.counted

theorem answered_start {loop : ReceiveLoop P} : Answered (KeepAliveSystem.start loop) where
  pending := fun request h => absurd h (by simp [KeepAliveSystem.start])
  counted := rfl
  inRound := rfl

/-- **An answer in time** is accepted and counted. -/
theorem Answered.observe {r : ReceivePass P} (h : Answered s)
    (hkpa : r.loop.kpa = r.response.elim s.loop.kpa s.loop.kpa.after)
    (htimely : ∀ pkt ∈ r.response, ∃ request ∈ s.request, pkt.Responds request) :
    Answered (s.observe r) := by
  obtain ⟨hpending, hcounted, hround⟩ := h
  cases hresponse : r.response with
  | none =>
    rw [hresponse, Option.elim_none] at hkpa
    rw [observe_of_not fun pkt hpkt => absurd hpkt (by simp [hresponse])]
    refine ⟨fun request hrequest => ?_, ?_, ?_⟩
    · rw [hkpa]
      exact hpending request hrequest
    · rw [hkpa]
      exact hcounted
    · simp only [InRound, hkpa] at hround ⊢
      exact hround
  | some pkt =>
    obtain ⟨request, hrequest, hresponds⟩ := htimely pkt hresponse
    rw [hresponse, Option.elim_some, QsmpKeepAliveState.after,
      if_pos ((hpending.responds_iff hrequest).1 hresponds)] at hkpa
    rw [observe_of_responds hresponse hrequest hresponds]
    refine ⟨fun request h => absurd h (by simp), ?_, ?_⟩
    · rw [hkpa, UInt64.ofNat_add]
      exact congrArg (· + 1) hcounted
    · -- a request waits only behind the sending
      rw [InRound] at hround ⊢
      dsimp only
      rw [hkpa]
      cases hpoint : s.point with
      | clear => exact rfl
      | send =>
        rw [hpoint] at hround
        exact absurd hrequest (by simp [hround.1])
      | test =>
        rw [hpoint] at hround
        exact ⟨hround.1, iff_of_true rfl rfl⟩
      | sleep =>
        rw [hpoint] at hround
        exact hround
      | ended =>
        rw [hpoint] at hround
        exact hround

/-- **A step of a run in time**: if the answer has come before the test, the
round goes on. -/
theorem Answered.step (h : Answered s) (hstep : keepAliveStep K s a = some s')
    (htimely : Timely K s a) (hprompt : Prompt s a) : Answered s' := by
  obtain ⟨hpending, hcounted, hround⟩ := h
  cases a with
  | clear =>
    obtain ⟨hpoint, rfl⟩ := keepAliveStep_clear hstep
    rw [InRound, hpoint] at hround
    exact ⟨hpending, hcounted, hround, rfl⟩
  | send connected etime slen =>
    cases connected with
    | false => exact absurd htimely (by simp [Timely, listenerSendKeepAlive])
    | true =>
      obtain ⟨hpoint, hsent, qerr, resp, rfl, rfl⟩ := keepAliveStep_request hstep
      rw [InRound, hpoint] at hround
      exact ⟨hsent, hcounted, htimely, iff_of_false (by simp [hround.2]) (by simp)⟩
  | test =>
    obtain ⟨hpoint, rfl⟩ := keepAliveStep_test hstep
    rw [InRound, hpoint] at hround
    refine ⟨hpending, hcounted, ?_⟩
    rw [InRound, if_neg (by simp [hround.2.2 hprompt])]
    exact hround.1
  | wake =>
    obtain ⟨hpoint, rfl⟩ := keepAliveStep_wake hstep
    rw [InRound, hpoint] at hround
    refine ⟨hpending, hcounted, ?_⟩
    rw [InRound, if_pos hround]
    exact htimely
  | pass e =>
    obtain rfl := keepAliveStep_pass hstep
    exact Answered.observe ⟨hpending, hcounted, hround⟩ receiveLoopPass_kpa htimely
  | others cns keys =>
    obtain rfl := Option.some.inj hstep
    exact ⟨hpending, hcounted, hround⟩

/-- If it has not, the loop is about to end. -/
theorem Answered.prompt (h : Answered s) (hstep : keepAliveStep K s a = some s')
    (hgoes : GoesOn s') : Prompt s a := by
  cases a with
  | test =>
    obtain ⟨hpoint, rfl⟩ := keepAliveStep_test hstep
    have hround := h.inRound
    rw [InRound, hpoint] at hround
    have hnone := hgoes.awakes rfl
    refine hround.2.1 ?_
    by_contra hrecd
    rw [if_pos (Bool.not_eq_true _ ▸ hrecd)] at hnone
    exact absurd hnone (by simp)
  | clear => trivial
  | send connected etime slen => trivial
  | wake => trivial
  | pass e => trivial
  | others cns keys => trivial

/-! ## Requests that are not answered -/

/-- Where a round stands whose request has no answer: behind the request
the flag is clear, and behind the test the loop is about to end. -/
def Unanswered (s : KeepAliveSystem P) : Prop :=
  match s.point with
  | .send => s.loop.kpa.recd = false
  | .test => s.qerr = .none → s.request ≠ none → s.loop.kpa.recd = false
  | .sleep => s.request ≠ none → s.qerr ≠ .none
  | _ => True

/-- A pass takes nothing from it, if no response is accepted before the
request. -/
theorem Unanswered.observe {r : ReceivePass P} (h : Unanswered s) (hpending : Pending s)
    (hkpa : r.loop.kpa = r.response.elim s.loop.kpa s.loop.kpa.after)
    (huninvited : s.point = .send → ∀ pkt ∈ r.response, ¬ (pkt.sequence = s.loop.kpa.seqctr ∧
      s.loop.kpa.etime = qscIntutilsLe8to64 pkt.pmessage)) :
    Pending (s.observe r) ∧ Unanswered (s.observe r) := by
  have hsame (hkept : r.loop.kpa = s.loop.kpa) :
      Pending { s with loop := r.loop } ∧ Unanswered { s with loop := r.loop } := by
    constructor
    · intro request hrequest
      rw [hkept]
      exact hpending request hrequest
    · rw [Unanswered] at h ⊢
      dsimp only
      rw [hkept]
      exact h
  cases hresponse : r.response with
  | none =>
    rw [hresponse, Option.elim_none] at hkpa
    rw [observe_of_not fun pkt hpkt => absurd hpkt (by simp [hresponse])]
    exact hsame hkpa
  | some pkt =>
    rw [hresponse, Option.elim_some, QsmpKeepAliveState.after] at hkpa
    by_cases haccept : pkt.sequence = s.loop.kpa.seqctr ∧
        s.loop.kpa.etime = qscIntutilsLe8to64 pkt.pmessage
    · -- what is accepted is an answer, or no request waits for one
      have hnone : (s.observe r).request = none ∧ (s.observe r).point = s.point := by
        cases hrequest : s.request with
        | none =>
          rw [observe_of_not fun pkt _ request h => absurd h (by simp [hrequest])]
          exact ⟨hrequest, rfl⟩
        | some request =>
          rw [observe_of_responds hresponse hrequest ((hpending.responds_iff hrequest).2 haccept)]
          exact ⟨rfl, rfl⟩
      constructor
      · intro request hrequest
        exact absurd hrequest (by simp [hnone.1])
      · rw [Unanswered, hnone.1, hnone.2]
        cases hpoint : s.point with
        | send => exact absurd haccept (huninvited hpoint pkt hresponse)
        | test => exact fun _ hsome => absurd rfl hsome
        | sleep => exact fun hsome => absurd rfl hsome
        | clear => trivial
        | ended => trivial
    · rw [if_neg haccept] at hkpa
      rw [observe_of_not fun pkt' hpkt' request hrequest hresponds => ?_]
      · exact hsame hkpa
      · obtain rfl : pkt = pkt' := Option.some.inj (hresponse.symm.trans hpkt')
        exact haccept ((hpending.responds_iff hrequest).1 hresponds)

/-- **A step of any run**: an unanswered request ends the loop. -/
theorem Unanswered.step (h : Unanswered s) (hpending : Pending s)
    (hstep : keepAliveStep K s a = some s') (huninvited : Uninvited K s a) :
    (Pending s' ∧ Unanswered s') ∧ EndsUnanswered s a s' := by
  cases a with
  | clear =>
    obtain ⟨hpoint, rfl⟩ := keepAliveStep_clear hstep
    exact ⟨⟨hpending, rfl⟩, trivial⟩
  | send connected etime slen =>
    refine ⟨?_, trivial⟩
    cases connected with
    | false =>
      obtain ⟨hpoint, rfl⟩ := keepAliveStep_send hstep rfl
      exact ⟨hpending, fun hqerr => absurd hqerr (by simp)⟩
    | true =>
      obtain ⟨hpoint, hsent, qerr, resp, rfl, rfl⟩ := keepAliveStep_request hstep
      rw [Unanswered, hpoint] at h
      exact ⟨hsent, fun _ _ => h⟩
  | test =>
    obtain ⟨hpoint, rfl⟩ := keepAliveStep_test hstep
    rw [Unanswered, hpoint] at h
    refine ⟨⟨hpending, fun hsome hqerr => ?_⟩, trivial⟩
    dsimp only at hqerr
    split at hqerr
    · exact absurd hqerr (by simp)
    · rename_i hrecd
      exact hrecd (h hqerr hsome)
  | wake =>
    obtain ⟨hpoint, rfl⟩ := keepAliveStep_wake hstep
    rw [Unanswered, hpoint] at h
    refine ⟨⟨hpending, ?_⟩, fun hsome => if_neg (h hsome)⟩
    rw [Unanswered]
    dsimp only
    by_cases hnone : s.qerr = .none
    · rw [if_pos hnone]
      trivial
    · rw [if_neg hnone]
      trivial
  | pass e =>
    obtain rfl := keepAliveStep_pass hstep
    exact ⟨h.observe hpending receiveLoopPass_kpa huninvited, trivial⟩
  | others cns keys =>
    obtain rfl := Option.some.inj hstep
    exact ⟨⟨hpending, h⟩, trivial⟩

end Steps

/-! ## When the keep-alive exchange is sound -/

/-- **Keep-alive soundness**: in every run in which the peer answers in time
the loop goes on, and in every run an unanswered request ends it. -/
def KeepAliveSound (K : Primitives) (A : Asymmetric P) : Prop :=
  ∀ (loop : ReceiveLoop P) (steps : List (KeepAliveStep A)),
    (Along (keepAliveStep K) (fun s a _ => Timely K s a) (.start loop) steps →
      Along (keepAliveStep K) (fun _ _ s' => GoesOn s') (.start loop) steps) ∧
    Along (keepAliveStep K) EndsUnanswered (.start loop) steps

/-- **A run in which the peer answers in time goes on** exactly as far as
each answer is handled between the request and the test; and where no
response is accepted ahead of its request, an unanswered request ends the
loop. -/
theorem keepAlive_goesOn_iff (K : Primitives) (A : Asymmetric P) (loop : ReceiveLoop P)
    (steps : List (KeepAliveStep A)) :
    (Along (keepAliveStep K) (fun s a _ => Timely K s a) (.start loop) steps →
      (Along (keepAliveStep K) (fun _ _ s' => GoesOn s') (.start loop) steps ↔
        Along (keepAliveStep K) (fun s a _ => Prompt s a) (.start loop) steps)) ∧
    (Along (keepAliveStep K) (fun s a _ => Uninvited K s a) (.start loop) steps →
      Along (keepAliveStep K) EndsUnanswered (.start loop) steps) := by
  constructor
  · intro htimely
    constructor
    · intro hgoes
      have hboth := along_and.2 ⟨htimely, hgoes⟩
      refine hboth.of_invariant (fun s a s' hI hstep hstepped => ?_) answered_start
      have hprompt := hI.prompt hstep hstepped.2
      exact ⟨hI.step hstep hstepped.1 hprompt, hprompt⟩
    · intro hprompt
      have hboth := along_and.2 ⟨htimely, hprompt⟩
      refine hboth.of_invariant (fun s a s' hI hstep hstepped => ?_) answered_start
      have hnext := hI.step hstep hstepped.1 hstepped.2
      exact ⟨hnext, hnext.goesOn⟩
  · exact Along.of_invariant (I := fun s => Pending s ∧ Unanswered s)
      (fun s a s' hI hstep huninvited => hI.2.step hI.1 hstep huninvited)
      ⟨answered_start.pending, trivial⟩

/-- A pass that receives the answer to the first request, sent at the time
5. -/
def answerPass : ReceiveEvent (Asymmetric.plain .dilithiumKyber) :=
  let hdr := qsmpPacketHeaderSerialize ⟨QsmpFlags.keepAliveResponse.toByte, 8, 0, .zero⟩
  .plain _ hdr (hdr ++ qscIntutilsLe64to8 5 ++ [0, 0])

/-- The loops of a listener just started. -/
def idleListener : KeepAliveSystem .dilithiumKyber := .start (.start (.plain _) .zero .zero)

/-- A round whose answer comes before the test. -/
def answeredRound : List (KeepAliveStep (Asymmetric.plain .dilithiumKyber)) :=
  [.clear, .send true 5 22, .pass answerPass, .test, .wake]

/-- A round without an answer. -/
def silentRound : List (KeepAliveStep (Asymmetric.plain .dilithiumKyber)) :=
  [.clear, .send true 7 22, .test, .wake]

/-- The loop goes on over the first, and ends with the second. -/
theorem keepAlive_goesOn_iff_rounds :
    Along (keepAliveStep .plain) (fun _ _ s' => GoesOn s') idleListener answeredRound ∧
      Along (keepAliveStep .plain) EndsUnanswered idleListener (answeredRound ++ silentRound) ∧
      ((answeredRound ++ silentRound).foldlM (keepAliveStep .plain) idleListener).map
        (fun s => (s.point, s.answered)) = some (.ended, 1) := by
  refine ⟨((keepAlive_goesOn_iff _ _ _ _).1 ?_).2 ?_, (keepAlive_goesOn_iff _ _ _ _).2 ?_,
    by decide +kernel⟩
  · refine .cons rfl trivial <| .cons rfl rfl <| .cons rfl (fun pkt hpkt => ?_) <|
      .cons rfl trivial <| .cons rfl rfl trivial
    obtain rfl := Option.some.inj hpkt
    exact ⟨_, rfl, rfl, by decide⟩
  · exact .cons rfl trivial <| .cons rfl trivial <| .cons rfl trivial <| .cons rfl rfl <|
      .cons rfl trivial trivial
  · -- The answer comes when the request is out.
    exact .cons rfl trivial <| .cons rfl trivial <|
      .cons rfl (fun hpoint => KeepAlivePoint.noConfusion hpoint) <| .cons rfl trivial <|
      .cons rfl trivial <| .cons rfl trivial <| .cons rfl trivial <| .cons rfl trivial <|
      .cons rfl trivial trivial

/-- A round whose answer comes during the sleep. -/
def lateRound : List (KeepAliveStep (Asymmetric.plain .dilithiumKyber)) :=
  [.clear, .send true 5 22, .test, .pass answerPass, .wake]

theorem not_keepAliveSound_late :
    ¬ KeepAliveSound .plain (Asymmetric.plain .dilithiumKyber) := by
  intro hsound
  have hgoes := (hsound (.start (.plain _) .zero .zero) lateRound).1 ?_
  · have hended := (((((hgoes _ rfl).2 _ rfl).2 _ rfl).2 _ rfl).2 _ rfl).1
    exact hended.running rfl
  · refine .cons rfl trivial <| .cons rfl rfl <| .cons rfl trivial <|
      .cons rfl (fun pkt hpkt => ?_) <| .cons rfl rfl trivial
    obtain rfl := Option.some.inj hpkt
    exact ⟨_, rfl, rfl, by decide⟩

end Qsmp
