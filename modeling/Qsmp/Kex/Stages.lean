import Qsmp.Kex.Driver
/-!
# How a stage ends

A stage of a driver has four ways to end: it sets an error, it takes the
packet it expects and runs its step function, it takes an error packet
whose code reads as no error, or it stops on a null pointer. `StageEnds`
lists them, every stage is shown to end in one, and `runs_stage` cuts a run
of a driver at the end of its first stage.
-/

namespace Qsmp

open Dialogue

variable {S α : Type} {P : Params} {stack : Mem} {l : Locals S} {tr : List Event}

/-- An error packet whose code is that of success. -/
def ReportsNone (p : QsmpPacket) : Prop :=
  p.flag = QsmpFlags.errorCondition.toByte ∧ QsmpErrors.ofByte (p.pmessage 0) = .none

/-- The packets a driver parses from the byte strings it receives in full; `next`
is what it does to one before it receives the next. -/
def packets (P : Params) (stack : Mem) (next : QsmpPacket → QsmpPacket) :
    QsmpPacket → List Bytes → List QsmpPacket
  | _, [] => []
  | resp, bs :: bss =>
      parse P stack bs resp :: packets P stack next (next (parse P stack bs resp)) bss

/-- **The four ends of a stage** that receives `len` bytes, expects `flag`
and answers by `step`, over the byte strings received. The sequence number
is checked when `checked` holds. -/
inductive StageEnds (P : Params) (stack : Mem) (len : ℕ) (flag : QsmpFlags) (checked : Prop)
    (step : KexStep S) (l : Locals S) : List Bytes → Option (Locals S) → Prop
  | failed {bss : List Bytes} {l' : Locals S} (error : l'.qerr ≠ .none) :
      StageEnds P stack len flag checked step l bss (some l')
  | advanced {bs : Bytes} {p reqt : QsmpPacket} (parsed : p = parse P stack bs l.resp)
      (complete : bs.length = len) (inSequence : checked → p.sequence = l.cns.rxseq)
      (expected : p.flag = flag.toByte) :
      StageEnds P stack len flag checked step l [bs]
        (some ((l.countReceived p).apply (step l.ks (l.countReceived p).cns p reqt)))
  | slipped {bs : Bytes} {p : QsmpPacket} (parsed : p = parse P stack bs l.resp)
      (complete : bs.length = len) (inSequence : checked → p.sequence = l.cns.rxseq)
      (reported : ReportsNone p) :
      StageEnds P stack len flag checked step l [bs] (some (l.countReceived p))
  | stuck {bs : Bytes} (unset : l.reqt = none) :
      StageEnds P stack len flag checked step l [bs] none

/-- A stage that leaves no error, having received `bs`. -/
structure Passes (P : Params) (stack : Mem) (len : ℕ) (flag : QsmpFlags) (checked : Prop)
    (step : KexStep S) (l : Locals S) (bs : Bytes) (l' : Locals S) : Prop where
  ends : StageEnds P stack len flag checked step l [bs] (some l')
  none : l'.qerr = .none

variable {len : ℕ} {flag : QsmpFlags} {checked : Prop} {step : KexStep S} {l' : Locals S}
variable {bs : Bytes}

/-- A stage without error took one packet. -/
theorem StageEnds.passes {bss : List Bytes}
    (h : StageEnds P stack len flag checked step l bss (some l')) (hnone : l'.qerr = .none) :
    ∃ bs, bss = [bs] ∧ Passes P stack len flag checked step l bs l' := by
  cases h with
  | failed error => exact absurd hnone error
  | advanced parsed complete inSequence expected =>
    exact ⟨_, rfl, .advanced parsed complete inSequence expected, hnone⟩
  | slipped parsed complete inSequence reported =>
    exact ⟨_, rfl, .slipped parsed complete inSequence reported, hnone⟩

/-- Where the message pointer is set, a stage returns. -/
theorem StageEnds.reqt_of_none {bss : List Bytes}
    (h : StageEnds P stack len flag checked step l bss none) : l.reqt = none := by
  cases h with
  | stuck unset => exact unset

/-- Where it succeeds, the step sets the exchange flag to `after`, and leaves
the count of the packets received alone. -/
structure Sets (step : KexStep S) (after : QsmpFlags) : Prop where
  exflag : ∀ ks cns p q, (step ks cns p q).qerr = .none →
    (step ks cns p q).cns.exflag = after
  rxseq : ∀ ks cns p q, (step ks cns p q).qerr = .none →
    (step ks cns p q).cns.rxseq = cns.rxseq

namespace Passes

/-- The packet taken. -/
theorem resp (h : Passes P stack len flag checked step l bs l') :
    l'.resp = parse P stack bs l.resp := by
  cases h.ends with
  | failed error => exact absurd h.none error
  | advanced parsed complete inSequence expected => exact parsed
  | slipped parsed complete inSequence reported => exact parsed

/-- Where the sequence number is checked, it is the one expected. -/
theorem sequence (h : Passes P stack len flag checked step l bs l') (hc : checked) :
    l'.resp.sequence = l.cns.rxseq := by
  cases h.ends with
  | failed error => exact absurd h.none error
  | advanced parsed complete inSequence expected => exact inSequence hc
  | slipped parsed complete inSequence reported => exact inSequence hc

/-- The packet taken is counted. -/
theorem rxseq {after : QsmpFlags} (h : Passes P stack len flag checked step l bs l')
    (hstep : Sets step after) : l'.cns.rxseq = l.cns.rxseq + 1 := by
  cases h.ends with
  | failed error => exact absurd h.none error
  | advanced parsed complete inSequence expected => exact hstep.rxseq _ _ _ _ h.none
  | slipped parsed complete inSequence reported => rfl

/-- The message pointer stays set. -/
theorem reqt_ne_none (h : Passes P stack len flag checked step l bs l')
    (hset : l.reqt ≠ .none) : l'.reqt ≠ .none := by
  cases h.ends with
  | failed error => exact absurd h.none error
  | advanced parsed complete inSequence expected => exact Option.some_ne_none _
  | slipped parsed complete inSequence reported => exact hset

/-- **The step was run** on a packet with the flag expected, unless the stage
ended on an error packet and left the connection where it was. -/
theorem step_or_slip (h : Passes P stack len flag checked step l bs l') :
    (l'.reqt ≠ .none ∧ l'.resp.flag = flag.toByte ∧ ∃ reqt,
      let r := step l.ks (l.countReceived l'.resp).cns l'.resp reqt
      r.qerr = .none ∧ l'.ks = r.ks ∧ l'.cns = r.cns) ∨
      (ReportsNone l'.resp ∧ l'.ks = l.ks ∧ l'.cns.exflag = l.cns.exflag) := by
  cases h.ends with
  | failed error => exact absurd h.none error
  | @advanced _ _ reqt parsed complete inSequence expected =>
    exact .inl ⟨Option.some_ne_none _, expected, reqt, h.none, rfl, rfl⟩
  | slipped parsed complete inSequence reported => exact .inr ⟨reported, rfl, rfl⟩

end Passes

/-! ## The flag each step function sets -/

section

variable {K : Primitives} {A : Asymmetric P} {tm : UInt64} {encap keypair sign : A.Seed}

theorem sets_kexDuplexClientExchangeRequest :
    Sets (kexDuplexClientExchangeRequest K A encap keypair sign) .exchangeRequest := by
  constructor <;> intro kcs cns p q h <;>
    rw [(kexDuplexClientExchangeRequest_of_none rfl h).2.2.2]

theorem sets_kexDuplexClientEstablishRequest :
    Sets (kexDuplexClientEstablishRequest K A) .establishRequest := by
  constructor <;> intro kcs cns p q h <;>
    obtain ⟨-, -, _, -, -, hcns⟩ := kexDuplexClientEstablishRequest_of_none rfl h <;>
    rw [hcns]

theorem sets_kexDuplexClientEstablishVerify :
    Sets (kexDuplexClientEstablishVerify (P := P)) .sessionEstablished := by
  constructor <;> intro kcs cns p q h <;>
    rw [(kexDuplexClientEstablishVerify_of_none rfl h).2.2]

theorem sets_kexDuplexServerConnectResponse :
    Sets (kexDuplexServerConnectResponse K A tm keypair sign) .connectResponse := by
  constructor <;> intro kss cns p q h <;>
    obtain ⟨-, -, -, _, -, -, hcns⟩ := kexDuplexServerConnectResponse_of_none rfl h <;>
    rw [hcns]

theorem sets_kexDuplexServerExchangeResponse :
    Sets (kexDuplexServerExchangeResponse K A encap sign) .exchangeResponse := by
  constructor <;> intro kss cns p q h <;>
    obtain ⟨-, -, _, -, -, hcns⟩ := kexDuplexServerExchangeResponse_of_none rfl h <;>
    rw [hcns]

theorem sets_kexDuplexServerEstablishResponse :
    Sets (kexDuplexServerEstablishResponse (P := P)) .sessionEstablished := by
  constructor <;> intro kss cns p q h <;>
    rw [(kexDuplexServerEstablishResponse_of_none rfl h).2.2]

theorem sets_kexSimplexClientExchangeRequest :
    Sets (kexSimplexClientExchangeRequest K A encap) .exchangeRequest := by
  constructor <;> intro kcs cns p q h <;>
    rw [(kexSimplexClientExchangeRequest_of_none rfl h).2.2.2]

theorem sets_kexSimplexClientEstablishVerify :
    Sets (kexSimplexClientEstablishVerify (P := P)) .sessionEstablished := by
  constructor <;> intro kcs cns p q h <;>
    rw [(kexSimplexClientEstablishVerify_of_none rfl h).2.2]

theorem sets_kexSimplexServerConnectResponse :
    Sets (kexSimplexServerConnectResponse K A tm keypair sign) .connectResponse := by
  constructor <;> intro kss cns p q h <;>
    obtain ⟨-, -, -, -, -, hcns⟩ := kexSimplexServerConnectResponse_of_none rfl h <;>
    rw [hcns]

theorem sets_kexSimplexServerExchangeResponse :
    Sets (kexSimplexServerExchangeResponse K A) .sessionEstablished := by
  constructor <;> intro kss cns p q h <;>
    obtain ⟨-, _, -, -, hcns⟩ := kexSimplexServerExchangeResponse_of_none rfl h <;>
    rw [hcns]

end

/-! ## The parts of a stage -/

theorem ifNone_of_none {f : Locals S → Dialogue (Locals S)} (h : l.qerr = .none) :
    ifNone f l = f l := if_pos h

theorem ifNone_of_ne {f : Locals S → Dialogue (Locals S)} (h : l.qerr ≠ .none) :
    ifNone f l = .done l := if_neg h

/-- A send leaves an error or counts the packet. -/
theorem transmit_ends {r : Option (Locals S)} (h : Runs (transmit P stack l) tr r) :
    received tr = [] ∧ ((∃ l', r = some l' ∧ l'.qerr ≠ .none) ∨ r = some l.countSent) := by
  obtain ⟨n, rest, -, rfl, hk⟩ := runs_send.1 h
  split at hk <;> obtain ⟨rfl, rfl⟩ := runs_done.1 hk
  · exact ⟨rfl, .inr rfl⟩
  · exact ⟨rfl, .inl ⟨_, rfl, by simp [Locals.fail]⟩⟩

/-- A receive leaves an error or takes the packet. -/
theorem receive_ends {r : Option (Locals S)} (h : Runs (receive P stack len l) tr r) :
    (∃ l', r = some l' ∧ l'.qerr ≠ .none) ∨ ∃ bs, received tr = [bs] ∧ bs.length = len ∧
      (parse P stack bs l.resp).sequence = l.cns.rxseq ∧
        r = some (l.countReceived (parse P stack bs l.resp)) := by
  obtain ⟨bs, rest, -, rfl, hk⟩ := runs_recv.1 h
  split at hk
  · rename_i hlen
    split at hk <;> obtain ⟨rfl, rfl⟩ := runs_done.1 hk
    · rename_i hseq
      exact .inr ⟨bs, if_pos hlen, hlen, hseq, rfl⟩
    · exact .inl ⟨_, rfl, by simp [Locals.fail]⟩
  · obtain ⟨rfl, rfl⟩ := runs_done.1 hk
    exact .inl ⟨_, rfl, by simp [Locals.fail]⟩

/-- What a stage does with the packet it expects: it receives nothing more,
and leaves an error, or what `step` makes, or stops on the null pointer. -/
def Accepts (accept : Locals S → Dialogue (Locals S)) (step : KexStep S) : Prop :=
  ∀ l tr r, Runs (accept l) tr r → received tr = [] ∧
    ((∃ l', r = some l' ∧ l'.qerr ≠ .none) ∨
      (∃ reqt, r = some (l.apply (step l.ks l.cns l.resp reqt))) ∨ (l.reqt = none ∧ r = none))

theorem accepts_answer : Accepts (answer step) step := by
  intro l tr r h
  rw [answer] at h
  split at h
  · rename_i hreqt
    obtain ⟨rfl, rfl⟩ := runs_fault.1 h
    exact ⟨rfl, .inr (.inr ⟨hreqt, rfl⟩)⟩
  · obtain ⟨rfl, rfl⟩ := runs_done.1 h
    exact ⟨rfl, .inr (.inl ⟨_, rfl⟩)⟩

theorem accepts_answerFirst : Accepts (answerFirst step) step := by
  intro l tr r h
  obtain ⟨hrec, herr | ⟨reqt, rfl⟩ | ⟨hreqt, -⟩⟩ := accepts_answer _ _ _ h
  · exact ⟨hrec, .inl herr⟩
  · exact ⟨hrec, .inr (.inl ⟨reqt, rfl⟩)⟩
  · exact absurd hreqt (Option.some_ne_none _)

theorem accepts_verify : Accepts (verify step) step := by
  intro l tr r h
  obtain ⟨rfl, rfl⟩ := runs_done.1 h
  exact ⟨rfl, .inr (.inl ⟨_, rfl⟩)⟩

/-- The step function of the duplex server's establish stage: the answer is
sent, and counted, in the same stage. -/
def countedStep (step : KexStep S) : KexStep S := fun ks cns packetin packetout =>
  let r := step ks cns packetin packetout
  { r with cns := { r.cns with txseq := r.cns.txseq + 1 } }

theorem Sets.counted {after : QsmpFlags} (h : Sets step after) : Sets (countedStep step) after :=
  ⟨h.exflag, h.rxseq⟩

theorem accepts_establish :
    Accepts (fun l => (answer step l).bind fun l =>
      if l.qerr = .none then transmit P stack l else .done (l.fail .establishFailure))
      (countedStep step) := by
  intro l tr r h
  obtain ⟨l₁, tr₁, tr₂, h₁, h₂, rfl⟩ | ⟨h₁, rfl⟩ := runs_bind.1 h
  · obtain ⟨hrec, herr | ⟨reqt, hl₁⟩ | ⟨-, habs⟩⟩ := accepts_answer _ _ _ h₁
    · obtain ⟨l', hl₁, hne⟩ := herr
      obtain rfl := Option.some.inj hl₁
      rw [if_neg hne] at h₂
      obtain ⟨rfl, rfl⟩ := runs_done.1 h₂
      exact ⟨by rw [received_append, hrec]; rfl, .inl ⟨_, rfl, by simp [Locals.fail]⟩⟩
    · split at h₂
      · obtain ⟨hrec₂, herr | rfl⟩ := transmit_ends h₂
        · exact ⟨by rw [received_append, hrec, hrec₂]; rfl, .inl herr⟩
        · refine ⟨by rw [received_append, hrec, hrec₂]; rfl, .inr (.inl ⟨reqt, ?_⟩)⟩
          rw [Option.some.inj hl₁]
          rfl
      · obtain ⟨rfl, rfl⟩ := runs_done.1 h₂
        exact ⟨by rw [received_append, hrec]; rfl, .inl ⟨_, rfl, by simp [Locals.fail]⟩⟩
    · exact absurd habs (Option.some_ne_none _)
  · obtain ⟨hrec, ⟨l', habs, -⟩ | ⟨reqt, habs⟩ | ⟨hreqt, -⟩⟩ := accepts_answer _ _ _ h₁
    · exact absurd habs.symm (Option.some_ne_none _)
    · exact absurd habs.symm (Option.some_ne_none _)
    · exact ⟨hrec, .inr (.inr ⟨hreqt, rfl⟩)⟩

/-- The branch on the flag, once the packet is taken. -/
theorem dispatch_ends {failure : QsmpErrors} {accept : Locals S → Dialogue (Locals S)}
    {p : QsmpPacket} {r : Option (Locals S)} (ha : Accepts accept step) (hfailure : failure ≠ .none)
    (hl : l.qerr = .none) (parsed : p = parse P stack bs l.resp) (complete : bs.length = len)
    (inSequence : checked → p.sequence = l.cns.rxseq)
    (h : Runs (dispatch flag failure accept (l.countReceived p)) tr r) :
    received tr = [] ∧ StageEnds P stack len flag checked step l [bs] r := by
  rw [dispatch] at h
  split at h
  · rename_i hflag
    obtain ⟨hrec, ⟨l', rfl, hne⟩ | ⟨reqt, rfl⟩ | ⟨hreqt, rfl⟩⟩ := ha _ _ _ h
    · exact ⟨hrec, .failed hne⟩
    · exact ⟨hrec, .advanced parsed complete inSequence hflag⟩
    · exact ⟨hrec, .stuck hreqt⟩
  · split at h <;> obtain ⟨rfl, rfl⟩ := runs_done.1 h
    · rename_i hflag
      -- A code of zero leaves no error set, and the driver goes on without the step.
      by_cases hcode : QsmpErrors.ofByte (p.pmessage 0) = .none
      · have hsame : (l.countReceived p).fail (.ofByte ((l.countReceived p).resp.pmessage 0))
            = l.countReceived p := by
          rw [Locals.fail, Locals.countReceived, hcode, ← hl]
        rw [hsame]
        exact ⟨rfl, .slipped parsed complete inSequence ⟨hflag, hcode⟩⟩
      · exact ⟨rfl, .failed hcode⟩
    · exact ⟨rfl, .failed hfailure⟩

/-! ## The stages -/

section

variable {failure : QsmpErrors}
variable {accept : Locals S → Dialogue (Locals S)} {r : Option (Locals S)}

/-- **Every receive stage ends** in one of the four ways. -/
theorem receiveStage_ends (ha : Accepts accept step) (hfailure : failure ≠ .none)
    (hl : l.qerr = .none) (h : Runs (receiveStage P stack len flag failure accept l) tr r) :
    StageEnds P stack len flag True step l (received tr) r := by
  obtain ⟨l₁, tr₁, tr₂, h₁, h₂, rfl⟩ | ⟨h₁, rfl⟩ := runs_bind.1 h
  · obtain ⟨l', hl₁, hne⟩ | ⟨bs, hrec, hlen, hseq, hl₁⟩ := receive_ends h₁
    · obtain rfl := Option.some.inj hl₁
      rw [ifNone_of_ne hne] at h₂
      obtain ⟨rfl, rfl⟩ := runs_done.1 h₂
      exact .failed hne
    · obtain rfl := Option.some.inj hl₁
      rw [ifNone_of_none (l := l.countReceived _) hl] at h₂
      obtain ⟨hrec₂, hends⟩ := dispatch_ends ha hfailure hl rfl hlen (fun _ => hseq) h₂
      rw [received_append, hrec, hrec₂]
      exact hends
  · obtain ⟨l', habs, -⟩ | ⟨bs, -, -, -, habs⟩ := receive_ends h₁
    · exact absurd habs.symm (Option.some_ne_none _)
    · exact absurd habs.symm (Option.some_ne_none _)

/-- The first stage of a server sets the message pointer, and returns. -/
theorem receiveStage_answerFirst_ne_none
    (h : Runs (receiveStage P stack len flag failure (answerFirst step) l) tr r) : r ≠ none := by
  -- With the pointer set no branch faults: each returns what it was left with.
  obtain ⟨l₁, tr₁, tr₂, h₁, h₂, rfl⟩ | ⟨h₁, rfl⟩ := runs_bind.1 h
  · rw [ifNone] at h₂
    split at h₂
    · rw [dispatch] at h₂
      split at h₂
      · rw [(runs_done.1 h₂).2]
        exact Option.some_ne_none _
      · split at h₂ <;> rw [(runs_done.1 h₂).2] <;> exact Option.some_ne_none _
    · rw [(runs_done.1 h₂).2]
      exact Option.some_ne_none _
  · obtain ⟨l', habs, -⟩ | ⟨bs, -, -, -, habs⟩ := receive_ends h₁
    · exact absurd habs.symm (Option.some_ne_none _)
    · exact absurd habs.symm (Option.some_ne_none _)

/-- A stage that sends first: what follows the send decides. -/
theorem sendFirst_ends {k : Locals S → Dialogue (Locals S)}
    (h : Runs ((transmit P stack l).bind (ifNone k)) tr r) (hl : l.qerr = .none)
    (hk : ∀ tr, Runs (k l.countSent) tr r →
      StageEnds P stack len flag checked step l.countSent (received tr) r) :
    StageEnds P stack len flag checked step l.countSent (received tr) r := by
  obtain ⟨l₁, tr₁, tr₂, h₁, h₂, rfl⟩ | ⟨h₁, rfl⟩ := runs_bind.1 h
  · obtain ⟨hrec, ⟨l', hl₁, hne⟩ | hl₁⟩ := transmit_ends h₁
    · obtain rfl := Option.some.inj hl₁
      rw [ifNone_of_ne hne] at h₂
      obtain ⟨rfl, rfl⟩ := runs_done.1 h₂
      exact .failed hne
    · obtain rfl := Option.some.inj hl₁
      rw [ifNone_of_none (l := l.countSent) hl] at h₂
      rw [received_append, hrec]
      exact hk _ h₂
  · obtain ⟨-, ⟨l', habs, -⟩ | habs⟩ := transmit_ends h₁
    · exact absurd habs.symm (Option.some_ne_none _)
    · exact absurd habs.symm (Option.some_ne_none _)

/-- A send and a receive. -/
theorem exchangeStage_ends (ha : Accepts accept step) (hfailure : failure ≠ .none)
    (hl : l.qerr = .none) (h : Runs (exchangeStage P stack len flag failure accept l) tr r) :
    StageEnds P stack len flag True step l.countSent (received tr) r :=
  sendFirst_ends h hl fun _ => receiveStage_ends ha hfailure hl

/-- The stage with a body of its own: nothing checks the sequence number. -/
theorem duplexServerEstablishStage_ends (hl : l.qerr = .none)
    (h : Runs (duplexServerEstablishStage (P := P) stack step l) tr r) :
    StageEnds P stack estlen .establishRequest False (countedStep step) l.countSent
      (received tr) r := by
  refine sendFirst_ends h hl fun tr h => ?_
  obtain ⟨bs, rest, -, rfl, hk⟩ := runs_recv.1 h
  split at hk
  · rename_i hlen
    obtain ⟨hrec, hends⟩ := dispatch_ends (l := l.countSent) accepts_establish (by decide) hl
      rfl hlen False.elim hk
    rw [show received (.received estlen bs :: rest) = [bs] by
      rw [← hlen, received_complete, hrec]]
    exact hends
  · obtain ⟨rfl, rfl⟩ := runs_done.1 hk
    exact .failed (by simp [Locals.fail])

end

/-! ## Cutting a run at a stage -/

/-- What a driver returns. -/
abbrev Returned (S : Type) := QsmpErrors × S × QsmpConnectionState

/-- The driver returned an error, and disposed of the connection. -/
def Failed (r : Option (Returned S)) : Prop :=
  ∃ qerr ks cns, r = some (qerr, ks, qsmpConnectionStateDispose cns) ∧ qerr ≠ .none

theorem not_failed_none {ks : S} {cns : QsmpConnectionState} :
    ¬ Failed (some (.none, ks, cns)) := by
  rintro ⟨qerr, ks', cns', h, hne⟩
  obtain ⟨rfl, -⟩ := Prod.mk.inj (Option.some.inj h)
  exact hne rfl

/-- Whatever is left of a driver, an error set makes it fail. -/
def Closes (g : Locals S → Dialogue (Returned S)) : Prop :=
  ∀ l tr r, l.qerr ≠ .none → Runs (g l) tr r → Failed r

variable {sequence : UInt64} {reset : S → S} {r : Option (Returned S)}
variable {f : Locals S → Dialogue (Locals S)} {g : Locals S → Dialogue (Returned S)}

theorem closes_finish : Closes (finish P stack sequence reset) := by
  intro l tr r hne h
  rw [finish, if_neg hne] at h
  -- Whether the peer is told or not, the result is the same.
  have hdone : ∀ tr', Runs (.done (l.qerr, reset l.ks, qsmpConnectionStateDispose l.cns)) tr' r →
      Failed r := by
    intro tr' h
    obtain ⟨-, rfl⟩ := runs_done.1 h
    exact ⟨_, _, _, rfl, hne⟩
  dsimp only at h
  split at h
  · obtain ⟨b, rest, rfl, hpoll⟩ := runs_poll.1 h
    split at hpoll
    · obtain ⟨n, rest, -, rfl, hsend⟩ := runs_send.1 hpoll
      obtain ⟨rest, rfl, hshut⟩ := runs_shut.1 hsend
      exact hdone _ hshut
    · obtain ⟨rest, rfl, hshut⟩ := runs_shut.1 hpoll
      exact hdone _ hshut
  · exact hdone _ h

theorem closes_stage (hg : Closes g) : Closes fun l => (ifNone f l).bind g := by
  intro l tr r hne h
  simp only [ifNone_of_ne hne] at h
  exact hg l tr r hne h

/-- With no error set the driver keeps the connection. -/
theorem finish_of_none (hl : l.qerr = .none) (h : Runs (finish P stack sequence reset l) tr r) :
    tr = [] ∧ r = some (.none, reset l.ks, l.cns) := by
  rw [finish, if_pos hl] at h
  obtain ⟨rfl, rfl⟩ := runs_done.1 h
  exact ⟨rfl, by rw [hl]⟩

/-- **Cutting a run.** A driver whose remaining stages close fails, or stops
in the stage on the null pointer, or passes it and goes on. -/
theorem runs_stage {l₀ : Locals S} (h : Runs ((f l).bind g) tr r) (hg : Closes g)
    (hends : ∀ tr r, Runs (f l) tr r →
      StageEnds P stack len flag checked step l₀ (received tr) r) :
    Failed r ∨ (Runs (f l) tr none ∧ r = none ∧ l₀.reqt = none) ∨ ∃ bs l' tr',
      Passes P stack len flag checked step l₀ bs l' ∧ Runs (g l') tr' r ∧
        received tr = bs :: received tr' := by
  obtain ⟨l', tr₁, tr₂, h₁, h₂, rfl⟩ | ⟨h₁, rfl⟩ := runs_bind.1 h
  · by_cases hl' : l'.qerr = .none
    · obtain ⟨bs, hbs, hpass⟩ := (hends _ _ h₁).passes hl'
      exact .inr (.inr ⟨bs, l', tr₂, hpass, h₂, by rw [received_append, hbs]; rfl⟩)
    · exact .inl (hg _ _ _ hl' h₂)
  · exact .inr (.inl ⟨h₁, rfl, (hends _ _ h₁).reqt_of_none⟩)

/-- The same for a guarded stage. -/
theorem runs_ifNone_stage {l₀ : Locals S} (h : Runs ((ifNone f l).bind g) tr r)
    (hg : Closes g) (hl : l.qerr = .none)
    (hends : ∀ tr r, Runs (f l) tr r →
      StageEnds P stack len flag checked step l₀ (received tr) r) :
    Failed r ∨ (r = none ∧ l₀.reqt = none) ∨ ∃ bs l' tr',
      Passes P stack len flag checked step l₀ bs l' ∧ Runs (g l') tr' r ∧
        received tr = bs :: received tr' := by
  rw [ifNone_of_none hl] at h
  exact (runs_stage h hg hends).imp_right (Or.imp_left And.right)

end Qsmp
