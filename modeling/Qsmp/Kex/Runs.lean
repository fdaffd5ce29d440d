import Qsmp.Kex.Stages
/-!
# The runs of the four drivers

Every run of a driver fails, or stops on a null pointer, or passes each of
its stages without leaving an error. The lemmas here cut the four drivers
into their stages; what is proved of a whole run is read off the stages.
-/

namespace Qsmp

open Dialogue

variable {P : Params} {K : Primitives} {A : Asymmetric P} {stack : Mem} {d : Draws A}
variable {cns : QsmpConnectionState} {tr : List Event} {bs₁ bs₂ bs₃ : Bytes}

/-- The locals a client starts its later stages from. -/
def Locals.cleared {S : Type} (l : Locals S) : Locals S :=
  { l with resp := qsmpPacketClear l.resp }

@[simp] theorem Locals.resp_cleared {S : Type} (l : Locals S) :
    l.cleared.resp = qsmpPacketClear l.resp := rfl

@[simp] theorem Locals.resp_countSent {S : Type} (l : Locals S) : l.countSent.resp = l.resp := rfl

@[simp] theorem Locals.rxseq_cleared {S : Type} (l : Locals S) :
    l.cleared.cns.rxseq = l.cns.rxseq := rfl

@[simp] theorem Locals.rxseq_countSent {S : Type} (l : Locals S) :
    l.countSent.cns.rxseq = l.cns.rxseq := rfl

@[simp] theorem Locals.cns_start {S : Type} (ks : S) (cns : QsmpConnectionState) :
    (Locals.start ks cns).cns = cns := rfl

@[simp] theorem Locals.resp_start {S : Type} (ks : S) (cns : QsmpConnectionState) :
    (Locals.start ks cns).resp = .init := rfl

@[simp] theorem Locals.resp_ofStep {S : Type} (r : StepResult S) :
    (Locals.ofStep r).resp = .init := rfl

/-- The packets a client takes. -/
def clientPackets (P : Params) (stack : Mem) (tr : List Event) : List QsmpPacket :=
  packets P stack qsmpPacketClear .init (received tr)

/-- The packets a server takes. -/
def serverPackets (P : Params) (stack : Mem) (tr : List Event) : List QsmpPacket :=
  packets P stack id .init (received tr)

/-- A server's i-th packet carries this number, and is an error packet that
reports no error. -/
def Slips (P : Params) (stack : Mem) (tr : List Event) (i : ℕ) (sequence : UInt64) : Prop :=
  ∃ p, (serverPackets P stack tr)[i]? = some p ∧ p.sequence = sequence ∧ ReportsNone p

/-- A server whose first stage leaves no request has taken such a packet. -/
theorem Passes.slips {S : Type} {len : ℕ} {flag : QsmpFlags} {step : KexStep S} {ks : S}
    {l : Locals S} {bs : Bytes} {bss : List Bytes}
    (h : Passes P stack len flag True step (.start ks cns) bs l) (hrec : received tr = bs :: bss)
    (hreqt : l.reqt = .none) : Slips P stack tr 0 cns.rxseq := by
  obtain ⟨hset, -⟩ | ⟨hp, -⟩ := h.step_or_slip
  · exact absurd hreqt hset
  · refine ⟨l.resp, ?_, h.sequence trivial, hp⟩
    rw [serverPackets, hrec, packets, h.resp]
    rfl

/-! ## The duplex client -/

section

variable {kcs : QsmpKexDuplexClientState P} {r : Option (Returned (QsmpKexDuplexClientState P))}
variable {l₁ l₂ l₃ : Locals (QsmpKexDuplexClientState P)}

/-- The locals of the duplex client once its connection request is made. -/
def duplexClientStart (K : Primitives) (d : Draws A) (kcs : QsmpKexDuplexClientState P)
    (cns : QsmpConnectionState) : Locals (QsmpKexDuplexClientState P) :=
  .ofStep (kexDuplexClientConnectRequest K d.tm kcs cns .init)

/-- A run of the duplex client through its three stages. -/
structure DuplexClientRun (K : Primitives) (A : Asymmetric P) (stack : Mem) (d : Draws A)
    (kcs : QsmpKexDuplexClientState P) (cns : QsmpConnectionState) (tr : List Event)
    (bs₁ bs₂ bs₃ : Bytes) (l₁ l₂ l₃ : Locals (QsmpKexDuplexClientState P)) : Prop where
  received : received tr = [bs₁, bs₂, bs₃]
  started : (duplexClientStart K d kcs cns).qerr = .none
  first : Passes P stack (duplexClientConlen P) .connectResponse True
    (kexDuplexClientExchangeRequest K A d.encap d.keypair d.sign)
    (duplexClientStart K d kcs cns).countSent bs₁ l₁
  second : Passes P stack (duplexClientExclen P) .exchangeResponse True
    (kexDuplexClientEstablishRequest K A) l₁.cleared.countSent bs₂ l₂
  third : Passes P stack estlen .establishResponse True kexDuplexClientEstablishVerify
    l₂.cleared.countSent bs₃ l₃

theorem DuplexClientRun.packets_eq
    (h : DuplexClientRun K A stack d kcs cns tr bs₁ bs₂ bs₃ l₁ l₂ l₃) :
    clientPackets P stack tr = [l₁.resp, l₂.resp, l₃.resp] := by
  simp only [clientPackets, h.received, packets, h.first.resp, h.second.resp, h.third.resp,
    duplexClientStart, Locals.resp_cleared, Locals.resp_countSent, Locals.resp_ofStep]

/-- **The duplex client** fails, or passes its three stages. Its message
pointer is set before the first. -/
theorem duplexClient_runs
    (h : Runs (qsmpKexDuplexClientKeyExchange K A stack d kcs cns) tr r) :
    Failed r ∨ ∃ bs₁ bs₂ bs₃ l₁ l₂ l₃,
      DuplexClientRun K A stack d kcs cns tr bs₁ bs₂ bs₃ l₁ l₂ l₃ ∧
        r = some (.none, kexDuplexClientReset l₃.ks, l₃.cns) := by
  have hset : (duplexClientStart K d kcs cns).reqt ≠ none := Option.some_ne_none _
  rw [qsmpKexDuplexClientKeyExchange] at h
  by_cases hstart : (duplexClientStart K d kcs cns).qerr = .none
  · obtain hfail | ⟨-, hreqt⟩ | ⟨bs₁, l₁, tr₁, h₁, h, hrec₁⟩ :=
      runs_ifNone_stage h (closes_stage (closes_stage closes_finish)) hstart
        fun _ _ => exchangeStage_ends accepts_answer (by decide) hstart
    · exact .inl hfail
    · exact absurd hreqt hset
    obtain hfail | ⟨-, hreqt⟩ | ⟨bs₂, l₂, tr₂, h₂, h, hrec₂⟩ :=
      runs_ifNone_stage h (closes_stage closes_finish) h₁.none
        fun _ _ => exchangeStage_ends (l := l₁.cleared) accepts_answer (by decide) h₁.none
    · exact .inl hfail
    · exact absurd hreqt (h₁.reqt_ne_none hset)
    obtain hfail | ⟨-, hreqt⟩ | ⟨bs₃, l₃, tr₃, h₃, h, hrec₃⟩ :=
      runs_ifNone_stage h closes_finish h₂.none
        fun _ _ => exchangeStage_ends (l := l₂.cleared) accepts_verify (by decide) h₂.none
    · exact .inl hfail
    · exact absurd hreqt (h₂.reqt_ne_none (h₁.reqt_ne_none hset))
    obtain ⟨rfl, rfl⟩ := finish_of_none h₃.none h
    exact .inr ⟨bs₁, bs₂, bs₃, l₁, l₂, l₃, ⟨by rw [hrec₁, hrec₂, hrec₃]; rfl, hstart, h₁, h₂, h₃⟩,
      rfl⟩
  · exact .inl (closes_stage (closes_stage (closes_stage closes_finish)) _ _ _ hstart h)

end

/-! ## The simplex client -/

section

variable {kcs : QsmpKexSimplexClientState P}
variable {r : Option (Returned (QsmpKexSimplexClientState P))}
variable {l₁ l₂ : Locals (QsmpKexSimplexClientState P)}

/-- The locals of the simplex client once its connection request is made. -/
def simplexClientStart (K : Primitives) (d : Draws A) (kcs : QsmpKexSimplexClientState P)
    (cns : QsmpConnectionState) : Locals (QsmpKexSimplexClientState P) :=
  .ofStep (kexSimplexClientConnectRequest K d.tm kcs cns .init)

/-- A run of the simplex client through its two stages. -/
structure SimplexClientRun (K : Primitives) (A : Asymmetric P) (stack : Mem) (d : Draws A)
    (kcs : QsmpKexSimplexClientState P) (cns : QsmpConnectionState) (tr : List Event)
    (bs₁ bs₂ : Bytes) (l₁ l₂ : Locals (QsmpKexSimplexClientState P)) : Prop where
  received : received tr = [bs₁, bs₂]
  started : (simplexClientStart K d kcs cns).qerr = .none
  first : Passes P stack (simplexClientConlen P) .connectResponse True
    (kexSimplexClientExchangeRequest K A d.encap)
    (simplexClientStart K d kcs cns).countSent bs₁ l₁
  second : Passes P stack estlen .exchangeResponse True kexSimplexClientEstablishVerify
    l₁.cleared.countSent bs₂ l₂

theorem SimplexClientRun.packets_eq
    (h : SimplexClientRun K A stack d kcs cns tr bs₁ bs₂ l₁ l₂) :
    clientPackets P stack tr = [l₁.resp, l₂.resp] := by
  simp only [clientPackets, h.received, packets, h.first.resp, h.second.resp,
    simplexClientStart, Locals.resp_cleared, Locals.resp_countSent, Locals.resp_ofStep]

/-- **The simplex client** fails, or passes its two stages. -/
theorem simplexClient_runs
    (h : Runs (qsmpKexSimplexClientKeyExchange K A stack d kcs cns) tr r) :
    Failed r ∨ ∃ bs₁ bs₂ l₁ l₂, SimplexClientRun K A stack d kcs cns tr bs₁ bs₂ l₁ l₂ ∧
      r = some (.none, kexSimplexClientReset l₂.ks, l₂.cns) := by
  have hset : (simplexClientStart K d kcs cns).reqt ≠ none := Option.some_ne_none _
  rw [qsmpKexSimplexClientKeyExchange] at h
  by_cases hstart : (simplexClientStart K d kcs cns).qerr = .none
  · obtain hfail | ⟨-, hreqt⟩ | ⟨bs₁, l₁, tr₁, h₁, h, hrec₁⟩ :=
      runs_ifNone_stage h (closes_stage closes_finish) hstart
        fun _ _ => exchangeStage_ends accepts_answer (by decide) hstart
    · exact .inl hfail
    · exact absurd hreqt hset
    obtain hfail | ⟨-, hreqt⟩ | ⟨bs₂, l₂, tr₂, h₂, h, hrec₂⟩ :=
      runs_ifNone_stage h closes_finish h₁.none
        fun _ _ => exchangeStage_ends (l := l₁.cleared) accepts_verify (by decide) h₁.none
    · exact .inl hfail
    · exact absurd hreqt (h₁.reqt_ne_none hset)
    obtain ⟨rfl, rfl⟩ := finish_of_none h₂.none h
    exact .inr ⟨bs₁, bs₂, l₁, l₂, ⟨by rw [hrec₁, hrec₂]; rfl, hstart, h₁, h₂⟩, rfl⟩
  · exact .inl (closes_stage (closes_stage closes_finish) _ _ _ hstart h)

end

/-! ## The duplex server

A server's message pointer is null until it answers a packet. Where its
first packet is an error packet that reports no error, it goes on without
one, and stops at the next packet it would answer. -/

section

variable {kss : QsmpKexDuplexServerState P} {r : Option (Returned (QsmpKexDuplexServerState P))}
variable {l₁ l₂ l₃ : Locals (QsmpKexDuplexServerState P)}

/-- A run of the duplex server through its three stages. -/
structure DuplexServerRun (K : Primitives) (A : Asymmetric P) (stack : Mem) (d : Draws A)
    (kss : QsmpKexDuplexServerState P) (cns : QsmpConnectionState) (tr : List Event)
    (bs₁ bs₂ bs₃ : Bytes) (l₁ l₂ l₃ : Locals (QsmpKexDuplexServerState P)) : Prop where
  received : received tr = [bs₁, bs₂, bs₃]
  first : Passes P stack serverConlen .connectRequest True
    (kexDuplexServerConnectResponse K A d.tm d.keypair d.sign) (.start kss cns) bs₁ l₁
  second : Passes P stack (duplexServerExclen P) .exchangeRequest True
    (kexDuplexServerExchangeResponse K A d.encap d.resign) l₁.countSent bs₂ l₂
  third : Passes P stack estlen .establishRequest False
    (countedStep kexDuplexServerEstablishResponse) l₂.countSent bs₃ l₃

theorem DuplexServerRun.packets_eq
    (h : DuplexServerRun K A stack d kss cns tr bs₁ bs₂ bs₃ l₁ l₂ l₃) :
    serverPackets P stack tr = [l₁.resp, l₂.resp, l₃.resp] := by
  simp only [serverPackets, h.received, packets, h.first.resp, h.second.resp, h.third.resp,
    Locals.resp_countSent, Locals.resp_start, id]

/-- **The duplex server** fails, or stops on a null pointer, or passes its
three stages. -/
theorem duplexServer_runs
    (h : Runs (qsmpKexDuplexServerKeyExchange K A stack d kss cns) tr r) :
    Failed r ∨ (r = none ∧ Slips P stack tr 0 cns.rxseq) ∨
      ∃ bs₁ bs₂ bs₃ l₁ l₂ l₃, DuplexServerRun K A stack d kss cns tr bs₁ bs₂ bs₃ l₁ l₂ l₃ ∧
        r = some (.none, kexDuplexServerReset l₃.ks, l₃.cns) := by
  rw [qsmpKexDuplexServerKeyExchange] at h
  obtain hfail | ⟨hstop, -⟩ | ⟨bs₁, l₁, tr₁, h₁, h, hrec₁⟩ :=
    runs_stage h (closes_stage (closes_stage closes_finish))
      fun _ _ => receiveStage_ends accepts_answerFirst (by decide) rfl
  · exact .inl hfail
  · exact absurd rfl (receiveStage_answerFirst_ne_none hstop)
  -- The later stages find the pointer null only where the first one has slipped.
  have hslip : l₁.reqt = none → Slips P stack tr 0 cns.rxseq := h₁.slips hrec₁
  obtain hfail | ⟨hr, hreqt⟩ | ⟨bs₂, l₂, tr₂, h₂, h, hrec₂⟩ :=
    runs_ifNone_stage h (closes_stage closes_finish) h₁.none
      fun _ _ => exchangeStage_ends accepts_answer (by decide) h₁.none
  · exact .inl hfail
  · exact .inr (.inl ⟨hr, hslip hreqt⟩)
  obtain hfail | ⟨hr, hreqt⟩ | ⟨bs₃, l₃, tr₃, h₃, h, hrec₃⟩ :=
    runs_ifNone_stage h closes_finish h₂.none
      fun _ _ => duplexServerEstablishStage_ends h₂.none
  · exact .inl hfail
  · exact .inr (.inl ⟨hr, hslip (not_ne_iff.1 fun hset => h₂.reqt_ne_none hset hreqt)⟩)
  obtain ⟨rfl, rfl⟩ := finish_of_none h₃.none h
  exact .inr (.inr ⟨bs₁, bs₂, bs₃, l₁, l₂, l₃,
    ⟨by rw [hrec₁, hrec₂, hrec₃]; rfl, h₁, h₂, h₃⟩, rfl⟩)

end

/-! ## The simplex server

Its last stage is a send. -/

section

variable {kss : QsmpKexSimplexServerState P}
variable {r : Option (Returned (QsmpKexSimplexServerState P))}
variable {l₁ l₂ : Locals (QsmpKexSimplexServerState P)}

/-- A run of the simplex server through its two receive stages. -/
structure SimplexServerRun (K : Primitives) (A : Asymmetric P) (stack : Mem) (d : Draws A)
    (kss : QsmpKexSimplexServerState P) (cns : QsmpConnectionState) (tr : List Event)
    (bs₁ bs₂ : Bytes) (l₁ l₂ : Locals (QsmpKexSimplexServerState P)) : Prop where
  received : received tr = [bs₁, bs₂]
  first : Passes P stack serverConlen .connectRequest True
    (kexSimplexServerConnectResponse K A d.tm d.keypair d.sign) (.start kss cns) bs₁ l₁
  second : Passes P stack (simplexServerExclen P) .exchangeRequest True
    (kexSimplexServerExchangeResponse K A) l₁.countSent bs₂ l₂

theorem SimplexServerRun.packets_eq
    (h : SimplexServerRun K A stack d kss cns tr bs₁ bs₂ l₁ l₂) :
    serverPackets P stack tr = [l₁.resp, l₂.resp] := by
  simp only [serverPackets, h.received, packets, h.first.resp, h.second.resp,
    Locals.resp_countSent, Locals.resp_start, id]

/-- **The simplex server** fails, or stops on a null pointer, or passes its
two stages and counts the packet it sends last. -/
theorem simplexServer_runs
    (h : Runs (qsmpKexSimplexServerKeyExchange K A stack d kss cns) tr r) :
    Failed r ∨ (r = none ∧ Slips P stack tr 0 cns.rxseq) ∨
      ∃ bs₁ bs₂ l₁ l₂, SimplexServerRun K A stack d kss cns tr bs₁ bs₂ l₁ l₂ ∧
        r = some (.none, kexSimplexServerReset l₂.ks, l₂.countSent.cns) := by
  rw [qsmpKexSimplexServerKeyExchange] at h
  obtain hfail | ⟨hstop, -⟩ | ⟨bs₁, l₁, tr₁, h₁, h, hrec₁⟩ :=
    runs_stage h (closes_stage (closes_stage closes_finish))
      fun _ _ => receiveStage_ends accepts_answerFirst (by decide) rfl
  · exact .inl hfail
  · exact absurd rfl (receiveStage_answerFirst_ne_none hstop)
  -- The later stages find the pointer null only where the first one has slipped.
  have hslip : l₁.reqt = none → Slips P stack tr 0 cns.rxseq := h₁.slips hrec₁
  obtain hfail | ⟨hr, hreqt⟩ | ⟨bs₂, l₂, tr₂, h₂, h, hrec₂⟩ :=
    runs_ifNone_stage h (closes_stage closes_finish) h₁.none
      fun _ _ => exchangeStage_ends accepts_answer (by decide) h₁.none
  · exact .inl hfail
  · exact .inr (.inl ⟨hr, hslip hreqt⟩)
  rw [ifNone_of_none h₂.none] at h
  obtain ⟨l₃, tr₃, tr₄, h₃, hfin, rfl⟩ | ⟨h₃, -⟩ := runs_bind.1 h
  · obtain ⟨hrec₃, ⟨l', hl₃, hne⟩ | hl₃⟩ := transmit_ends h₃
    · obtain rfl := Option.some.inj hl₃
      exact .inl (closes_finish _ _ _ hne hfin)
    · obtain rfl := Option.some.inj hl₃
      obtain ⟨rfl, rfl⟩ := finish_of_none (l := l₂.countSent) h₂.none hfin
      refine .inr (.inr ⟨bs₁, bs₂, l₁, l₂, ⟨?_, h₁, h₂⟩, rfl⟩)
      rw [hrec₁, hrec₂, received_append, hrec₃]
      rfl
  · obtain ⟨-, ⟨l', habs, -⟩ | habs⟩ := transmit_ends h₃
    · exact absurd habs.symm (Option.some_ne_none _)
    · exact absurd habs.symm (Option.some_ne_none _)

end

end Qsmp
