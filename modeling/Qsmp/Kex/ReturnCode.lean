import Qsmp.Kex.Sequencing
/-!
# What the return code says

Callers start the encrypted loops on the return code alone. A stage reads
the code of an error packet off a byte the peer sends, and goes on when
that byte is zero; where the last stage does, the driver returns no error
on a connection that is neither established nor disposed of.
-/

namespace Qsmp

open Dialogue

variable {P : Params} {K : Primitives} {A : Asymmetric P} {stack : Mem} {d : Draws A}
variable {cns : QsmpConnectionState} {tr : List Event} {S : Type}

/-- The connection as `qsmp_connection_state_dispose` leaves it. -/
structure Disposed (cns : QsmpConnectionState) : Prop where
  exflag : cns.exflag = .none
  rxseq : cns.rxseq = 0
  txseq : cns.txseq = 0
  rxcpr : cns.rxcpr = qscRcsDispose
  txcpr : cns.txcpr = qscRcsDispose
  rtcs : cns.rtcs = Octets.zero _

theorem disposed_dispose : Disposed (qsmpConnectionStateDispose cns) :=
  ⟨rfl, rfl, rfl, rfl, rfl, rfl⟩

/-- **The return code tells the truth.** The driver returns, with no error
exactly when the session is established, and a connection that is not
established is disposed of. -/
def Truthful (r : Option (Returned S)) : Prop :=
  ∃ qerr ks cns, r = some (qerr, ks, cns) ∧
    (qerr = .none ↔ cns.exflag = .sessionEstablished) ∧
    (cns.exflag ≠ .sessionEstablished → Disposed cns)

theorem Failed.truthful {r : Option (Returned S)} (h : Failed r) : Truthful r := by
  obtain ⟨qerr, ks, cns, hr, hne⟩ := h
  have hdisposed : (qsmpConnectionStateDispose cns).exflag ≠ .sessionEstablished := by
    simp [qsmpConnectionStateDispose]
  refine ⟨qerr, ks, _, hr, ?_, fun _ => disposed_dispose⟩
  constructor
  · intro hnone
    exact absurd hnone hne
  · intro hest
    exact absurd hest hdisposed

theorem truthful_of_established {ks : S} (h : cns.exflag = .sessionEstablished) :
    Truthful (some (.none, ks, cns)) :=
  ⟨.none, ks, cns, rfl, ⟨fun _ => h, fun _ => rfl⟩, fun hne => absurd h hne⟩

/-- No packet in sequence is an error packet that reports no error; of the
packets that `checked` leaves out, the number is not looked at. -/
def Reported (checked : ℕ → Prop) (ps : List QsmpPacket) : Prop :=
  ∀ i p, ps[i]? = some p → (checked i → p.sequence = UInt64.ofNat i) → ¬ ReportsNone p

/-- A last stage that passes without such a packet has run its step. -/
theorem established_of_passes {len : ℕ} {flag : QsmpFlags} {checked : Prop} {step : KexStep S}
    {l l' : Locals S} {bs : Bytes} (h : Passes P stack len flag checked step l bs l')
    (hreport : ¬ ReportsNone l'.resp) (hstep : Sets step .sessionEstablished) :
    l'.cns.exflag = .sessionEstablished := by
  obtain ⟨-, -, reqt, hqerr, -, hcns⟩ | ⟨hslip, -⟩ := h.step_or_slip
  · rw [hcns]
    exact hstep.exflag _ _ _ _ hqerr
  · exact absurd hslip hreport

/-- **When the return code tells the truth.** In every run of a driver on a
fresh connection whose packets in sequence hold no error packet with the
code of success, whatever bytes the socket delivers and however many of
those sent it takes, the return code tells the truth. The number of the
third packet of the duplex server does not matter. -/
theorem return_code_truthful (K : Primitives) (A : Asymmetric P) (stack : Mem) (d : Draws A)
    (cns : QsmpConnectionState) (hfresh : cns.Fresh) :
    (∀ kcs tr r, Runs (qsmpKexDuplexClientKeyExchange K A stack d kcs cns) tr r →
      Reported (fun _ => True) (clientPackets P stack tr) → Truthful r) ∧
    (∀ kss tr r, Runs (qsmpKexDuplexServerKeyExchange K A stack d kss cns) tr r →
      Reported (· < 2) (serverPackets P stack tr) → Truthful r) ∧
    (∀ kcs tr r, Runs (qsmpKexSimplexClientKeyExchange K A stack d kcs cns) tr r →
      Reported (fun _ => True) (clientPackets P stack tr) → Truthful r) ∧
    (∀ kss tr r, Runs (qsmpKexSimplexServerKeyExchange K A stack d kss cns) tr r →
      Reported (fun _ => True) (serverPackets P stack tr) → Truthful r) := by
  refine ⟨?_, ?_, ?_, ?_⟩
  · intro kcs tr r h hreport
    obtain hfail | ⟨bs₁, bs₂, bs₃, l₁, l₂, l₃, hrun, rfl⟩ := duplexClient_runs h
    · exact hfail.truthful
    · rw [hrun.packets_eq] at hreport
      have hlast : ¬ ReportsNone l₃.resp :=
        hreport 2 _ rfl fun _ => (hrun.sequences hfresh).2.2
      exact truthful_of_established
        (established_of_passes hrun.third hlast sets_kexDuplexClientEstablishVerify)
  · intro kss tr r h hreport
    obtain hfail | ⟨-, p, hp, hseq, hslip⟩ | ⟨bs₁, bs₂, bs₃, l₁, l₂, l₃, hrun, rfl⟩ :=
      duplexServer_runs h
    · exact hfail.truthful
    · -- A null pointer comes of a first packet that reports no error.
      exact absurd hslip (hreport 0 p hp fun _ => hseq.trans hfresh.2.1)
    · rw [hrun.packets_eq] at hreport
      -- The number of the third packet is not checked, so none is asked of it.
      have hlast : ¬ ReportsNone l₃.resp := hreport 2 _ rfl fun hlt => absurd hlt (by decide)
      exact truthful_of_established
        (established_of_passes hrun.third hlast sets_kexDuplexServerEstablishResponse.counted)
  · intro kcs tr r h hreport
    obtain hfail | ⟨bs₁, bs₂, l₁, l₂, hrun, rfl⟩ := simplexClient_runs h
    · exact hfail.truthful
    · rw [hrun.packets_eq] at hreport
      have hlast : ¬ ReportsNone l₂.resp := hreport 1 _ rfl fun _ => (hrun.sequences hfresh).2
      exact truthful_of_established
        (established_of_passes hrun.second hlast sets_kexSimplexClientEstablishVerify)
  · intro kss tr r h hreport
    obtain hfail | ⟨-, p, hp, hseq, hslip⟩ | ⟨bs₁, bs₂, l₁, l₂, hrun, rfl⟩ := simplexServer_runs h
    · exact hfail.truthful
    · exact absurd hslip (hreport 0 p hp fun _ => hseq.trans hfresh.2.1)
    · rw [hrun.packets_eq] at hreport
      have hlast : ¬ ReportsNone l₂.resp := hreport 1 _ rfl fun _ => (hrun.sequences hfresh).2
      have hest : l₂.cns.exflag = .sessionEstablished :=
        established_of_passes hrun.second hlast sets_kexSimplexServerExchangeResponse
      -- The answer is sent after the channel is raised, and moves no flag.
      exact truthful_of_established hest

/-- The packets parsed from frames with other flags report no such error. -/
theorem not_reportsNone_of_frames {next : QsmpPacket → QsmpPacket} :
    ∀ (resp : QsmpPacket) (fs : List (QsmpFlags × UInt64 × Bytes)),
      (∀ f ∈ fs, f.1 ≠ .errorCondition ∧ headerSize + f.2.2.length ≤ P.messageMax) →
      ∀ p ∈ packets P stack next resp (fs.map fun f => frame f.1 f.2.1 f.2.2), ¬ ReportsNone p
  | _, [], _, p, hp, _ => by simp [packets] at hp
  | resp, f :: fs, hfs, p, hp, hrep => by
      rw [List.map_cons, packets, List.mem_cons] at hp
      obtain ⟨hflag, hfit⟩ := hfs f List.mem_cons_self
      obtain rfl | hp := hp
      · exact hflag (QsmpFlags.toByte_injective
          ((says_parse_frame hfit).flag.symm.trans hrep.1))
      · exact not_reportsNone_of_frames _ fs (fun f hf => hfs f (List.mem_cons_of_mem _ hf)) p hp
          hrep

/-- So the packets of an honest peer are reported as they are. -/
theorem reported_of_frames {checked : ℕ → Prop} {next : QsmpPacket → QsmpPacket}
    {resp : QsmpPacket} {bss : List Bytes} (fs : List (QsmpFlags × UInt64 × Bytes))
    (hbss : bss = fs.map fun f => frame f.1 f.2.1 f.2.2)
    (hfs : ∀ f ∈ fs, f.1 ≠ .errorCondition ∧ headerSize + f.2.2.length ≤ P.messageMax) :
    Reported checked (packets P stack next resp bss) :=
  fun _ p hp _ => not_reportsNone_of_frames resp fs hfs p (hbss ▸ List.mem_of_getElem? hp)

section Honest

variable {checked : ℕ → Prop} {keyid : Octets keyidSize} {client server : Draws A}
variable {clientkey serverkey : Octets P.signingKeySize} {verkey : Octets P.verifyKeySize}
variable {tx rx third : UInt64}

theorem reported_duplexEvents (hs : A.SignsFor serverkey verkey) :
    Reported checked (clientPackets P stack
      (duplexEvents K A keyid clientkey serverkey client server tx rx)) :=
  reported_of_frames [(.connectResponse, rx, duplexConnectResponseBody K A serverkey
      server.keypair server.sign), (.exchangeResponse, rx + 1, duplexExchangeResponseBody K A
      (A.generateKeypair client.keypair).1 serverkey server.encap server.resign),
      (.establishResponse, rx + 1 + 1, [])] received_duplexEvents <| by
    simp only [List.forall_mem_cons, List.not_mem_nil, false_implies, implies_true, and_true]
    exact ⟨⟨by decide, fits_duplexConnectResponseBody hs⟩,
      ⟨by decide, fits_duplexExchangeResponseBody hs⟩, by decide, fits_nil⟩

theorem reported_duplexServerEvents (hs : A.SignsFor clientkey verkey) :
    Reported checked (serverPackets P stack
      (duplexServerEvents K A keyid clientkey serverkey client server tx rx third)) :=
  reported_of_frames [(.connectRequest, rx, connectRequestBody P keyid), (.exchangeRequest, rx + 1,
      duplexExchangeRequestBody K A (A.generateKeypair server.keypair).1 clientkey client.encap
        client.keypair client.sign), (.establishRequest, third, [])]
    received_duplexServerEvents <| by
    simp only [List.forall_mem_cons, List.not_mem_nil, false_implies, implies_true, and_true]
    exact ⟨⟨by decide, fits_connectRequestBody⟩,
      ⟨by decide, fits_duplexExchangeRequestBody hs⟩, by decide, fits_nil⟩

theorem reported_simplexEvents (hs : A.SignsFor serverkey verkey) :
    Reported checked (clientPackets P stack
      (simplexEvents K A keyid serverkey client server tx rx)) :=
  reported_of_frames [(.connectResponse, rx, simplexConnectResponseBody K A serverkey
      server.keypair server.sign), (.exchangeResponse, rx + 1, [])] received_simplexEvents <| by
    simp only [List.forall_mem_cons, List.not_mem_nil, false_implies, implies_true, and_true]
    exact ⟨⟨by decide, fits_simplexConnectResponseBody hs⟩, by decide, fits_nil⟩

theorem reported_simplexServerEvents :
    Reported checked (serverPackets P stack
      (simplexServerEvents K A keyid serverkey client server tx rx)) :=
  reported_of_frames [(.connectRequest, rx, connectRequestBody P keyid), (.exchangeRequest, rx + 1,
      (A.encapsulate (A.generateKeypair server.keypair).1 client.encap).2.val)]
    received_simplexServerEvents <| by
    simp only [List.forall_mem_cons, List.not_mem_nil, false_implies, implies_true, and_true]
    exact ⟨⟨by decide, fits_connectRequestBody⟩, by decide, fits_cipherText⟩

end Honest

/-- The drivers of the default build against honest peers. -/
theorem return_code_truthful_plain :
    (∃ tr r, Runs (qsmpKexDuplexClientKeyExchange .plain (.plain .dilithiumKyber) .zero
      (.plain _) (.plain .dilithiumKyber) (.initial .duplex false)) tr r ∧ Truthful r) ∧
    (∃ tr r, Runs (qsmpKexDuplexServerKeyExchange .plain (.plain .dilithiumKyber) .zero
      (.plain _) (.plain .dilithiumKyber) (.initial .duplex true)) tr r ∧ Truthful r) ∧
    (∃ tr r, Runs (qsmpKexSimplexClientKeyExchange .plain (.plain .dilithiumKyber) .zero
      (.plain _) (.plain .dilithiumKyber) (.initial .simplex false)) tr r ∧ Truthful r) ∧
    (∃ tr r, Runs (qsmpKexSimplexServerKeyExchange .plain (.plain .dilithiumKyber) .zero
      (.plain _) (.plain .dilithiumKyber) (.initial .simplex true)) tr r ∧ Truthful r) := by
  have hsign : ∀ b, (Asymmetric.plain .dilithiumKyber).SignsFor (.repeated _ b) (.repeated _ b) :=
    fun b => Asymmetric.plain_signsFor (by decide) (by decide)
  obtain ⟨_, _, h₁, -⟩ := duplexClient_plain
  obtain ⟨_, _, h₂, -⟩ := duplexServer_plain 2
  obtain ⟨_, _, h₃, -⟩ := simplexClient_plain
  obtain ⟨_, _, h₄, -⟩ := simplexServer_plain
  exact ⟨⟨_, _, h₁, (return_code_truthful _ _ _ _ _ QsmpConnectionState.fresh_initial).1
      _ _ _ h₁ (reported_duplexEvents (hsign 2))⟩,
    ⟨_, _, h₂, (return_code_truthful _ _ _ _ _ QsmpConnectionState.fresh_initial).2.1
      _ _ _ h₂ (reported_duplexServerEvents (hsign 1))⟩,
    ⟨_, _, h₃, (return_code_truthful _ _ _ _ _ QsmpConnectionState.fresh_initial).2.2.1
      _ _ _ h₃ (reported_simplexEvents (hsign 2))⟩,
    ⟨_, _, h₄, (return_code_truthful _ _ _ _ _ QsmpConnectionState.fresh_initial).2.2.2
      _ _ _ h₄ reported_simplexServerEvents⟩⟩

/-- Two error packets with the code of success take the simplex server
through both its stages: it returns no error on a connection that is not
established, and counts two packets each way. -/
theorem return_code_untrue :
    ∃ tr ks cns', Runs (qsmpKexSimplexServerKeyExchange .plain (.plain .dilithiumKyber) .zero
        (.plain _) (.plain .dilithiumKyber) (.initial .simplex true)) tr (some (.none, ks, cns')) ∧
      cns'.exflag = .none ∧ cns'.rxseq = 2 ∧ cns'.txseq = 2 := by
  have hplay : ((play (qsmpKexSimplexServerKeyExchange .plain (.plain .dilithiumKyber) .zero
        (.plain _) (.plain .dilithiumKyber) (.initial .simplex true))
      [.bytes (frame .errorCondition 0 (List.replicate 64 0)), .all,
        .bytes (frame .errorCondition 1 (List.replicate 768 0)), .all]).bind fun x => x.2).map
      (fun o => (o.1, o.2.2.exflag, o.2.2.rxseq, o.2.2.txseq)) = some (.none, .none, 2, 2) := by
    decide +kernel
  obtain ⟨tr, ⟨qerr, ks, cns'⟩, hrun, hout⟩ := exists_of_play hplay
  simp only [Prod.mk.injEq] at hout
  obtain ⟨rfl, hflag, hrx, htx⟩ := hout
  exact ⟨tr, ks, cns', hrun, hflag, hrx, htx⟩

end Qsmp
