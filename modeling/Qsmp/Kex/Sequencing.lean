import Qsmp.Kex.Agreement
/-!
# Handshake sequencing

The i-th packet a driver takes should carry the sequence number i. Nine of
the ten receive stages check it; the establish stage of the duplex server
counts its packet without looking at the number it carries.
-/

namespace Qsmp

open Dialogue

variable {P : Params} {K : Primitives} {A : Asymmetric P} {stack : Mem} {d : Draws A}
variable {cns : QsmpConnectionState} {tr : List Event} {bs₁ bs₂ bs₃ : Bytes}

/-- The i-th packet carries the number i. -/
def InSequence (ps : List QsmpPacket) : Prop :=
  ∀ i p, ps[i]? = some p → p.sequence = UInt64.ofNat i

theorem inSequence_pair {p₁ p₂ : QsmpPacket} :
    InSequence [p₁, p₂] ↔ p₁.sequence = 0 ∧ p₂.sequence = 1 := by
  constructor
  · intro h
    exact ⟨h 0 p₁ rfl, h 1 p₂ rfl⟩
  · rintro ⟨h₁, h₂⟩ (_ | _ | i) p hp
    · exact Option.some.inj hp ▸ h₁
    · exact Option.some.inj hp ▸ h₂
    · exact absurd hp (by simp)

theorem inSequence_triple {p₁ p₂ p₃ : QsmpPacket} :
    InSequence [p₁, p₂, p₃] ↔ p₁.sequence = 0 ∧ p₂.sequence = 1 ∧ p₃.sequence = 2 := by
  constructor
  · intro h
    exact ⟨h 0 p₁ rfl, h 1 p₂ rfl, h 2 p₃ rfl⟩
  · rintro ⟨h₁, h₂, h₃⟩ (_ | _ | _ | i) p hp
    · exact Option.some.inj hp ▸ h₁
    · exact Option.some.inj hp ▸ h₂
    · exact Option.some.inj hp ▸ h₃
    · exact absurd hp (by simp)

/-! ## The numbers of the packets a run takes -/

section

variable {kcs : QsmpKexDuplexClientState P} {l₁ l₂ l₃ : Locals (QsmpKexDuplexClientState P)}

/-- The packets of a run of the duplex client carry 0, 1 and 2. -/
theorem DuplexClientRun.sequences
    (h : DuplexClientRun K A stack d kcs cns tr bs₁ bs₂ bs₃ l₁ l₂ l₃) (hfresh : cns.Fresh) :
    l₁.resp.sequence = 0 ∧ l₂.resp.sequence = 1 ∧ l₃.resp.sequence = 2 := by
  have h₀ : (duplexClientStart K d kcs cns).cns.rxseq = 0 := by
    obtain ⟨-, -, hcns⟩ := kexDuplexClientConnectRequest_of_none rfl h.started
    exact (congrArg _ hcns).trans hfresh.2.1
  have h₁ : l₁.cns.rxseq = 1 := by
    rw [h.first.rxseq sets_kexDuplexClientExchangeRequest, Locals.rxseq_countSent, h₀]
    rfl
  have h₂ : l₂.cns.rxseq = 2 := by
    rw [h.second.rxseq sets_kexDuplexClientEstablishRequest, Locals.rxseq_countSent,
      Locals.rxseq_cleared, h₁]
    rfl
  exact ⟨(h.first.sequence trivial).trans h₀, (h.second.sequence trivial).trans h₁,
    (h.third.sequence trivial).trans h₂⟩

end

section

variable {kss : QsmpKexDuplexServerState P} {l₁ l₂ l₃ : Locals (QsmpKexDuplexServerState P)}

/-- The first two packets of a run of the duplex server carry 0 and 1. -/
theorem DuplexServerRun.sequences
    (h : DuplexServerRun K A stack d kss cns tr bs₁ bs₂ bs₃ l₁ l₂ l₃) (hfresh : cns.Fresh) :
    l₁.resp.sequence = 0 ∧ l₂.resp.sequence = 1 := by
  have h₁ : l₁.cns.rxseq = 1 := by
    rw [h.first.rxseq sets_kexDuplexServerConnectResponse, Locals.cns_start, hfresh.2.1]
    rfl
  exact ⟨(h.first.sequence trivial).trans hfresh.2.1, (h.second.sequence trivial).trans h₁⟩

end

section

variable {kcs : QsmpKexSimplexClientState P} {l₁ l₂ : Locals (QsmpKexSimplexClientState P)}

/-- The packets of a run of the simplex client carry 0 and 1. -/
theorem SimplexClientRun.sequences
    (h : SimplexClientRun K A stack d kcs cns tr bs₁ bs₂ l₁ l₂) (hfresh : cns.Fresh) :
    l₁.resp.sequence = 0 ∧ l₂.resp.sequence = 1 := by
  have h₀ : (simplexClientStart K d kcs cns).cns.rxseq = 0 := by
    obtain ⟨-, -, hcns⟩ := kexSimplexClientConnectRequest_of_none rfl h.started
    exact (congrArg _ hcns).trans hfresh.2.1
  have h₁ : l₁.cns.rxseq = 1 := by
    rw [h.first.rxseq sets_kexSimplexClientExchangeRequest, Locals.rxseq_countSent, h₀]
    rfl
  exact ⟨(h.first.sequence trivial).trans h₀, (h.second.sequence trivial).trans h₁⟩

end

section

variable {kss : QsmpKexSimplexServerState P} {l₁ l₂ : Locals (QsmpKexSimplexServerState P)}

/-- The packets of a run of the simplex server carry 0 and 1. -/
theorem SimplexServerRun.sequences
    (h : SimplexServerRun K A stack d kss cns tr bs₁ bs₂ l₁ l₂) (hfresh : cns.Fresh) :
    l₁.resp.sequence = 0 ∧ l₂.resp.sequence = 1 := by
  have h₁ : l₁.cns.rxseq = 1 := by
    rw [h.first.rxseq sets_kexSimplexServerConnectResponse, Locals.cns_start, hfresh.2.1]
    rfl
  exact ⟨(h.first.sequence trivial).trans hfresh.2.1, (h.second.sequence trivial).trans h₁⟩

end

/-! ## Runs that return without error -/

/-- **When the handshake is in sequence.** In every run of a client, and of
the simplex server, that starts fresh and returns without error, the i-th
packet taken carries the number i. In such a run of the duplex server this
is so exactly when the establish request carries 2. -/
theorem handshake_in_sequence_iff (K : Primitives) (A : Asymmetric P) (stack : Mem) (d : Draws A)
    (cns : QsmpConnectionState) (hfresh : cns.Fresh) :
    (∀ kcs tr ks cns', Runs (qsmpKexDuplexClientKeyExchange K A stack d kcs cns) tr
      (some (.none, ks, cns')) → InSequence (clientPackets P stack tr)) ∧
    (∀ kcs tr ks cns', Runs (qsmpKexSimplexClientKeyExchange K A stack d kcs cns) tr
      (some (.none, ks, cns')) → InSequence (clientPackets P stack tr)) ∧
    (∀ kss tr ks cns', Runs (qsmpKexSimplexServerKeyExchange K A stack d kss cns) tr
      (some (.none, ks, cns')) → InSequence (serverPackets P stack tr)) ∧
    (∀ kss tr ks cns', Runs (qsmpKexDuplexServerKeyExchange K A stack d kss cns) tr
      (some (.none, ks, cns')) →
        (InSequence (serverPackets P stack tr) ↔
          ∃ p, (serverPackets P stack tr)[2]? = some p ∧ p.sequence = 2)) := by
  refine ⟨?_, ?_, ?_, ?_⟩
  · intro kcs tr ks cns' h
    obtain hfail | ⟨bs₁, bs₂, bs₃, l₁, l₂, l₃, hrun, -⟩ := duplexClient_runs h
    · exact absurd hfail not_failed_none
    · rw [hrun.packets_eq, inSequence_triple]
      exact hrun.sequences hfresh
  · intro kcs tr ks cns' h
    obtain hfail | ⟨bs₁, bs₂, l₁, l₂, hrun, -⟩ := simplexClient_runs h
    · exact absurd hfail not_failed_none
    · rw [hrun.packets_eq, inSequence_pair]
      exact hrun.sequences hfresh
  · intro kss tr ks cns' h
    obtain hfail | ⟨habs, -⟩ | ⟨bs₁, bs₂, l₁, l₂, hrun, -⟩ := simplexServer_runs h
    · exact absurd hfail not_failed_none
    · exact absurd habs (Option.some_ne_none _)
    · rw [hrun.packets_eq, inSequence_pair]
      exact hrun.sequences hfresh
  · intro kss tr ks cns' h
    obtain hfail | ⟨habs, -⟩ | ⟨bs₁, bs₂, bs₃, l₁, l₂, l₃, hrun, -⟩ := duplexServer_runs h
    · exact absurd hfail not_failed_none
    · exact absurd habs (Option.some_ne_none _)
    · obtain ⟨h₁, h₂⟩ := hrun.sequences hfresh
      rw [hrun.packets_eq, inSequence_triple]
      constructor
      · rintro ⟨-, -, h₃⟩
        exact ⟨l₃.resp, rfl, h₃⟩
      · rintro ⟨p, hp, h₃⟩
        exact ⟨h₁, h₂, Option.some.inj hp ▸ h₃⟩

/-- The third packet the duplex server takes from the events of an honest
client is the establish request. -/
theorem third_packet {keyid : Octets keyidSize} {clientkey serverkey : Octets P.signingKeySize}
    {client server : Draws A} {tx rx third : UInt64} :
    ∃ p, (serverPackets P stack
        (duplexServerEvents K A keyid clientkey serverkey client server tx rx third))[2]? = some p ∧
      p.sequence = third := by
  rw [serverPackets, received_duplexServerEvents]
  exact ⟨_, rfl, (says_parse_frame fits_nil).sequence⟩

/-- The drivers of the default build against honest peers. -/
theorem handshake_in_sequence_plain :
    (∃ tr ks cns', Runs (qsmpKexDuplexClientKeyExchange .plain (.plain .dilithiumKyber) .zero
        (.plain _) (.plain .dilithiumKyber) (.initial .duplex false)) tr (some (.none, ks, cns')) ∧
      InSequence (clientPackets .dilithiumKyber .zero tr)) ∧
    (∃ tr ks cns', Runs (qsmpKexSimplexClientKeyExchange .plain (.plain .dilithiumKyber) .zero
        (.plain _) (.plain .dilithiumKyber) (.initial .simplex false)) tr (some (.none, ks, cns')) ∧
      InSequence (clientPackets .dilithiumKyber .zero tr)) ∧
    (∃ tr ks cns', Runs (qsmpKexSimplexServerKeyExchange .plain (.plain .dilithiumKyber) .zero
        (.plain _) (.plain .dilithiumKyber) (.initial .simplex true)) tr (some (.none, ks, cns')) ∧
      InSequence (serverPackets .dilithiumKyber .zero tr)) ∧
    (∃ tr ks cns', Runs (qsmpKexDuplexServerKeyExchange .plain (.plain .dilithiumKyber) .zero
        (.plain _) (.plain .dilithiumKyber) (.initial .duplex true)) tr (some (.none, ks, cns')) ∧
      InSequence (serverPackets .dilithiumKyber .zero tr)) := by
  obtain ⟨_, _, h₁, -⟩ := duplexClient_plain
  obtain ⟨_, _, h₂, -⟩ := simplexClient_plain
  obtain ⟨_, _, h₃, -⟩ := simplexServer_plain
  obtain ⟨_, _, h₄, -⟩ := duplexServer_plain 2
  exact ⟨⟨_, _, _, h₁, (handshake_in_sequence_iff _ _ _ _ _ QsmpConnectionState.fresh_initial).1
      _ _ _ _ h₁⟩,
    ⟨_, _, _, h₂, (handshake_in_sequence_iff _ _ _ _ _ QsmpConnectionState.fresh_initial).2.1
      _ _ _ _ h₂⟩,
    ⟨_, _, _, h₃, (handshake_in_sequence_iff _ _ _ _ _ QsmpConnectionState.fresh_initial).2.2.1
      _ _ _ _ h₃⟩,
    ⟨_, _, _, h₄, ((handshake_in_sequence_iff _ _ _ _ _ QsmpConnectionState.fresh_initial).2.2.2
      _ _ _ _ h₄).2 third_packet⟩⟩

/-- An establish request numbered 77 establishes the session of the duplex
server. -/
theorem establish_request_unsequenced :
    ∃ tr ks cns', Runs (qsmpKexDuplexServerKeyExchange .plain (.plain .dilithiumKyber) .zero
        (.plain _) (.plain .dilithiumKyber) (.initial .duplex true)) tr (some (.none, ks, cns')) ∧
      cns'.exflag = .sessionEstablished ∧
      ¬ InSequence (serverPackets .dilithiumKyber .zero tr) := by
  obtain ⟨ks, cns', h, hest⟩ := duplexServer_plain 77
  refine ⟨_, ks, cns', h, hest, fun hseq => ?_⟩
  obtain ⟨p, hp, h77⟩ := third_packet
  have h2 : p.sequence = UInt64.ofNat 2 := hseq 2 p hp
  rw [h77] at h2
  exact absurd h2 (by decide)

end Qsmp
