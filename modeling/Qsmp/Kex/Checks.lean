import Qsmp.Kex.Agreement
/-!
# No stage is skipped

A driver tracks its progress twice, in the error code and in the exchange
flag. An error packet can end a stage with neither moved, and the stages
behind it then run on the packet of the stage before. The exchange flag
still tells: each step function asks for the flag the step before it set,
so a connection that returns established has passed every one of them.
-/

namespace Qsmp

open Dialogue

variable {P : Params} {K : Primitives} {A : Asymmetric P} {stack : Mem} {d : Draws A}
variable {cns cns' : QsmpConnectionState} {tr : List Event} {bs₁ bs₂ bs₃ : Bytes}

/-! ## What a stage does to the exchange flag -/

section

variable {S : Type} {len : ℕ} {flag : QsmpFlags} {checked : Prop} {step : KexStep S}
variable {l l' : Locals S} {bs : Bytes}

/-- The packet taken has the flag expected, and the step function was run on
it and succeeded. -/
def Ran (flag : QsmpFlags) (step : KexStep S) (l l' : Locals S) : Prop :=
  l'.resp.flag = flag.toByte ∧ ∃ reqt r,
    r = step l.ks (l.countReceived l'.resp).cns l'.resp reqt ∧ r.qerr = .none ∧
      l'.ks = r.ks ∧ l'.cns = r.cns

/-- **A stage runs its step or leaves the exchange flag.** -/
theorem Passes.ran_or_exflag (h : Passes P stack len flag checked step l bs l') :
    Ran flag step l l' ∨ l'.cns.exflag = l.cns.exflag := by
  obtain ⟨-, hexpected, reqt, hran⟩ | ⟨-, -, hflag⟩ := h.step_or_slip
  · exact .inl ⟨hexpected, reqt, _, rfl, hran⟩
  · exact .inr hflag

/-- A step that asks for the flag `before` and sets `after` has run in
every stage that ends on `after`, having started elsewhere. -/
theorem Passes.ran_of_exflag {after : QsmpFlags}
    (h : Passes P stack len flag checked step l bs l') (hl' : l'.cns.exflag = after)
    (hl : l.cns.exflag ≠ after) : Ran flag step l l' := by
  obtain hran | hflag := h.ran_or_exflag
  · exact hran
  · exact absurd (hflag.symm.trans hl') hl

/-- A stage ends on the flag it started on or on the one its step sets. -/
theorem Passes.exflag_eq_or {after : QsmpFlags}
    (h : Passes P stack len flag checked step l bs l') (hstep : Sets step after) :
    l'.cns.exflag = after ∨ l'.cns.exflag = l.cns.exflag := by
  obtain ⟨-, reqt, r, rfl, hqerr, -, hcns⟩ | hflag := h.ran_or_exflag
  · exact .inl (hcns ▸ hstep.exflag _ _ _ _ hqerr)
  · exact .inr hflag

end

/-- A driver that fails has disposed of the connection. -/
theorem Failed.not_established {S : Type} {r : Option (Returned S)} {qerr : QsmpErrors} {ks : S}
    (h : Failed r) (hr : r = some (qerr, ks, cns')) : cns'.exflag ≠ .sessionEstablished := by
  obtain ⟨qerr', ks', cns'', rfl, -⟩ := h
  obtain ⟨-, -, rfl⟩ : qerr' = qerr ∧ ks' = ks ∧ qsmpConnectionStateDispose cns'' = cns' := by
    simpa using hr
  simp [qsmpConnectionStateDispose]

/-! ## What was checked -/

/-- The channel is keyed from an expansion: the first key and nonce serve
`tx`, the second `rx`. -/
structure Keyed (K : Primitives) (e : Expansion) (tx rx : RcsKeyparams)
    (cns' : QsmpConnectionState) : Prop where
  rtcs : cns'.rtcs = e.rtcs
  txcpr : cns'.txcpr = qscRcsInitialize K tx true
  rxcpr : cns'.rxcpr = qscRcsInitialize K rx false

/-- **The checks of a duplex client**, on the first two packets it takes:
the key of the connect response is signed by the peer, and so is the
cipher-text of the exchange response, which decapsulates under the key
pair of this run. -/
structure DuplexClientChecked (K : Primitives) (A : Asymmetric P) (d : Draws A)
    (kcs : QsmpKexDuplexClientState P) (p₁ p₂ : QsmpPacket) (cns' : QsmpConnectionState) :
    Prop where
  unexpired : d.tm ≤ kcs.expiration
  connectResponse : let mlen := signedLength P duplexHashSize p₁.pmessage
    SignsHash512 K A (p₁.pmessage.read 0 mlen) kcs.rverkey
      (p₁.pmessage.octets mlen P.publicKeySize).val
  exchangeResponse : let mlen := signedLength P duplexHashSize p₂.pmessage
    SignsHash512 K A (p₂.pmessage.read P.cipherTextSize mlen) kcs.rverkey
      (p₂.pmessage.octets 0 P.cipherTextSize).val
  keyed : let pubk := p₁.pmessage.octets (signedLength P duplexHashSize p₁.pmessage) P.publicKeySize
    ∃ secb, A.decapsulate (p₂.pmessage.octets 0 P.cipherTextSize)
        (A.generateKeypair d.keypair).2 = some secb ∧
      let e := duplexExpand K (A.encapsulate pubk d.encap).1
        (duplexSchash K P kcs.keyid kcs.verkey kcs.rverkey) secb
      Keyed K e (e.first duplexSymmetricKeySize) (e.second duplexSymmetricKeySize) cns'

/-- **The checks of a duplex server.** The key the query returns for the
connect request signs the exchange request. -/
structure DuplexServerChecked (K : Primitives) (A : Asymmetric P) (d : Draws A)
    (kss : QsmpKexDuplexServerState P) (p₁ p₂ : QsmpPacket) (cns' : QsmpConnectionState) :
    Prop where
  unexpired : d.tm ≤ kss.expiration
  configured : qscStringutilsCompareStrings (p₁.pmessage.read keyidSize configSize)
    P.configString.val = true
  exchangeRequest : ∃ rverkey, kss.keyQuery (p₁.pmessage.octets 0 keyidSize) = some rverkey ∧
    SignsHash512 K A (p₂.pmessage.read (P.cipherTextSize + P.publicKeySize)
      (signedLength P duplexHashSize p₂.pmessage)) rverkey
      (p₂.pmessage.read 0 (P.cipherTextSize + P.publicKeySize)) ∧
    ∃ seca, A.decapsulate (p₂.pmessage.octets 0 P.cipherTextSize)
        (A.generateKeypair d.keypair).2 = some seca ∧
      let e := duplexExpand K seca (duplexSchash K P kss.keyid rverkey kss.verkey)
        (A.encapsulate (p₂.pmessage.octets P.cipherTextSize P.publicKeySize) d.encap).1
      Keyed K e (e.second duplexSymmetricKeySize) (e.first duplexSymmetricKeySize) cns'

/-- **The checks of a simplex client**, on the first packet it takes. -/
structure SimplexClientChecked (K : Primitives) (A : Asymmetric P) (d : Draws A)
    (kcs : QsmpKexSimplexClientState P) (p₁ : QsmpPacket) (cns' : QsmpConnectionState) :
    Prop where
  unexpired : d.tm ≤ kcs.expiration
  connectResponse : let mlen := signedLength P simplexHashSize p₁.pmessage
    SignsHash256 K A (p₁.pmessage.read 0 mlen) kcs.verkey
      (p₁.pmessage.octets mlen P.publicKeySize).val
  keyed :
    let pubk := p₁.pmessage.octets (signedLength P simplexHashSize p₁.pmessage) P.publicKeySize
    let e := simplexExpand K (A.encapsulate pubk d.encap).1 (simplexSchash K P kcs.keyid kcs.verkey)
    Keyed K e (e.first simplexSymmetricKeySize) (e.second simplexSymmetricKeySize) cns'

/-- **The checks of a simplex server.** -/
structure SimplexServerChecked (K : Primitives) (A : Asymmetric P) (d : Draws A)
    (kss : QsmpKexSimplexServerState P) (p₁ p₂ : QsmpPacket) (cns' : QsmpConnectionState) :
    Prop where
  unexpired : d.tm ≤ kss.expiration
  recognized : kexSimplexServerKeyidVerify kss.keyid p₁.pmessage = true
  configured : qscStringutilsCompareStrings (p₁.pmessage.read keyidSize configSize)
    P.configString.val = true
  keyed : ∃ ssec, A.decapsulate (p₂.pmessage.octets 0 P.cipherTextSize)
      (A.generateKeypair d.keypair).2 = some ssec ∧
    let e := simplexExpand K ssec (simplexSchash K P kss.keyid kss.verkey)
    Keyed K e (e.second simplexSymmetricKeySize) (e.first simplexSymmetricKeySize) cns'

/-! ## The runs that end established -/

section

variable {kcs : QsmpKexDuplexClientState P} {l₁ l₂ l₃ : Locals (QsmpKexDuplexClientState P)}

/-- A duplex client that returns established has passed its stages. -/
theorem duplexClient_established {qerr : QsmpErrors} {ks : QsmpKexDuplexClientState P}
    (h : Runs (qsmpKexDuplexClientKeyExchange K A stack d kcs cns) tr (some (qerr, ks, cns')))
    (hest : cns'.exflag = .sessionEstablished) :
    ∃ bs₁ bs₂ bs₃ l₁ l₂ l₃, DuplexClientRun K A stack d kcs cns tr bs₁ bs₂ bs₃ l₁ l₂ l₃ ∧
      cns' = l₃.cns := by
  obtain hfail | ⟨bs₁, bs₂, bs₃, l₁, l₂, l₃, hrun, hr⟩ := duplexClient_runs h
  · exact absurd hest (hfail.not_established rfl)
  · obtain ⟨-, -, hcns⟩ : qerr = .none ∧ ks = kexDuplexClientReset l₃.ks ∧ cns' = l₃.cns := by
      simpa using hr
    exact ⟨bs₁, bs₂, bs₃, l₁, l₂, l₃, hrun, hcns⟩

/-- A duplex client that ends established has run its three steps. -/
theorem DuplexClientRun.ran (h : DuplexClientRun K A stack d kcs cns tr bs₁ bs₂ bs₃ l₁ l₂ l₃)
    (hest : l₃.cns.exflag = .sessionEstablished) :
    Ran .connectResponse (kexDuplexClientExchangeRequest K A d.encap d.keypair d.sign)
        (duplexClientStart K d kcs cns).countSent l₁ ∧
      Ran .exchangeResponse (kexDuplexClientEstablishRequest K A) l₁.cleared.countSent l₂ ∧
      Ran .establishResponse kexDuplexClientEstablishVerify l₂.cleared.countSent l₃ := by
  have h₀ : (duplexClientStart K d kcs cns).cns.exflag = .connectRequest := by
    obtain ⟨-, -, hcns⟩ := kexDuplexClientConnectRequest_of_none rfl h.started
    exact congrArg QsmpConnectionState.exflag hcns
  have h₁ : l₁.cns.exflag = .exchangeRequest ∨ l₁.cns.exflag = .connectRequest := by
    rw [← h₀]
    exact h.first.exflag_eq_or sets_kexDuplexClientExchangeRequest
  have h₂ : l₂.cns.exflag = .establishRequest ∨ l₂.cns.exflag = l₁.cns.exflag :=
    h.second.exflag_eq_or sets_kexDuplexClientEstablishRequest
  -- Backwards from the last stage: each step asks for the flag that only the one before it sets.
  have hran₃ : Ran .establishResponse kexDuplexClientEstablishVerify l₂.cleared.countSent l₃ :=
    h.third.ran_of_exflag hest (show l₂.cns.exflag ≠ _ by grind)
  have hl₂ : l₂.cns.exflag = .establishRequest := by
    obtain ⟨-, _, r, hr, hq, -⟩ := hran₃
    exact (kexDuplexClientEstablishVerify_of_none hr hq).1
  have hran₂ : Ran .exchangeResponse (kexDuplexClientEstablishRequest K A)
      l₁.cleared.countSent l₂ :=
    h.second.ran_of_exflag hl₂ (show l₁.cns.exflag ≠ _ by grind)
  have hl₁ : l₁.cns.exflag = .exchangeRequest := by
    obtain ⟨-, _, r, hr, hq, -⟩ := hran₂
    exact (kexDuplexClientEstablishRequest_of_none hr hq).1
  exact ⟨h.first.ran_of_exflag hl₁ (show (duplexClientStart K d kcs cns).cns.exflag ≠ _ by grind),
    hran₂, hran₃⟩

/-- **And has made every check.** -/
theorem DuplexClientRun.checked
    (h : DuplexClientRun K A stack d kcs cns tr bs₁ bs₂ bs₃ l₁ l₂ l₃)
    (hest : l₃.cns.exflag = .sessionEstablished) :
    DuplexClientChecked K A d kcs l₁.resp l₂.resp l₃.cns := by
  obtain ⟨htime, hks₀, -⟩ := kexDuplexClientConnectRequest_of_none rfl h.started
  obtain ⟨⟨-, _, r₁, hr₁, hq₁, hks₁, -⟩, ⟨-, _, r₂, hr₂, hq₂, -, hcns₂⟩,
    ⟨-, _, r₃, hr₃, hq₃, -, hcns₃⟩⟩ := h.ran hest
  -- The second step reads the secret and the session hash that the first ones left.
  obtain ⟨-, hsigns₁, hset₁, -⟩ := kexDuplexClientExchangeRequest_of_none hr₁ hq₁
  obtain ⟨-, hsigns₂, secb, hdecap, -, hset₂⟩ := kexDuplexClientEstablishRequest_of_none hr₂ hq₂
  obtain ⟨-, -, hset₃⟩ := kexDuplexClientEstablishVerify_of_none hr₃ hq₃
  have hstart : (duplexClientStart K d kcs cns).countSent.ks
      = { kcs with schash := duplexSchash K P kcs.keyid kcs.verkey kcs.rverkey } := hks₀
  have hks : l₁.cleared.countSent.ks = _ := hks₁.trans hset₁
  rw [hstart] at hsigns₁ hks
  rw [hks] at hsigns₂ hdecap hset₂
  have hcns : l₂.cns = _ := hcns₂.trans hset₂
  have hlast : l₃.cns = _ := hcns₃.trans hset₃
  refine ⟨htime, hsigns₁, hsigns₂, secb, hdecap, ?_⟩
  rw [hlast]
  exact ⟨congrArg QsmpConnectionState.rtcs hcns, congrArg QsmpConnectionState.txcpr hcns,
    congrArg QsmpConnectionState.rxcpr hcns⟩

end

section

variable {kss : QsmpKexDuplexServerState P} {l₁ l₂ l₃ : Locals (QsmpKexDuplexServerState P)}

/-- A duplex server that returns established has passed its stages. -/
theorem duplexServer_established {qerr : QsmpErrors} {ks : QsmpKexDuplexServerState P}
    (h : Runs (qsmpKexDuplexServerKeyExchange K A stack d kss cns) tr (some (qerr, ks, cns')))
    (hest : cns'.exflag = .sessionEstablished) :
    ∃ bs₁ bs₂ bs₃ l₁ l₂ l₃, DuplexServerRun K A stack d kss cns tr bs₁ bs₂ bs₃ l₁ l₂ l₃ ∧
      cns' = l₃.cns := by
  obtain hfail | ⟨hr, -⟩ | ⟨bs₁, bs₂, bs₃, l₁, l₂, l₃, hrun, hr⟩ := duplexServer_runs h
  · exact absurd hest (hfail.not_established rfl)
  · exact absurd hr (Option.some_ne_none _)
  · obtain ⟨-, -, hcns⟩ : qerr = .none ∧ ks = kexDuplexServerReset l₃.ks ∧ cns' = l₃.cns := by
      simpa using hr
    exact ⟨bs₁, bs₂, bs₃, l₁, l₂, l₃, hrun, hcns⟩

/-- A duplex server that ends established has run its three steps. -/
theorem DuplexServerRun.ran (h : DuplexServerRun K A stack d kss cns tr bs₁ bs₂ bs₃ l₁ l₂ l₃)
    (hcns : cns.exflag = .none) (hest : l₃.cns.exflag = .sessionEstablished) :
    Ran .connectRequest (kexDuplexServerConnectResponse K A d.tm d.keypair d.sign)
        (.start kss cns) l₁ ∧
      Ran .exchangeRequest (kexDuplexServerExchangeResponse K A d.encap d.resign) l₁.countSent l₂ ∧
      Ran .establishRequest (countedStep kexDuplexServerEstablishResponse) l₂.countSent l₃ := by
  have h₁ : l₁.cns.exflag = .connectResponse ∨ l₁.cns.exflag = .none := by
    rw [← hcns]
    exact h.first.exflag_eq_or sets_kexDuplexServerConnectResponse
  have h₂ : l₂.cns.exflag = .exchangeResponse ∨ l₂.cns.exflag = l₁.cns.exflag :=
    h.second.exflag_eq_or sets_kexDuplexServerExchangeResponse
  have hran₃ : Ran .establishRequest (countedStep kexDuplexServerEstablishResponse)
      l₂.countSent l₃ :=
    h.third.ran_of_exflag hest (show l₂.cns.exflag ≠ _ by grind)
  have hl₂ : l₂.cns.exflag = .exchangeResponse := by
    obtain ⟨-, _, r, rfl, hq, -⟩ := hran₃
    exact (kexDuplexServerEstablishResponse_of_none rfl hq).1
  have hran₂ : Ran .exchangeRequest (kexDuplexServerExchangeResponse K A d.encap d.resign)
      l₁.countSent l₂ :=
    h.second.ran_of_exflag hl₂ (show l₁.cns.exflag ≠ _ by grind)
  have hl₁ : l₁.cns.exflag = .connectResponse := by
    obtain ⟨-, _, r, hr, hq, -⟩ := hran₂
    exact (kexDuplexServerExchangeResponse_of_none hr hq).1
  exact ⟨h.first.ran_of_exflag hl₁ (show cns.exflag ≠ _ by grind), hran₂, hran₃⟩

/-- **And has made every check.** -/
theorem DuplexServerRun.checked
    (h : DuplexServerRun K A stack d kss cns tr bs₁ bs₂ bs₃ l₁ l₂ l₃)
    (hcns : cns.exflag = .none) (hest : l₃.cns.exflag = .sessionEstablished) :
    DuplexServerChecked K A d kss l₁.resp l₂.resp l₃.cns := by
  obtain ⟨⟨-, _, r₁, hr₁, hq₁, hks₁, -⟩, ⟨-, _, r₂, hr₂, hq₂, -, hcns₂⟩,
    ⟨-, _, r₃, rfl, hq₃, -, hcns₃⟩⟩ := h.ran hcns hest
  obtain ⟨-, htime, hconf, rverkey, hquery, hset₁, -⟩ :=
    kexDuplexServerConnectResponse_of_none hr₁ hq₁
  obtain ⟨-, hsigns, seca, hdecap, -, hset₂⟩ := kexDuplexServerExchangeResponse_of_none hr₂ hq₂
  obtain ⟨-, -, hset₃⟩ := kexDuplexServerEstablishResponse_of_none rfl hq₃
  have hks : l₁.countSent.ks = _ := hks₁.trans hset₁
  rw [hks] at hsigns hdecap hset₂
  have hkeyed : l₂.cns = _ := hcns₂.trans hset₂
  refine ⟨htime, hconf, rverkey, hquery, hsigns, seca, hdecap, ?_⟩
  simp only [countedStep, hset₃] at hcns₃
  rw [hcns₃]
  exact ⟨congrArg QsmpConnectionState.rtcs hkeyed, congrArg QsmpConnectionState.txcpr hkeyed,
    congrArg QsmpConnectionState.rxcpr hkeyed⟩

end

section

variable {kcs : QsmpKexSimplexClientState P} {l₁ l₂ : Locals (QsmpKexSimplexClientState P)}

/-- A simplex client that returns established has passed its stages. -/
theorem simplexClient_established {qerr : QsmpErrors} {ks : QsmpKexSimplexClientState P}
    (h : Runs (qsmpKexSimplexClientKeyExchange K A stack d kcs cns) tr (some (qerr, ks, cns')))
    (hest : cns'.exflag = .sessionEstablished) :
    ∃ bs₁ bs₂ l₁ l₂, SimplexClientRun K A stack d kcs cns tr bs₁ bs₂ l₁ l₂ ∧
      cns' = l₂.cns := by
  obtain hfail | ⟨bs₁, bs₂, l₁, l₂, hrun, hr⟩ := simplexClient_runs h
  · exact absurd hest (hfail.not_established rfl)
  · obtain ⟨-, -, hcns⟩ : qerr = .none ∧ ks = kexSimplexClientReset l₂.ks ∧ cns' = l₂.cns := by
      simpa using hr
    exact ⟨bs₁, bs₂, l₁, l₂, hrun, hcns⟩

/-- A simplex client that ends established has run its two steps. -/
theorem SimplexClientRun.ran (h : SimplexClientRun K A stack d kcs cns tr bs₁ bs₂ l₁ l₂)
    (hest : l₂.cns.exflag = .sessionEstablished) :
    Ran .connectResponse (kexSimplexClientExchangeRequest K A d.encap)
        (simplexClientStart K d kcs cns).countSent l₁ ∧
      Ran .exchangeResponse kexSimplexClientEstablishVerify l₁.cleared.countSent l₂ := by
  have h₀ : (simplexClientStart K d kcs cns).cns.exflag = .connectRequest := by
    obtain ⟨-, -, hset⟩ := kexSimplexClientConnectRequest_of_none rfl h.started
    exact congrArg QsmpConnectionState.exflag hset
  have h₁ : l₁.cns.exflag = .exchangeRequest ∨ l₁.cns.exflag = .connectRequest := by
    rw [← h₀]
    exact h.first.exflag_eq_or sets_kexSimplexClientExchangeRequest
  have hran₂ : Ran .exchangeResponse kexSimplexClientEstablishVerify l₁.cleared.countSent l₂ :=
    h.second.ran_of_exflag hest (show l₁.cns.exflag ≠ _ by grind)
  have hl₁ : l₁.cns.exflag = .exchangeRequest := by
    obtain ⟨-, _, r, hr, hq, -⟩ := hran₂
    exact (kexSimplexClientEstablishVerify_of_none hr hq).1
  exact ⟨h.first.ran_of_exflag hl₁ (show (simplexClientStart K d kcs cns).cns.exflag ≠ _ by grind),
    hran₂⟩

/-- **And has made every check.** -/
theorem SimplexClientRun.checked (h : SimplexClientRun K A stack d kcs cns tr bs₁ bs₂ l₁ l₂)
    (hest : l₂.cns.exflag = .sessionEstablished) :
    SimplexClientChecked K A d kcs l₁.resp l₂.cns := by
  obtain ⟨htime, hks₀, -⟩ := kexSimplexClientConnectRequest_of_none rfl h.started
  obtain ⟨⟨-, _, r₁, hr₁, hq₁, -, hcns₁⟩, ⟨-, _, r₂, hr₂, hq₂, -, hcns₂⟩⟩ := h.ran hest
  obtain ⟨-, hsigns, -, hset₁⟩ := kexSimplexClientExchangeRequest_of_none hr₁ hq₁
  obtain ⟨-, -, hset₂⟩ := kexSimplexClientEstablishVerify_of_none hr₂ hq₂
  have hstart : (simplexClientStart K d kcs cns).countSent.ks
      = { kcs with schash := simplexSchash K P kcs.keyid kcs.verkey } := hks₀
  rw [hstart] at hsigns hset₁
  have hkeyed : l₁.cns = _ := hcns₁.trans hset₁
  have hlast : l₂.cns = _ := hcns₂.trans hset₂
  refine ⟨htime, hsigns, ?_⟩
  rw [hlast]
  exact ⟨congrArg QsmpConnectionState.rtcs hkeyed, congrArg QsmpConnectionState.txcpr hkeyed,
    congrArg QsmpConnectionState.rxcpr hkeyed⟩

end

section

variable {kss : QsmpKexSimplexServerState P} {l₁ l₂ : Locals (QsmpKexSimplexServerState P)}

/-- A simplex server that returns established has passed its stages. -/
theorem simplexServer_established {qerr : QsmpErrors} {ks : QsmpKexSimplexServerState P}
    (h : Runs (qsmpKexSimplexServerKeyExchange K A stack d kss cns) tr (some (qerr, ks, cns')))
    (hest : cns'.exflag = .sessionEstablished) :
    ∃ bs₁ bs₂ l₁ l₂, SimplexServerRun K A stack d kss cns tr bs₁ bs₂ l₁ l₂ ∧
      cns' = l₂.countSent.cns := by
  obtain hfail | ⟨hr, -⟩ | ⟨bs₁, bs₂, l₁, l₂, hrun, hr⟩ := simplexServer_runs h
  · exact absurd hest (hfail.not_established rfl)
  · exact absurd hr (Option.some_ne_none _)
  · obtain ⟨-, -, hcns⟩ : qerr = .none ∧ ks = kexSimplexServerReset l₂.ks ∧
        cns' = l₂.countSent.cns := by
      simpa using hr
    exact ⟨bs₁, bs₂, l₁, l₂, hrun, hcns⟩

/-- A simplex server that ends established has run its two steps. -/
theorem SimplexServerRun.ran (h : SimplexServerRun K A stack d kss cns tr bs₁ bs₂ l₁ l₂)
    (hcns : cns.exflag = .none) (hest : l₂.cns.exflag = .sessionEstablished) :
    Ran .connectRequest (kexSimplexServerConnectResponse K A d.tm d.keypair d.sign)
        (.start kss cns) l₁ ∧
      Ran .exchangeRequest (kexSimplexServerExchangeResponse K A) l₁.countSent l₂ := by
  have h₁ : l₁.cns.exflag = .connectResponse ∨ l₁.cns.exflag = .none := by
    rw [← hcns]
    exact h.first.exflag_eq_or sets_kexSimplexServerConnectResponse
  have hran₂ : Ran .exchangeRequest (kexSimplexServerExchangeResponse K A) l₁.countSent l₂ :=
    h.second.ran_of_exflag hest (show l₁.cns.exflag ≠ _ by grind)
  have hl₁ : l₁.cns.exflag = .connectResponse := by
    obtain ⟨-, _, r, hr, hq, -⟩ := hran₂
    exact (kexSimplexServerExchangeResponse_of_none hr hq).1
  exact ⟨h.first.ran_of_exflag hl₁ (show cns.exflag ≠ _ by grind), hran₂⟩

/-- **And has made every check.** -/
theorem SimplexServerRun.checked (h : SimplexServerRun K A stack d kss cns tr bs₁ bs₂ l₁ l₂)
    (hcns : cns.exflag = .none) (hest : l₂.cns.exflag = .sessionEstablished) :
    SimplexServerChecked K A d kss l₁.resp l₂.resp l₂.cns := by
  obtain ⟨⟨-, _, r₁, hr₁, hq₁, hks₁, -⟩, ⟨-, _, r₂, hr₂, hq₂, -, hcns₂⟩⟩ := h.ran hcns hest
  obtain ⟨-, hkeyid, htime, hconf, hset₁, -⟩ := kexSimplexServerConnectResponse_of_none hr₁ hq₁
  obtain ⟨-, ssec, hdecap, -, hset₂⟩ := kexSimplexServerExchangeResponse_of_none hr₂ hq₂
  have hks : l₁.countSent.ks = _ := hks₁.trans hset₁
  rw [hks] at hdecap hset₂
  have hkeyed : l₂.cns = _ := hcns₂.trans hset₂
  exact ⟨htime, hkeyid, hconf, ssec, hdecap, congrArg QsmpConnectionState.rtcs hkeyed,
    congrArg QsmpConnectionState.txcpr hkeyed, congrArg QsmpConnectionState.rxcpr hkeyed⟩

end

/-! ## Every run -/

/-- **No stage is skipped.** Whatever byte strings the socket delivers, a
driver that starts with the exchange flag clear and returns with it on
`session_established` has taken exactly its packets, in order, and made
every check on them; both ciphers are keyed from secrets of this run. -/
theorem no_stage_skipped (K : Primitives) (A : Asymmetric P) (stack : Mem) (d : Draws A)
    (cns : QsmpConnectionState) (hcns : cns.exflag = .none) :
    (∀ kcs tr qerr ks cns', Runs (qsmpKexDuplexClientKeyExchange K A stack d kcs cns) tr
      (some (qerr, ks, cns')) → cns'.exflag = .sessionEstablished →
        ∃ p₁ p₂ p₃, clientPackets P stack tr = [p₁, p₂, p₃] ∧
          DuplexClientChecked K A d kcs p₁ p₂ cns') ∧
    (∀ kss tr qerr ks cns', Runs (qsmpKexDuplexServerKeyExchange K A stack d kss cns) tr
      (some (qerr, ks, cns')) → cns'.exflag = .sessionEstablished →
        ∃ p₁ p₂ p₃, serverPackets P stack tr = [p₁, p₂, p₃] ∧
          DuplexServerChecked K A d kss p₁ p₂ cns') ∧
    (∀ kcs tr qerr ks cns', Runs (qsmpKexSimplexClientKeyExchange K A stack d kcs cns) tr
      (some (qerr, ks, cns')) → cns'.exflag = .sessionEstablished →
        ∃ p₁ p₂, clientPackets P stack tr = [p₁, p₂] ∧
          SimplexClientChecked K A d kcs p₁ cns') ∧
    (∀ kss tr qerr ks cns', Runs (qsmpKexSimplexServerKeyExchange K A stack d kss cns) tr
      (some (qerr, ks, cns')) → cns'.exflag = .sessionEstablished →
        ∃ p₁ p₂, serverPackets P stack tr = [p₁, p₂] ∧
          SimplexServerChecked K A d kss p₁ p₂ cns') := by
  refine ⟨?_, ?_, ?_, ?_⟩
  · intro kcs tr qerr ks cns' h hest
    obtain ⟨_, _, _, _, _, _, hrun, rfl⟩ := duplexClient_established h hest
    exact ⟨_, _, _, hrun.packets_eq, hrun.checked hest⟩
  · intro kss tr qerr ks cns' h hest
    obtain ⟨_, _, _, _, _, _, hrun, rfl⟩ := duplexServer_established h hest
    exact ⟨_, _, _, hrun.packets_eq, hrun.checked hcns hest⟩
  · intro kcs tr qerr ks cns' h hest
    obtain ⟨_, _, _, _, hrun, rfl⟩ := simplexClient_established h hest
    exact ⟨_, _, hrun.packets_eq, hrun.checked hest⟩
  · intro kss tr qerr ks cns' h hest
    obtain ⟨_, _, _, _, hrun, rfl⟩ := simplexServer_established h hest
    obtain ⟨htime, hkeyid, hconf, ssec, hdecap, hkeyed⟩ := hrun.checked hcns hest
    exact ⟨_, _, hrun.packets_eq, htime, hkeyid, hconf, ssec, hdecap, hkeyed.rtcs, hkeyed.txcpr,
      hkeyed.rxcpr⟩

/-- The drivers of the default build against honest peers. -/
theorem no_stage_skipped_plain :
    (∃ tr p₁ p₂ p₃ cns', clientPackets .dilithiumKyber .zero tr = [p₁, p₂, p₃] ∧
      DuplexClientChecked .plain (.plain .dilithiumKyber) (.plain _) (.plain _) p₁ p₂ cns') ∧
    (∃ tr p₁ p₂ p₃ cns', serverPackets .dilithiumKyber .zero tr = [p₁, p₂, p₃] ∧
      DuplexServerChecked .plain (.plain .dilithiumKyber) (.plain _) (.plain _) p₁ p₂ cns') ∧
    (∃ tr p₁ p₂ cns', clientPackets .dilithiumKyber .zero tr = [p₁, p₂] ∧
      SimplexClientChecked .plain (.plain .dilithiumKyber) (.plain _) (.plain _) p₁ cns') ∧
    (∃ tr p₁ p₂ cns', serverPackets .dilithiumKyber .zero tr = [p₁, p₂] ∧
      SimplexServerChecked .plain (.plain .dilithiumKyber) (.plain _) (.plain _) p₁ p₂ cns') := by
  obtain ⟨_, _, h₁, hest₁⟩ := duplexClient_plain
  obtain ⟨_, _, h₂, hest₂⟩ := duplexServer_plain 2
  obtain ⟨_, _, h₃, hest₃⟩ := simplexClient_plain
  obtain ⟨_, _, h₄, hest₄⟩ := simplexServer_plain
  obtain ⟨p₁, p₂, p₃, hc⟩ := (no_stage_skipped _ _ _ _ _ rfl).1 _ _ _ _ _ h₁ hest₁
  obtain ⟨q₁, q₂, q₃, hs⟩ := (no_stage_skipped _ _ _ _ _ rfl).2.1 _ _ _ _ _ h₂ hest₂
  obtain ⟨s₁, s₂, hsc⟩ := (no_stage_skipped _ _ _ _ _ rfl).2.2.1 _ _ _ _ _ h₃ hest₃
  obtain ⟨t₁, t₂, hss⟩ := (no_stage_skipped _ _ _ _ _ rfl).2.2.2 _ _ _ _ _ h₄ hest₄
  exact ⟨⟨_, p₁, p₂, p₃, _, hc⟩, ⟨_, q₁, q₂, q₃, _, hs⟩, ⟨_, s₁, s₂, _, hsc⟩,
    ⟨_, t₁, t₂, _, hss⟩⟩

end Qsmp
