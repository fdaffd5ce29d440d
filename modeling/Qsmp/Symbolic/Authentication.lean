import Qsmp.Symbolic.Secrecy
/-!
# Whom a client shares its keys with

No signature names its addressee and the packets that establish a session
carry none, so what a client may conclude is read off the KEM keys. A
duplex client's second secret is one a session of its peer encapsulated to
its key; a simplex client's secret is one only the session of its peer that
made the KEM key can open.
-/

namespace Qsmp

variable {w : Net} {i j v : ℕ}

/-! ## The duplex exchange -/

/-- **The session behind a duplex client.** A session of the holder of `v`
encapsulated the client's second secret to the client's KEM key. Either it
took the client for its peer, and then it has derived the same two secrets
and the same keys, or it took for its peer one whose key is no honest one. -/
def Net.DuplexPartner (w : Net) (cfg : DuplexClientConfig symbolic) (ssec pubkey secb : Term)
    (v : ℕ) : Prop :=
  ∃ j scfg rverkey spubkey sprikey seca,
    w.Reached j (.duplexServerExchangeResponse scfg rverkey spubkey sprikey seca secb) ∧
      scfg.sigkey = .sigkey v ∧ secb = .secret pubkey (.draw j 1) ∧
      ((rverkey = cfg.verkey ∧ seca = ssec ∧
          symbolic.duplexKeys seca scfg.keyid rverkey scfg.verkey secb
            = symbolic.duplexKeys ssec cfg.keyid cfg.verkey cfg.rverkey secb) ∨
        ∀ n, rverkey ≠ .verkey (.sigkey n))

/-- A duplex server that verified the request of an honest peer, over a KEM
key of session `i`, has the first secret of that session, and its peer is
that session's host. -/
theorem Net.duplexServer_of_client {scfg : DuplexServerConfig symbolic}
    {cfg : DuplexClientConfig symbolic} {rverkey spubkey sprikey seca pubk r : Term} {n : ℕ}
    (h : Net.Reachable w)
    (hclient : w.Reached i (.duplexClientExchangeRequest cfg (.secret pubk (.draw i 1))
      (.pub (.draw i 0)) (.priv (.draw i 0))))
    (hserver : w.Reached j (.duplexServerExchangeResponse scfg rverkey spubkey sprikey seca
      (.secret (.pub (.draw i 0)) r)))
    (hpeer : rverkey = .verkey (.sigkey n)) :
    cfg.sigkey = .sigkey n ∧ seca = .secret pubk (.draw i 1) := by
  obtain ⟨_, _, _, -, hin, hrec⟩ := Net.stepped_into h hserver (by simp [Session.rank])
  cases hrec with
  | duplexServerExchange hverify hopen =>
    have hrequest := Net.signedBy h (hin _ (.tail _ (.tail _ (.head _)))) hverify hpeer
    obtain ⟨x, r, rfl, -, rfl⟩ := Term.decapsulate_eq_some.1 hopen
    cases hrequest with
    | duplexRequest owner reached =>
      -- The KEM key is that of session `i`, which has made one request.
      have hsame := h.eq_of_rank hclient reached rfl
      injection hsame with hcfg hssec
      exact ⟨hcfg ▸ owner, hssec.symm⟩

/-- **Duplex authentication.** Whenever a duplex client is established
towards an honest key, a session of the key's holder stands behind it. -/
theorem duplex_client_partner (w : Net) (h : Net.Reachable w) (i : ℕ)
    (cfg : DuplexClientConfig symbolic) (ssec pubkey prikey secb : Term) (v : ℕ)
    (hat : w.At i (.duplexClientEstablished cfg ssec pubkey prikey secb))
    (hpeer : cfg.rverkey = .verkey (.sigkey v)) :
    w.DuplexPartner cfg ssec pubkey secb v := by
  obtain ⟨n, hverkey, hsigkey, hrecord⟩ := Net.configured h (h.reached hat)
  obtain ⟨_, _, _, hs₂, -, hrec⟩ := Net.stepped_into h (h.reached hat) (by simp [Session.rank])
  cases hrec with
  | duplexClientVerify =>
    obtain ⟨_, _, _, hs₁, hin, hrec⟩ := Net.stepped_into h hs₂ (by simp [Session.rank])
    cases hrec with
    | duplexClientEstablish hverify hopen =>
      obtain ⟨_, _, _, -, -, hrec⟩ := Net.stepped_into h hs₁ (by simp [Session.rank])
      cases hrec with
      | duplexClientExchange _ =>
        have hcpt := Net.signedBy h (hin _ (.tail _ (.head _))) hverify hpeer
        obtain ⟨x, r, rfl, hx, rfl⟩ := Term.decapsulate_eq_some.1 hopen
        obtain rfl := Term.priv.inj hx
        cases hcpt with
        | @duplexCipherText j scfg rverkey spubkey sprikey seca _ owner reached =>
          refine ⟨j, scfg, rverkey, spubkey, sprikey, seca, reached, owner, rfl, ?_⟩
          -- Only a peer with an honest key is bound to the request it signed.
          by_cases hhonest : ∃ n', rverkey = .verkey (.sigkey n')
          · obtain ⟨n', hn'⟩ := hhonest
            obtain ⟨howner, hseca⟩ := Net.duplexServer_of_client h hs₁ reached hn'
            obtain ⟨v', hsverkey, hssigkey, hskeyid⟩ := Net.configured h reached
            have hn : n = n' := Term.sigkey.inj (hsigkey.symm.trans howner)
            have hv : v = v' := Term.sigkey.inj (owner.symm.trans hssigkey)
            have hkeyid : cfg.keyid = v := hrecord v hpeer
            refine .inl ⟨by rw [hn', hverkey, hn], hseca, ?_⟩
            rw [hseca, hskeyid, hsverkey, hn', ← hn, ← hv, hkeyid, hverkey, hpeer]
          · exact .inr fun n' hn' => hhonest ⟨n', hn'⟩

/-- The duplex client of the world in which every role is established. -/
theorem duplex_client_partner_established :
    ∃ w : Net, w.DuplexPartner ⟨2, .verkey (.sigkey 1), .sigkey 1, .verkey (.sigkey 2)⟩
      (.secret (.pub (.draw 0 0)) (.draw 1 1)) (.pub (.draw 1 0))
      (.secret (.pub (.draw 1 0)) (.draw 0 1)) 2 := by
  obtain ⟨w, h, -, hat, -⟩ := Net.exists_established
  exact ⟨w, duplex_client_partner w h 1 _ _ _ _ _ 2 hat rfl⟩

/-- **A duplex client without a partner.** The server's key query knows a
key of the attacker's. The attacker opens the server's session under that
key, passes the server's messages to the client, and signs the client's
request anew: the client is established towards the server, and no session
of the server has taken it for its peer. -/
theorem duplex_client_misbound :
    ¬ ∀ w : Net, Net.Reachable w → ∀ i cfg ssec pubkey prikey secb c v,
      w.At i (.duplexClientEstablished cfg ssec pubkey prikey secb) →
      cfg.verkey = .verkey (.sigkey c) → cfg.rverkey = .verkey (.sigkey v) →
        ∃ j scfg spubkey sprikey,
          w.Reached j (.duplexServerExchangeResponse scfg (.verkey (.sigkey c)) spubkey sprikey
            ssec secb) ∧ scfg.sigkey = .sigkey v := by
  intro hall
  have hempty : Net.Reachable .empty := .refl
  have h := (hempty.opens (.duplexServer 2 fun keyid =>
    if keyid = 7 then some (.verkey (.data 7)) else some (.verkey (.sigkey 1)))).opens
    (.duplexClient 1 2 (.verkey (.sigkey 2)) (genuine_record 2))
  have h := h.takes (i := 0) rfl (network_connects _ 7) (.duplexServerConnect rfl rfl)
  have h := h.relays (i := 1) rfl rfl (.duplexClientExchange symbolic_duplexVerify)
  -- The same cipher-text and the same key, signed with the attacker's own key 7.
  have h := h.takes (i := 0) rfl (network_resigns 7 ⟨_, .head _, rfl⟩)
    (.duplexServerExchange symbolic_duplexVerify symbolic_decapsulate)
  have h := h.relays (i := 1) rfl rfl
    (.duplexClientEstablish symbolic_duplexVerify symbolic_decapsulate)
  have h := h.takes (i := 1) rfl (network_headers _ rfl) .duplexClientVerify
  obtain ⟨j, scfg, spubkey, sprikey, hreached, -⟩ := hall _ h 1 _ _ _ _ _ 1 2 ⟨true, rfl⟩ rfl rfl
  simp [World.reached_stepped, World.reached_opened] at hreached

/-! ## The simplex exchange -/

/-- **The session behind a simplex client.** A session of the holder of `v`
made the KEM key the client encapsulated to, and holds its private key. It
alone can have opened the client's cipher-text; where it has, it holds the
same keys. -/
def Net.SimplexPartner (w : Net) (i : ℕ) (cfg : SimplexClientConfig symbolic) (ssec : Term)
    (v : ℕ) : Prop :=
  ∃ j scfg pubkey prikey, w.Reached j (.simplexServerConnectResponse scfg pubkey prikey) ∧
    scfg.sigkey = .sigkey v ∧
    symbolic.encapsulate pubkey (.draw i 1) = (ssec, .cipherText pubkey (.draw i 1)) ∧
    symbolic.decapsulate (.cipherText pubkey (.draw i 1)) prikey = some ssec ∧
    ∀ j' scfg' pubkey' prikey',
      w.Reached j' (.simplexServerEstablished scfg' pubkey' prikey' ssec) →
        j' = j ∧ scfg'.sigkey = .sigkey v ∧
          symbolic.simplexKeys ssec scfg'.keyid scfg'.verkey
            = symbolic.simplexKeys ssec cfg.keyid cfg.verkey

/-- A simplex server opens only what is encapsulated to its own key. -/
theorem Net.simplexServer_secret {cfg : SimplexServerConfig symbolic}
    {pubkey prikey x r : Term} (h : Net.Reachable w)
    (hs : w.Reached i (.simplexServerEstablished cfg pubkey prikey (.secret (.pub x) r))) :
    x = .draw i 0 ∧ w.Reached i (.simplexServerConnectResponse cfg pubkey prikey) := by
  obtain ⟨_, _, _, hs₁, -, hrec⟩ := Net.stepped_into h hs (by simp [Session.rank])
  cases hrec with
  | simplexServerExchange hopen =>
    refine ⟨?_, hs₁⟩
    obtain ⟨_, _, _, -, -, hrec⟩ := Net.stepped_into h hs₁ (by simp [Session.rank])
    cases hrec with
    | simplexServerConnect recognized configured =>
      obtain ⟨x', r', -, hx, hssec⟩ := Term.decapsulate_eq_some.1 hopen
      have hx' : x = x' := Term.pub.inj (Term.secret.inj hssec).1
      rw [hx', ← Term.priv.inj hx]

/-- **Simplex server authentication.** Whenever a simplex client is
established towards an honest key, a session of the key's holder stands
behind it. -/
theorem simplex_client_partner (w : Net) (h : Net.Reachable w) (i : ℕ)
    (cfg : SimplexClientConfig symbolic) (ssec : Term) (v : ℕ)
    (hat : w.At i (.simplexClientEstablished cfg ssec))
    (hpeer : cfg.verkey = .verkey (.sigkey v)) : w.SimplexPartner i cfg ssec v := by
  have hrecord : Genuine cfg.keyid cfg.verkey := Net.configured h (h.reached hat)
  obtain ⟨_, _, _, hs₁, -, hrec⟩ := Net.stepped_into h (h.reached hat) (by simp [Session.rank])
  cases hrec with
  | simplexClientVerify =>
    obtain ⟨_, _, _, -, hin, hrec⟩ := Net.stepped_into h hs₁ (by simp [Session.rank])
    cases hrec with
    | @simplexClientExchange _ _ pubk hverify =>
      have hkey := Net.signedBy h (hin _ List.mem_cons_self) hverify hpeer
      -- The hashes of the duplex exchange have another length.
      obtain ⟨digest, hdigest⟩ : ∃ t, t = symbolic.simplexKeyHash pubk := ⟨_, rfl⟩
      rw [← hdigest] at hkey
      cases hkey with
      | @simplexKey j scfg owner reached =>
        obtain ⟨-, rfl⟩ := Term.hash.inj hdigest
        refine ⟨j, scfg, _, _, reached, owner, rfl, if_pos rfl, ?_⟩
        intro j' scfg' pubkey' prikey' hs
        obtain ⟨hx, hconn⟩ := Net.simplexServer_secret h hs
        obtain rfl : j = j' := (Term.draw.inj hx).1
        have hsame := h.eq_of_rank reached hconn rfl
        injection hsame with hcfg
        obtain ⟨v', hsverkey, hssigkey, hskeyid⟩ := Net.configured h reached
        have hv : v = v' := Term.sigkey.inj (owner.symm.trans hssigkey)
        refine ⟨rfl, hcfg ▸ owner, ?_⟩
        rw [← hcfg, hskeyid, hsverkey, ← hv, hrecord v hpeer, hpeer]
      | duplexKey owner reached => exact absurd (Term.hash.inj hdigest).1 (by decide)
      | duplexRequest owner reached => exact absurd (Term.hash.inj hdigest).1 (by decide)
      | duplexCipherText owner reached => exact absurd (Term.hash.inj hdigest).1 (by decide)

/-- The simplex client of the world in which every role is established. -/
theorem simplex_client_partner_established :
    ∃ w : Net, w.SimplexPartner 3 ⟨2, .verkey (.sigkey 2)⟩
      (.secret (.pub (.draw 2 0)) (.draw 3 1)) 2 := by
  obtain ⟨w, h, -, -, hat⟩ := Net.exists_established
  exact ⟨w, simplex_client_partner w h 3 _ _ 2 hat rfl⟩

/-- **A simplex client alone.** The exchange response is a bare header. The
attacker keeps the client's request from the server and makes the header
itself: the client is established, and no session has opened its
cipher-text. -/
theorem simplex_client_alone :
    ¬ ∀ w : Net, Net.Reachable w → ∀ i cfg ssec v,
      w.At i (.simplexClientEstablished cfg ssec) → cfg.verkey = .verkey (.sigkey v) →
        ∃ j scfg pubkey prikey, w.Reached j (.simplexServerEstablished scfg pubkey prikey ssec) ∧
          scfg.sigkey = .sigkey v ∧ symbolic.simplexKeys ssec scfg.keyid scfg.verkey
            = symbolic.simplexKeys ssec cfg.keyid cfg.verkey := by
  intro hall
  have hempty : Net.Reachable .empty := .refl
  have h := (hempty.opens (.simplexServer 2)).opens
    (.simplexClient 2 (.verkey (.sigkey 2)) (genuine_record 2))
  have h := h.relays (i := 0) rfl rfl (.simplexServerConnect rfl rfl)
  have h := h.relays (i := 1) rfl rfl (.simplexClientExchange symbolic_simplexVerify)
  -- The server has not seen the exchange request yet.
  have h := h.takes (i := 1) rfl (network_headers _ rfl) .simplexClientVerify
  obtain ⟨j, scfg, pubkey, prikey, hreached, -⟩ := hall _ h 1 _ _ 2 ⟨true, rfl⟩ rfl
  simp [World.reached_stepped, World.reached_opened] at hreached

end Qsmp
