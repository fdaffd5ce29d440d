import Qsmp.Symbolic.Signatures
/-!
# Session-key secrecy

A session that is established with an honest peer shares its secrets with
no attacker: a secret comes to light only with the seed it was encapsulated
by or the seed of the KEM key, and both are draws of honest sessions.
-/

namespace Qsmp

variable {w : Net} {i j v : ℕ}

/-- The attacker cannot derive a term. -/
def Net.Hidden (w : Net) (t : Term) : Prop := ¬ w.Derivable t

/-- The keys derived from secrets are hidden: the cipher keys and nonces of
both directions, and the ratchet key, all slices of one expansion. -/
def Net.HiddenKeys (w : Net) (keys : Term) : Prop := ∀ k, w.Hidden (.slice keys k)

theorem Net.hidden_of_not_exposed {t : Term} (h : Net.Reachable w) (ht : ¬ Exposed w.Signs t) :
    w.Hidden t := by
  intro hderives
  exact ht (Net.exposed h hderives)

/-- One hidden secret hides all that is derived from it. -/
theorem Net.hiddenKeys_of_secret {bits : ℕ} {key name custom : Term} (h : Net.Reachable w)
    (hkey : ¬ Exposed w.Signs key) : w.HiddenKeys (.expand bits key name custom) := by
  intro k
  exact Net.hidden_of_not_exposed h (not_exposed_slice (.inl hkey))

/-- A secret a host encapsulates to a key a holder signed is hidden. -/
theorem Net.not_exposed_encapsulated {bits k : ℕ} {pubk : Term}
    (hsigned : w.SignedBy v (.hash bits pubk)) :
    ¬ Exposed w.Signs (.secret pubk (.draw i k)) := by
  refine not_exposed_secret ?_
  intro x hpubk
  exact hsigned.hidden_seed hpubk

/-- A secret encapsulated by one host to another's key is hidden. -/
theorem Net.not_exposed_shared {k k' : ℕ} :
    ¬ Exposed w.Signs (.secret (.pub (.draw i k)) (.draw j k')) := by
  refine not_exposed_secret ?_
  intro x hpubk
  obtain rfl := Term.pub.inj hpubk
  exact not_exposed_draw

/-! ## The secrets of each role -/

/-- **The secrets of a duplex client** whose peer's key is honest: one
encapsulated to a key the peer signed, one encapsulated by the peer to the
client's own. -/
theorem Net.duplexClient_secrets {cfg : DuplexClientConfig symbolic}
    {ssec pubkey prikey secb : Term} (h : Net.Reachable w)
    (hs : w.Reached i (.duplexClientEstablished cfg ssec pubkey prikey secb))
    (hpeer : cfg.rverkey = .verkey (.sigkey v)) :
    ¬ Exposed w.Signs ssec ∧ ¬ Exposed w.Signs secb := by
  obtain ⟨_, _, _, hs₂, -, hrec⟩ := Net.stepped_into h hs (by simp [Session.rank])
  cases hrec with
  | duplexClientVerify =>
    obtain ⟨_, _, _, hs₁, hin₂, hrec⟩ := Net.stepped_into h hs₂ (by simp [Session.rank])
    cases hrec with
    | duplexClientEstablish hverify₂ hopen =>
      obtain ⟨_, _, _, -, hin₁, hrec⟩ := Net.stepped_into h hs₁ (by simp [Session.rank])
      cases hrec with
      | duplexClientExchange hverify₁ =>
        have hkey := Net.signedBy h (hin₁ _ List.mem_cons_self) hverify₁ hpeer
        have hcpt := Net.signedBy h (hin₂ _ (.tail _ (.head _))) hverify₂ hpeer
        -- The cipher-text is one the client's own key opens, so the peer encapsulated to it.
        obtain ⟨x, r, rfl, hx, rfl⟩ := Term.decapsulate_eq_some.1 hopen
        obtain rfl := Term.priv.inj hx
        cases hcpt with
        | duplexCipherText owner reached =>
          exact ⟨Net.not_exposed_encapsulated hkey, Net.not_exposed_shared⟩

/-- **The secrets of a duplex server** whose peer's key is honest: both are
encapsulated by one host to the other's key. -/
theorem Net.duplexServer_secrets {cfg : DuplexServerConfig symbolic}
    {rverkey pubkey prikey seca secb : Term} (h : Net.Reachable w)
    (hs : w.Reached i (.duplexServerEstablished cfg rverkey pubkey prikey seca secb))
    (hpeer : rverkey = .verkey (.sigkey v)) :
    ¬ Exposed w.Signs seca ∧ ¬ Exposed w.Signs secb := by
  obtain ⟨_, _, _, hs₂, -, hrec⟩ := Net.stepped_into h hs (by simp [Session.rank])
  cases hrec with
  | duplexServerEstablish =>
    obtain ⟨_, _, _, hs₁, hin, hrec⟩ := Net.stepped_into h hs₂ (by simp [Session.rank])
    cases hrec with
    | duplexServerExchange hverify hopen =>
      obtain ⟨_, _, _, -, -, hrec⟩ := Net.stepped_into h hs₁ (by simp [Session.rank])
      cases hrec with
      | duplexServerConnect queried configured =>
        have hrequest := Net.signedBy h (hin _ (.tail _ (.tail _ (.head _)))) hverify hpeer
        -- Of the four kinds of hash only a request pairs a cipher-text with a key.
        obtain ⟨x, r, rfl, hx, rfl⟩ := Term.decapsulate_eq_some.1 hopen
        obtain rfl := Term.priv.inj hx
        cases hrequest with
        | duplexRequest owner reached => exact ⟨Net.not_exposed_shared, Net.not_exposed_shared⟩

/-- **The secret of a simplex client** whose peer's key is honest. -/
theorem Net.simplexClient_secret {cfg : SimplexClientConfig symbolic} {ssec : Term}
    (h : Net.Reachable w) (hs : w.Reached i (.simplexClientEstablished cfg ssec))
    (hpeer : cfg.verkey = .verkey (.sigkey v)) : ¬ Exposed w.Signs ssec := by
  obtain ⟨_, _, _, hs₁, -, hrec⟩ := Net.stepped_into h hs (by simp [Session.rank])
  cases hrec with
  | simplexClientVerify =>
    obtain ⟨_, _, _, -, hin, hrec⟩ := Net.stepped_into h hs₁ (by simp [Session.rank])
    cases hrec with
    | simplexClientExchange hverify =>
      exact Net.not_exposed_encapsulated
        (Net.signedBy h (hin _ List.mem_cons_self) hverify hpeer)

/-! ## Secrecy -/

/-- **Session-key secrecy.** In every world that can come about, the
attacker derives neither the secrets nor any key of a session that is
established with an honest peer: of a duplex client, of a duplex server, and
of a simplex client. -/
theorem session_secrecy (w : Net) (h : Net.Reachable w) :
    (∀ i cfg ssec pubkey prikey secb v,
      w.At i (.duplexClientEstablished cfg ssec pubkey prikey secb) →
      cfg.rverkey = .verkey (.sigkey v) →
        w.Hidden ssec ∧ w.Hidden secb ∧
          w.HiddenKeys (symbolic.duplexKeys ssec cfg.keyid cfg.verkey cfg.rverkey secb)) ∧
    (∀ i cfg rverkey pubkey prikey seca secb v,
      w.At i (.duplexServerEstablished cfg rverkey pubkey prikey seca secb) →
      rverkey = .verkey (.sigkey v) →
        w.Hidden seca ∧ w.Hidden secb ∧
          w.HiddenKeys (symbolic.duplexKeys seca cfg.keyid rverkey cfg.verkey secb)) ∧
    (∀ i cfg ssec v, w.At i (.simplexClientEstablished cfg ssec) →
      cfg.verkey = .verkey (.sigkey v) →
        w.Hidden ssec ∧ w.HiddenKeys (symbolic.simplexKeys ssec cfg.keyid cfg.verkey)) := by
  refine ⟨?_, ?_, ?_⟩
  · intro i cfg ssec pubkey prikey secb v hat hpeer
    obtain ⟨hssec, hsecb⟩ := Net.duplexClient_secrets h (h.reached hat) hpeer
    exact ⟨Net.hidden_of_not_exposed h hssec, Net.hidden_of_not_exposed h hsecb,
      Net.hiddenKeys_of_secret h hssec⟩
  · intro i cfg rverkey pubkey prikey seca secb v hat hpeer
    obtain ⟨hseca, hsecb⟩ := Net.duplexServer_secrets h (h.reached hat) hpeer
    exact ⟨Net.hidden_of_not_exposed h hseca, Net.hidden_of_not_exposed h hsecb,
      Net.hiddenKeys_of_secret h hseca⟩
  · intro i cfg ssec v hat hpeer
    have hssec := Net.simplexClient_secret h (h.reached hat) hpeer
    exact ⟨Net.hidden_of_not_exposed h hssec, Net.hiddenKeys_of_secret h hssec⟩

/-- The sessions of the world in which every role is established. -/
theorem session_secrecy_established :
    ∃ w : Net,
      w.HiddenKeys (symbolic.duplexKeys (.secret (.pub (.draw 0 0)) (.draw 1 1)) 2
        (.verkey (.sigkey 1)) (.verkey (.sigkey 2)) (.secret (.pub (.draw 1 0)) (.draw 0 1))) ∧
      w.Hidden (.secret (.pub (.draw 0 0)) (.draw 1 1)) ∧
      w.HiddenKeys (symbolic.simplexKeys (.secret (.pub (.draw 2 0)) (.draw 3 1)) 2
        (.verkey (.sigkey 2))) := by
  obtain ⟨w, h, hserver, hclient, hsimplex⟩ := Net.exists_established
  obtain ⟨-, -, hkeys⟩ := (session_secrecy w h).1 1 _ _ _ _ _ 2 hclient rfl
  obtain ⟨hseca, -, -⟩ := (session_secrecy w h).2.1 0 _ _ _ _ _ _ 1 hserver rfl
  obtain ⟨-, hkeys'⟩ := (session_secrecy w h).2.2 3 _ _ 2 hsimplex rfl
  exact ⟨w, hkeys, hseca, hkeys'⟩

end Qsmp
