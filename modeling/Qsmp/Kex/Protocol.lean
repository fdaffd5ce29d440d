import Mathlib.Data.Nat.Notation
import Mathlib.Tactic.Common
/-!
# The exchanges over an arbitrary suite

What the step functions compute, apart from the packets that carry it and
the buffers it is laid out in. A suite names the values and the primitives;
over the byte strings of a build these are the step functions of the source,
and over terms they are the protocol an attacker faces.
-/

namespace Qsmp

/-- **A suite**: the kinds of value an exchange handles and the primitives
on them. The two verifications recover the hash that was signed, one for
each exchange, and the key derivations take what the session hash is
computed from. -/
structure Suite where
  Seed : Type
  Keyid : Type
  Config : Type
  VerifyKey : Type
  SigningKey : Type
  PublicKey : Type
  PrivateKey : Type
  CipherText : Type
  Secret : Type
  Signed : Type
  Digest : Type
  Keys : Type
  config : Config
  compareConfig : Config → Bool
  compareKeyid : Keyid → Keyid → Bool
  generateKeypair : Seed → PublicKey × PrivateKey
  encapsulate : PublicKey → Seed → Secret × CipherText
  decapsulate : CipherText → PrivateKey → Option Secret
  sign : Digest → SigningKey → Seed → Signed
  duplexVerify : Signed → VerifyKey → Option Digest
  duplexKeyHash : PublicKey → Digest
  duplexRequestHash : CipherText → PublicKey → Digest
  duplexCipherTextHash : CipherText → Digest
  duplexKeys : Secret → Keyid → VerifyKey → VerifyKey → Secret → Keys
  simplexVerify : Signed → VerifyKey → Option Digest
  simplexKeyHash : PublicKey → Digest
  simplexKeys : Secret → Keyid → VerifyKey → Keys
  [digestEq : DecidableEq Digest]

attribute [instance] Suite.digestEq

variable (S : Suite)

/-! ## The sessions and their messages -/

/-- What a duplex client is configured with. -/
structure DuplexClientConfig where
  keyid : S.Keyid
  verkey : S.VerifyKey
  sigkey : S.SigningKey
  rverkey : S.VerifyKey

/-- What a duplex server is configured with. -/
structure DuplexServerConfig where
  keyid : S.Keyid
  verkey : S.VerifyKey
  sigkey : S.SigningKey
  keyQuery : S.Keyid → Option S.VerifyKey

/-- What a simplex client is configured with; `verkey` is the server's. -/
structure SimplexClientConfig where
  keyid : S.Keyid
  verkey : S.VerifyKey

/-- What a simplex server is configured with. -/
structure SimplexServerConfig where
  keyid : S.Keyid
  verkey : S.VerifyKey
  sigkey : S.SigningKey

/-- **A session** in one of the four roles, at one of its exchange flags,
with what it holds there: the key pair it made, the secrets it shares. A
server that waits for a connect request has the flag none. -/
inductive Session where
  | duplexClientConnectRequest (cfg : DuplexClientConfig S)
  | duplexClientExchangeRequest (cfg : DuplexClientConfig S) (ssec : S.Secret)
      (pubkey : S.PublicKey) (prikey : S.PrivateKey)
  | duplexClientEstablishRequest (cfg : DuplexClientConfig S) (ssec : S.Secret)
      (pubkey : S.PublicKey) (prikey : S.PrivateKey) (secb : S.Secret)
  | duplexClientEstablished (cfg : DuplexClientConfig S) (ssec : S.Secret)
      (pubkey : S.PublicKey) (prikey : S.PrivateKey) (secb : S.Secret)
  | duplexServerNone (cfg : DuplexServerConfig S)
  | duplexServerConnectResponse (cfg : DuplexServerConfig S) (rverkey : S.VerifyKey)
      (pubkey : S.PublicKey) (prikey : S.PrivateKey)
  | duplexServerExchangeResponse (cfg : DuplexServerConfig S) (rverkey : S.VerifyKey)
      (pubkey : S.PublicKey) (prikey : S.PrivateKey) (seca secb : S.Secret)
  | duplexServerEstablished (cfg : DuplexServerConfig S) (rverkey : S.VerifyKey)
      (pubkey : S.PublicKey) (prikey : S.PrivateKey) (seca secb : S.Secret)
  | simplexClientConnectRequest (cfg : SimplexClientConfig S)
  | simplexClientExchangeRequest (cfg : SimplexClientConfig S) (ssec : S.Secret)
  | simplexClientEstablished (cfg : SimplexClientConfig S) (ssec : S.Secret)
  | simplexServerNone (cfg : SimplexServerConfig S)
  | simplexServerConnectResponse (cfg : SimplexServerConfig S) (pubkey : S.PublicKey)
      (prikey : S.PrivateKey)
  | simplexServerEstablished (cfg : SimplexServerConfig S) (pubkey : S.PublicKey)
      (prikey : S.PrivateKey) (ssec : S.Secret)

/-- **The messages**, in the parts their bodies have. The connect messages
of the two exchanges are laid out alike. -/
inductive Message where
  | connectRequest (keyid : S.Keyid) (config : S.Config)
  | connectResponse (signed : S.Signed) (pubk : S.PublicKey)
  | duplexExchangeRequest (cpt : S.CipherText) (pubk : S.PublicKey) (signed : S.Signed)
  | duplexExchangeResponse (cpt : S.CipherText) (signed : S.Signed)
  | establishRequest
  | establishResponse
  | simplexExchangeRequest (cpt : S.CipherText)
  | simplexExchangeResponse

/-- The randomness a session draws. -/
structure SuiteDraws where
  keypair : S.Seed
  encap : S.Seed
  sign : S.Seed
  resign : S.Seed

variable {S} (d : SuiteDraws S)

/-! ## The steps -/

namespace Session

/-- `kex_duplex_client_exchange_request` -/
def duplexClientExchange (cfg : DuplexClientConfig S) (signed : S.Signed) (pubk : S.PublicKey) :
    Option (Session S × Option (Message S)) :=
  if S.duplexVerify signed cfg.rverkey = some (S.duplexKeyHash pubk) then
    let enc := S.encapsulate pubk d.encap
    let keys := S.generateKeypair d.keypair
    some (duplexClientExchangeRequest cfg enc.1 keys.1 keys.2,
      some (.duplexExchangeRequest enc.2 keys.1
        (S.sign (S.duplexRequestHash enc.2 keys.1) cfg.sigkey d.sign)))
  else none

/-- `kex_duplex_client_establish_request` -/
def duplexClientEstablish (cfg : DuplexClientConfig S) (ssec : S.Secret) (pubkey : S.PublicKey)
    (prikey : S.PrivateKey) (cpt : S.CipherText) (signed : S.Signed) :
    Option (Session S × Option (Message S)) :=
  if S.duplexVerify signed cfg.rverkey = some (S.duplexCipherTextHash cpt) then
    (S.decapsulate cpt prikey).map fun secb =>
      (duplexClientEstablishRequest cfg ssec pubkey prikey secb, some .establishRequest)
  else none

/-- `kex_duplex_server_connect_response`, on a key in date -/
def duplexServerConnect (cfg : DuplexServerConfig S) (keyid : S.Keyid) (config : S.Config) :
    Option (Session S × Option (Message S)) :=
  (cfg.keyQuery keyid).bind fun rverkey =>
    if S.compareConfig config then
      let keys := S.generateKeypair d.keypair
      some (duplexServerConnectResponse cfg rverkey keys.1 keys.2,
        some (.connectResponse (S.sign (S.duplexKeyHash keys.1) cfg.sigkey d.sign) keys.1))
    else none

/-- `kex_duplex_server_exchange_response` -/
def duplexServerExchange (cfg : DuplexServerConfig S) (rverkey : S.VerifyKey)
    (pubkey : S.PublicKey) (prikey : S.PrivateKey) (cpt : S.CipherText) (pubk : S.PublicKey)
    (signed : S.Signed) : Option (Session S × Option (Message S)) :=
  if S.duplexVerify signed rverkey = some (S.duplexRequestHash cpt pubk) then
    (S.decapsulate cpt prikey).map fun seca =>
      let enc := S.encapsulate pubk d.encap
      (duplexServerExchangeResponse cfg rverkey pubkey prikey seca enc.1,
        some (.duplexExchangeResponse enc.2
          (S.sign (S.duplexCipherTextHash enc.2) cfg.sigkey d.resign)))
  else none

/-- `kex_simplex_client_exchange_request` -/
def simplexClientExchange (cfg : SimplexClientConfig S) (signed : S.Signed)
    (pubk : S.PublicKey) : Option (Session S × Option (Message S)) :=
  if S.simplexVerify signed cfg.verkey = some (S.simplexKeyHash pubk) then
    let enc := S.encapsulate pubk d.encap
    some (simplexClientExchangeRequest cfg enc.1, some (.simplexExchangeRequest enc.2))
  else none

/-- `kex_simplex_server_connect_response`, on a key in date -/
def simplexServerConnect (cfg : SimplexServerConfig S) (keyid : S.Keyid) (config : S.Config) :
    Option (Session S × Option (Message S)) :=
  if S.compareKeyid cfg.keyid keyid ∧ S.compareConfig config then
    let keys := S.generateKeypair d.keypair
    some (simplexServerConnectResponse cfg keys.1 keys.2,
      some (.connectResponse (S.sign (S.simplexKeyHash keys.1) cfg.sigkey d.sign) keys.1))
  else none

/-- `kex_simplex_server_exchange_response` -/
def simplexServerExchange (cfg : SimplexServerConfig S) (pubkey : S.PublicKey)
    (prikey : S.PrivateKey) (cpt : S.CipherText) : Option (Session S × Option (Message S)) :=
  (S.decapsulate cpt prikey).map fun ssec =>
    (simplexServerEstablished cfg pubkey prikey ssec, some .simplexExchangeResponse)

/-- **What a session does with a message**: it steps and answers, or, where
the message is not the one its flag calls for or fails a check, refuses. -/
def receive : Session S → Message S → Option (Session S × Option (Message S))
  | duplexClientConnectRequest cfg, .connectResponse signed pubk =>
      duplexClientExchange d cfg signed pubk
  | duplexClientExchangeRequest cfg ssec pubkey prikey, .duplexExchangeResponse cpt signed =>
      duplexClientEstablish cfg ssec pubkey prikey cpt signed
  | duplexClientEstablishRequest cfg ssec pubkey prikey secb, .establishResponse =>
      some (duplexClientEstablished cfg ssec pubkey prikey secb, none)
  | duplexServerNone cfg, .connectRequest keyid config => duplexServerConnect d cfg keyid config
  | duplexServerConnectResponse cfg rverkey pubkey prikey, .duplexExchangeRequest cpt pubk signed =>
      duplexServerExchange d cfg rverkey pubkey prikey cpt pubk signed
  | duplexServerExchangeResponse cfg rverkey pubkey prikey seca secb, .establishRequest =>
      some (duplexServerEstablished cfg rverkey pubkey prikey seca secb, some .establishResponse)
  | simplexClientConnectRequest cfg, .connectResponse signed pubk =>
      simplexClientExchange d cfg signed pubk
  | simplexClientExchangeRequest cfg ssec, .simplexExchangeResponse =>
      some (simplexClientEstablished cfg ssec, none)
  | simplexServerNone cfg, .connectRequest keyid config => simplexServerConnect d cfg keyid config
  | simplexServerConnectResponse cfg pubkey prikey, .simplexExchangeRequest cpt =>
      simplexServerExchange cfg pubkey prikey cpt
  | _, _ => none

/-- The state a session ends in that takes these messages, one by one. -/
def after (d : SuiteDraws S) : Session S → List (Message S) → Option (Session S)
  | s, [] => some s
  | s, m :: ms => (s.receive d m).bind fun r => after d r.1 ms

/-- `kex_duplex_client_connect_request` and `kex_simplex_client_connect_request`,
on a key in date: the message a session opens with. A server waits. -/
def opening : Session S → Option (Message S)
  | duplexClientConnectRequest cfg => some (.connectRequest cfg.keyid S.config)
  | simplexClientConnectRequest cfg => some (.connectRequest cfg.keyid S.config)
  | _ => none

/-- How many steps a session has taken. -/
def rank : Session S → ℕ
  | duplexClientConnectRequest .. | duplexServerNone .. | simplexClientConnectRequest ..
  | simplexServerNone .. => 0
  | duplexClientExchangeRequest .. | duplexServerConnectResponse ..
  | simplexClientExchangeRequest .. | simplexServerConnectResponse .. => 1
  | duplexClientEstablishRequest .. | duplexServerExchangeResponse ..
  | simplexClientEstablished .. | simplexServerEstablished .. => 2
  | duplexClientEstablished .. | duplexServerEstablished .. => 3

end Session

/-! ## What a step can do -/

/-- **The steps of a session**, one constructor for each step function. -/
inductive Receives (d : SuiteDraws S) :
    Session S → Message S → Session S → Option (Message S) → Prop
  | duplexClientExchange {cfg : DuplexClientConfig S} {signed : S.Signed} {pubk : S.PublicKey}
      (verified : S.duplexVerify signed cfg.rverkey = some (S.duplexKeyHash pubk)) :
      Receives d (.duplexClientConnectRequest cfg) (.connectResponse signed pubk)
        (.duplexClientExchangeRequest cfg (S.encapsulate pubk d.encap).1
          (S.generateKeypair d.keypair).1 (S.generateKeypair d.keypair).2)
        (some (.duplexExchangeRequest (S.encapsulate pubk d.encap).2
          (S.generateKeypair d.keypair).1
          (S.sign (S.duplexRequestHash (S.encapsulate pubk d.encap).2
            (S.generateKeypair d.keypair).1) cfg.sigkey d.sign)))
  | duplexClientEstablish {cfg : DuplexClientConfig S} {ssec secb : S.Secret}
      {pubkey : S.PublicKey} {prikey : S.PrivateKey} {cpt : S.CipherText} {signed : S.Signed}
      (verified : S.duplexVerify signed cfg.rverkey = some (S.duplexCipherTextHash cpt))
      (opened : S.decapsulate cpt prikey = some secb) :
      Receives d (.duplexClientExchangeRequest cfg ssec pubkey prikey)
        (.duplexExchangeResponse cpt signed)
        (.duplexClientEstablishRequest cfg ssec pubkey prikey secb) (some .establishRequest)
  | duplexClientVerify {cfg : DuplexClientConfig S} {ssec secb : S.Secret}
      {pubkey : S.PublicKey} {prikey : S.PrivateKey} :
      Receives d (.duplexClientEstablishRequest cfg ssec pubkey prikey secb) .establishResponse
        (.duplexClientEstablished cfg ssec pubkey prikey secb) none
  | duplexServerConnect {cfg : DuplexServerConfig S} {keyid : S.Keyid} {config : S.Config}
      {rverkey : S.VerifyKey} (queried : cfg.keyQuery keyid = some rverkey)
      (configured : S.compareConfig config = true) :
      Receives d (.duplexServerNone cfg) (.connectRequest keyid config)
        (.duplexServerConnectResponse cfg rverkey (S.generateKeypair d.keypair).1
          (S.generateKeypair d.keypair).2)
        (some (.connectResponse (S.sign (S.duplexKeyHash (S.generateKeypair d.keypair).1)
          cfg.sigkey d.sign) (S.generateKeypair d.keypair).1))
  | duplexServerExchange {cfg : DuplexServerConfig S} {rverkey : S.VerifyKey}
      {pubkey pubk : S.PublicKey} {prikey : S.PrivateKey} {cpt : S.CipherText}
      {signed : S.Signed} {seca : S.Secret}
      (verified : S.duplexVerify signed rverkey = some (S.duplexRequestHash cpt pubk))
      (opened : S.decapsulate cpt prikey = some seca) :
      Receives d (.duplexServerConnectResponse cfg rverkey pubkey prikey)
        (.duplexExchangeRequest cpt pubk signed)
        (.duplexServerExchangeResponse cfg rverkey pubkey prikey seca
          (S.encapsulate pubk d.encap).1)
        (some (.duplexExchangeResponse (S.encapsulate pubk d.encap).2
          (S.sign (S.duplexCipherTextHash (S.encapsulate pubk d.encap).2) cfg.sigkey d.resign)))
  | duplexServerEstablish {cfg : DuplexServerConfig S} {rverkey : S.VerifyKey}
      {pubkey : S.PublicKey} {prikey : S.PrivateKey} {seca secb : S.Secret} :
      Receives d (.duplexServerExchangeResponse cfg rverkey pubkey prikey seca secb)
        .establishRequest (.duplexServerEstablished cfg rverkey pubkey prikey seca secb)
        (some .establishResponse)
  | simplexClientExchange {cfg : SimplexClientConfig S} {signed : S.Signed} {pubk : S.PublicKey}
      (verified : S.simplexVerify signed cfg.verkey = some (S.simplexKeyHash pubk)) :
      Receives d (.simplexClientConnectRequest cfg) (.connectResponse signed pubk)
        (.simplexClientExchangeRequest cfg (S.encapsulate pubk d.encap).1)
        (some (.simplexExchangeRequest (S.encapsulate pubk d.encap).2))
  | simplexClientVerify {cfg : SimplexClientConfig S} {ssec : S.Secret} :
      Receives d (.simplexClientExchangeRequest cfg ssec) .simplexExchangeResponse
        (.simplexClientEstablished cfg ssec) none
  | simplexServerConnect {cfg : SimplexServerConfig S} {keyid : S.Keyid} {config : S.Config}
      (recognized : S.compareKeyid cfg.keyid keyid = true)
      (configured : S.compareConfig config = true) :
      Receives d (.simplexServerNone cfg) (.connectRequest keyid config)
        (.simplexServerConnectResponse cfg (S.generateKeypair d.keypair).1
          (S.generateKeypair d.keypair).2)
        (some (.connectResponse (S.sign (S.simplexKeyHash (S.generateKeypair d.keypair).1)
          cfg.sigkey d.sign) (S.generateKeypair d.keypair).1))
  | simplexServerExchange {cfg : SimplexServerConfig S} {pubkey : S.PublicKey}
      {prikey : S.PrivateKey} {cpt : S.CipherText} {ssec : S.Secret}
      (opened : S.decapsulate cpt prikey = some ssec) :
      Receives d (.simplexServerConnectResponse cfg pubkey prikey) (.simplexExchangeRequest cpt)
        (.simplexServerEstablished cfg pubkey prikey ssec) (some .simplexExchangeResponse)

variable {d} {s s' : Session S} {m : Message S} {out : Option (Message S)}

/-- **The steps are those the step functions take.** -/
theorem receives_iff : Receives d s m s' out ↔ s.receive d m = some (s', out) := by
  constructor
  · intro h
    cases h with
    | duplexClientExchange verified => exact if_pos verified
    | duplexClientEstablish verified opened =>
      exact (if_pos verified).trans (by rw [opened]; rfl)
    | duplexClientVerify => rfl
    | duplexServerConnect queried configured =>
      show (Option.bind _ _) = _
      rw [queried]
      exact if_pos configured
    | duplexServerExchange verified opened =>
      exact (if_pos verified).trans (by rw [opened]; rfl)
    | duplexServerEstablish => rfl
    | simplexClientExchange verified => exact if_pos verified
    | simplexClientVerify => rfl
    | simplexServerConnect recognized configured => exact if_pos ⟨recognized, configured⟩
    | simplexServerExchange opened =>
      show Option.map _ _ = _
      rw [opened]
      rfl
  · -- The branches of the step, in the order they are written; the last one refuses.
    intro h
    rw [Session.receive.eq_def] at h
    split at h
    · simp only [Session.duplexClientExchange] at h
      split at h
      · obtain ⟨rfl, rfl⟩ := Prod.mk.inj (Option.some.inj h)
        exact .duplexClientExchange ‹_›
      · exact absurd h.symm (Option.some_ne_none _)
    · simp only [Session.duplexClientEstablish] at h
      split at h
      · obtain ⟨secb, hopen, heq⟩ := Option.map_eq_some_iff.1 h
        obtain ⟨rfl, rfl⟩ := Prod.mk.inj heq
        exact .duplexClientEstablish ‹_› hopen
      · exact absurd h.symm (Option.some_ne_none _)
    · obtain ⟨rfl, rfl⟩ := Prod.mk.inj (Option.some.inj h)
      exact .duplexClientVerify
    · obtain ⟨rverkey, hquery, h⟩ := Option.bind_eq_some_iff.1 h
      split at h
      · obtain ⟨rfl, rfl⟩ := Prod.mk.inj (Option.some.inj h)
        exact .duplexServerConnect hquery ‹_›
      · exact absurd h.symm (Option.some_ne_none _)
    · simp only [Session.duplexServerExchange] at h
      split at h
      · obtain ⟨seca, hopen, heq⟩ := Option.map_eq_some_iff.1 h
        obtain ⟨rfl, rfl⟩ := Prod.mk.inj heq
        exact .duplexServerExchange ‹_› hopen
      · exact absurd h.symm (Option.some_ne_none _)
    · obtain ⟨rfl, rfl⟩ := Prod.mk.inj (Option.some.inj h)
      exact .duplexServerEstablish
    · simp only [Session.simplexClientExchange] at h
      split at h
      · obtain ⟨rfl, rfl⟩ := Prod.mk.inj (Option.some.inj h)
        exact .simplexClientExchange ‹_›
      · exact absurd h.symm (Option.some_ne_none _)
    · obtain ⟨rfl, rfl⟩ := Prod.mk.inj (Option.some.inj h)
      exact .simplexClientVerify
    · simp only [Session.simplexServerConnect] at h
      split at h
      · rename_i hchecks
        obtain ⟨rfl, rfl⟩ := Prod.mk.inj (Option.some.inj h)
        exact .simplexServerConnect hchecks.1 hchecks.2
      · exact absurd h.symm (Option.some_ne_none _)
    · obtain ⟨ssec, hopen, heq⟩ := Option.map_eq_some_iff.1 h
      obtain ⟨rfl, rfl⟩ := Prod.mk.inj heq
      exact .simplexServerExchange hopen
    · exact absurd h.symm (Option.some_ne_none _)

/-- A step raises the rank by one. -/
theorem Receives.rank (h : Receives d s m s' out) : s'.rank = s.rank + 1 := by
  cases h <;> rfl

theorem Receives.after {ms : List (Message S)} (h : Receives d s m s' out) :
    s.after d (m :: ms) = s'.after d ms := by
  rw [Session.after, receives_iff.1 h]
  rfl

end Qsmp
