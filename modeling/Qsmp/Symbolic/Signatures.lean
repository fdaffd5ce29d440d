import Qsmp.Symbolic.Network
/-!
# What an honest key signs

One long-term key signs four kinds of hash: of a KEM key and of a
cipher-text with a KEM key and of a cipher-text in the duplex exchange, and
of a KEM key in the simplex exchange. Nothing tells them apart but the terms
hashed, and these are enough: a KEM key, a cipher-text and a pair are never
one term, and the two exchanges hash with different functions.
-/

namespace Qsmp

variable {w : Net} {i j v : ℕ}

/-- **The origin of a signature**: the session of the key's holder that made
it, in the state it made it in. A duplex server has verified a request when
it signs its cipher-text. -/
inductive Net.SignedBy (w : Net) (v : ℕ) : Term → Prop
  | duplexKey {j : ℕ} {cfg : DuplexServerConfig symbolic} {rverkey : Term}
      (owner : cfg.sigkey = .sigkey v)
      (reached : w.Reached j (.duplexServerConnectResponse cfg rverkey (.pub (.draw j 0))
        (.priv (.draw j 0)))) :
      Net.SignedBy w v (.hash 512 (.pub (.draw j 0)))
  | duplexRequest {j : ℕ} {cfg : DuplexClientConfig symbolic} {pubk : Term}
      (owner : cfg.sigkey = .sigkey v)
      (reached : w.Reached j (.duplexClientExchangeRequest cfg (.secret pubk (.draw j 1))
        (.pub (.draw j 0)) (.priv (.draw j 0)))) :
      Net.SignedBy w v (.hash 512 (.pair (.cipherText pubk (.draw j 1)) (.pub (.draw j 0))))
  | duplexCipherText {j : ℕ} {cfg : DuplexServerConfig symbolic}
      {rverkey pubkey prikey seca pubk : Term} (owner : cfg.sigkey = .sigkey v)
      (reached : w.Reached j (.duplexServerExchangeResponse cfg rverkey pubkey prikey seca
        (.secret pubk (.draw j 1)))) :
      Net.SignedBy w v (.hash 512 (.cipherText pubk (.draw j 1)))
  | simplexKey {j : ℕ} {cfg : SimplexServerConfig symbolic} (owner : cfg.sigkey = .sigkey v)
      (reached : w.Reached j (.simplexServerConnectResponse cfg (.pub (.draw j 0))
        (.priv (.draw j 0)))) :
      Net.SignedBy w v (.hash 256 (.pub (.draw j 0)))

/-- **Every signature of an honest key has an origin.** -/
theorem Net.Signs.origin {message : Term} (h : Net.Reachable w) (hsigns : w.Signs v message) :
    w.SignedBy v message := by
  obtain ⟨m, hm, hpart⟩ := hsigns
  obtain ⟨j, s, hs, ⟨hopen, hout⟩ | ⟨s₀, m₀, -, -, hrec⟩⟩ := h.sender hm
  · -- Nothing is signed when a session opens.
    cases hopen <;> cases hout <;> simp [Message.parts] at hpart
  · cases receives_iff.2 hrec <;>
      simp only [Message.parts, List.mem_cons, List.not_mem_nil, or_false, reduceCtorEq,
        false_or, Term.signed.injEq] at hpart
    case duplexClientExchange =>
      obtain ⟨howner, rfl⟩ := hpart
      exact .duplexRequest howner.symm hs
    case duplexServerConnect =>
      obtain ⟨howner, rfl⟩ := hpart
      exact .duplexKey howner.symm hs
    case duplexServerExchange =>
      obtain ⟨howner, rfl⟩ := hpart
      exact .duplexCipherText howner.symm hs
    case simplexServerConnect =>
      obtain ⟨howner, rfl⟩ := hpart
      exact .simplexKey howner.symm hs

/-- **A signature verified under an honest key has an origin.** -/
theorem Net.signedBy {signed rverkey message : Term} (h : Net.Reachable w)
    (hderives : w.Derivable signed) (hverify : Term.verify signed rverkey = some message)
    (hkey : rverkey = .verkey (.sigkey v)) : w.SignedBy v message := by
  subst hkey
  exact Net.Signs.origin h (signs_of_exposed (Net.exposed h hderives) hverify)

/-- The KEM key a holder signs is not one whose seed comes to light. -/
theorem Net.SignedBy.hidden_seed {bits : ℕ} {pubk x : Term}
    (hsigned : w.SignedBy v (.hash bits pubk)) (hpubk : pubk = .pub x) :
    ¬ Exposed w.Signs x := by
  subst hpubk
  cases hsigned with
  | duplexKey owner reached => exact not_exposed_draw
  | simplexKey owner reached => exact not_exposed_draw

end Qsmp
