import Mathlib.Data.Set.Basic
import Mathlib.Tactic.Common
/-!
# Terms, and what an attacker derives

Byte strings as terms over ideal primitives: signatures that recover their
message, a key encapsulation, hashes and key derivations. Two terms are one
byte string only if they are one term, so hashes and derivations have no
collisions. What an attacker can compute from what it has seen is a closure;
what it can never compute is found by a set of terms closed the same way.
-/

namespace Qsmp

/-- **Terms.** The draws of a session and the signing keys numbered here are
those of the honest; an attacker has the public data, and keys made of
it. -/
inductive Term where
  /-- public octets -/
  | data (n : ℕ)
  /-- no octets -/
  | nil
  /-- the `k`-th draw of the session numbered `i` -/
  | draw (i k : ℕ)
  /-- a signing key -/
  | sigkey (n : ℕ)
  /-- the verification key of a signing key -/
  | verkey (k : Term)
  /-- a message with its signature -/
  | signed (k message : Term)
  /-- the public and the private key of a seed -/
  | pub (seed : Term)
  | priv (seed : Term)
  /-- an encapsulation to a key by a seed, and the secret it holds -/
  | cipherText (pk seed : Term)
  | secret (pk seed : Term)
  /-- the concatenation of two strings -/
  | pair (a b : Term)
  /-- a hash of so many bits -/
  | hash (bits : ℕ) (a : Term)
  /-- a key derivation, and the i-th slice of what it yields -/
  | expand (bits : ℕ) (key name custom : Term)
  | slice (e : Term) (i : ℕ)
  deriving DecidableEq

namespace Term

/-- Recovering the message of a signature made with the key whose
verification key this is. -/
def verify : Term → Term → Option Term
  | signed k message, verkey k' => if k = k' then some message else none
  | _, _ => none

/-- Decapsulation opens what was encapsulated to the matching key. -/
def decapsulate : Term → Term → Option Term
  | cipherText (pub x) r, priv y => if x = y then some (secret (pub x) r) else none
  | _, _ => none

variable {t v message c sk s : Term}

@[simp] theorem verify_signed {k : Term} : verify (signed k message) (verkey k) = some message :=
  if_pos rfl

@[simp] theorem decapsulate_cipherText {x r : Term} :
    decapsulate (cipherText (pub x) r) (priv x) = some (secret (pub x) r) := if_pos rfl

/-- **Unforgeability**, as far as the algebra goes. -/
theorem verify_eq_some : verify t v = some message ↔ ∃ k, t = signed k message ∧ v = verkey k := by
  constructor
  · intro h
    rw [verify.eq_def] at h
    split at h
    · split at h
      · rename_i hk
        exact ⟨_, by rw [Option.some.inj h], by rw [hk]⟩
      · exact absurd h.symm (Option.some_ne_none _)
    · exact absurd h.symm (Option.some_ne_none _)
  · rintro ⟨k, rfl, rfl⟩
    exact verify_signed

theorem decapsulate_eq_some :
    decapsulate c sk = some s ↔
      ∃ x r, c = cipherText (pub x) r ∧ sk = priv x ∧ s = secret (pub x) r := by
  constructor
  · intro h
    rw [decapsulate.eq_def] at h
    split at h
    · split at h
      · rename_i hx
        exact ⟨_, _, rfl, by rw [hx], (Option.some.inj h).symm⟩
      · exact absurd h.symm (Option.some_ne_none _)
    · exact absurd h.symm (Option.some_ne_none _)
  · rintro ⟨x, r, rfl, rfl, rfl⟩
    exact decapsulate_cipherText

end Term

/-! ## The attacker -/

/-- **What an attacker derives** from the terms `K` it has seen. The
verification keys of the honest are public. -/
inductive Derives (K : Set Term) : Term → Prop
  | known {t : Term} (h : t ∈ K) : Derives K t
  | data (n : ℕ) : Derives K (.data n)
  | nil : Derives K .nil
  | published (n : ℕ) : Derives K (.verkey (.sigkey n))
  | verkey {k : Term} (h : Derives K k) : Derives K (.verkey k)
  | sign {k message : Term} (hk : Derives K k) (h : Derives K message) :
      Derives K (.signed k message)
  | recover {k message : Term} (h : Derives K (.signed k message)) : Derives K message
  | pub {seed : Term} (h : Derives K seed) : Derives K (.pub seed)
  | priv {seed : Term} (h : Derives K seed) : Derives K (.priv seed)
  | encapsulate {pk seed : Term} (hk : Derives K pk) (h : Derives K seed) :
      Derives K (.cipherText pk seed)
  | share {pk seed : Term} (hk : Derives K pk) (h : Derives K seed) : Derives K (.secret pk seed)
  | decapsulate {x seed : Term} (h : Derives K (.cipherText (.pub x) seed))
      (hk : Derives K (.priv x)) : Derives K (.secret (.pub x) seed)
  | pair {a b : Term} (ha : Derives K a) (hb : Derives K b) : Derives K (.pair a b)
  | fst {a b : Term} (h : Derives K (.pair a b)) : Derives K a
  | snd {a b : Term} (h : Derives K (.pair a b)) : Derives K b
  | hash (bits : ℕ) {a : Term} (h : Derives K a) : Derives K (.hash bits a)
  | expand (bits : ℕ) {key name custom : Term} (hk : Derives K key) (hn : Derives K name)
      (hc : Derives K custom) : Derives K (.expand bits key name custom)
  | slice {e : Term} (h : Derives K e) (i : ℕ) : Derives K (.slice e i)

variable {K K' : Set Term} {t : Term}

theorem Derives.mono (hK : K ⊆ K') (h : Derives K t) : Derives K' t := by
  induction h with
  | known h => exact .known (hK h)
  | data n => exact .data n
  | nil => exact .nil
  | published n => exact .published n
  | verkey _ ih => exact .verkey ih
  | sign _ _ ihk ih => exact .sign ihk ih
  | recover _ ih => exact .recover ih
  | pub _ ih => exact .pub ih
  | priv _ ih => exact .priv ih
  | encapsulate _ _ ihk ih => exact .encapsulate ihk ih
  | share _ _ ihk ih => exact .share ihk ih
  | decapsulate _ _ ih ihk => exact .decapsulate ih ihk
  | pair _ _ iha ihb => exact .pair iha ihb
  | fst _ ih => exact .fst ih
  | snd _ ih => exact .snd ih
  | hash bits _ ih => exact .hash bits ih
  | expand bits _ _ _ ihk ihn ihc => exact .expand bits ihk ihn ihc
  | slice _ i ih => exact .slice ih i

/-! ## What stays hidden -/

/-- **The terms that may come to light** where the honest keys sign the
messages `signs` and no draw of an honest session is given away: a
signature of an honest key is one it made, and a secret comes to light with
the seed it was encapsulated by or the seed of its key. -/
inductive Exposed (signs : ℕ → Term → Prop) : Term → Prop
  | data (n : ℕ) : Exposed signs (.data n)
  | nil : Exposed signs .nil
  | verkey (k : Term) : Exposed signs (.verkey k)
  | signed {k message : Term} (h : Exposed signs message)
      (honest : ∀ n, k = .sigkey n → signs n message) : Exposed signs (.signed k message)
  | pub (seed : Term) : Exposed signs (.pub seed)
  | priv {seed : Term} (h : Exposed signs seed) : Exposed signs (.priv seed)
  | cipherText (pk seed : Term) : Exposed signs (.cipherText pk seed)
  | encapsulated {pk seed : Term} (h : Exposed signs seed) : Exposed signs (.secret pk seed)
  | decapsulated {x seed : Term} (h : Exposed signs x) : Exposed signs (.secret (.pub x) seed)
  | pair {a b : Term} (ha : Exposed signs a) (hb : Exposed signs b) : Exposed signs (.pair a b)
  | hash (bits : ℕ) (a : Term) : Exposed signs (.hash bits a)
  | expand {bits : ℕ} {key name custom : Term} (hk : Exposed signs key)
      (hc : Exposed signs custom) : Exposed signs (.expand bits key name custom)
  | slice {e : Term} (h : Exposed signs e) (i : ℕ) : Exposed signs (.slice e i)

variable {signs : ℕ → Term → Prop}

/-- **The closed-set rule.** What an attacker derives from exposed terms is
exposed, as long as it has no honest signing key. -/
theorem Derives.exposed (hK : ∀ u ∈ K, Exposed signs u) (h : Derives K t) : Exposed signs t := by
  induction h with
  | known h => exact hK _ h
  | data n => exact .data n
  | nil => exact .nil
  | published n => exact .verkey _
  | verkey _ ih => exact .verkey _
  | sign _ _ ihk ih =>
    -- The key is exposed, so it is not an honest one.
    refine .signed ih ?_
    rintro n rfl
    cases ihk
  | recover _ ih =>
    cases ih with
    | signed h honest => exact h
  | pub _ ih => exact .pub _
  | priv _ ih => exact .priv ih
  | encapsulate _ _ ihk ih => exact .cipherText _ _
  | share _ _ ihk ih => exact .encapsulated ih
  | decapsulate _ _ ih ihk =>
    -- A private key comes to light with its seed only.
    cases ihk with
    | priv h => exact .decapsulated h
  | pair _ _ iha ihb => exact .pair iha ihb
  | fst _ ih =>
    cases ih with
    | pair ha hb => exact ha
  | snd _ ih =>
    cases ih with
    | pair ha hb => exact hb
  | hash bits _ ih => exact .hash _ _
  | expand bits _ _ _ ihk ihn ihc => exact .expand ihk ihc
  | slice _ i ih => exact .slice ih i

theorem not_exposed_draw {i k : ℕ} : ¬ Exposed signs (.draw i k) := nofun

theorem not_exposed_secret {pk : Term} {i k : ℕ} (hpk : ∀ x, pk = .pub x → ¬ Exposed signs x) :
    ¬ Exposed signs (.secret pk (.draw i k)) := by
  intro h
  cases h with
  | encapsulated h => exact not_exposed_draw h
  | decapsulated h => exact hpk _ rfl h

/-- A slice of what is derived from a hidden key, or a hidden
customisation, is hidden. -/
theorem not_exposed_slice {bits i : ℕ} {key name custom : Term}
    (h : ¬ Exposed signs key ∨ ¬ Exposed signs custom) :
    ¬ Exposed signs (.slice (.expand bits key name custom) i) := by
  intro hslice
  cases hslice with
  | slice hexpand =>
    cases hexpand with
    | expand hk hc => exact h.elim (absurd hk) (absurd hc)

/-- A verified signature of an honest key was made by it. -/
theorem signs_of_exposed {message : Term} {n : ℕ} (h : Exposed signs t)
    (hverify : t.verify (.verkey (.sigkey n)) = some message) : signs n message := by
  obtain ⟨k, rfl, hk⟩ := Term.verify_eq_some.1 hverify
  obtain rfl := Term.verkey.inj hk
  cases h with
  | signed h honest => exact honest n rfl

end Qsmp
