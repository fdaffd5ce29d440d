import Qsmp.Common.Sessions
import Qsmp.Common.Terms
import Qsmp.Kex.Protocol
/-!
# The exchanges against a network attacker

The exchanges over the suite of terms, any number of sessions of any number
of hosts in every role, and an attacker that delivers whatever it can
derive. A host signs with one long-term key in all its roles and in both
exchanges, and the hashes it signs carry no tag.
-/

namespace Qsmp

/-- **The suite of terms.** Keys are named by their identities. -/
abbrev symbolic : Suite where
  Seed := Term
  Keyid := ℕ
  Config := Term
  VerifyKey := Term
  SigningKey := Term
  PublicKey := Term
  PrivateKey := Term
  CipherText := Term
  Secret := Term
  Signed := Term
  Digest := Term
  Keys := Term
  config := .data 0
  compareConfig config := config = .data 0
  compareKeyid keyid keyid' := keyid = keyid'
  generateKeypair seed := (.pub seed, .priv seed)
  encapsulate pk seed := (.secret pk seed, .cipherText pk seed)
  decapsulate := Term.decapsulate
  sign digest sigkey _ := .signed sigkey digest
  duplexVerify := Term.verify
  duplexKeyHash pubk := .hash 512 pubk
  duplexRequestHash cpt pubk := .hash 512 (.pair cpt pubk)
  duplexCipherTextHash cpt := .hash 512 cpt
  duplexKeys seca keyid clientkey serverkey secb :=
    .expand 512 seca
      (.hash 512 (.pair (.data 0) (.pair (.data keyid) (.pair clientkey serverkey)))) secb
  simplexVerify := Term.verify
  simplexKeyHash pubk := .hash 256 pubk
  simplexKeys ssec keyid serverkey :=
    .expand 256 ssec (.hash 256 (.pair (.data 0) (.pair (.data keyid) serverkey))) .nil

/-- What is signed verifies, in both exchanges, and what is encapsulated is
opened. -/
theorem symbolic_duplexVerify {digest k seed : Term} :
    symbolic.duplexVerify (symbolic.sign digest k seed) (.verkey k) = some digest :=
  Term.verify_signed

theorem symbolic_simplexVerify {digest k seed : Term} :
    symbolic.simplexVerify (symbolic.sign digest k seed) (.verkey k) = some digest :=
  Term.verify_signed

theorem symbolic_decapsulate {seed seed' : Term} :
    symbolic.decapsulate (symbolic.encapsulate (symbolic.generateKeypair seed).1 seed').2
      (symbolic.generateKeypair seed).2
        = some (symbolic.encapsulate (symbolic.generateKeypair seed).1 seed').1 :=
  Term.decapsulate_cipherText

/-- The parts of a message. -/
def Message.parts : Message symbolic → List Term
  | .connectRequest keyid config => [.data keyid, config]
  | .connectResponse signed pubk => [signed, pubk]
  | .duplexExchangeRequest cpt pubk signed => [cpt, pubk, signed]
  | .duplexExchangeResponse cpt signed => [cpt, signed]
  | .establishRequest => []
  | .establishResponse => []
  | .simplexExchangeRequest cpt => [cpt]
  | .simplexExchangeResponse => []

/-- A record that names an honest key carries that key's identity; any
other record may carry any. -/
def Genuine (keyid : ℕ) (verkey : Term) : Prop := ∀ v, verkey = .verkey (.sigkey v) → keyid = v

theorem genuine_record (n : ℕ) : Genuine n (.verkey (.sigkey n)) :=
  fun _ h => Term.sigkey.inj (Term.verkey.inj h)

/-- **How a session opens.** A client is given its host's key and the record
of its peer's, a server its host's key; a duplex server's key query is any
function, and may know keys of the attacker's. -/
inductive Opens : Session symbolic → Prop
  | duplexClient (n keyid : ℕ) (rverkey : Term) (record : Genuine keyid rverkey) :
      Opens (.duplexClientConnectRequest ⟨keyid, .verkey (.sigkey n), .sigkey n, rverkey⟩)
  | duplexServer (n : ℕ) (keyQuery : ℕ → Option Term) :
      Opens (.duplexServerNone ⟨n, .verkey (.sigkey n), .sigkey n, keyQuery⟩)
  | simplexClient (keyid : ℕ) (verkey : Term) (record : Genuine keyid verkey) :
      Opens (.simplexClientConnectRequest ⟨keyid, verkey⟩)
  | simplexServer (n : ℕ) : Opens (.simplexServerNone ⟨n, .verkey (.sigkey n), .sigkey n⟩)

/-- The draws of the session numbered `i`. -/
abbrev sessionDraws (i : ℕ) : SuiteDraws symbolic := ⟨.draw i 0, .draw i 1, .draw i 2, .draw i 3⟩

/-- The sessions of the hosts. -/
def hosts : Machine (Session symbolic) (Message symbolic) where
  opens s out := Opens s ∧ out = s.opening
  receive i := Session.receive (sessionDraws i)
  rank := Session.rank
  rank_receive h := (receives_iff.2 h).rank

/-- The terms in a set of messages. -/
def terms (K : Set (Message symbolic)) : Set Term := {t | ∃ m ∈ K, t ∈ m.parts}

/-- **The attacker** delivers a message if it derives its parts. -/
def network : Attacker (Message symbolic) where
  delivers K m := ∀ t ∈ m.parts, Derives (terms K) t
  mono := by
    rintro K K' m hK h t ht
    refine (h t ht).mono ?_
    rintro u ⟨m', hm', hu⟩
    exact ⟨m', hK hm', hu⟩

/-- Anyone can make a connect request. -/
theorem network_connects (K : Set (Message symbolic)) (keyid : ℕ) :
    network.delivers K (.connectRequest keyid symbolic.config) := by
  intro t ht
  simp only [Message.parts, List.mem_cons, List.not_mem_nil, or_false] at ht
  obtain rfl | rfl := ht
  · exact .data keyid
  · exact .data 0

/-- A request that was seen can be signed anew, with a key of one's own. -/
theorem network_resigns {K : Set (Message symbolic)} {cpt pubk signed : Term} (n : ℕ)
    (h : .duplexExchangeRequest cpt pubk signed ∈ K) :
    network.delivers K (.duplexExchangeRequest cpt pubk
      (symbolic.sign (symbolic.duplexRequestHash cpt pubk) (.data n) .nil)) := by
  have hcpt : Derives (terms K) cpt := .known ⟨_, h, .head _⟩
  have hpubk : Derives (terms K) pubk := .known ⟨_, h, .tail _ (.head _)⟩
  intro t ht
  simp only [Message.parts, List.mem_cons, List.not_mem_nil, or_false] at ht
  obtain rfl | rfl | rfl := ht
  · exact hcpt
  · exact hpubk
  · exact .sign (.data n) (.hash 512 (.pair hcpt hpubk))

/-- A message with no parts is one anyone can make. -/
theorem network_headers (K : Set (Message symbolic)) {m : Message symbolic} (h : m.parts = []) :
    network.delivers K m := by
  intro t ht
  exact absurd (h ▸ ht) List.not_mem_nil

/-- The worlds of the exchanges. -/
abbrev Net := World (Session symbolic) (Message symbolic)

/-- The worlds that can come about. -/
abbrev Net.Reachable (w : Net) : Prop := World.Reachable hosts network w

/-- A term the attacker can derive. -/
def Net.Derivable (w : Net) (t : Term) : Prop := Derives (terms w.sent) t

/-- The host of key `n` has signed a message. -/
def Net.Signs (w : Net) (n : ℕ) (message : Term) : Prop :=
  .signed (.sigkey n) message ∈ terms w.sent

variable {w : Net} {i j : ℕ} {s : Session symbolic}

/-! ## Histories -/

/-- A session past its opening has stepped there. -/
theorem Net.stepped_into (h : Net.Reachable w) (hs : w.Reached i s) (hrank : s.rank ≠ 0) :
    ∃ s₀ m out, w.Reached i s₀ ∧ network.delivers w.sent m ∧
      Receives (sessionDraws i) s₀ m s out := by
  obtain ⟨out, hopen, -⟩ | ⟨s₀, m, out, hs₀, hdelivered, hrec⟩ := h.origin hs
  · cases hopen <;> exact absurd rfl hrank
  · exact ⟨s₀, m, out, hs₀, hdelivered, receives_iff.2 hrec⟩

/-- The configuration a session opened with. -/
def Session.Configured : Session symbolic → Prop
  | .duplexClientConnectRequest cfg | .duplexClientExchangeRequest cfg ..
  | .duplexClientEstablishRequest cfg .. | .duplexClientEstablished cfg .. =>
      ∃ n, cfg.verkey = .verkey (.sigkey n) ∧ cfg.sigkey = .sigkey n ∧
        Genuine cfg.keyid cfg.rverkey
  | .duplexServerNone cfg | .duplexServerConnectResponse cfg ..
  | .duplexServerExchangeResponse cfg .. | .duplexServerEstablished cfg .. =>
      ∃ n, cfg.verkey = .verkey (.sigkey n) ∧ cfg.sigkey = .sigkey n ∧ cfg.keyid = n
  | .simplexClientConnectRequest cfg | .simplexClientExchangeRequest cfg ..
  | .simplexClientEstablished cfg .. => Genuine cfg.keyid cfg.verkey
  | .simplexServerNone cfg | .simplexServerConnectResponse cfg ..
  | .simplexServerEstablished cfg .. =>
      ∃ n, cfg.verkey = .verkey (.sigkey n) ∧ cfg.sigkey = .sigkey n ∧ cfg.keyid = n

/-- **A session keeps its configuration.** -/
theorem Net.configured (h : Net.Reachable w) (hs : w.Reached i s) : s.Configured := by
  refine h.invariant (Q := fun _ s => s.Configured) (fun _ s out hopen => ?_)
    (fun i s m s' out hs hrec => ?_) hs
  · obtain ⟨hopen, -⟩ := hopen
    cases hopen with
    | duplexClient n keyid rverkey record => exact ⟨n, rfl, rfl, record⟩
    | duplexServer n keyQuery => exact ⟨n, rfl, rfl, rfl⟩
    | simplexClient keyid verkey record => exact record
    | simplexServer n => exact ⟨n, rfl, rfl, rfl⟩
  · cases receives_iff.2 hrec <;> exact hs

/-! ## What the attacker sees -/

/-- **What the hosts send may come to light**, as long as it is they who
sign. -/
theorem Net.exposed_sent (h : Net.Reachable w) : ∀ t ∈ terms w.sent, Exposed w.Signs t := by
  rintro t ⟨m, hm, ht⟩
  have hsigned : ∀ {k message : Term}, .signed k message ∈ m.parts → Exposed w.Signs message →
      Exposed w.Signs (.signed k message) := by
    intro k message hpart hmessage
    refine .signed hmessage ?_
    rintro n rfl
    exact ⟨m, hm, hpart⟩
  obtain ⟨i, s, -, ⟨hopen, hout⟩ | ⟨s₀, m₀, -, -, hrec⟩⟩ := h.sender hm
  · -- An opening message holds a key identity and the configuration.
    cases hopen <;> cases hout <;>
      simp only [Message.parts, List.mem_cons, List.not_mem_nil, or_false] at ht <;>
      obtain rfl | rfl := ht <;> exact .data _
  · cases receives_iff.2 hrec <;>
      simp only [Message.parts, List.mem_cons, List.not_mem_nil, or_false] at ht
    case duplexClientExchange =>
      obtain rfl | rfl | rfl := ht
      · exact .cipherText _ _
      · exact .pub _
      · exact hsigned (by simp [Message.parts]) (.hash _ _)
    case duplexServerConnect =>
      obtain rfl | rfl := ht
      · exact hsigned (by simp [Message.parts]) (.hash _ _)
      · exact .pub _
    case duplexServerExchange =>
      obtain rfl | rfl := ht
      · exact .cipherText _ _
      · exact hsigned (by simp [Message.parts]) (.hash _ _)
    case simplexClientExchange => exact ht ▸ .cipherText _ _
    case simplexServerConnect =>
      obtain rfl | rfl := ht
      · exact hsigned (by simp [Message.parts]) (.hash _ _)
      · exact .pub _

/-- So only what may come to light is ever derived. -/
theorem Net.exposed (h : Net.Reachable w) {t : Term} (ht : w.Derivable t) : Exposed w.Signs t :=
  Derives.exposed (Net.exposed_sent h) ht

/-! ## Runs

How a world is reached step by step, and a world in which every role is
established. -/

section

variable {s' : Session symbolic} {m : Message symbolic} {out : Option (Message symbolic)}

theorem Net.Reachable.opens (h : Net.Reachable w) (hs : Opens s) :
    Net.Reachable (w.opened s s.opening) := h.tail (.opens ⟨hs, rfl⟩)

theorem Net.Reachable.takes (h : Net.Reachable w) (running : w.slots[i]? = some (s, true))
    (hm : network.delivers w.sent m) (hrec : Receives (sessionDraws i) s m s' out) :
    Net.Reachable (w.stepped i s m s' out) :=
  h.tail (.takes running hm (receives_iff.1 hrec))

/-- The attacker passes on the message sent last. -/
theorem Net.Reachable.relays (h : Net.Reachable w) (running : w.slots[i]? = some (s, true))
    (hm : w.log.head?.bind LogEntry.sent = some m)
    (hrec : Receives (sessionDraws i) s m s' out) : Net.Reachable (w.stepped i s m s' out) := by
  refine h.takes running (fun t ht => .known ⟨m, ?_, ht⟩) hrec
  obtain ⟨e, he, hsent⟩ := Option.bind_eq_some_iff.1 hm
  exact ⟨e, List.mem_of_mem_head? he, hsent⟩

end

/-- Sessions of host 2 serve one of host 1 and one of no host. -/
theorem Net.exists_established :
    ∃ w, Net.Reachable w ∧
      w.At 0 (.duplexServerEstablished
        ⟨2, .verkey (.sigkey 2), .sigkey 2, fun _ => some (.verkey (.sigkey 1))⟩
        (.verkey (.sigkey 1)) (.pub (.draw 0 0)) (.priv (.draw 0 0))
        (.secret (.pub (.draw 0 0)) (.draw 1 1)) (.secret (.pub (.draw 1 0)) (.draw 0 1))) ∧
      w.At 1 (.duplexClientEstablished
        ⟨2, .verkey (.sigkey 1), .sigkey 1, .verkey (.sigkey 2)⟩
        (.secret (.pub (.draw 0 0)) (.draw 1 1)) (.pub (.draw 1 0)) (.priv (.draw 1 0))
        (.secret (.pub (.draw 1 0)) (.draw 0 1))) ∧
      w.At 3 (.simplexClientEstablished ⟨2, .verkey (.sigkey 2)⟩
        (.secret (.pub (.draw 2 0)) (.draw 3 1))) := by
  have hempty : Net.Reachable .empty := .refl
  have h := ((hempty.opens (.duplexServer 2 fun _ => some (.verkey (.sigkey 1)))).opens
    (.duplexClient 1 2 (.verkey (.sigkey 2)) (genuine_record 2))).relays (i := 0) rfl rfl
    (.duplexServerConnect rfl rfl)
  have h := h.relays (i := 1) rfl rfl (.duplexClientExchange symbolic_duplexVerify)
  have h := h.relays (i := 0) rfl rfl
    (.duplexServerExchange symbolic_duplexVerify symbolic_decapsulate)
  have h := h.relays (i := 1) rfl rfl
    (.duplexClientEstablish symbolic_duplexVerify symbolic_decapsulate)
  have h := h.relays (i := 0) rfl rfl .duplexServerEstablish
  have h := h.relays (i := 1) rfl rfl .duplexClientVerify
  have h := ((h.opens (.simplexServer 2)).opens
    (.simplexClient 2 (.verkey (.sigkey 2)) (genuine_record 2))).relays (i := 2) rfl rfl
    (.simplexServerConnect rfl rfl)
  have h := h.relays (i := 3) rfl rfl (.simplexClientExchange symbolic_simplexVerify)
  have h := h.relays (i := 2) rfl rfl (.simplexServerExchange symbolic_decapsulate)
  have h := h.relays (i := 3) rfl rfl .simplexClientVerify
  exact ⟨_, h, ⟨true, rfl⟩, ⟨true, rfl⟩, ⟨true, rfl⟩⟩

end Qsmp
