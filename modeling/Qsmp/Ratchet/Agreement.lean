import Qsmp.Common.Histories
import Qsmp.Ratchet.Letters
/-!
# One ratchet after another

Two duplex connections that mirror each other in both directions, with one
ratchet key between them, can send each other messages and be keyed anew by
a ratchet of either kind, whichever side starts it: `Paired` is what every
complete exchange keeps. The step lemma of each kind of exchange is
assembled from what its letters do to both ends and from `paired_ratchet`,
on the keys both take from one expansion.
-/

namespace Qsmp

variable {P : Params} {K : Primitives} {A : Asymmetric P}

/-! ## Pairs of connections -/

/-- **Paired connections**: duplex, mirroring each other in both
directions, with equal ratchet keys and opposite parts in the key
exchange. -/
structure Paired (X Y : QsmpConnectionState) : Prop where
  forth : Mirrored X Y
  back : Mirrored Y X
  rtcs : X.rtcs = Y.rtcs
  receiver : X.receiver = !Y.receiver
  duplexX : X.mode = .duplex
  duplexY : Y.mode = .duplex

/-- **A connection keyed anew**: the two ciphers and the ratchet key are
fresh, the counters may have moved on, and nothing else has changed. -/
def Rekeyed (K : Primitives) (cns cns' : QsmpConnectionState) (tx rx : RcsKeyparams)
    (rtcs : Octets duplexSymmetricKeySize) : Prop :=
  ∃ txseq rxseq, cns' = { cns with
    txcpr := qscRcsInitialize K tx true
    rxcpr := qscRcsInitialize K rx false
    rtcs, txseq, rxseq }

section Pairs

variable {X Y X' Y' : QsmpConnectionState} {l : Letter} {secret : Bytes}

theorem Paired.symm (h : Paired X Y) : Paired Y X where
  forth := h.back
  back := h.forth
  rtcs := h.rtcs.symm
  receiver := by rw [h.receiver, Bool.not_not]
  duplexX := h.duplexY
  duplexY := h.duplexX

/-- A letter passed on leaves the direction it went mirrored, -/
theorem Mirrored.pass (h : Mirrored X Y) :
    Mirrored (X.posted K l) (Y.opened K X.txcpr l) where
  establishedA := h.establishedA
  establishedB := h.establishedB
  ciphers := Letter.mirrors_next h.ciphers
  tagType := by
    have hctype : (l.next K X.txcpr).ctype = X.txcpr.ctype := Letter.next_ctype
    exact h.tagType.trans (h.ciphers.ctype.symm.trans hctype.symm)
  sequence := congrArg (· + 1) h.sequence

/-- and the other direction as it was. -/
theorem Mirrored.pass_back {tx : RcsState} (h : Mirrored Y X) :
    Mirrored (Y.opened K tx l) (X.posted K l) where
  establishedA := h.establishedA
  establishedB := h.establishedB
  ciphers := h.ciphers
  tagType := Letter.next_ctype.trans h.tagType
  sequence := h.sequence

theorem Paired.pass (h : Paired X Y) : Paired (X.posted K l) (Y.opened K X.txcpr l) where
  forth := h.forth.pass
  back := h.back.pass_back
  rtcs := h.rtcs
  receiver := h.receiver
  duplexX := h.duplexX
  duplexY := h.duplexY

/-- What keys the transmit cipher of a side, and what its receive cipher. -/
def ratchetTx (K : Primitives) (P : Params) (cns : QsmpConnectionState) (secret : Bytes) :
    RcsKeyparams :=
  if cns.receiver then (ratchetExpand K P cns secret).second duplexSymmetricKeySize
  else (ratchetExpand K P cns secret).first duplexSymmetricKeySize

def ratchetRx (K : Primitives) (P : Params) (cns : QsmpConnectionState) (secret : Bytes) :
    RcsKeyparams :=
  if cns.receiver then (ratchetExpand K P cns secret).first duplexSymmetricKeySize
  else (ratchetExpand K P cns secret).second duplexSymmetricKeySize

/-- The ratchet in one equation, whatever the part of the side. -/
theorem symmetricRatchet_eq {cns : QsmpConnectionState} :
    symmetricRatchet K P cns secret = { cns with
      txcpr := qscRcsInitialize K (ratchetTx K P cns secret) true
      rxcpr := qscRcsInitialize K (ratchetRx K P cns secret) false
      rtcs := (ratchetExpand K P cns secret).rtcs } := by
  cases h : cns.receiver <;> simp [symmetricRatchet, ratchetTx, ratchetRx, h]

/-- The keys are of the size that makes the cipher RCS-512. -/
theorem ratchetTx_ctype {cns : QsmpConnectionState} {encryption : Bool} :
    (qscRcsInitialize K (ratchetTx K P cns secret) encryption).ctype = .cipher512 := by
  have hlength : (ratchetTx K P cns secret).key.length = 64 := by
    rw [ratchetTx]
    split <;> exact Mem.length_read
  simp only [qscRcsInitialize, if_pos hlength]

/-- **The expansion is split alike**: one ratchet key and opposite parts
give each side's transmit keys to the other's receive cipher. -/
theorem ratchetTx_eq (hrtcs : X.rtcs = Y.rtcs) (hreceiver : X.receiver = !Y.receiver) :
    ratchetTx K P X secret = ratchetRx K P Y secret := by
  have hexpand : ratchetExpand K P X secret = ratchetExpand K P Y secret := by
    rw [ratchetExpand, ratchetExpand, hrtcs]
  rw [ratchetTx, ratchetRx, hexpand, hreceiver]
  cases Y.receiver <;> rfl

/-- **A ratchet with one secret on both sides** keeps a pair a pair, under
new keys that cross. -/
theorem Paired.ratchet (h : Paired X Y) (secret : Bytes) :
    Paired (symmetricRatchet K P X secret) (symmetricRatchet K P Y secret) ∧
      ∃ k₁ k₂ rtcs, Rekeyed K X (symmetricRatchet K P X secret) k₁ k₂ rtcs ∧
        Rekeyed K Y (symmetricRatchet K P Y secret) k₂ k₁ rtcs := by
  have hforth : ratchetTx K P X secret = ratchetRx K P Y secret := ratchetTx_eq h.rtcs h.receiver
  have hback : ratchetTx K P Y secret = ratchetRx K P X secret :=
    ratchetTx_eq h.symm.rtcs h.symm.receiver
  have hrtcs : (ratchetExpand K P X secret).rtcs = (ratchetExpand K P Y secret).rtcs := by
    rw [ratchetExpand, ratchetExpand, h.rtcs]
  constructor
  · rw [symmetricRatchet_eq, symmetricRatchet_eq, ← hforth, ← hback]
    exact {
      forth := ⟨h.forth.establishedA, h.forth.establishedB, .of_keyparams,
        ratchetTx_ctype.trans ratchetTx_ctype.symm, h.forth.sequence⟩
      back := ⟨h.back.establishedA, h.back.establishedB, .of_keyparams,
        ratchetTx_ctype.trans ratchetTx_ctype.symm, h.back.sequence⟩
      rtcs := hrtcs
      receiver := h.receiver
      duplexX := h.duplexX
      duplexY := h.duplexY }
  · refine ⟨ratchetTx K P X secret, ratchetTx K P Y secret, (ratchetExpand K P X secret).rtcs,
      ?_, ?_⟩
    · rw [hback]
      exact ⟨X.txseq, X.rxseq, symmetricRatchet_eq⟩
    · rw [hforth, hrtcs]
      exact ⟨Y.txseq, Y.rxseq, symmetricRatchet_eq⟩

/-- The letters passed before do not show once a side is keyed anew. -/
theorem Rekeyed.of_opened {cns cns' : QsmpConnectionState} {tx rx : RcsKeyparams} {ctx : RcsState}
    {rtcs : Octets duplexSymmetricKeySize} (h : Rekeyed K (cns.opened K ctx l) cns' tx rx rtcs) :
    Rekeyed K cns cns' tx rx rtcs := h

theorem Rekeyed.of_posted {cns cns' : QsmpConnectionState} {tx rx : RcsKeyparams}
    {rtcs : Octets duplexSymmetricKeySize} (h : Rekeyed K (cns.posted K l) cns' tx rx rtcs) :
    Rekeyed K cns cns' tx rx rtcs := h

end Pairs

/-! ## Complete exchanges -/

/-- One end: its connection and the variables of its process. -/
structure RatchetPeer (P : Params) where
  cns : QsmpConnectionState
  keys : RatchetKeys P

/-- Both ends, the one that starts the next exchange first. -/
structure RatchetPeers (P : Params) where
  starter : RatchetPeer P
  answerer : RatchetPeer P

/-- What one side starts: a message, a symmetric ratchet with a token, or
an asymmetric ratchet, with the seeds of its key pair, its encapsulation
and its two signatures. -/
inductive Exchange (A : Asymmetric P) where
  | message (m : Bytes)
  | symmetric (rkey : Octets rtokSize)
  | asymmetric (keypair sign encap sign' : A.Seed)

/-- The memory the two sides bring along for one exchange, with whatever it
holds. -/
structure Scratch where
  packetout : QsmpPacket
  stream : Mem
  message : Mem
  stack : Mem
  buffAnswerer : Mem
  buffStarter : Mem

/-- What an exchange comes to: whether every call has succeeded, the
message received, and both ends. -/
structure Exchanged (P : Params) where
  ok : Bool
  received : Bytes
  peers : RatchetPeers P

namespace RatchetPeers

variable (K : Primitives) (A : Asymmetric P) (s : RatchetPeers P) (scratch : Scratch)

/-- A message is encrypted, sent, and decrypted. -/
def passMessage (m : Bytes) : Exchanged P :=
  let sent := sendMessage P K scratch.packetout scratch.stream s.starter.cns m
  let got := qsmpDecryptPacket K s.answerer.cns scratch.message
    (delivered scratch.buffAnswerer sent.2.2)
  ⟨decide (sent.1 = .none ∧ got.1 = .none), got.2.2.1.read 0 got.2.2.2,
    ⟨{ s.starter with cns := sent.2.1 }, { s.answerer with cns := got.2.1 }⟩⟩

/-- A symmetric ratchet: the request, sent in full, and its handling. -/
def ratchetSymmetric (rkey : Octets rtokSize) : Exchanged P :=
  let sent := qsmpDuplexSendSymmetricRatchetRequest K (some rkey)
    (headerSize + rtokSize + duplexMactagSize.toNat + socketTerminatorSize)
    s.starter.keys s.starter.cns
  let got := symmetricRatchetResponse K s.answerer.keys s.answerer.cns
    (delivered scratch.buffAnswerer (sent.out.getD []))
  ⟨sent.res && got.res, [], ⟨⟨sent.cns, sent.keys⟩, ⟨got.cns, got.keys⟩⟩⟩

/-- An asymmetric ratchet: the request and the response, both sent in full,
and the end of it. -/
def ratchetAsymmetric (keypair sign encap sign' : A.Seed) : Exchanged P :=
  let signed := signed256 K A (A.generateKeypair keypair).1.val s.starter.keys.sigkey sign
  let sent := qsmpDuplexSendAsymmetricRatchetRequest K A keypair sign
    (headerSize + signed.length + P.publicKeySize + duplexMactagSize.toNat + socketTerminatorSize)
    s.starter.keys s.starter.cns
  let cpt := (A.encapsulate (A.generateKeypair keypair).1 encap).2
  let signed' := signed256 K A cpt.val s.answerer.keys.sigkey sign'
  let got := asymmetricRatchetResponse K A encap sign'
    (headerSize + signed'.length + P.cipherTextSize + duplexMactagSize.toNat
      + socketTerminatorSize)
    scratch.stack s.answerer.keys s.answerer.cns
    (delivered scratch.buffAnswerer (sent.out.getD []))
  let done := asymmetricRatchetFinalize K A sent.keys sent.cns
    (delivered scratch.buffStarter (got.out.getD []))
  ⟨sent.res && got.res && done.res, [], ⟨⟨done.cns, done.keys⟩, ⟨got.cns, got.keys⟩⟩⟩

/-- A complete exchange, with nothing else in flight. -/
def exchange : Exchange A → Exchanged P
  | .message m => s.passMessage K scratch m
  | .symmetric rkey => s.ratchetSymmetric K scratch rkey
  | .asymmetric keypair sign encap sign' => s.ratchetAsymmetric K A scratch keypair sign encap sign'

end RatchetPeers

/-- A signature scheme that is correct for a key pair: what is signed
verifies, and gives the message back. -/
def Asymmetric.Signs (A : Asymmetric P) (sigkey : Octets P.signingKeySize)
    (verkey : Octets P.verifyKeySize) : Prop :=
  ∀ message seed, A.verify (A.sign message sigkey seed) verkey = some message

/-- **Agreed ends**: paired connections, each side with its own signing key
and the verification key of the other. -/
structure RatchetPeers.Agreed (A : Asymmetric P) (s : RatchetPeers P) : Prop where
  paired : Paired s.starter.cns s.answerer.cns
  forth : A.Signs s.starter.keys.sigkey s.answerer.keys.verkey
  back : A.Signs s.answerer.keys.sigkey s.starter.keys.verkey

namespace Exchange

/-- What the channel takes: a message is not empty, and fits a packet with
its tag. -/
def Fits (s : RatchetPeers P) : Exchange A → Prop
  | message m => m ≠ [] ∧ m.length + s.starter.cns.txcpr.ctype.macSize ≤ P.messageMax
  | _ => True

/-- **The signed hashes have the size the ratchet messages count for them**,
that of the request and that of the response. -/
def FullSize (K : Primitives) (s : RatchetPeers P) : Exchange A → Prop
  | asymmetric keypair sign encap sign' =>
    (signed256 K A (A.generateKeypair keypair).1.val s.starter.keys.sigkey sign).length
        = P.ratchetSignedSize ∧
      (signed256 K A (A.encapsulate (A.generateKeypair keypair).1 encap).2.val
        s.answerer.keys.sigkey sign').length = P.ratchetSignedSize
  | _ => True

/-- What the answering side gets to read. -/
def content : Exchange A → Bytes
  | message m => m
  | _ => []

/-- **The exchange works**: every call succeeds, a message arrives as it was
sent, a ratchet keys both sides anew under keys that cross, and the ends
agree again. -/
def Works (K : Primitives) (s : RatchetPeers P) (e : Exchange A) (r : Exchanged P) : Prop :=
  r.ok = true ∧ r.received = e.content ∧ r.peers.Agreed A ∧
    match e with
    | message _ => True
    | _ => ∃ k₁ k₂ rtcs, Rekeyed K s.starter.cns r.peers.starter.cns k₁ k₂ rtcs ∧
        Rekeyed K s.answerer.cns r.peers.answerer.cns k₂ k₁ rtcs

end Exchange

section Exchanges

variable {s : RatchetPeers P} {scratch : Scratch}

theorem passMessage_works (h : s.Agreed A) {m : Bytes}
    (hfits : (Exchange.message (A := A) m).Fits s) :
    (Exchange.message (A := A) m).Works K s (s.passMessage K scratch m) := by
  obtain ⟨hm, hfit⟩ := hfits
  obtain ⟨hcode, hcns, hon⟩ := sendMessage_posts (K := K) h.paired.forth.establishedA
    h.paired.forth.ciphers.encrypts hm hfit scratch.packetout scratch.stream
  have hopen := qsmpDecryptPacket_opens hon h.paired.forth.establishedB h.paired.forth.ciphers
    (congrArg (· + 1) h.paired.forth.sequence) ?_ ?_ scratch.buffAnswerer scratch.message
  · simp only [RatchetPeers.passMessage, hopen, hcode, hcns]
    exact ⟨rfl, Mem.read_write_self, ⟨h.paired.pass, h.forth, h.back⟩, trivial⟩
  · rw [messageLetter, QsmpConnectionState.maclen, QsmpConnectionState.maclen,
      h.paired.forth.tagType, h.paired.forth.ciphers.ctype]
  · have hmax := P.messageMax_lt
    have hplain : (messageLetter s.starter.cns m).plain = m := rfl
    rw [hplain]
    omega

theorem ratchetSymmetric_works (hmax : rtokSize + duplexMactagSize.toNat ≤ P.messageMax)
    (h : s.Agreed A) (rkey : Octets rtokSize) :
    (Exchange.symmetric (A := A) rkey).Works K s (s.ratchetSymmetric K scratch rkey) := by
  obtain ⟨out, hsent, hon⟩ := sendSymmetricRatchetRequest_posts (K := K) s.starter.keys
    h.paired.duplexX h.paired.forth.ciphers.encrypts hmax rkey rfl
  have hopen := symmetricRatchetResponse_opens s.answerer.keys hon
    h.paired.forth.ciphers (congrArg (· + 1) h.paired.forth.sequence) rfl rfl
    scratch.buffAnswerer
  obtain ⟨hpaired, k₁, k₂, rtcs, hX, hY⟩ := Paired.ratchet (K := K) (P := P)
    (h.paired.pass (K := K) (l := tokenLetter s.starter.cns rkey)) rkey.val
  simp only [RatchetPeers.ratchetSymmetric, hsent, Option.getD_some, hopen]
  exact ⟨rfl, rfl, ⟨hpaired, h.forth, h.back⟩, k₁, k₂, rtcs, hX.of_posted, hY.of_opened⟩

theorem ratchetAsymmetric_works (hkem : A.KemCorrect) (h : s.Agreed A)
    {keypair sign encap sign' : A.Seed}
    (hsize : (Exchange.asymmetric keypair sign encap sign').FullSize K s) :
    (Exchange.asymmetric keypair sign encap sign').Works K s
      (s.ratchetAsymmetric K A scratch keypair sign encap sign') := by
  obtain ⟨hsigned, hsigned'⟩ := hsize
  have hslen : headerSize + (signed256 K A (A.generateKeypair keypair).1.val
      s.starter.keys.sigkey sign).length + P.publicKeySize + duplexMactagSize.toNat
      + socketTerminatorSize
      = headerSize + P.ratchetRequestMessageSize + socketTerminatorSize := by
    rw [hsigned, Params.ratchetRequestMessageSize, Params.ratchetSignedSize]
    omega
  have hslen' : headerSize + (signed256 K A
      (A.encapsulate (A.generateKeypair keypair).1 encap).2.val
      s.answerer.keys.sigkey sign').length + P.cipherTextSize + duplexMactagSize.toNat
      + socketTerminatorSize
      = headerSize + P.ratchetResponseMessageSize + socketTerminatorSize := by
    rw [hsigned', Params.ratchetResponseMessageSize, Params.ratchetSignedSize]
    omega
  obtain ⟨out, hsent, hon⟩ := sendAsymmetricRatchetRequest_posts (K := K) s.starter.keys
    h.paired.duplexX h.paired.forth.ciphers.encrypts keypair sign hsigned
    hslen
  obtain ⟨out', hgot, hon'⟩ := asymmetricRatchetResponse_opens s.answerer.keys hon
    h.paired.forth.ciphers (congrArg (· + 1) h.paired.forth.sequence) rfl rfl hsigned
    (h.forth _ _) h.paired.back.ciphers.encrypts encap sign' hsigned' hslen' scratch.stack
    scratch.buffAnswerer
  -- The response meets a side that has sent its request but is not keyed anew yet.
  have hpass := h.paired.pass (K := K)
    (l := requestLetter K A s.starter.keys.sigkey (A.generateKeypair keypair).1 sign s.starter.cns)
  have hdone := asymmetricRatchetFinalize_opens { s.starter.keys with
    pubkey := (A.generateKeypair keypair).1, prikey := (A.generateKeypair keypair).2 } hon'
    hpass.back.ciphers (congrArg (· + 1) hpass.back.sequence) rfl rfl hsigned' (h.back _ _)
    (hkem keypair encap) scratch.buffStarter
  obtain ⟨hpaired, k₁, k₂, rtcs, hX, hY⟩ := Paired.ratchet (K := K) (P := P)
    (hpass.symm.pass (K := K) (l := responseLetter K A s.answerer.keys.sigkey
      (A.encapsulate (A.generateKeypair keypair).1 encap).2 sign' s.answerer.cns)).symm
    (A.encapsulate (A.generateKeypair keypair).1 encap).1.val
  simp only [RatchetPeers.ratchetAsymmetric, hsent, Option.getD_some, hgot, hdone]
  exact ⟨rfl, rfl, ⟨hpaired, h.forth, h.back⟩, k₁, k₂, rtcs, hX.of_opened.of_posted,
    hY.of_posted.of_opened⟩

/-- **A signed hash one byte short** makes the answering side verify the
first byte of the public key along with it. Where that does not verify, the
ratchet fails. -/
theorem ratchetAsymmetric_short (h : s.Agreed A) {keypair sign : A.Seed} {signed : Bytes}
    (hsigned : signed256 K A (A.generateKeypair keypair).1.val s.starter.keys.sigkey sign = signed)
    (hshort : signed.length + 1 = P.ratchetSignedSize) (hpos : 0 < P.publicKeySize)
    (hverify : A.verify (signed ++ (A.generateKeypair keypair).1.val.take 1)
      s.answerer.keys.verkey = none) (encap sign' : A.Seed) :
    (s.ratchetAsymmetric K A scratch keypair sign encap sign').ok = false := by
  have htag := macSize_le_duplexMactagSize s.starter.cns.txcpr.ctype
  obtain ⟨l, hl⟩ : ∃ l : Letter, l = ⟨.asymmetricRatchetRequest, s.starter.cns.txseq + 1,
    (Mem.zero.write 0 (signed ++ (A.generateKeypair keypair).1.val)).read 0
      (P.ratchetSignedSize + P.publicKeySize), duplexMactagSize⟩ := ⟨_, rfl⟩
  obtain ⟨out, hsent, hon⟩ := sendAsymmetricRatchetRequest_seals s.starter.keys
    h.paired.duplexX h.paired.forth.ciphers.encrypts keypair sign hsigned hl
    (by simp only [socketTerminatorSize]; omega) rfl
  have hfirst : l.plain.take P.ratchetSignedSize
      = signed ++ (A.generateKeypair keypair).1.val.take 1 := by
    have hlength : (signed ++ (A.generateKeypair keypair).1.val).length
        = signed.length + P.publicKeySize := by
      rw [List.length_append, (A.generateKeypair keypair).1.property]
    rw [hl, Mem.read_add, List.take_left' Mem.length_read, Mem.read_write_start (by omega),
      ← hshort, List.take_length_add_append]
  have hgot : ∀ slen, (asymmetricRatchetResponse K A encap sign' slen scratch.stack
      s.answerer.keys s.answerer.cns (delivered scratch.buffAnswerer out)).res = false := by
    intro slen
    refine asymmetricRatchetResponse_unverified s.answerer.keys hon h.paired.forth.ciphers ?_ ?_ ?_
      (by rw [hfirst]; exact hverify) encap sign' _ _
    · rw [hl]
      exact congrArg (· + 1) h.paired.forth.sequence
    · rw [hl, Mem.length_read]
    · rw [hl]
  rw [← hsigned] at hsent
  simp only [RatchetPeers.ratchetAsymmetric, hsent, Option.getD_some, hgot, Bool.and_false,
    Bool.false_and]

end Exchanges

/-! ## Runs of exchanges -/

/-- The same ends, with the other one to start. -/
def RatchetPeers.turned (s : RatchetPeers P) : Bool → RatchetPeers P
  | false => s
  | true => ⟨s.answerer, s.starter⟩

/-- A turn: whether the side that answered the last exchange starts this
one, the exchange, and the memory. -/
structure RatchetTurn (A : Asymmetric P) where
  turned : Bool
  exchange : Exchange A
  scratch : Scratch

namespace RatchetTurn

/-- The ends as the turn finds them. -/
def ends (s : RatchetPeers P) (t : RatchetTurn A) : RatchetPeers P := s.turned t.turned

/-- What the turn comes to. -/
def outcome (K : Primitives) (s : RatchetPeers P) (t : RatchetTurn A) : Exchanged P :=
  (t.ends s).exchange K A t.scratch t.exchange

/-- Every turn can be taken. -/
def step (K : Primitives) (s : RatchetPeers P) (t : RatchetTurn A) : Option (RatchetPeers P) :=
  some (t.outcome K s).peers

end RatchetTurn

/-- **Sequential ratchet agreement** of a signature scheme and a KEM: over
every run of messages and complete ratchets between ends that agree, each
started by either side, every exchange works. -/
def SequentialAgreement (P : Params) (K : Primitives) (A : Asymmetric P) : Prop :=
  A.KemCorrect → ∀ (s : RatchetPeers P) (turns : List (RatchetTurn A)), s.Agreed A →
    Along (RatchetTurn.step K) (fun s t _ => t.exchange.Fits (t.ends s)) s turns →
    Along (RatchetTurn.step K) (fun s t _ => t.exchange.Works K (t.ends s) (t.outcome K s)) s turns

section Runs

variable {s : RatchetPeers P}

theorem RatchetPeers.Agreed.turned (h : s.Agreed A) : ∀ b, (s.turned b).Agreed A
  | false => h
  | true => ⟨h.paired.symm, h.back, h.forth⟩

/-- **The step.** An exchange between ends that agree works, if what it
signs has its full size. -/
theorem exchange_works (hkem : A.KemCorrect)
    (hmax : rtokSize + duplexMactagSize.toNat ≤ P.messageMax) (h : s.Agreed A) {e : Exchange A}
    (hfits : e.Fits s) (hsize : e.FullSize K s) (scratch : Scratch) :
    e.Works K s (s.exchange K A scratch e) := by
  cases e with
  | message m => exact passMessage_works h hfits
  | symmetric rkey => exact ratchetSymmetric_works hmax h rkey
  | asymmetric keypair sign encap sign' => exact ratchetAsymmetric_works hkem h hsize

/-- **Ratchets agree**, one after another, as long as the signed hashes of
the asymmetric ones have the size their messages count for them. -/
theorem ratchets_agree (hkem : A.KemCorrect)
    (hmax : rtokSize + duplexMactagSize.toNat ≤ P.messageMax) (s : RatchetPeers P)
    (turns : List (RatchetTurn A)) (h : s.Agreed A)
    (hfits : Along (RatchetTurn.step K) (fun s t _ => t.exchange.Fits (t.ends s)) s turns)
    (hsize : Along (RatchetTurn.step K) (fun s t _ => t.exchange.FullSize K (t.ends s)) s turns) :
    Along (RatchetTurn.step K) (fun s t _ => t.exchange.Works K (t.ends s) (t.outcome K s))
      s turns := by
  refine Along.of_invariant (I := fun s => s.Agreed A) (fun s t s' hs hstep hR => ?_) h
    (along_and.2 ⟨hfits, hsize⟩)
  have hworks : t.exchange.Works K (t.ends s) (t.outcome K s) :=
    exchange_works hkem hmax (hs.turned t.turned) hR.1 hR.2 t.scratch
  obtain rfl := Option.some.inj hstep
  exact ⟨hworks.2.2.1, hworks⟩

end Runs

/-! ## Concrete ends -/

/-- An end that signs with the byte `own` and verifies with the byte `peer`,
on a fresh RCS-512 connection. -/
def RatchetPeer.plain (P : Params) (receiver : Bool) (own peer : UInt8) : RatchetPeer P where
  cns := { QsmpConnectionState.ofKeys .plain ⟨List.replicate 64 own, Octets.zero _, []⟩
    ⟨List.replicate 64 peer, Octets.zero _, []⟩ 3 with receiver }
  keys := ⟨Octets.zero _, Octets.zero _, .repeated _ own, .repeated _ peer⟩

def RatchetPeers.plain (P : Params) : RatchetPeers P :=
  ⟨.plain P false 1 2, .plain P true 2 1⟩

theorem RatchetPeers.paired_plain :
    Paired (RatchetPeers.plain P).starter.cns (RatchetPeers.plain P).answerer.cns where
  forth := ⟨rfl, rfl, .of_keyparams, rfl, rfl⟩
  back := ⟨rfl, rfl, .of_keyparams, rfl, rfl⟩
  rtcs := rfl
  receiver := rfl
  duplexX := rfl
  duplexY := rfl

/-- Cleared memory. -/
def Scratch.clear : Scratch := ⟨.init, .zero, .zero, .zero, .zero, .zero⟩

/-- What the scheme that repeats one byte signs has its full size. -/
theorem Asymmetric.length_plain {m : Bytes} {sigkey : Octets P.signingKeySize}
    {seed : (Asymmetric.plain P).Seed} :
    (signed256 K (Asymmetric.plain P) m sigkey seed).length = P.ratchetSignedSize := by
  simp only [signed256, Asymmetric.plain, List.length_append, List.length_replicate,
    (qscSha3Compute256 K.permute m).property]
  rfl

/-- An asymmetric ratchet of one side, a symmetric one of the other, and a
message under the keys these leave. -/
theorem ratchets_agree_plain : Along (RatchetTurn.step .plain)
    (fun s t _ => t.exchange.Works .plain (t.ends s) (t.outcome .plain s))
    (RatchetPeers.plain .dilithiumKyber)
    [⟨false, .asymmetric (A := Asymmetric.plain _) (1 : UInt8) (2 : UInt8) (3 : UInt8) (4 : UInt8),
        .clear⟩,
      ⟨true, .symmetric (Octets.zero _), .clear⟩, ⟨false, .message [7], .clear⟩] := by
  refine ratchets_agree (Asymmetric.plain_kemCorrect (by decide)) (by decide) _ _
    ⟨RatchetPeers.paired_plain, fun m seed => ?_, fun m seed => ?_⟩ ?_ ?_
  · exact (Asymmetric.plain_signsFor (by decide) (by decide) m seed).1
  · exact (Asymmetric.plain_signsFor (by decide) (by decide) m seed).1
  · refine fun _ _ => ⟨trivial, fun _ _ => ⟨trivial, fun _ _ => ⟨⟨?_, ?_⟩, trivial⟩⟩⟩
    · exact List.cons_ne_nil _ _
    exact Nat.le_trans (Nat.add_le_add_left (macSize_le_duplexMactagSize _) 1) (by decide)
  · exact fun _ _ => ⟨⟨Asymmetric.length_plain, Asymmetric.length_plain⟩,
      fun _ _ => ⟨trivial, fun _ _ => ⟨trivial, trivial⟩⟩⟩

/-! ## Signatures of varying size -/

/-- A scheme with the framing of Falcon: two bytes count the signature that
stands behind the message, and what is between them is the message. Its
signatures are a byte shorter than the largest. -/
def Asymmetric.framed (P : Params) : Asymmetric P where
  Seed := UInt8
  generateKeypair s := (.repeated _ s, .repeated _ s)
  encapsulate _ s := (.repeated _ s, .repeated _ s)
  decapsulate cpt _ := some (.repeated _ (cpt.val.headD 0))
  sign message sigkey _ :=
    [UInt8.ofNat ((P.signatureSize - 3) / 256), UInt8.ofNat (P.signatureSize - 3)]
      ++ (message ++ List.replicate (P.signatureSize - 3) (sigkey.val.headD 0))
  verify signed verkey :=
    let siglen := (signed.headD 0).toNat * 256 + ((signed.drop 1).headD 0).toNat
    let rest := signed.drop 2
    if siglen ≤ rest.length ∧
        rest.drop (rest.length - siglen) = List.replicate siglen (verkey.val.headD 0) then
      some (rest.take (rest.length - siglen))
    else none

section Framed

variable {b c : UInt8} {m : Bytes}

/-- The two bytes count the signature. -/
theorem framed_count (h : P.signatureSize < 2 ^ 16) :
    (UInt8.ofNat ((P.signatureSize - 3) / 256)).toNat * 256
      + (UInt8.ofNat (P.signatureSize - 3)).toNat = P.signatureSize - 3 := by
  rw [UInt8.toNat_ofNat', UInt8.toNat_ofNat']
  omega

/-- What the scheme signs, and what it makes of a text of its framing. -/
theorem framed_sign (hs : 0 < P.signingKeySize) {seed : UInt8} :
    (Asymmetric.framed P).sign m (.repeated _ b) seed =
      [UInt8.ofNat ((P.signatureSize - 3) / 256), UInt8.ofNat (P.signatureSize - 3)]
        ++ (m ++ List.replicate (P.signatureSize - 3) b) :=
  congrArg (fun c => [UInt8.ofNat ((P.signatureSize - 3) / 256), UInt8.ofNat (P.signatureSize - 3)]
    ++ (m ++ List.replicate (P.signatureSize - 3) c)) (headD_repeated hs)

/-- Its signed hashes fall one byte short. -/
theorem framed_short (h : 3 ≤ P.signatureSize) {sigkey : Octets P.signingKeySize}
    {seed : (Asymmetric.framed P).Seed} :
    (signed256 K (Asymmetric.framed P) m sigkey seed).length + 1 = P.ratchetSignedSize := by
  simp only [signed256, Asymmetric.framed, List.length_append, List.length_replicate,
    (qscSha3Compute256 K.permute m).property, List.length_cons, List.length_nil,
    Params.ratchetSignedSize, simplexHashSize]
  omega

theorem framed_verify (h : P.signatureSize < 2 ^ 16) (hv : 0 < P.verifyKeySize) {rest : Bytes} :
    (Asymmetric.framed P).verify
      ([UInt8.ofNat ((P.signatureSize - 3) / 256), UInt8.ofNat (P.signatureSize - 3)] ++ rest)
      (.repeated _ b) =
      if P.signatureSize - 3 ≤ rest.length ∧ rest.drop (rest.length - (P.signatureSize - 3))
          = List.replicate (P.signatureSize - 3) b then
        some (rest.take (rest.length - (P.signatureSize - 3)))
      else none := by
  have hcount := framed_count h
  simp only [Asymmetric.framed, headD_repeated hv, List.cons_append, List.nil_append,
    List.headD_cons, List.drop_succ_cons, List.drop_zero, hcount]

/-- The scheme is correct. -/
theorem framed_signs (h : P.signatureSize < 2 ^ 16) (hs : 0 < P.signingKeySize)
    (hv : 0 < P.verifyKeySize) : (Asymmetric.framed P).Signs (.repeated _ b) (.repeated _ b) := by
  intro message (seed : UInt8)
  have hlength : (message ++ List.replicate (P.signatureSize - 3) b).length
      = message.length + (P.signatureSize - 3) := by
    rw [List.length_append, List.length_replicate]
  rw [framed_sign hs, framed_verify h hv, hlength, Nat.add_sub_cancel, List.drop_left,
    List.take_left, if_pos ⟨Nat.le_add_left _ _, rfl⟩]

/-- A byte behind the signature spoils it. -/
theorem framed_verify_behind (h : P.signatureSize < 2 ^ 16) (hlarge : 3 < P.signatureSize)
    (hs : 0 < P.signingKeySize) (hv : 0 < P.verifyKeySize) (hne : c ≠ b) {seed : UInt8} :
    (Asymmetric.framed P).verify ((Asymmetric.framed P).sign m (.repeated _ b) seed ++ [c])
      (.repeated _ b) = none := by
  rw [framed_sign hs, List.append_assoc, framed_verify h hv, if_neg]
  rintro ⟨hle, hdrop⟩
  -- The last byte of what is taken for the signature is the one behind it.
  have hmem : c ∈ List.replicate (P.signatureSize - 3) b := by
    rw [← hdrop, List.drop_append_of_le_length (by simp; omega)]
    exact List.mem_append_right _ (List.mem_singleton_self c)
  exact hne (List.eq_of_mem_replicate hmem)

/-- So no asymmetric ratchet succeeds with it. -/
theorem ratchetAsymmetric_framed (h : P.signatureSize < 2 ^ 16) (hlarge : 3 < P.signatureSize)
    (hs : 0 < P.signingKeySize) (hv : 0 < P.verifyKeySize) (hpos : 0 < P.publicKeySize)
    {s : RatchetPeers P} (hagreed : s.Agreed (Asymmetric.framed P))
    (hown : s.starter.keys.sigkey = .repeated _ b) (hpeer : s.answerer.keys.verkey = .repeated _ b)
    (hne : c ≠ b) (scratch : Scratch) (sign encap sign' : UInt8) :
    (s.ratchetAsymmetric K (Asymmetric.framed P) scratch c sign encap sign').ok = false := by
  have hfirst : ((Asymmetric.framed P).generateKeypair c).1.val.take 1 = [c] := by
    have htake : (List.replicate P.publicKeySize c).take 1 = [c] := by
      rw [List.take_replicate, Nat.min_eq_left hpos, List.replicate_one]
    exact htake
  refine ratchetAsymmetric_short hagreed rfl (framed_short (Nat.le_of_lt hlarge)) hpos ?_ encap
    sign'
  rw [hfirst, hpeer, hown]
  exact framed_verify_behind h hlarge hs hv hne

end Framed

/-- **In a Falcon build an asymmetric ratchet fails** between ends that
agree: the signed hash of the request is a byte short, and the answering
side takes the first byte of the public key for the end of it. -/
theorem not_sequentialAgreement_framed :
    ¬ SequentialAgreement .falconKyber .plain (Asymmetric.framed .falconKyber) := by
  intro hagreement
  have hagreed : (RatchetPeers.plain .falconKyber).Agreed (Asymmetric.framed .falconKyber) :=
    ⟨RatchetPeers.paired_plain, framed_signs (by decide) (by decide) (by decide),
      framed_signs (by decide) (by decide) (by decide)⟩
  have hkem : (Asymmetric.framed .falconKyber).KemCorrect :=
    Asymmetric.plain_kemCorrect (P := .falconKyber) (by decide)
  have hworks := (hagreement hkem (RatchetPeers.plain .falconKyber)
    [⟨false, .asymmetric (0 : UInt8) (0 : UInt8) (0 : UInt8) (0 : UInt8), .clear⟩] hagreed
    (fun _ _ => ⟨trivial, trivial⟩) _ rfl).1.1
  have hfails := ratchetAsymmetric_framed (K := .plain) (by decide) (by decide) (by decide)
    (by decide) (by decide) hagreed rfl rfl (by decide : (0 : UInt8) ≠ 1) .clear 0 0 0
  exact absurd (hworks.symm.trans hfails) (by decide)

end Qsmp
