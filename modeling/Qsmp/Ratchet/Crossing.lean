import Qsmp.Ratchet.Agreement
/-!
# Ratchets and traffic that crosses

Two paired connections joined by two channels that lose and reorder
nothing, and every order of sends and receives. A ratchet keys both
directions of a side at once, and nothing in the code waits for the packets
of the other direction: a message that meets a token on its way does not
open any more. What the code relies on is the order `Clear` states, and
under it every packet opens. The invariant reads each channel to its end:
the states the two sides will have then are paired.
-/

namespace Qsmp

variable {P : Params} {K : Primitives} {A : Asymmetric P}

/-! ## The two channels -/

/-- What a packet in flight was made of. The receiving side does not see
it. -/
inductive Content (A : Asymmetric P) where
  | message (m : Bytes)
  | token (rkey : Octets rtokSize)
  | request (keypair : A.Seed)
  | response

/-- A packet in flight. -/
structure Parcel (A : Asymmetric P) where
  bytes : Bytes
  content : Content A

/-- One side, and the packets on their way to it, the oldest first. -/
structure CrossingEnd (A : Asymmetric P) where
  peer : RatchetPeer P
  inbox : List (Parcel A)

/-- Both sides, the one that moves next first. -/
structure Crossing (A : Asymmetric P) where
  near : CrossingEnd A
  far : CrossingEnd A

/-- What a side may do: send a message, a token or the request of an
asymmetric ratchet, or take the next packet, with the seeds it answers a
request with. -/
inductive Move (A : Asymmetric P) where
  | send (m : Bytes)
  | sendToken (rkey : Octets rtokSize)
  | sendRequest (keypair sign : A.Seed)
  | take (encap sign' : A.Seed)

/-- What a side makes of a packet: whether the packet is authentic and its
handler succeeds, the message it carried, the side after it, and the
answer. -/
structure Receipt (P : Params) where
  ok : Bool
  message : Bytes
  peer : RatchetPeer P
  answer : Option Bytes

variable (K A)

/-- The packet is delivered to the handler of its flag. -/
def RatchetPeer.receive (peer : RatchetPeer P) (scratch : Scratch) (encap sign' : A.Seed)
    (bytes : Bytes) : Receipt P :=
  let packetin := delivered scratch.buffAnswerer bytes
  if packetin.flag = QsmpFlags.encryptedMessage.toByte then
    let got := qsmpDecryptPacket K peer.cns scratch.message packetin
    ⟨decide (got.1 = .none), got.2.2.1.read 0 got.2.2.2, { peer with cns := got.2.1 }, none⟩
  else if packetin.flag = QsmpFlags.symmetricRatchetRequest.toByte then
    let got := symmetricRatchetResponse K peer.keys peer.cns packetin
    ⟨got.res, [], ⟨got.cns, got.keys⟩, got.out⟩
  else if packetin.flag = QsmpFlags.asymmetricRatchetRequest.toByte then
    let got := asymmetricRatchetResponse K A encap sign'
      (headerSize + P.ratchetResponseMessageSize + socketTerminatorSize) scratch.stack peer.keys
      peer.cns packetin
    ⟨got.res, [], ⟨got.cns, got.keys⟩, got.out⟩
  else if packetin.flag = QsmpFlags.asymmetricRatchetResponse.toByte then
    let got := asymmetricRatchetFinalize K A peer.keys peer.cns packetin
    ⟨got.res, [], ⟨got.cns, got.keys⟩, got.out⟩
  else ⟨false, [], peer, none⟩

variable {A}

namespace Crossing

/-- A side has sent a packet, or nothing. -/
def posts (s : Crossing A) (peer : RatchetPeer P) (out : Option Bytes) (content : Content A) :
    Crossing A :=
  ⟨{ s.near with peer }, { s.far with
    inbox := s.far.inbox ++ (out.map fun bytes => ⟨bytes, content⟩).toList }⟩

/-- One move of the near side; only an empty channel refuses it. The socket
takes what is sent in full. -/
def move (s : Crossing A) (scratch : Scratch) : Move A → Option (Crossing A)
  | .send m =>
    let sent := sendMessage P K scratch.packetout scratch.stream s.near.peer.cns m
    some (s.posts { s.near.peer with cns := sent.2.1 }
      (if sent.1 = .none then some sent.2.2 else none) (.message m))
  | .sendToken rkey =>
    let sent := qsmpDuplexSendSymmetricRatchetRequest K (some rkey)
      (headerSize + rtokSize + duplexMactagSize.toNat + socketTerminatorSize)
      s.near.peer.keys s.near.peer.cns
    some (s.posts ⟨sent.cns, sent.keys⟩ sent.out (.token rkey))
  | .sendRequest keypair sign =>
    let sent := qsmpDuplexSendAsymmetricRatchetRequest K A keypair sign
      (headerSize + P.ratchetRequestMessageSize + socketTerminatorSize)
      s.near.peer.keys s.near.peer.cns
    some (s.posts ⟨sent.cns, sent.keys⟩ sent.out (.request keypair))
  | .take encap sign' =>
    match s.near.inbox with
    | [] => none
    | p :: rest =>
      let got := s.near.peer.receive K A scratch encap sign' p.bytes
      some (posts ⟨⟨s.near.peer, rest⟩, s.far⟩ got.peer got.answer .response)

/-- The same state, with the other side to move. -/
def turned (s : Crossing A) : Bool → Crossing A
  | false => s
  | true => ⟨s.far, s.near⟩

/-- Nothing is in flight. -/
def Quiet (s : Crossing A) : Prop := s.near.inbox = [] ∧ s.far.inbox = []

end Crossing

/-- An atomic step: whether it is the other side that moves now, the move,
and the memory. -/
structure Act (A : Asymmetric P) where
  turned : Bool
  move : Move A
  scratch : Scratch

/-- The step of an interleaving. -/
def Crossing.step (s : Crossing A) (a : Act A) : Option (Crossing A) :=
  (s.turned a.turned).move K a.scratch a.move

/-! ## What is asked of an interleaving -/

namespace Content

/-- The packet keys its sender anew at once, and its receiver. -/
def Rekeys : Content A → Prop
  | token _ => True
  | response => True
  | _ => False

/-- The packet asks for an asymmetric ratchet. -/
def Asks : Content A → Prop
  | request _ => True
  | _ => False

end Content

namespace Move

/-- A message is not empty, and fits a packet with its tag. -/
def Fits (s : Crossing A) : Move A → Prop
  | send m => m ≠ [] ∧ m.length + s.near.peer.cns.txcpr.ctype.macSize ≤ P.messageMax
  | _ => True

/-- **The order the ratchets rely on.** A side with a request of its own
unanswered, or with a token or a response on its way to it, sends nothing;
a token is sent when nothing is on its way to the sender; a request when
nothing but messages is. -/
def Clear (s : Crossing A) : Move A → Prop
  | send _ => (∀ p ∈ s.near.inbox, ¬ p.content.Rekeys) ∧ ∀ p ∈ s.far.inbox, ¬ p.content.Asks
  | sendToken _ => s.near.inbox = [] ∧ ∀ p ∈ s.far.inbox, ¬ p.content.Asks
  | sendRequest _ _ =>
    (∀ p ∈ s.near.inbox, ¬ p.content.Rekeys ∧ ¬ p.content.Asks) ∧
      ∀ p ∈ s.far.inbox, ¬ p.content.Asks
  | take _ _ => True

/-- **What is delivered is good**: authentic, and a message as it was sent. -/
def Delivers (K : Primitives) (s : Crossing A) (scratch : Scratch) : Move A → Prop
  | take encap sign' => ∀ p ∈ s.near.inbox.head?,
    (s.near.peer.receive K A scratch encap sign' p.bytes).ok = true ∧
      ∀ m, p.content = .message m →
        (s.near.peer.receive K A scratch encap sign' p.bytes).message = m
  | _ => True

end Move

/-! ## Reading a channel to its end -/

/-- **A letter that opens**: it was sealed by the mirror of the receive
cipher, and stands next in sequence. -/
structure OpensNext (K : Primitives) (cns : QsmpConnectionState) (tx : RcsState) (l : Letter)
    (bytes : Bytes) : Prop where
  on : l.On K tx bytes
  mirrors : RcsMirrors tx cns.rxcpr
  sequence : l.sequence = cns.rxseq + 1

/-- **Reading packets** in their order leads a side from one state to
another. A request is only opened: the side that answers it is keyed anew
together with the one that asks. -/
inductive Reads (K : Primitives) : RatchetPeer P → List (Parcel A) → RatchetPeer P → Prop
  | nil (peer : RatchetPeer P) : Reads K peer [] peer
  | message {peer final : RatchetPeer P} {tx : RcsState} {l : Letter} {m bytes : Bytes}
      {rest : List (Parcel A)} (opens : OpensNext K peer.cns tx l bytes)
      (flag : l.flag = .encryptedMessage) (plain : l.plain = m)
      (taglen : l.taglen = peer.cns.maclen) (length : m.length < 2 ^ 32)
      (reads : Reads K { peer with cns := peer.cns.opened K tx l } rest final) :
      Reads K peer (⟨bytes, .message m⟩ :: rest) final
  | token {peer final : RatchetPeer P} {tx : RcsState} {l : Letter} {rkey : Octets rtokSize}
      {bytes : Bytes} {rest : List (Parcel A)} (opens : OpensNext K peer.cns tx l bytes)
      (flag : l.flag = .symmetricRatchetRequest) (plain : l.plain = rkey.val)
      (taglen : l.taglen = duplexMactagSize)
      (reads : Reads K
        { peer with cns := symmetricRatchet K P (peer.cns.opened K tx l) rkey.val } rest final) :
      Reads K peer (⟨bytes, .token rkey⟩ :: rest) final
  | request {peer final : RatchetPeer P} {tx : RcsState} {l : Letter} {keypair sign : A.Seed}
      {sigkey : Octets P.signingKeySize} {bytes : Bytes} {rest : List (Parcel A)}
      (opens : OpensNext K peer.cns tx l bytes) (flag : l.flag = .asymmetricRatchetRequest)
      (plain : l.plain = signed256 K A (A.generateKeypair keypair).1.val sigkey sign
        ++ (A.generateKeypair keypair).1.val)
      (taglen : l.taglen = duplexMactagSize) (signs : A.SignsFor sigkey peer.keys.verkey)
      (reads : Reads K { peer with cns := peer.cns.opened K tx l } rest final) :
      Reads K peer (⟨bytes, .request keypair⟩ :: rest) final
  | response {peer final : RatchetPeer P} {tx : RcsState} {l : Letter}
      {cpt : Octets P.cipherTextSize} {secret : Octets secretSize} {sign : A.Seed}
      {sigkey : Octets P.signingKeySize} {bytes : Bytes} {rest : List (Parcel A)}
      (opens : OpensNext K peer.cns tx l bytes) (flag : l.flag = .asymmetricRatchetResponse)
      (plain : l.plain = signed256 K A cpt.val sigkey sign ++ cpt.val)
      (taglen : l.taglen = duplexMactagSize) (signs : A.SignsFor sigkey peer.keys.verkey)
      (decapsulates : A.decapsulate cpt peer.keys.prikey = some secret)
      (reads : Reads K
        ⟨symmetricRatchet K P (peer.cns.opened K tx l) secret.val,
          { peer.keys with pubkey := Octets.zero _, prikey := Octets.zero _ }⟩ rest final) :
      Reads K peer (⟨bytes, .response⟩ :: rest) final

section Reading

variable {K}
variable {peer middle final : RatchetPeer P} {ps qs : List (Parcel A)}

theorem Reads.append (h : Reads K peer ps middle) (h' : Reads K middle qs final) :
    Reads K peer (ps ++ qs) final := by
  induction h with
  | nil peer => exact h'
  | message opens flag plain taglen length reads ih =>
    exact .message opens flag plain taglen length (ih h')
  | token opens flag plain taglen reads ih => exact .token opens flag plain taglen (ih h')
  | request opens flag plain taglen signs reads ih =>
    exact .request opens flag plain taglen signs (ih h')
  | response opens flag plain taglen signs decapsulates reads ih =>
    exact .response opens flag plain taglen signs decapsulates (ih h')

/-- The signature keys stay. -/
theorem Reads.keys (h : Reads K peer ps final) :
    final.keys.sigkey = peer.keys.sigkey ∧ final.keys.verkey = peer.keys.verkey := by
  induction h with
  | nil peer => exact ⟨rfl, rfl⟩
  | message opens flag plain taglen length reads ih => exact ih
  | token opens flag plain taglen reads ih => exact ih
  | request opens flag plain taglen signs reads ih => exact ih
  | response opens flag plain taglen signs decapsulates reads ih => exact ih

/-- The session stays established. -/
theorem Reads.exflag (h : Reads K peer ps final) : final.cns.exflag = peer.cns.exflag := by
  induction h with
  | nil peer => rfl
  | message opens flag plain taglen length reads ih => exact ih
  | token opens flag plain taglen reads ih => rw [ih, symmetricRatchet_eq]; rfl
  | request opens flag plain taglen signs reads ih => exact ih
  | response opens flag plain taglen signs decapsulates reads ih =>
    rw [ih, symmetricRatchet_eq]; rfl

/-- Without a packet that keys anew, reading moves the receive cipher and
its sequence number, -/
theorem Reads.receiving (h : Reads K peer ps final) (hps : ∀ p ∈ ps, ¬ p.content.Rekeys) :
    final = { peer with cns := { peer.cns with
      rxcpr := final.cns.rxcpr, rxseq := final.cns.rxseq } } := by
  induction h with
  | nil peer => rfl
  | message opens flag plain taglen length reads ih =>
    exact ih fun p hp => hps p (List.mem_cons_of_mem _ hp)
  | token opens flag plain taglen reads ih => exact absurd trivial (hps _ List.mem_cons_self)
  | request opens flag plain taglen signs reads ih =>
    exact ih fun p hp => hps p (List.mem_cons_of_mem _ hp)
  | response opens flag plain taglen signs decapsulates reads ih =>
    exact absurd trivial (hps _ List.mem_cons_self)

/-- and what the side sends meanwhile does not matter to it. -/
theorem Reads.posted (h : Reads K peer ps final) (hps : ∀ p ∈ ps, ¬ p.content.Rekeys)
    (l : Letter) : ∀ {keys : RatchetKeys P}, keys.verkey = peer.keys.verkey →
      Reads K ⟨peer.cns.posted K l, keys⟩ ps ⟨final.cns.posted K l, keys⟩ := by
  induction h with
  | nil peer => exact fun _ => .nil _
  | message opens flag plain taglen length reads ih =>
    intro keys hkeys
    exact .message ⟨opens.on, opens.mirrors, opens.sequence⟩ flag plain
      (taglen.trans QsmpConnectionState.posted_maclen.symm) length
      (ih (fun p hp => hps p (List.mem_cons_of_mem _ hp)) hkeys)
  | token opens flag plain taglen reads ih => exact absurd trivial (hps _ List.mem_cons_self)
  | request opens flag plain taglen signs reads ih =>
    intro keys hkeys
    exact .request ⟨opens.on, opens.mirrors, opens.sequence⟩ flag plain taglen
      (by rw [hkeys]; exact signs) (ih (fun p hp => hps p (List.mem_cons_of_mem _ hp)) hkeys)
  | response opens flag plain taglen signs decapsulates reads ih =>
    exact absurd trivial (hps _ List.mem_cons_self)

/-- What such a side sends with. -/
theorem Reads.sender (h : Reads K peer ps final) (hps : ∀ p ∈ ps, ¬ p.content.Rekeys) :
    final.cns.txcpr = peer.cns.txcpr ∧ final.cns.txseq = peer.cns.txseq ∧
      final.cns.exflag = peer.cns.exflag ∧ final.cns.mode = peer.cns.mode ∧
      final.keys = peer.keys := by
  have hsame := h.receiving hps
  exact ⟨congrArg (·.cns.txcpr) hsame, congrArg (·.cns.txseq) hsame,
    congrArg (·.cns.exflag) hsame, congrArg (·.cns.mode) hsame, congrArg (·.keys) hsame⟩

/-- **What it sends opens** once the other side has read its channel, and
the two stay paired. -/
theorem Reads.opens_next {other : RatchetPeer P} {l : Letter} {bytes : Bytes}
    (h : Reads K peer ps final) (hps : ∀ p ∈ ps, ¬ p.content.Rekeys)
    (hpair : Paired final.cns other.cns) (hon : l.On K peer.cns.txcpr bytes)
    (hseq : l.sequence = peer.cns.txseq + 1) :
    OpensNext K other.cns peer.cns.txcpr l bytes ∧
      Paired (final.cns.posted K l) (other.cns.opened K peer.cns.txcpr l) := by
  obtain ⟨htx, htxseq, -⟩ := h.sender hps
  rw [← htx] at hon ⊢
  refine ⟨⟨hon, hpair.forth.ciphers, ?_⟩, hpair.pass⟩
  rw [hseq, ← htxseq, hpair.forth.sequence]

end Reading

/-! ## The invariant -/

/-- **An orderly channel** to `near`: a packet that keys anew finds nothing
on its way back; a request is the last of its channel, meets messages only,
and the private key of its pair is kept. -/
structure Orderly (near far : CrossingEnd A) : Prop where
  rekeys : ∀ p ∈ near.inbox, p.content.Rekeys → far.inbox = []
  last : ∀ p ps qs, near.inbox = ps ++ p :: qs → p.content.Asks → qs = []
  meets : ∀ p ∈ near.inbox, p.content.Asks →
    ∀ q ∈ far.inbox, ¬ q.content.Rekeys ∧ ¬ q.content.Asks
  waits : ∀ bytes keypair, ⟨bytes, .request keypair⟩ ∈ near.inbox →
    far.peer.keys.prikey = (A.generateKeypair keypair).2

/-- **The invariant.** Once both channels are read to their ends the sides
are paired, and the channels are orderly. -/
structure Crossing.Sound (K : Primitives) (s : Crossing A) : Prop where
  settles : ∃ N F, Reads K s.near.peer s.near.inbox N ∧ Reads K s.far.peer s.far.inbox F ∧
    Paired N.cns F.cns
  near : Orderly s.near s.far
  far : Orderly s.far s.near
  forth : A.SignsFor s.near.peer.keys.sigkey s.far.peer.keys.verkey
  back : A.SignsFor s.far.peer.keys.sigkey s.near.peer.keys.verkey

section Invariant

variable {K}
variable {s s' : Crossing A} {scratch : Scratch}

theorem Crossing.Sound.turned (h : s.Sound K) : ∀ b, (s.turned b).Sound K
  | false => h
  | true =>
    have ⟨N, F, hN, hF, hpair⟩ := h.settles
    ⟨⟨F, N, hF, hN, hpair.symm⟩, h.far, h.near, h.back, h.forth⟩

/-- With nothing in flight the sides are paired. -/
theorem Crossing.Sound.paired (h : s.Sound K) (hquiet : s.Quiet) :
    Paired s.near.peer.cns s.far.peer.cns := by
  obtain ⟨N, F, hN, hF, hpair⟩ := h.settles
  rw [hquiet.1] at hN
  rw [hquiet.2] at hF
  cases hN
  cases hF
  exact hpair

/-! ### Sending -/

/-- A channel that grows by a message or a token stays orderly, in both
directions, as the conditions on the move have it. -/
theorem Orderly.grows {near far : CrossingEnd A} {peer : RatchetPeer P} {p : Parcel A}
    (h : Orderly far near) (hp : p.content.Rekeys → near.inbox = [])
    (hasks : ∀ q ∈ far.inbox, ¬ q.content.Asks)
    (hmeets : p.content.Asks → ∀ q ∈ near.inbox, ¬ q.content.Rekeys ∧ ¬ q.content.Asks)
    (hwaits : ∀ keypair, p.content = .request keypair →
      peer.keys.prikey = (A.generateKeypair keypair).2) :
    Orderly { far with inbox := far.inbox ++ [p] } { near with peer } where
  rekeys q hq hrekeys := by
    rcases List.mem_append.1 hq with hq | hq
    · exact h.rekeys q hq hrekeys
    · obtain rfl := List.mem_singleton.1 hq
      exact hp hrekeys
  last q ps qs hsplit hq := by
    -- Only the new packet may ask, and it is the last.
    rcases List.eq_nil_or_concat qs with rfl | ⟨qs, r, rfl⟩
    · rfl
    · have hinit : far.inbox = ps ++ q :: qs := by
        have hsplit' : far.inbox ++ [p] = (ps ++ q :: qs) ++ [r] := hsplit.trans (by
          rw [List.concat_eq_append, List.append_assoc, List.cons_append])
        exact (List.append_inj' hsplit' rfl).1
      exact absurd hq (hasks q (by rw [hinit]; simp))
  meets q hq hq' := by
    rcases List.mem_append.1 hq with hq | hq
    · exact absurd hq' (hasks q hq)
    · obtain rfl := List.mem_singleton.1 hq
      exact hmeets hq'
  waits bytes keypair hmem := by
    rcases List.mem_append.1 hmem with hq | hq
    · exact absurd trivial (hasks _ hq)
    · exact hwaits keypair (congrArg Parcel.content (List.mem_singleton.1 hq)).symm

/-- The channel of the side that sends is as it was. -/
theorem Orderly.sent {near far : CrossingEnd A} {peer : RatchetPeer P} {p : Parcel A}
    (h : Orderly near far) (hrekeys : ∀ q ∈ near.inbox, ¬ q.content.Rekeys)
    (hasks : ∀ q ∈ near.inbox, q.content.Asks → ¬ p.content.Rekeys ∧ ¬ p.content.Asks) :
    Orderly { near with peer } { far with inbox := far.inbox ++ [p] } where
  rekeys q hq hq' := absurd hq' (hrekeys q hq)
  last := h.last
  meets q hq hq' r hr := by
    rcases List.mem_append.1 hr with hr | hr
    · exact h.meets q hq hq' r hr
    · obtain rfl := List.mem_singleton.1 hr
      exact hasks q hq hq'
  waits := h.waits

/-- **A message is sent.** -/
theorem Crossing.Sound.send (h : s.Sound K) {m : Bytes} (hfits : (Move.send m).Fits s)
    (hclear : (Move.send m).Clear s) (hmove : s.move K scratch (.send m) = some s') :
    s'.Sound K := by
  obtain ⟨hm, hfit⟩ := hfits
  obtain ⟨hrekeys, hasks⟩ := hclear
  obtain ⟨N, F, hN, hF, hpair⟩ := h.settles
  obtain ⟨htx, htxseq, hexflag, -⟩ := hN.sender hrekeys
  obtain ⟨hcode, hcns, hon⟩ := sendMessage_posts (K := K) (hexflag ▸ hpair.forth.establishedA)
    (htx ▸ hpair.forth.ciphers.encrypts) hm hfit scratch.packetout scratch.stream
  obtain ⟨hopens, hpair'⟩ := hN.opens_next hrekeys hpair hon rfl
  have htaglen : (messageLetter s.near.peer.cns m).taglen = F.cns.maclen := by
    have hctype : s.near.peer.cns.txcpr.ctype = F.cns.txcpr.ctype := by
      rw [← htx, hpair.forth.tagType, hpair.forth.ciphers.ctype]
    rw [messageLetter, QsmpConnectionState.maclen, QsmpConnectionState.maclen, hctype]
  have hlength : m.length < 2 ^ 32 := by
    have hmax := P.messageMax_lt
    omega
  rw [Crossing.move, hcode, hcns, if_pos rfl] at hmove
  obtain rfl := Option.some.inj hmove
  exact {
    settles := ⟨_, _, hN.posted hrekeys _ rfl,
      hF.append (.message hopens rfl rfl htaglen hlength (.nil _)), hpair'⟩
    near := h.near.sent hrekeys fun q hq hq' => ⟨id, id⟩
    far := h.far.grows False.elim hasks False.elim (by rintro _ ⟨⟩)
    forth := h.forth
    back := h.back }

/-- **A token is sent**, with nothing on its way to the sender. -/
theorem Crossing.Sound.sendToken (h : s.Sound K)
    (hmax : rtokSize + duplexMactagSize.toNat ≤ P.messageMax) {rkey : Octets rtokSize}
    (hclear : (Move.sendToken rkey).Clear s)
    (hmove : s.move K scratch (.sendToken rkey) = some s') : s'.Sound K := by
  obtain ⟨hempty, hasks⟩ := hclear
  obtain ⟨N, F, hN, hF, hpair⟩ := h.settles
  have hrekeys : ∀ p ∈ s.near.inbox, ¬ p.content.Rekeys := by
    rw [hempty]
    exact fun p hp => absurd hp List.not_mem_nil
  obtain ⟨htx, -, -, hmode, -⟩ := hN.sender hrekeys
  obtain ⟨out, hsent, hon⟩ := sendSymmetricRatchetRequest_posts (K := K) s.near.peer.keys
    (hmode ▸ hpair.duplexX) (htx ▸ hpair.forth.ciphers.encrypts) hmax rkey rfl
  obtain ⟨hopens, hpair'⟩ := hN.opens_next hrekeys hpair hon rfl
  rw [Crossing.move, hsent] at hmove
  obtain rfl := Option.some.inj hmove
  rw [hempty] at hN
  cases hN
  exact {
    settles := ⟨⟨_, _⟩, ⟨_, F.keys⟩, by rw [Crossing.posts, hempty]; exact .nil _,
      hF.append (.token hopens rfl rfl rfl (.nil _)), (hpair'.ratchet rkey.val).1⟩
    near := h.near.sent hrekeys fun q hq => absurd (hempty ▸ hq) List.not_mem_nil
    far := h.far.grows (fun _ => hempty) hasks False.elim (by rintro _ ⟨⟩)
    forth := h.forth
    back := h.back }

/-- **A request is sent**, with nothing but messages on its way to the
sender. -/
theorem Crossing.Sound.sendRequest (h : s.Sound K) {keypair sign : A.Seed}
    (hclear : (Move.sendRequest keypair sign).Clear s)
    (hmove : s.move K scratch (.sendRequest keypair sign) = some s') : s'.Sound K := by
  obtain ⟨hmessages, hasks⟩ := hclear
  obtain ⟨N, F, hN, hF, hpair⟩ := h.settles
  have hrekeys : ∀ p ∈ s.near.inbox, ¬ p.content.Rekeys := fun p hp => (hmessages p hp).1
  obtain ⟨htx, -, -, hmode, -⟩ := hN.sender hrekeys
  have hsigned : (signed256 K A (A.generateKeypair keypair).1.val s.near.peer.keys.sigkey
      sign).length = P.ratchetSignedSize := length_signed256 h.forth
  obtain ⟨out, hsent, hon⟩ := sendAsymmetricRatchetRequest_posts (K := K)
    s.near.peer.keys (hmode ▸ hpair.duplexX) (htx ▸ hpair.forth.ciphers.encrypts) keypair sign
    hsigned rfl
  obtain ⟨hopens, hpair'⟩ := hN.opens_next hrekeys hpair hon rfl
  rw [Crossing.move, hsent] at hmove
  obtain rfl := Option.some.inj hmove
  exact {
    settles := ⟨_, _, hN.posted hrekeys _ rfl,
      hF.append (.request hopens rfl rfl rfl (hF.keys.2 ▸ h.forth) (.nil _)), hpair'⟩
    near := h.near.sent hrekeys fun q hq hq' => absurd hq' (hmessages q hq).2
    far := h.far.grows False.elim hasks (fun _ => hmessages) (by rintro _ ⟨⟩; rfl)
    forth := h.forth
    back := h.back }

/-! ### Taking -/

/-- A channel less its first packet stays orderly, -/
theorem Orderly.tail {near far : CrossingEnd A} {peer : RatchetPeer P} {p : Parcel A}
    {rest : List (Parcel A)} (h : Orderly near far) (hinbox : near.inbox = p :: rest) :
    Orderly ⟨peer, rest⟩ far where
  rekeys q hq := h.rekeys q (hinbox ▸ List.mem_cons_of_mem p hq)
  last q ps qs hsplit := h.last q (p :: ps) qs (hinbox.trans (congrArg (p :: ·) hsplit))
  meets q hq := h.meets q (hinbox ▸ List.mem_cons_of_mem p hq)
  waits bytes keypair hmem := h.waits bytes keypair (hinbox ▸ List.mem_cons_of_mem p hmem)

/-- and so does the other one, if the keys of the side that takes it stay
or nothing waits for them. -/
theorem Orderly.taken {near far : CrossingEnd A} {peer : RatchetPeer P} {p : Parcel A}
    {rest : List (Parcel A)} (h : Orderly far near) (hinbox : near.inbox = p :: rest)
    (hkeys : far.inbox = [] ∨ peer.keys = near.peer.keys) : Orderly far ⟨peer, rest⟩ where
  rekeys q hq hq' := absurd (hinbox.symm.trans (h.rekeys q hq hq')) (List.cons_ne_nil _ _)
  last := h.last
  meets q hq hq' r hr := h.meets q hq hq' r (hinbox ▸ List.mem_cons_of_mem p hr)
  waits bytes keypair hmem := by
    rcases hkeys with hempty | hkeys
    · exact absurd (hempty ▸ hmem) List.not_mem_nil
    · exact (congrArg RatchetKeys.prikey hkeys).trans (h.waits bytes keypair hmem)

/-- Where nothing is in flight every order is kept. -/
theorem Orderly.of_nil {near far : CrossingEnd A} (h : near.inbox = []) : Orderly near far where
  rekeys q hq := absurd (h ▸ hq) List.not_mem_nil
  last q ps qs hsplit := absurd (h.symm.trans hsplit).symm (by simp)
  meets q hq := absurd (h ▸ hq) List.not_mem_nil
  waits bytes keypair hmem := absurd (h ▸ hmem) List.not_mem_nil

section Receive

variable {peer : RatchetPeer P} {tx : RcsState} {l : Letter} {bytes : Bytes}
variable (scratch : Scratch) (encap sign' : A.Seed)

/-- What the side makes of each packet that opens. -/
theorem receive_message (opens : OpensNext K peer.cns tx l bytes)
    (flag : l.flag = .encryptedMessage) (taglen : l.taglen = peer.cns.maclen)
    (length : l.plain.length < 2 ^ 32)
    (he : peer.cns.exflag = .sessionEstablished) :
    peer.receive K A scratch encap sign' bytes =
      ⟨true, l.plain, { peer with cns := peer.cns.opened K tx l }, none⟩ := by
  have hflag : (delivered scratch.buffAnswerer bytes).flag = QsmpFlags.encryptedMessage.toByte :=
    (opens.on.flag _).trans (congrArg _ flag)
  have hopen := qsmpDecryptPacket_opens opens.on he opens.mirrors opens.sequence taglen length
    scratch.buffAnswerer scratch.message
  rw [RatchetPeer.receive]
  dsimp only
  rw [if_pos hflag, hopen]
  dsimp only
  rw [Mem.read_write_self]
  rfl

theorem receive_token {rkey : Octets rtokSize} (opens : OpensNext K peer.cns tx l bytes)
    (flag : l.flag = .symmetricRatchetRequest) (plain : l.plain = rkey.val)
    (taglen : l.taglen = duplexMactagSize) :
    peer.receive K A scratch encap sign' bytes =
      ⟨true, [], { peer with cns := symmetricRatchet K P (peer.cns.opened K tx l) rkey.val },
        none⟩ := by
  have hflag : (delivered scratch.buffAnswerer bytes).flag
      = QsmpFlags.symmetricRatchetRequest.toByte := (opens.on.flag _).trans (congrArg _ flag)
  have hopen := symmetricRatchetResponse_opens peer.keys opens.on opens.mirrors
    opens.sequence plain taglen scratch.buffAnswerer
  rw [RatchetPeer.receive]
  dsimp only
  rw [if_neg (by rw [hflag]; decide), if_pos hflag, hopen]

theorem receive_request {keypair sign : A.Seed} {sigkey : Octets P.signingKeySize}
    {verkey : Octets P.verifyKeySize} (opens : OpensNext K peer.cns tx l bytes)
    (flag : l.flag = .asymmetricRatchetRequest)
    (plain : l.plain = signed256 K A (A.generateKeypair keypair).1.val sigkey sign
      ++ (A.generateKeypair keypair).1.val)
    (taglen : l.taglen = duplexMactagSize) (signs : A.SignsFor sigkey peer.keys.verkey)
    (hown : A.SignsFor peer.keys.sigkey verkey) (htx : peer.cns.txcpr.encrypt = true) :
    ∃ out, peer.receive K A scratch encap sign' bytes =
        ⟨true, [], { peer with
          cns := symmetricRatchet K P ((peer.cns.opened K tx l).posted K
            (responseLetter K A peer.keys.sigkey
              (A.encapsulate (A.generateKeypair keypair).1 encap).2 sign' peer.cns))
            (A.encapsulate (A.generateKeypair keypair).1 encap).1.val }, some out⟩ ∧
      (responseLetter K A peer.keys.sigkey
        (A.encapsulate (A.generateKeypair keypair).1 encap).2 sign' peer.cns).On K
          peer.cns.txcpr out := by
  have hflag : (delivered scratch.buffAnswerer bytes).flag
      = QsmpFlags.asymmetricRatchetRequest.toByte := (opens.on.flag _).trans (congrArg _ flag)
  obtain ⟨out, hopen, hon⟩ := asymmetricRatchetResponse_opens peer.keys opens.on
    opens.mirrors opens.sequence plain taglen (length_signed256 signs) (signs _ _).1 htx encap
    sign' (length_signed256 hown) rfl scratch.stack scratch.buffAnswerer
  refine ⟨out, ?_, hon⟩
  rw [RatchetPeer.receive]
  dsimp only
  rw [if_neg (by rw [hflag]; decide), if_neg (by rw [hflag]; decide), if_pos hflag, hopen]

theorem receive_response {cpt : Octets P.cipherTextSize} {secret : Octets secretSize}
    {sign : A.Seed} {sigkey : Octets P.signingKeySize} (opens : OpensNext K peer.cns tx l bytes)
    (flag : l.flag = .asymmetricRatchetResponse)
    (plain : l.plain = signed256 K A cpt.val sigkey sign ++ cpt.val)
    (taglen : l.taglen = duplexMactagSize) (signs : A.SignsFor sigkey peer.keys.verkey)
    (decapsulates : A.decapsulate cpt peer.keys.prikey = some secret) :
    peer.receive K A scratch encap sign' bytes =
      ⟨true, [], ⟨symmetricRatchet K P (peer.cns.opened K tx l) secret.val,
        { peer.keys with pubkey := Octets.zero _, prikey := Octets.zero _ }⟩, none⟩ := by
  have hflag : (delivered scratch.buffAnswerer bytes).flag
      = QsmpFlags.asymmetricRatchetResponse.toByte := (opens.on.flag _).trans (congrArg _ flag)
  have hopen := asymmetricRatchetFinalize_opens peer.keys opens.on opens.mirrors
    opens.sequence plain taglen (length_signed256 signs) (signs _ _).1 decapsulates
    scratch.buffAnswerer
  rw [RatchetPeer.receive]
  dsimp only
  rw [if_neg (by rw [hflag]; decide), if_neg (by rw [hflag]; decide),
    if_neg (by rw [hflag]; decide), if_pos hflag, hopen]

end Receive

/-- A packet that brings no answer is taken off its channel. -/
theorem Crossing.move_take {p : Parcel A} {rest : List (Parcel A)} {got : RatchetPeer P}
    {encap sign' : A.Seed} {m : Bytes} (hinbox : s.near.inbox = p :: rest)
    (hreceive : s.near.peer.receive K A scratch encap sign' p.bytes = ⟨true, m, got, none⟩)
    (hmove : s.move K scratch (.take encap sign') = some s') :
    s' = ⟨⟨got, rest⟩, s.far⟩ := by
  simp only [Crossing.move, hinbox, hreceive, Crossing.posts, Option.map_none, Option.toList_none,
    List.append_nil] at hmove
  exact (Option.some.inj hmove).symm

/-- One that does is answered at once. -/
theorem Crossing.move_answer {p : Parcel A} {rest : List (Parcel A)} {got : RatchetPeer P}
    {encap sign' : A.Seed} {m out : Bytes} (hinbox : s.near.inbox = p :: rest)
    (hreceive : s.near.peer.receive K A scratch encap sign' p.bytes = ⟨true, m, got, some out⟩)
    (hmove : s.move K scratch (.take encap sign') = some s') :
    s' = ⟨⟨got, rest⟩, { s.far with inbox := s.far.inbox ++ [⟨out, .response⟩] }⟩ := by
  simp only [Crossing.move, hinbox, hreceive, Crossing.posts, Option.map_some,
    Option.toList_some] at hmove
  exact (Option.some.inj hmove).symm

/-- **A request is answered**, which is the last packet of its channel: the
response and what is before it lead the other side to the same keys. -/
theorem Crossing.Sound.answer (hkem : A.KemCorrect) (h : s.Sound K) {encap sign' : A.Seed}
    {tx : RcsState} {l : Letter} {keypair sign : A.Seed} {sigkey : Octets P.signingKeySize}
    {bytes : Bytes} {F : RatchetPeer P} (hinbox : s.near.inbox = [⟨bytes, .request keypair⟩])
    (opens : OpensNext K s.near.peer.cns tx l bytes) (flag : l.flag = .asymmetricRatchetRequest)
    (plain : l.plain = signed256 K A (A.generateKeypair keypair).1.val sigkey sign
      ++ (A.generateKeypair keypair).1.val)
    (taglen : l.taglen = duplexMactagSize) (signs : A.SignsFor sigkey s.near.peer.keys.verkey)
    (hF : Reads K s.far.peer s.far.inbox F)
    (hpair : Paired (s.near.peer.cns.opened K tx l) F.cns)
    (hmove : s.move K scratch (.take encap sign') = some s') :
    s'.Sound K ∧ (Move.take encap sign').Delivers K s scratch := by
  have hmem : ⟨bytes, .request keypair⟩ ∈ s.near.inbox := by
    rw [hinbox]
    exact List.mem_singleton_self _
  have hmeets := h.near.meets _ hmem trivial
  obtain ⟨out, hreceive, hon⟩ := receive_request scratch encap sign' opens flag plain taglen
    signs h.forth hpair.forth.ciphers.encrypts
  -- The key pair still waits when the other side comes to the response.
  obtain ⟨-, -, -, -, hkeys⟩ := hF.sender fun q hq => (hmeets q hq).1
  have hdecapsulates : A.decapsulate (A.encapsulate (A.generateKeypair keypair).1 encap).2
      F.keys.prikey = some (A.encapsulate (A.generateKeypair keypair).1 encap).1 := by
    rw [hkeys, h.near.waits bytes keypair hmem]
    exact hkem keypair encap
  have hopens : OpensNext K F.cns s.near.peer.cns.txcpr (responseLetter K A s.near.peer.keys.sigkey
      (A.encapsulate (A.generateKeypair keypair).1 encap).2 sign' s.near.peer.cns) out :=
    ⟨hon, hpair.forth.ciphers, congrArg (· + 1) hpair.forth.sequence⟩
  obtain rfl := Crossing.move_answer hinbox hreceive hmove
  have htaken : Orderly s.far ⟨s.near.peer, []⟩ := h.far.taken hinbox (.inr rfl)
  refine ⟨⟨⟨_, _, .nil _, hF.append (.response hopens rfl rfl rfl (hF.keys.2 ▸ h.forth)
    hdecapsulates (.nil _)), (hpair.pass.ratchet _).1⟩, .of_nil rfl,
    htaken.grows (fun _ => rfl) (fun q hq => (hmeets q hq).2) False.elim (by rintro _ ⟨⟩), h.forth,
    h.back⟩, fun p hp => ?_⟩
  obtain rfl := Option.some.inj ((congrArg List.head? hinbox).symm.trans hp)
  rw [hreceive]
  exact ⟨rfl, by rintro _ ⟨⟩⟩

/-- **A packet is taken**: it is authentic, a message is the one sent, and
the invariant holds on. -/
theorem Crossing.Sound.take (hkem : A.KemCorrect) (h : s.Sound K) {encap sign' : A.Seed}
    (hmove : s.move K scratch (.take encap sign') = some s') :
    s'.Sound K ∧ (Move.take encap sign').Delivers K s scratch := by
  obtain ⟨N, F, hN, hF, hpair⟩ := h.settles
  obtain ⟨inbox, hinbox⟩ : ∃ inbox, s.near.inbox = inbox := ⟨_, rfl⟩
  rw [hinbox] at hN
  cases hN with
  | nil peer => exact absurd hmove (by simp [Crossing.move, hinbox])
  | @message _ _ tx l m bytes rest opens flag plain taglen length reads =>
    subst plain
    have hreceive := receive_message scratch encap sign' opens
      flag taglen length (reads.exflag.symm.trans hpair.forth.establishedA)
    obtain rfl := Crossing.move_take hinbox hreceive hmove
    refine ⟨⟨⟨N, F, reads, hF, hpair⟩, h.near.tail hinbox, h.far.taken hinbox (.inr rfl), h.forth,
      h.back⟩, fun p hp => ?_⟩
    obtain rfl := Option.some.inj ((congrArg List.head? hinbox).symm.trans hp)
    rw [hreceive]
    exact ⟨rfl, fun m hm => Content.message.inj hm⟩
  | @token _ _ tx l rkey bytes rest opens flag plain taglen reads =>
    have hempty : s.far.inbox = [] :=
      h.near.rekeys ⟨bytes, .token rkey⟩ (hinbox ▸ List.mem_cons_self) trivial
    have hreceive := receive_token scratch encap sign' opens
      flag plain taglen
    obtain rfl := Crossing.move_take hinbox hreceive hmove
    refine ⟨⟨⟨N, F, reads, hF, hpair⟩, h.near.tail hinbox, .of_nil hempty, h.forth, h.back⟩,
      fun p hp => ?_⟩
    obtain rfl := Option.some.inj ((congrArg List.head? hinbox).symm.trans hp)
    rw [hreceive]
    exact ⟨rfl, by rintro _ ⟨⟩⟩
  | @request _ _ tx l keypair sign sigkey bytes rest opens flag plain taglen signs reads =>
    obtain rfl : rest = [] := h.near.last _ [] rest hinbox trivial
    cases reads
    exact h.answer hkem hinbox opens flag plain taglen signs hF hpair hmove
  | @response _ _ tx l cpt secret sign sigkey bytes rest opens flag plain taglen signs decapsulates
      reads =>
    have hempty : s.far.inbox = [] :=
      h.near.rekeys ⟨bytes, .response⟩ (hinbox ▸ List.mem_cons_self) trivial
    have hreceive := receive_response scratch encap sign' opens
      flag plain taglen signs decapsulates
    obtain rfl := Crossing.move_take hinbox hreceive hmove
    refine ⟨⟨⟨N, F, reads, hF, hpair⟩, h.near.tail hinbox, .of_nil hempty, h.forth, h.back⟩,
      fun p hp => ?_⟩
    obtain rfl := Option.some.inj ((congrArg List.head? hinbox).symm.trans hp)
    rw [hreceive]
    exact ⟨rfl, by rintro _ ⟨⟩⟩

/-- **The step.** -/
theorem Crossing.Sound.step (hkem : A.KemCorrect)
    (hmax : rtokSize + duplexMactagSize.toNat ≤ P.messageMax) (h : s.Sound K) {a : Act A}
    (hstep : s.step K a = some s') (hfits : a.move.Fits (s.turned a.turned))
    (hclear : a.move.Clear (s.turned a.turned)) :
    s'.Sound K ∧ a.move.Delivers K (s.turned a.turned) a.scratch := by
  have hturned := h.turned a.turned
  obtain ⟨turned, move, scratch⟩ := a
  cases move with
  | send m => exact ⟨hturned.send hfits hclear hstep, trivial⟩
  | sendToken rkey => exact ⟨hturned.sendToken hmax hclear hstep, trivial⟩
  | sendRequest keypair sign => exact ⟨hturned.sendRequest hclear hstep, trivial⟩
  | take encap sign' => exact hturned.take hkem hstep

end Invariant

/-! ## Every interleaving -/

/-- **Where an interleaving starts**: paired connections, each side with its
own signing key and the verification key of the other, and nothing in
flight. -/
structure Crossing.Starts (s : Crossing A) : Prop where
  quiet : s.Quiet
  paired : Paired s.near.peer.cns s.far.peer.cns
  forth : A.SignsFor s.near.peer.keys.sigkey s.far.peer.keys.verkey
  back : A.SignsFor s.far.peer.keys.sigkey s.near.peer.keys.verkey

/-- **An interleaving is safe** when every packet delivered is authentic,
every message arrives as it was sent, and the sides are paired whenever
nothing is in flight. -/
def Crossing.Safe (K : Primitives) (s : Crossing A) (acts : List (Act A)) : Prop :=
  Along (Crossing.step K) (fun s a s' =>
    a.move.Delivers K (s.turned a.turned) a.scratch ∧
      (s'.Quiet → Paired s'.near.peer.cns s'.far.peer.cns)) s acts

variable {K}

theorem Crossing.Starts.sound {s : Crossing A} (h : s.Starts) : s.Sound K where
  settles := ⟨_, _, by rw [h.quiet.1]; exact .nil _, by rw [h.quiet.2]; exact .nil _, h.paired⟩
  near := .of_nil h.quiet.1
  far := .of_nil h.quiet.2
  forth := h.forth
  back := h.back

/-- **Ratchets and traffic in any order that is clear** are safe. -/
theorem crossing_safe (hkem : A.KemCorrect)
    (hmax : rtokSize + duplexMactagSize.toNat ≤ P.messageMax) (s : Crossing A)
    (acts : List (Act A)) (h : s.Starts)
    (hfits : Along (Crossing.step K) (fun s a _ => a.move.Fits (s.turned a.turned)) s acts)
    (hclear : Along (Crossing.step K) (fun s a _ => a.move.Clear (s.turned a.turned)) s acts) :
    s.Safe K acts := by
  refine Along.of_invariant (I := fun s => s.Sound K) (fun s a s' hs hstep hR => ?_) h.sound
    (along_and.2 ⟨hfits, hclear⟩)
  obtain ⟨hs', hdelivers⟩ := hs.step hkem hmax hstep hR.1 hR.2
  exact ⟨hs', hdelivers, hs'.paired⟩

/-- Two fresh sides, of which the near one started the key exchange. -/
def Crossing.plain (P : Params) : Crossing (Asymmetric.plain P) :=
  ⟨⟨.plain P false 1 2, []⟩, ⟨.plain P true 2 1, []⟩⟩

theorem Crossing.starts_plain (hs : 0 < P.signingKeySize) (hv : 0 < P.verifyKeySize) :
    (Crossing.plain P).Starts where
  quiet := ⟨rfl, rfl⟩
  paired := RatchetPeers.paired_plain
  forth := Asymmetric.plain_signsFor hs hv
  back := Asymmetric.plain_signsFor hs hv

/-- The packet a side sends, if any, is the only new one. -/
theorem Crossing.mem_posts {ps : List (Parcel A)} {out : Option Bytes} {content : Content A}
    {p : Parcel A} (hp : p ∈ ps ++ (out.map fun bytes => (⟨bytes, content⟩ : Parcel A)).toList) :
    p ∈ ps ∨ p.content = content := by
  rcases List.mem_append.1 hp with hp | hp
  · exact .inl hp
  · obtain ⟨bytes, -, rfl⟩ := Option.map_eq_some_iff.1 (Option.mem_toList.1 hp)
    exact .inr rfl

/-- A message of the near side crosses a request of the far one. -/
theorem crossing_safe_plain : (Crossing.plain .dilithiumKyber).Safe .plain
    [⟨false, .send [7], .clear⟩, ⟨true, .sendRequest (1 : UInt8) (2 : UInt8), .clear⟩,
      ⟨true, .take (3 : UInt8) (4 : UInt8), .clear⟩, ⟨true, .take (0 : UInt8) (0 : UInt8), .clear⟩,
      ⟨false, .take (0 : UInt8) (0 : UInt8), .clear⟩] := by
  refine crossing_safe (Asymmetric.plain_kemCorrect (by decide)) (by decide) _ _
    (Crossing.starts_plain (by decide) (by decide)) ?_ ?_
  · refine fun _ _ => ⟨⟨List.cons_ne_nil _ _, by decide⟩, fun _ _ => ⟨trivial, fun _ _ =>
      ⟨trivial, fun _ _ => ⟨trivial, fun _ _ => ⟨trivial, trivial⟩⟩⟩⟩⟩
  · intro s hs
    obtain rfl := Option.some.inj hs
    refine ⟨⟨fun p hp => absurd hp List.not_mem_nil, fun p hp => absurd hp List.not_mem_nil⟩,
      fun _ _ => ⟨⟨fun p hp => ?_, fun p hp => absurd hp List.not_mem_nil⟩, fun _ _ =>
        ⟨trivial, fun _ _ => ⟨trivial, fun _ _ => ⟨trivial, trivial⟩⟩⟩⟩⟩
    rcases Crossing.mem_posts hp with hp | hp
    · exact absurd hp List.not_mem_nil
    · rw [hp]
      exact ⟨id, id⟩

/-- **Safety of every interleaving** of a signature scheme and a KEM. -/
def CrossingSafety (P : Params) (K : Primitives) (A : Asymmetric P) : Prop :=
  A.KemCorrect → ∀ (s : Crossing A) (acts : List (Act A)), s.Starts →
    Along (Crossing.step K) (fun s a _ => a.move.Fits (s.turned a.turned)) s acts →
    s.Safe K acts

/-- **A token that crosses a message** spoils it: the far side sends a
message, the near side a token before it takes that message, and the
message does not open any more. -/
theorem not_crossingSafety_token :
    ¬ CrossingSafety .dilithiumKyber .plain (Asymmetric.plain .dilithiumKyber) := by
  intro hsafety
  obtain ⟨s₁, hs₁⟩ : ∃ s₁, (Crossing.plain .dilithiumKyber).step .plain
    ⟨true, .send [7], .clear⟩ = some s₁ := ⟨_, rfl⟩
  obtain ⟨s₂, hs₂⟩ : ∃ s₂, s₁.step .plain ⟨true, .sendToken (Octets.zero _), .clear⟩ = some s₂ :=
    ⟨_, rfl⟩
  have hsafe := hsafety (Asymmetric.plain_kemCorrect (by decide)) (Crossing.plain .dilithiumKyber)
    [⟨true, .send [7], .clear⟩, ⟨true, .sendToken (Octets.zero _), .clear⟩,
      ⟨false, .take (0 : UInt8) (0 : UInt8), .clear⟩]
    (Crossing.starts_plain (by decide) (by decide))
    (fun _ _ => ⟨⟨List.cons_ne_nil _ _, by decide⟩,
      fun _ _ => ⟨trivial, fun _ _ => ⟨trivial, trivial⟩⟩⟩)
  have hlast := ((hsafe s₁ hs₁).2 s₂ hs₂).2
  have hreceived : (((Crossing.plain .dilithiumKyber).step .plain
      ⟨true, .send [7], .clear⟩).bind fun s =>
        s.step .plain ⟨true, .sendToken (Octets.zero _), .clear⟩).map (fun s =>
          s.near.inbox.head?.map fun p => (s.near.peer.receive .plain (Asymmetric.plain _) .clear
            (0 : UInt8) (0 : UInt8) p.bytes).ok) = some (some false) := by decide +kernel
  rw [hs₁, Option.bind_some, hs₂, Option.map_some, Option.some.injEq] at hreceived
  cases hinbox : s₂.near.inbox with
  | nil => simp [hinbox] at hreceived
  | cons p rest =>
    rw [hinbox] at hreceived
    have hstep : ∃ s₃, s₂.step .plain ⟨false, .take (0 : UInt8) (0 : UInt8), .clear⟩ = some s₃ := by
      simp only [Crossing.step, Crossing.turned, Crossing.move, hinbox]
      exact ⟨_, rfl⟩
    obtain ⟨s₃, hs₃⟩ := hstep
    have hok := ((hlast s₃ hs₃).1.1 p (by rw [Crossing.turned, hinbox]; rfl)).1
    exact absurd (hok.symm.trans (Option.some.inj hreceived)) (by decide)

end Qsmp
