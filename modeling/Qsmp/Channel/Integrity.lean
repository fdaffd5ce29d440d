import Mathlib.Logic.Relation
import Qsmp.Channel.Correctness
/-!
# The channel against an active network

The sender encrypts, the network delivers whatever it likes, the receiver
decrypts until its first failure. The MAC is idealised in the step
relation: a packet is accepted only when what the receiver's MAC state has
then absorbed, packet by packet, is what the sender's had absorbed when it
made some tag. Over every run the messages received are a prefix of the
messages sent.
-/

namespace Qsmp

/-- What one packet adds to a MAC state: the header as associated data,
the nonce at that moment, and the cipher-text. -/
structure Absorbed where
  header : Bytes
  nonce : RcsBlock
  cpt : Bytes
deriving DecidableEq

/-- The two connections, and the history of both ends. -/
structure Channel where
  A : QsmpConnectionState
  B : QsmpConnectionState
  /-- The messages `A` encrypted. -/
  sent : List Bytes
  /-- What `A` absorbed, one entry for each tag it made. -/
  tagged : List Absorbed
  /-- What `B` absorbed. -/
  absorbed : List Absorbed
  /-- The messages `B` returned. -/
  received : List Bytes
  /-- `B` has returned an error. -/
  stopped : Bool

namespace Channel

/-- The channel before the first packet. -/
def start (A B : QsmpConnectionState) : Channel := ⟨A, B, [], [], [], [], false⟩

variable (P : Params) (K : Primitives)

/-- `A` encrypts a message. -/
def send (s : Channel) (m : Bytes) (packetout : QsmpPacket) : Channel :=
  let enc := qsmpEncryptPacket P K s.A packetout m
  if enc.1 = .none then
    { s with
      A := enc.2.1
      sent := s.sent ++ [m]
      tagged := s.tagged ++
        [⟨qsmpPacketHeaderSerialize enc.2.2, s.A.txcpr.nonce, enc.2.2.pmessage.read 0 m.length⟩] }
  else { s with A := enc.2.1 }

/-- What `B` absorbs of a packet in sequence. -/
def entry (s : Channel) (packet : QsmpPacket) : Absorbed :=
  ⟨qsmpPacketHeaderSerialize packet, s.B.rxcpr.nonce,
    packet.pmessage.read 0 (packet.msglen - s.B.maclen).toNat⟩

/-- `B` decrypts a packet, and stops at the first error. -/
def deliver (s : Channel) (packet : QsmpPacket) (message : Mem) : Channel :=
  let dec := qsmpDecryptPacket K s.B message packet
  let absorbed :=
    if packet.sequence = s.B.rxseq + 1 ∧ s.B.exflag = .sessionEstablished then
      s.absorbed ++ [s.entry packet]
    else s.absorbed
  if dec.1 = .none then
    { s with B := dec.2.1, absorbed, received := s.received ++ [dec.2.2.1.read 0 dec.2.2.2] }
  else { s with B := dec.2.1, absorbed, stopped := true }

/-- One step of sender or network. The network delivers any packet at all;
`mac` is the idealised MAC. -/
inductive Step : Channel → Channel → Prop
  | send (s : Channel) (m : Bytes) (packetout : QsmpPacket) : Step s (s.send P K m packetout)
  | deliver (s : Channel) (packet : QsmpPacket) (message : Mem) (running : s.stopped = false)
      (mac : (qsmpDecryptPacket K s.B message packet).1 = .none →
        s.absorbed ++ [s.entry packet] <+: s.tagged) :
      Step s (s.deliver K packet message)

/-- What an absorbed packet decrypts to under a key schedule. -/
def plaintext (schedule : RcsRoundkeys) (e : Absorbed) : Bytes :=
  (CounterMode.transform (rcsKeystream K schedule) rcsNextNonce rcsBlockSize e.nonce e.cpt).2

/-- **The invariant.** Every tag authenticates the encryption of the
message sent with it, and while the receiver runs it has returned the
decryption of what it absorbed. -/
structure Sound (schedule : RcsRoundkeys) (s : Channel) : Prop where
  encrypts : s.A.txcpr.encrypt = true
  txSchedule : s.A.txcpr.schedule = schedule
  sent : s.sent = s.tagged.map (plaintext K schedule)
  running : s.stopped = false → s.B.rxcpr.encrypt = false ∧ s.B.rxcpr.schedule = schedule ∧
    s.received = s.absorbed.map (plaintext K schedule)
  received : s.received <+: s.sent

variable {P K}
variable {s t : Channel} {schedule : RcsRoundkeys}

/-! ## What one call does to the ciphers -/

variable {A B : QsmpConnectionState} {m : Bytes} {packet : QsmpPacket} {message : Mem}

/-- The cipher-text of a message decrypts to it. -/
theorem plaintext_encryptBody (h : A.txcpr.encrypt = true) (header : QsmpPacket) (hdr : Bytes) :
    plaintext K A.txcpr.schedule
      ⟨hdr, A.txcpr.nonce, (encryptBody K A header m).2.1.read 0 m.length⟩ = m := by
  obtain ⟨tx, htx⟩ :
      ∃ tx, qscRcsSetAssociated K A.txcpr (qsmpPacketHeaderSerialize header) = tx := ⟨_, rfl⟩
  have henc : tx.encrypt = true := by rw [← htx, qscRcsSetAssociated_encrypt, h]
  have hsch : A.txcpr.schedule = tx.schedule := by rw [← htx, qscRcsSetAssociated_schedule]
  have hnon : A.txcpr.nonce = tx.nonce := by rw [← htx, qscRcsSetAssociated_nonce]
  have hread : (Mem.zero.write 0 m).read 0 m.length = m := Mem.read_write_self
  have hlen : (rcsCtrTransform K tx m).2.length = m.length := length_rcsCtrTransform
  rw [encryptBody, htx, qscRcsTransform_encrypt henc rfl, hread,
    Mem.read_write_below (by omega), ← hlen, Mem.read_write_self, hsch, hnon]
  exact congrArg Prod.snd rcsCtrTransform_rcsCtrTransform

/-- An accepted packet is returned decrypted. -/
theorem read_decryptBody (h : B.rxcpr.encrypt = false)
    (hok : (decryptBody K B message packet).2.2 = true) :
    (decryptBody K B message packet).2.1.read 0 (packet.msglen - B.maclen).toNat =
      plaintext K B.rxcpr.schedule ⟨qsmpPacketHeaderSerialize packet, B.rxcpr.nonce,
        packet.pmessage.read 0 (packet.msglen - B.maclen).toNat⟩ := by
  obtain ⟨rx, hrx⟩ :
      ∃ rx, qscRcsSetAssociated K B.rxcpr (qsmpPacketHeaderSerialize packet) = rx := ⟨_, rfl⟩
  have hdec : rx.encrypt = false := by rw [← hrx, qscRcsSetAssociated_encrypt, h]
  have hsch : B.rxcpr.schedule = rx.schedule := by rw [← hrx, qscRcsSetAssociated_schedule]
  have hnon : B.rxcpr.nonce = rx.nonce := by rw [← hrx, qscRcsSetAssociated_nonce]
  rw [decryptBody, hrx, qscRcsTransform_decrypt hdec rfl] at hok ⊢
  split at hok
  · rename_i htag
    rw [if_pos htag, hsch, hnon, Mem.read_write_start (by simp),
      List.take_of_length_le (by simp)]
    rfl
  · exact absurd hok (by simp)

/-! ## The invariant over a run -/

theorem Sound.start (h : Mirrored A B) : Sound K A.txcpr.schedule (start A B) where
  encrypts := h.ciphers.encrypts
  txSchedule := rfl
  sent := rfl
  running := fun _ => ⟨h.ciphers.decrypts, h.ciphers.schedule.symm, rfl⟩
  received := List.prefix_rfl

theorem Sound.send (h : Sound K schedule s) (m : Bytes) (packetout : QsmpPacket) :
    Sound K schedule (s.send P K m packetout) := by
  by_cases hgo : s.A.exflag = .sessionEstablished ∧ m ≠ []
  · obtain ⟨hest, hm⟩ := hgo
    have hentry := plaintext_encryptBody (K := K) (m := m) h.encrypts
      (encryptHeader P s.A packetout m)
    have hframe := encryptBody_frame (K := K) (A := s.A) (m := m)
      (encryptHeader P s.A packetout m)
    simp only [Channel.send, qsmpEncryptPacket_eq hest hm, if_true]
    refine ⟨hframe.2.2.trans h.encrypts, hframe.2.1.trans h.txSchedule, ?_, h.running,
      h.received.trans (List.prefix_append _ _)⟩
    rw [List.map_append, ← h.sent, List.map_singleton, ← h.txSchedule, hentry]
  · -- Nothing is sent on a connection that is down, or of an empty message.
    have hlen : ¬ (s.A.exflag = .sessionEstablished ∧ m.length ≠ 0) := fun hc =>
      hgo ⟨hc.1, fun hm => hc.2 (by rw [hm]; rfl)⟩
    have henc : qsmpEncryptPacket P K s.A packetout m = (.channelDown, s.A, packetout) := by
      rw [qsmpEncryptPacket, if_neg hlen]
    simp only [Channel.send, henc, reduceCtorEq, if_false]
    exact h

theorem Sound.deliver (h : Sound K schedule s) (hrun : s.stopped = false)
    (mac : (qsmpDecryptPacket K s.B message packet).1 = .none →
      s.absorbed ++ [s.entry packet] <+: s.tagged) :
    Sound K schedule (s.deliver K packet message) := by
  obtain ⟨hdec, hsch, hrec⟩ := h.running hrun
  rw [Channel.deliver]
  split
  · rename_i hnone
    obtain ⟨hseq, hest, hok⟩ := qsmpDecryptPacket_eq_none hnone
    have hmsg := read_decryptBody hdec hok
    obtain ⟨hschedule, hencrypt⟩ : (decryptBody K s.B message packet).1.schedule = _ ∧
        (decryptBody K s.B message packet).1.encrypt = _ := decryptBody_frame
    have hall : s.received ++ [plaintext K schedule (s.entry packet)]
        = (s.absorbed ++ [s.entry packet]).map (plaintext K schedule) := by
      rw [List.map_append, hrec, List.map_singleton]
    -- The MAC vouches for all that was absorbed, so all that was returned was sent, in order.
    rw [if_pos ⟨hseq, hest⟩]
    simp only [qsmpDecryptPacket_eq hest hseq, hok, if_true, hmsg, hsch]
    refine ⟨h.encrypts, h.txSchedule, h.sent, fun _ => ⟨hencrypt.trans hdec,
      hschedule.trans hsch, hall⟩, ?_⟩
    rw [h.sent]
    exact hall ▸ (mac hnone).map (plaintext K schedule)
  · exact ⟨h.encrypts, h.txSchedule, h.sent, fun hc => absurd hc (by simp), h.received⟩

theorem Sound.step (h : Sound K schedule s) (hstep : Step P K s t) : Sound K schedule t := by
  cases hstep with
  | send m packetout => exact h.send m packetout
  | deliver packet message running mac => exact h.deliver running mac

/-- The invariant holds in every state a run reaches. -/
theorem Sound.run (h : Sound K schedule s) (hrun : Relation.ReflTransGen (Step P K) s t) :
    Sound K schedule t := by
  induction hrun with
  | refl => exact h
  | tail _ hstep ih => exact ih.step hstep

/-- **Channel integrity.** From mirrored connections, whatever the sender
sends and whatever the network delivers, the messages the receiver returns
before its first error are a prefix of the messages sent. -/
theorem received_prefix_sent (h : Mirrored A B)
    (hrun : Relation.ReflTransGen (Step P K) (start A B) s) : s.received <+: s.sent :=
  ((Sound.start h).run hrun).received

/-- The sender's connection of the run below. -/
def sampleA : QsmpConnectionState :=
  .ofKeys .plain ⟨List.replicate 64 1, Octets.zero _, []⟩ ⟨List.replicate 64 2, Octets.zero _, []⟩ 3

/-- The receiver's. -/
def sampleB : QsmpConnectionState :=
  .ofKeys .plain ⟨List.replicate 64 2, Octets.zero _, []⟩ ⟨List.replicate 64 1, Octets.zero _, []⟩ 3

/-- The packet the sender makes. -/
def samplePacket : QsmpPacket :=
  (qsmpEncryptPacket .dilithiumKyber .plain sampleA .init [7, 8, 9]).2.2

/-- The channel after the message is sent and its packet delivered. -/
def sampleDelivered : Channel :=
  ((start sampleA sampleB).send .dilithiumKyber .plain [7, 8, 9] .init).deliver .plain
    samplePacket .zero

/-- The packet delivered once more stops the receiver, which keeps the one
message it has. -/
theorem received_prefix_sent_replay :
    (sampleDelivered.deliver .plain samplePacket .zero).received
      <+: (sampleDelivered.deliver .plain samplePacket .zero).sent :=
  received_prefix_sent (P := .dilithiumKyber) (K := .plain) (A := sampleA) (B := sampleB)
    ⟨rfl, rfl, .of_keyparams, rfl, rfl⟩
    (.tail (.tail (.single (.send _ _ _))
        (.deliver _ _ _ rfl fun _ => by decide +kernel))
      (.deliver _ _ _ (by decide +kernel) fun hnone =>
        absurd hnone (by decide +kernel)))

end Channel

end Qsmp
