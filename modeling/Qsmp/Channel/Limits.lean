import Qsmp.Channel.Correctness
/-!
# Encryption at the limits of a packet

`qsmp_encrypt_packet` tests that there is a message and a session, and
nothing of the length: it narrows the length to 32 bits, adds that of the
tag, and writes cipher-text and tag to a buffer of `QSMP_MESSAGE_MAX`
bytes. The limit is tested by the serialiser, when the sequence number and
the cipher have moved on.
-/

namespace Qsmp

variable {P : Params} {K : Primitives} {cns : QsmpConnectionState} {packetout : QsmpPacket}
variable {message : Bytes}

/-- **A packet that can be sent**: its length is that of the message and
the tag, the buffer has room for both and holds them in front, under the
header of the packet; the rest of the buffer is clear, what lies behind it
is as it was, and the serialiser takes the packet. -/
structure Sendable (P : Params) (K : Primitives) (cns : QsmpConnectionState)
    (packetout : QsmpPacket) (message : Bytes) (packet : QsmpPacket) : Prop where
  msglen : packet.msglen.toNat = message.length + cns.txcpr.ctype.macSize
  inside : message.length + cns.txcpr.ctype.macSize ≤ P.messageMax
  /-- A transmit cipher that an exchange has keyed encrypts. -/
  seals : cns.txcpr.encrypt = true →
    packet.pmessage.read 0 (message.length + cns.txcpr.ctype.macSize) =
      (qscRcsSetAssociated K cns.txcpr (qsmpPacketHeaderSerialize packet)).sealed K message
  cleared : ∀ i, message.length + cns.txcpr.ctype.macSize ≤ i → i < P.messageMax →
    packet.pmessage i = 0
  behind : ∀ i, P.messageMax ≤ i → packet.pmessage i = packetout.pmessage i
  serialised : ∀ pstream, (qsmpPacketToStream P packet pstream).2 ≠ 0

/-- **A packet or no trace**: an error, the connection and the packet as
they were, or no error and a packet that can be sent. -/
def EncryptsOrLeaves (P : Params) (K : Primitives) (cns : QsmpConnectionState)
    (packetout : QsmpPacket) (message : Bytes) : Prop :=
  let r := qsmpEncryptPacket P K cns packetout message
  r.1 ≠ .none ∧ r.2.1 = cns ∧ r.2.2 = packetout ∨
    r.1 = .none ∧ Sendable P K cns packetout message r.2.2

/-- The law for every connection, packet buffer and message. -/
def EncryptionTraceless (P : Params) (K : Primitives) : Prop :=
  ∀ (cns : QsmpConnectionState) (packetout : QsmpPacket) (message : Bytes),
    EncryptsOrLeaves P K cns packetout message

/-- Without a session or a message nothing is done. -/
theorem qsmpEncryptPacket_refuses
    (h : cns.exflag ≠ .sessionEstablished ∨ message.length = 0) :
    qsmpEncryptPacket P K cns packetout message = (.channelDown, cns, packetout) := by
  rw [qsmpEncryptPacket, if_neg]
  rintro ⟨hest, hlen⟩
  rcases h with h | h
  · exact h hest
  · exact hlen h

/-- With both there is no error, whatever the length, and the packet is the
header with what the cipher makes of the message. -/
theorem qsmpEncryptPacket_none (hest : cns.exflag = .sessionEstablished)
    (hlen : message.length ≠ 0) :
    (qsmpEncryptPacket P K cns packetout message).1 = .none ∧
      (qsmpEncryptPacket P K cns packetout message).2.2 =
        { encryptHeader P cns packetout message with
          pmessage :=
            (encryptBody K cns (encryptHeader P cns packetout message) message).2.1 } := by
  have hne : message ≠ [] := fun h => hlen (by rw [h]; rfl)
  rw [qsmpEncryptPacket_eq hest hne]
  exact ⟨rfl, rfl⟩

/-- **Nothing is written behind the tag.** -/
theorem encryptBody_behind (header : QsmpPacket) {i : ℕ}
    (hi : message.length + cns.txcpr.ctype.macSize ≤ i) :
    (encryptBody K cns header message).2.1 i = header.pmessage i :=
  qscRcsTransform_behind (by rwa [qscRcsSetAssociated_ctype])

/-- In front stands the sealed message. -/
theorem read_encryptBody (h : cns.txcpr.encrypt = true) (header : QsmpPacket) :
    (encryptBody K cns header message).2.1.read 0
        (message.length + cns.txcpr.ctype.macSize) =
      (qscRcsSetAssociated K cns.txcpr (qsmpPacketHeaderSerialize header)).sealed K message := by
  rw [encryptBody_seals h]
  exact Mem.read_write_of_length (by rw [RcsState.length_sealed, qscRcsSetAssociated_ctype])

/-- **A packet is sendable just if the message and the tag fit** the
largest one. -/
theorem sendable_iff (hest : cns.exflag = .sessionEstablished) (hlen : message.length ≠ 0) :
    Sendable P K cns packetout message (qsmpEncryptPacket P K cns packetout message).2.2 ↔
      message.length + cns.txcpr.ctype.macSize ≤ P.messageMax := by
  refine ⟨Sendable.inside, fun hfits => ?_⟩
  obtain ⟨header, hheader⟩ : ∃ p, encryptHeader P cns packetout message = p := ⟨_, rfl⟩
  have hmsglen : header.msglen.toNat = message.length + cns.txcpr.ctype.macSize := by
    rw [← hheader]
    exact msglen_toNat_of_fits hfits
  have hbuffer : header.pmessage = packetout.pmessage.clear 0 P.messageMax := by
    rw [← hheader]
    rfl
  rw [(qsmpEncryptPacket_none hest hlen).2, hheader]
  refine ⟨hmsglen, hfits, fun h => ?_, fun i hi hmax => ?_, fun i hi => ?_, fun pstream => ?_⟩
  · rw [qsmpPacketHeaderSerialize_pmessage]
    exact read_encryptBody h header
  · have hclear : packetout.pmessage.clear 0 P.messageMax (0 + i) = 0 := Mem.clear_of_lt hmax
    rw [Nat.zero_add, ← hbuffer] at hclear
    exact (encryptBody_behind header hi).trans hclear
  · have hkept : packetout.pmessage.clear 0 P.messageMax i = packetout.pmessage i :=
      Mem.clear_of_ge (by rwa [Nat.zero_add])
    rw [← hbuffer] at hkept
    exact (encryptBody_behind header (hfits.trans hi)).trans hkept
  · rw [qsmpPacketToStream_of_le (by exact hmsglen ▸ hfits)]
    simp only [headerSize]
    omega

/-- **When encryption sends or leaves no trace**: there is no session, or
no message, or the message and its tag fit the largest packet. -/
theorem encryptsOrLeaves_iff (P : Params) (K : Primitives) (cns : QsmpConnectionState)
    (packetout : QsmpPacket) (message : Bytes) :
    EncryptsOrLeaves P K cns packetout message ↔
      (cns.exflag ≠ .sessionEstablished ∨ message.length = 0 ∨
        message.length + cns.txcpr.ctype.macSize ≤ P.messageMax) := by
  by_cases hest : cns.exflag = .sessionEstablished
  · by_cases hlen : message.length = 0
    · refine iff_of_true (.inl ?_) (.inr (.inl hlen))
      rw [qsmpEncryptPacket_refuses (.inr hlen)]
      exact ⟨nofun, rfl, rfl⟩
    · have hnone : (qsmpEncryptPacket P K cns packetout message).1 = .none :=
        (qsmpEncryptPacket_none hest hlen).1
      constructor
      · rintro (⟨herror, -⟩ | ⟨-, hsend⟩)
        · exact absurd hnone herror
        · exact .inr (.inr hsend.inside)
      · rintro (h | h | hfits)
        · exact absurd hest h
        · exact absurd h hlen
        · exact .inr ⟨hnone, (sendable_iff hest hlen).2 hfits⟩
  · refine iff_of_true (.inl ?_) (.inl hest)
    rw [qsmpEncryptPacket_refuses (.inl hest)]
    exact ⟨nofun, rfl, rfl⟩

/-- A message of `QSMP_MESSAGE_MAX` bytes leaves no room for the tag. -/
theorem not_encryptionTraceless_full : ¬ EncryptionTraceless .dilithiumKyber .plain := by
  intro htraceless
  have hest : (QsmpConnectionState.ofKeys .plain ⟨List.replicate 64 1, Octets.zero _, []⟩
      ⟨List.replicate 64 2, Octets.zero _, []⟩ 3).exflag = .sessionEstablished := rfl
  have hlen : (List.replicate (Params.messageMax .dilithiumKyber) (0 : UInt8)).length =
      Params.messageMax .dilithiumKyber := List.length_replicate
  rcases htraceless _ .init (List.replicate (Params.messageMax .dilithiumKyber) 0) with
    ⟨herror, -⟩ | ⟨-, hsend⟩
  · refine herror (qsmpEncryptPacket_none hest ?_).1
    rw [hlen]
    decide
  · have hinside := hsend.inside
    rw [hlen] at hinside
    exact absurd hinside (by decide)

end Qsmp
