import Qsmp.Channel.Connection
import Qsmp.Channel.Sealing
/-!
# The channel carries every message

Two mirrored connections stay mirrored over every packet: what one
encrypts, serialises and sends the other parses and decrypts, byte for
byte, and both ends move on alike. The step lemma is `mirrored_transfer`;
the run over any list of messages follows by induction.
-/

namespace Qsmp

/-- **Mirrored connections.** Both are established, the ciphers of the
direction from `A` to `B` mirror each other, `B` takes the tag size from a
cipher of the same type, and the sequence numbers meet. -/
structure Mirrored (A B : QsmpConnectionState) : Prop where
  establishedA : A.exflag = .sessionEstablished
  establishedB : B.exflag = .sessionEstablished
  ciphers : RcsMirrors A.txcpr B.rxcpr
  tagType : B.txcpr.ctype = B.rxcpr.ctype
  sequence : A.txseq = B.rxseq

/-- The memory both sides bring along for one packet, with whatever it
holds: the packet to fill, the stream, the packet to parse into and the
message buffer. -/
structure Buffers where
  packetout : QsmpPacket
  stream : Mem
  packetin : QsmpPacket
  message : Mem

/-- What one transfer returns: the code of each side, and the message with
the length the receiver reports. -/
structure Outcome where
  sent : QsmpErrors
  received : QsmpErrors
  message : Bytes
  msglen : ℕ
deriving DecidableEq

variable (P : Params) (K : Primitives)

/-- One message: encrypted by `A`, serialised, parsed and decrypted by `B`. -/
def transfer (A B : QsmpConnectionState) (m : Bytes) (buf : Buffers) :
    Outcome × QsmpConnectionState × QsmpConnectionState :=
  let enc := qsmpEncryptPacket P K A buf.packetout m
  let stream := (qsmpPacketToStream P enc.2.2 buf.stream).1
  let dec := qsmpDecryptPacket K B buf.message (qsmpStreamToPacket P stream buf.packetin)
  (⟨enc.1, dec.1, dec.2.2.1.read 0 dec.2.2.2, dec.2.2.2⟩, enc.2.1, dec.2.1)

/-- A run of transfers, in order. -/
def transfers : QsmpConnectionState → QsmpConnectionState → List (Bytes × Buffers) →
    List Outcome × QsmpConnectionState × QsmpConnectionState
  | A, B, [] => ([], A, B)
  | A, B, (m, buf) :: rest =>
    let first := transfer P K A B m buf
    let run := transfers first.2.1 first.2.2 rest
    (first.1 :: run.1, run.2)

variable {P K}
variable {A B : QsmpConnectionState} {m : Bytes}

/-- The assumed tag size is that of the transmit cipher. -/
theorem maclen_toNat : A.maclen.toNat = A.txcpr.ctype.macSize := by
  cases h : A.txcpr.ctype <;> simp [QsmpConnectionState.maclen, h] <;> rfl

/-- A message that fits a packet with its tag has a 32-bit length. -/
theorem length_lt_of_fits (h : m.length + A.txcpr.ctype.macSize ≤ P.messageMax) :
    m.length < 2 ^ 32 := by
  have := P.messageMax_lt
  omega

theorem toNat_ofNat_of_fits (h : m.length + A.txcpr.ctype.macSize ≤ P.messageMax) :
    (UInt32.ofNat m.length).toNat = m.length :=
  UInt32.toNat_ofNat_of_lt' (length_lt_of_fits h)

/-- So the length field of its packet is exact. -/
theorem msglen_toNat_of_fits (h : m.length + A.txcpr.ctype.macSize ≤ P.messageMax) :
    (UInt32.ofNat m.length + A.maclen).toNat = m.length + A.txcpr.ctype.macSize := by
  have := P.messageMax_lt
  rw [UInt32.toNat_add, toNat_ofNat_of_fits h, maclen_toNat, Nat.mod_eq_of_lt (by omega)]

/-! ## One side at a time -/

/-- The packet `A` assembles, before its message is encrypted. -/
def encryptHeader (P : Params) (A : QsmpConnectionState) (packetout : QsmpPacket) (m : Bytes) :
    QsmpPacket where
  flag := QsmpFlags.encryptedMessage.toByte
  msglen := UInt32.ofNat m.length + A.maclen
  sequence := A.txseq + 1
  pmessage := packetout.pmessage.clear 0 P.messageMax

/-- What the cipher makes of a message under a header. -/
def encryptBody (K : Primitives) (A : QsmpConnectionState) (header : QsmpPacket) (m : Bytes) :
    RcsState × Mem × Bool :=
  qscRcsTransform K (qscRcsSetAssociated K A.txcpr (qsmpPacketHeaderSerialize header))
    header.pmessage (Mem.zero.write 0 m) m.length

/-- Encryption keeps the cipher type, the key schedule and the direction. -/
theorem encryptBody_frame (header : QsmpPacket) :
    (encryptBody K A header m).1.ctype = A.txcpr.ctype ∧
      (encryptBody K A header m).1.schedule = A.txcpr.schedule ∧
      (encryptBody K A header m).1.encrypt = A.txcpr.encrypt := by
  rw [encryptBody, qscRcsTransform_frame.1, qscRcsTransform_frame.2.1, qscRcsTransform_frame.2.2]
  exact ⟨qscRcsSetAssociated_ctype, qscRcsSetAssociated_schedule, qscRcsSetAssociated_encrypt⟩

/-- **Encryption on an established connection**, in one equation: the
header binds the next sequence number, the body is the cipher's output. -/
theorem qsmpEncryptPacket_eq (hA : A.exflag = .sessionEstablished) (hm : m ≠ [])
    {packetout : QsmpPacket} :
    qsmpEncryptPacket P K A packetout m =
      (.none,
        { A with
          txseq := A.txseq + 1
          txcpr := (encryptBody K A (encryptHeader P A packetout m) m).1 },
        { encryptHeader P A packetout m with
          pmessage := (encryptBody K A (encryptHeader P A packetout m) m).2.1 }) := by
  have hlen : m.length ≠ 0 := fun h => hm (List.eq_nil_of_length_eq_zero h)
  rw [qsmpEncryptPacket, if_pos ⟨hA, hlen⟩]
  rfl

/-- **The body is the sealed message**, under the cipher with the header
bound. -/
theorem encryptBody_seals (h : A.txcpr.encrypt = true) (header : QsmpPacket) :
    let tx := qscRcsSetAssociated K A.txcpr (qsmpPacketHeaderSerialize header)
    encryptBody K A header m = (tx.after K m, header.pmessage.write 0 (tx.sealed K m), true) :=
  RcsState.transform_seals (qscRcsSetAssociated_encrypt.trans h) Mem.read_write_self

/-- The cipher of the sender keeps its type, message or none. -/
theorem qsmpEncryptPacket_ctype {packetout : QsmpPacket} :
    (qsmpEncryptPacket P K A packetout m).2.1.txcpr.ctype = A.txcpr.ctype := by
  rw [qsmpEncryptPacket]
  split
  · exact (encryptBody_frame (K := K) (m := m) _).1
  · rfl

/-- What the cipher makes of a received packet. -/
def decryptBody (K : Primitives) (B : QsmpConnectionState) (message : Mem)
    (packetin : QsmpPacket) : RcsState × Mem × Bool :=
  qscRcsTransform K (qscRcsSetAssociated K B.rxcpr (qsmpPacketHeaderSerialize packetin)) message
    packetin.pmessage (packetin.msglen - B.maclen).toNat

/-- So does decryption. -/
theorem decryptBody_frame {message : Mem} {packetin : QsmpPacket} :
    (decryptBody K B message packetin).1.schedule = B.rxcpr.schedule ∧
      (decryptBody K B message packetin).1.encrypt = B.rxcpr.encrypt := by
  rw [decryptBody, qscRcsTransform_frame.2.1, qscRcsTransform_frame.2.2]
  exact ⟨qscRcsSetAssociated_schedule, qscRcsSetAssociated_encrypt⟩

/-- **Decryption of a packet in sequence**, in one equation. -/
theorem qsmpDecryptPacket_eq (hB : B.exflag = .sessionEstablished) {packetin : QsmpPacket}
    (hseq : packetin.sequence = B.rxseq + 1) {message : Mem} :
    qsmpDecryptPacket K B message packetin =
      if (decryptBody K B message packetin).2.2 then
        (.none,
          { B with rxseq := B.rxseq + 1, rxcpr := (decryptBody K B message packetin).1 },
          (decryptBody K B message packetin).2.1, (packetin.msglen - B.maclen).toNat)
      else
        (.authenticationFailure,
          { B with rxseq := B.rxseq + 1, rxcpr := (decryptBody K B message packetin).1 },
          (decryptBody K B message packetin).2.1, 0) := by
  rw [qsmpDecryptPacket]
  simp only [hseq, hB, if_true]
  rfl

/-- **What an accepted packet says about the call**: it was in sequence on
an established connection, and the cipher accepted it. -/
theorem qsmpDecryptPacket_eq_none {packetin : QsmpPacket} {message : Mem}
    (h : (qsmpDecryptPacket K B message packetin).1 = .none) :
    packetin.sequence = B.rxseq + 1 ∧ B.exflag = .sessionEstablished ∧
      (decryptBody K B message packetin).2.2 = true := by
  by_cases hseq : packetin.sequence = B.rxseq + 1
  · by_cases hest : B.exflag = .sessionEstablished
    · rw [qsmpDecryptPacket_eq hest hseq] at h
      split at h
      · rename_i hok
        exact ⟨hseq, hest, hok⟩
      · exact absurd h (by simp)
    · simp [qsmpDecryptPacket, hseq, hest] at h
  · simp [qsmpDecryptPacket, hseq] at h

/-! ## Both sides together -/

/-- The length `B` takes off a packet is that of the message `A` made it
of. -/
theorem Mirrored.count (h : Mirrored A B) (hlen : m.length < 2 ^ 32) :
    (UInt32.ofNat m.length + A.maclen - B.maclen).toNat = m.length := by
  have hmac : B.maclen = A.maclen := by
    rw [QsmpConnectionState.maclen, QsmpConnectionState.maclen, h.tagType, h.ciphers.ctype]
  rw [hmac, UInt32.add_sub_cancel, UInt32.toNat_ofNat_of_lt' hlen]

/-- **What `A` seals `B` opens**, from any packet that holds it under the
header `A` made: `B` gets the message back, and the connections mirror each
other again. -/
theorem Mirrored.opens (h : Mirrored A B) (hm : m ≠ []) (hlen : m.length < 2 ^ 32)
    (packetout : QsmpPacket) {pmessage : Mem}
    (hread : pmessage.read 0 (m.length + A.txcpr.ctype.macSize) =
      (qscRcsSetAssociated K A.txcpr
        (qsmpPacketHeaderSerialize (encryptHeader P A packetout m))).sealed K m)
    (message : Mem) :
    ∃ cns, qsmpDecryptPacket K B message { encryptHeader P A packetout m with pmessage } =
        (.none, cns, message.write 0 m, m.length) ∧
      Mirrored (qsmpEncryptPacket P K A packetout m).2.1 cns ∧ cns.target = B.target := by
  obtain ⟨header, hheader⟩ : ∃ p, encryptHeader P A packetout m = p := ⟨_, rfl⟩
  have hseq : ({ header with pmessage } : QsmpPacket).sequence = B.rxseq + 1 := by
    rw [← hheader]
    exact congrArg (· + 1) h.sequence
  have hcount : (header.msglen - B.maclen).toNat = m.length := by
    rw [← hheader]
    exact h.count hlen
  -- Both ciphers absorb the same header, and then work on the same cipher-text and tag.
  have hciphers := h.ciphers.setAssociated (K := K) (qsmpPacketHeaderSerialize header)
  have hbody : decryptBody K B message { header with pmessage } =
      ({ (qscRcsSetAssociated K A.txcpr (qsmpPacketHeaderSerialize header)).after K m with
          encrypt := false }, message.write 0 m, true) := by
    rw [decryptBody, qsmpPacketHeaderSerialize_pmessage, hcount]
    exact RcsState.transform_opens hciphers rfl (by rwa [qscRcsSetAssociated_ctype, ← hheader])
  rw [qsmpEncryptPacket_eq h.establishedA hm, hheader, encryptBody_seals h.ciphers.encrypts,
    qsmpDecryptPacket_eq h.establishedB hseq, hbody, if_pos rfl, hcount]
  refine ⟨_, rfl, ?_, rfl⟩
  exact
    { establishedA := h.establishedA
      establishedB := h.establishedB
      ciphers := .of_encrypt hciphers.encrypts
      tagType := h.tagType.trans (h.ciphers.ctype.symm.trans qscRcsSetAssociated_ctype.symm)
      sequence := congrArg (· + 1) h.sequence }

/-- What `B` parses the packet on the wire to: the header, and as much of
the cipher's output as the header counts. -/
def parsedPacket (P : Params) (K : Primitives) (A : QsmpConnectionState) (m : Bytes)
    (buf : Buffers) : QsmpPacket :=
  let header := encryptHeader P A buf.packetout m
  { header with
    pmessage := buf.packetin.pmessage.write 0
      ((encryptBody K A header m).2.1.read 0 header.msglen.toNat) }

section Parsed

variable {buf : Buffers}

/-- Serialising and parsing keep the packet, so a transfer decrypts it. -/
theorem transfer_eq (hA : A.exflag = .sessionEstablished) (hm : m ≠ [])
    (hfit : m.length + A.txcpr.ctype.macSize ≤ P.messageMax) :
    transfer P K A B m buf =
      let dec := qsmpDecryptPacket K B buf.message (parsedPacket P K A m buf)
      (⟨.none, dec.1, dec.2.2.1.read 0 dec.2.2.2, dec.2.2.2⟩,
        { A with
          txseq := A.txseq + 1
          txcpr := (encryptBody K A (encryptHeader P A buf.packetout m) m).1 },
        dec.2.1) := by
  obtain ⟨sent, hsent⟩ : ∃ p : QsmpPacket, p = { encryptHeader P A buf.packetout m with
    pmessage := (encryptBody K A (encryptHeader P A buf.packetout m) m).2.1 } := ⟨_, rfl⟩
  have hlen : sent.msglen.toNat = m.length + A.txcpr.ctype.macSize := by
    rw [hsent]
    exact msglen_toNat_of_fits hfit
  have hwire : qsmpStreamToPacket P (qsmpPacketToStream P sent buf.stream).1 buf.packetin
      = parsedPacket P K A m buf := by
    rw [qsmpStreamToPacket_qsmpPacketToStream (by rw [hlen]; exact hfit), hsent]
    rfl
  simp only [transfer, qsmpEncryptPacket_eq hA hm, ← hsent, hwire]

/-- The parsed packet holds the sealed message. -/
theorem read_parsedPacket (h : A.txcpr.encrypt = true)
    (hfit : m.length + A.txcpr.ctype.macSize ≤ P.messageMax) :
    (parsedPacket P K A m buf).pmessage.read 0 (m.length + A.txcpr.ctype.macSize) =
      (qscRcsSetAssociated K A.txcpr
        (qsmpPacketHeaderSerialize (encryptHeader P A buf.packetout m))).sealed K m := by
  have hlen : (encryptHeader P A buf.packetout m).msglen.toNat
      = m.length + A.txcpr.ctype.macSize := msglen_toNat_of_fits hfit
  have hseal : ((qscRcsSetAssociated K A.txcpr (qsmpPacketHeaderSerialize
      (encryptHeader P A buf.packetout m))).sealed K m).length =
        m.length + A.txcpr.ctype.macSize := by
    rw [RcsState.length_sealed, qscRcsSetAssociated_ctype]
  rw [parsedPacket, hlen, Mem.read_write_of_length Mem.length_read, encryptBody_seals h]
  exact Mem.read_write_of_length hseal

end Parsed

/-- **The step.** A message that fits reaches the other side as it was
sent, and the connections mirror each other again. -/
theorem mirrored_transfer (h : Mirrored A B) (hm : m ≠ [])
    (hfit : m.length + A.txcpr.ctype.macSize ≤ P.messageMax) (buf : Buffers) :
    (transfer P K A B m buf).1 = ⟨.none, .none, m, m.length⟩ ∧
      Mirrored (transfer P K A B m buf).2.1 (transfer P K A B m buf).2.2 ∧
      (transfer P K A B m buf).2.1.txcpr.ctype = A.txcpr.ctype := by
  have hshort : m.length < 2 ^ 32 := length_lt_of_fits hfit
  obtain ⟨cns, hdec, hmirror, -⟩ := h.opens hm hshort buf.packetout
    (read_parsedPacket (K := K) h.ciphers.encrypts hfit) buf.message
  rw [qsmpEncryptPacket_eq h.establishedA hm] at hmirror
  rw [transfer_eq h.establishedA hm hfit]
  have hopened : qsmpDecryptPacket K B buf.message (parsedPacket P K A m buf) = _ := hdec
  simp only [hopened, Mem.read_write_self]
  exact ⟨trivial, hmirror, (encryptBody_frame _).1⟩

/-- **The channel carries every message.** Over any list of non-empty
messages that fit a packet with their tag, every encryption and every
decryption succeeds, the receiver gets the messages in order with their
lengths, and the connections mirror each other at the end. -/
theorem mirrored_transfers : ∀ (A B : QsmpConnectionState) (msgs : List (Bytes × Buffers)),
    Mirrored A B →
    (∀ m ∈ msgs, m.1 ≠ [] ∧ m.1.length + A.txcpr.ctype.macSize ≤ P.messageMax) →
    (transfers P K A B msgs).1 = msgs.map (fun m => ⟨.none, .none, m.1, m.1.length⟩) ∧
      Mirrored (transfers P K A B msgs).2.1 (transfers P K A B msgs).2.2 := by
  intro A B msgs
  induction msgs generalizing A B with
  | nil => exact fun h _ => ⟨rfl, h⟩
  | cons head rest ih =>
    intro h hfit
    obtain ⟨m, buf⟩ := head
    obtain ⟨hm, hlen⟩ := hfit (m, buf) List.mem_cons_self
    obtain ⟨hout, hmirror, htype⟩ := mirrored_transfer (K := K) (m := m) h hm hlen buf
    obtain ⟨hrest, hend⟩ := ih (transfer P K A B m buf).2.1 (transfer P K A B m buf).2.2
      hmirror fun x hx => by
        rw [htype]
        exact hfit x (List.mem_cons_of_mem _ hx)
    simp only [transfers, List.map_cons, hrest, hout, true_and]
    exact hend

/-- A connection of a simplex session over RCS-256. -/
def simplexEnd (tx rx : UInt8) : QsmpConnectionState :=
  .ofKeys .plain ⟨List.replicate 32 tx, Octets.zero _, []⟩ ⟨List.replicate 32 rx, Octets.zero _, []⟩
    3

theorem mirrored_simplexEnd : Mirrored (simplexEnd 1 2) (simplexEnd 2 1) :=
  ⟨rfl, rfl, .of_keyparams, rfl, rfl⟩

/-- Two messages, the second longer than a block, over freshly keyed
RCS-512 connections. -/
theorem mirrored_transfers_two :
    (transfers .dilithiumKyber .plain (.ofKeys .plain ⟨List.replicate 64 1, Octets.zero _, []⟩
      ⟨List.replicate 64 2, Octets.zero _, []⟩ 3) (.ofKeys .plain
      ⟨List.replicate 64 2, Octets.zero _, []⟩ ⟨List.replicate 64 1, Octets.zero _, []⟩ 3)
      [([7], ⟨.init, .zero, .init, .zero⟩), (List.replicate 40 9, ⟨.init, .zero, .init, .zero⟩)]).1
      = [⟨.none, .none, [7], 1⟩, ⟨.none, .none, List.replicate 40 9, 40⟩] :=
  (mirrored_transfers _ _ _ ⟨rfl, rfl, .of_keyparams, rfl, rfl⟩ (by decide)).1

end Qsmp
