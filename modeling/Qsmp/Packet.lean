import Qsmp.Config
import Qsmp.Qsc.Intutils
/-!
# Packets and their stream form

A packet is a flag, a length, a sequence number and a pointer to its
message. The stream form is the 13-byte header and as much of the message
as the length says, provided the length is within `QSMP_MESSAGE_MAX`.
-/

namespace Qsmp

/-- `qsmp_packet` -/
@[ext] structure QsmpPacket where
  flag : UInt8
  msglen : UInt32
  sequence : UInt64
  pmessage : Mem

namespace QsmpPacket

/-- A packet initialised with zeros, its message pointing to cleared
memory. -/
def init : QsmpPacket := ⟨0, 0, 0, Mem.zero⟩

end QsmpPacket

/-- `qsmp_packet_clear`. The message is cleared for the size of the
pointer, eight bytes, not of the buffer. -/
def qsmpPacketClear (packet : QsmpPacket) : QsmpPacket :=
  { flag := QsmpFlags.none.toByte, msglen := 0, sequence := 0,
    pmessage := packet.pmessage.clear 0 8 }

/-- `qsmp_packet_error_message` -/
def qsmpPacketErrorMessage (packet : QsmpPacket) (error : QsmpErrors) : QsmpPacket :=
  { flag := QsmpFlags.errorCondition.toByte, msglen := 1, sequence := sequenceTerminator,
    pmessage := packet.pmessage.write 0 [error.toByte] }

/-- `qsmp_packet_header_serialize` -/
def qsmpPacketHeaderSerialize (packet : QsmpPacket) : Bytes :=
  packet.flag :: (qscIntutilsLe32to8 packet.msglen ++ qscIntutilsLe64to8 packet.sequence)

/-- `qsmp_packet_header_deserialize` -/
def qsmpPacketHeaderDeserialize (header : Mem) (packet : QsmpPacket) : QsmpPacket :=
  { packet with
    flag := header 0
    msglen := qscIntutilsLe8to32 (header.shift 1)
    sequence := qscIntutilsLe8to64 (header.shift 5) }

/-- `qsmp_packet_to_stream`: the stream memory, and the number of bytes
written, which is zero for a packet that is too long. -/
def qsmpPacketToStream (P : Params) (packet : QsmpPacket) (pstream : Mem) : Mem × ℕ :=
  let pstream := pstream.write 0 [packet.flag]
  let pstream := pstream.write 1 (qscIntutilsLe32to8 packet.msglen)
  let pstream := pstream.write 5 (qscIntutilsLe64to8 packet.sequence)
  if packet.msglen.toNat ≤ P.messageMax then
    (pstream.write 13 (packet.pmessage.read 0 packet.msglen.toNat),
      headerSize + packet.msglen.toNat)
  else (pstream, 0)

/-- `qsmp_stream_to_packet`: the message is copied only if the length is
in range. -/
def qsmpStreamToPacket (P : Params) (pstream : Mem) (packet : QsmpPacket) : QsmpPacket :=
  let packet := qsmpPacketHeaderDeserialize pstream packet
  if packet.msglen.toNat ≤ P.messageMax then
    { packet with pmessage := packet.pmessage.write 0 (pstream.read 13 packet.msglen.toNat) }
  else packet

variable {P : Params} {packet resp : QsmpPacket} {pstream : Mem}

@[simp] theorem length_qsmpPacketHeaderSerialize :
    (qsmpPacketHeaderSerialize packet).length = headerSize := by
  simp [qsmpPacketHeaderSerialize, headerSize]

/-- The header a packet of this length and sequence carries does not read
its message. -/
@[simp] theorem qsmpPacketHeaderSerialize_pmessage {m : Mem} :
    qsmpPacketHeaderSerialize { packet with pmessage := m } = qsmpPacketHeaderSerialize packet :=
  rfl

/-- **The header round trip**: a header that starts with a packet's own
bytes deserializes to the packet's fields. -/
theorem qsmpPacketHeaderDeserialize_of_read {p : Mem}
    (h : p.read 0 headerSize = qsmpPacketHeaderSerialize packet) :
    qsmpPacketHeaderDeserialize p resp = { packet with pmessage := resp.pmessage } := by
  have hsplit : p.read 0 headerSize = [p 0] ++ (p.read 1 4 ++ p.read 5 8) := by
    rw [← Mem.read_add (m := 4) (n := 8), Mem.read_succ]
    rfl
  rw [hsplit, qsmpPacketHeaderSerialize, List.singleton_append, List.cons.injEq] at h
  obtain ⟨hflag, hrest⟩ := h
  obtain ⟨hlen, hseq⟩ := List.append_inj hrest (by simp)
  rw [qsmpPacketHeaderDeserialize, hflag,
    qscIntutilsLe8to32_of_read (by rw [Mem.shift_read]; exact hlen),
    qscIntutilsLe8to64_of_read (by rw [Mem.shift_read]; exact hseq)]

/-- **Header bytes determine the header.** -/
theorem qsmpPacketHeaderSerialize_inj {p q : QsmpPacket}
    (h : qsmpPacketHeaderSerialize p = qsmpPacketHeaderSerialize q) :
    p.flag = q.flag ∧ p.msglen = q.msglen ∧ p.sequence = q.sequence := by
  have hread : (Mem.zero.write 0 (qsmpPacketHeaderSerialize p)).read 0 headerSize
      = qsmpPacketHeaderSerialize p :=
    Mem.read_write_of_length length_qsmpPacketHeaderSerialize
  have hp : qsmpPacketHeaderDeserialize (Mem.zero.write 0 (qsmpPacketHeaderSerialize p)) .init
      = { p with pmessage := Mem.zero } := qsmpPacketHeaderDeserialize_of_read hread
  have hq : qsmpPacketHeaderDeserialize (Mem.zero.write 0 (qsmpPacketHeaderSerialize p)) .init
      = { q with pmessage := Mem.zero } := qsmpPacketHeaderDeserialize_of_read (hread.trans h)
  obtain ⟨hflag, hlen, hseq, -⟩ := QsmpPacket.mk.inj (hp.symm.trans hq)
  exact ⟨hflag, hlen, hseq⟩

/-- The four stores of the stream form are one. -/
theorem qsmpPacketToStream_of_le (h : packet.msglen.toNat ≤ P.messageMax) :
    qsmpPacketToStream P packet pstream = (pstream.write 0 (qsmpPacketHeaderSerialize packet
      ++ packet.pmessage.read 0 packet.msglen.toNat), headerSize + packet.msglen.toNat) := by
  have hparts : qsmpPacketHeaderSerialize packet ++ packet.pmessage.read 0 packet.msglen.toNat =
      [packet.flag] ++ (qscIntutilsLe32to8 packet.msglen ++
        (qscIntutilsLe64to8 packet.sequence ++
          packet.pmessage.read 0 packet.msglen.toNat)) := by
    simp [qsmpPacketHeaderSerialize]
  rw [hparts, Mem.write_append, Mem.write_append, Mem.write_append, qsmpPacketToStream, if_pos h]
  simp

/-- The bytes the stream form puts on the wire: the header, then the
message. -/
theorem read_qsmpPacketToStream (h : packet.msglen.toNat ≤ P.messageMax) :
    (qsmpPacketToStream P packet pstream).1.read 0 (headerSize + packet.msglen.toNat)
      = qsmpPacketHeaderSerialize packet ++ packet.pmessage.read 0 packet.msglen.toNat := by
  rw [qsmpPacketToStream_of_le h, Mem.read_write_start (by simp),
    List.take_of_length_le (by simp)]

/-- **Parsing what was serialised.** A stream that starts with a packet's
wire form parses to the packet, over whatever the message buffer held
past the packet's length. -/
theorem qsmpStreamToPacket_of_read (h : packet.msglen.toNat ≤ P.messageMax)
    (hread : pstream.read 0 (headerSize + packet.msglen.toNat)
      = qsmpPacketHeaderSerialize packet ++ packet.pmessage.read 0 packet.msglen.toNat) :
    qsmpStreamToPacket P pstream resp = { packet with
      pmessage := resp.pmessage.write 0 (packet.pmessage.read 0 packet.msglen.toNat) } := by
  rw [Mem.read_add, Nat.zero_add] at hread
  obtain ⟨hhdr, hmsg⟩ := List.append_inj hread (by simp)
  rw [qsmpStreamToPacket, qsmpPacketHeaderDeserialize_of_read hhdr, if_pos h]
  rw [show (13 : ℕ) = headerSize from rfl, hmsg]

/-- The round trip over the memory the stream form wrote. -/
theorem qsmpStreamToPacket_qsmpPacketToStream (h : packet.msglen.toNat ≤ P.messageMax) :
    qsmpStreamToPacket P (qsmpPacketToStream P packet pstream).1 resp = { packet with
      pmessage := resp.pmessage.write 0 (packet.pmessage.read 0 packet.msglen.toNat) } :=
  qsmpStreamToPacket_of_read h (read_qsmpPacketToStream h)

/-! ## The codec -/

/-- The stream form starts with the header, whatever the length. -/
theorem read_header_qsmpPacketToStream :
    (qsmpPacketToStream P packet pstream).1.read 0 headerSize =
      qsmpPacketHeaderSerialize packet := by
  have hparts : qsmpPacketHeaderSerialize packet = [packet.flag] ++
      (qscIntutilsLe32to8 packet.msglen ++ qscIntutilsLe64to8 packet.sequence) := rfl
  have hheader : ((pstream.write 0 [packet.flag]).write 1
      (qscIntutilsLe32to8 packet.msglen)).write 5 (qscIntutilsLe64to8 packet.sequence) =
      pstream.write 0 (qsmpPacketHeaderSerialize packet) := by
    rw [hparts, Mem.write_append, Mem.write_append]
    simp
  simp only [qsmpPacketToStream, hheader]
  split
  · have hbelow : ((pstream.write 0 (qsmpPacketHeaderSerialize packet)).write 13
        (packet.pmessage.read 0 packet.msglen.toNat)).read 0 headerSize =
        (pstream.write 0 (qsmpPacketHeaderSerialize packet)).read 0 headerSize :=
      Mem.read_write_below (Nat.le_refl _)
    exact hbelow.trans (Mem.read_write_of_length length_qsmpPacketHeaderSerialize)
  · exact Mem.read_write_of_length length_qsmpPacketHeaderSerialize

/-- **The header bytes survive the header.** -/
theorem qsmpPacketHeaderSerialize_deserialize :
    qsmpPacketHeaderSerialize (qsmpPacketHeaderDeserialize pstream packet) =
      pstream.read 0 headerSize := by
  have hsplit : pstream.read 0 headerSize =
      [pstream 0] ++ (pstream.read 1 4 ++ pstream.read 5 8) := by
    rw [← Mem.read_add (m := 4) (n := 8), Mem.read_succ]
    rfl
  rw [hsplit, qsmpPacketHeaderSerialize]
  simp only [qsmpPacketHeaderDeserialize, qscIntutilsLe32to8_le8to32,
    qscIntutilsLe64to8_le8to64, Mem.shift_read, Nat.add_zero, List.singleton_append]

/-- What is parsed from a stream and serialised again is what the stream
held, header and message. -/
theorem qsmpPacketToStream_of_stream {m : Mem} {l : ℕ}
    (hl : (qsmpPacketHeaderDeserialize m resp).msglen.toNat = l) (hmax : l ≤ P.messageMax) :
    (qsmpPacketToStream P (qsmpStreamToPacket P m resp) pstream).2 = headerSize + l ∧
      (qsmpPacketToStream P (qsmpStreamToPacket P m resp) pstream).1.read 0 (headerSize + l) =
        m.read 0 (headerSize + l) := by
  have hserialize : qsmpPacketHeaderSerialize (qsmpPacketHeaderDeserialize m resp) =
      m.read 0 headerSize := qsmpPacketHeaderSerialize_deserialize
  simp only [qsmpStreamToPacket, hl, if_pos hmax]
  generalize qsmpPacketHeaderDeserialize m resp = packet at hl hserialize ⊢
  have hread : (qsmpPacketToStream P
      { packet with pmessage := packet.pmessage.write 0 (m.read 13 l) } pstream).1.read 0
        (headerSize + packet.msglen.toNat) = qsmpPacketHeaderSerialize packet ++
          (packet.pmessage.write 0 (m.read 13 l)).read 0 packet.msglen.toNat :=
    read_qsmpPacketToStream (hl ▸ hmax)
  rw [hl, hserialize, Mem.read_write_of_length Mem.length_read] at hread
  refine ⟨?_, hread.trans ?_⟩
  · rw [qsmpPacketToStream_of_le (hl ▸ hmax), hl]
  · rw [Mem.read_add, Nat.zero_add]
    rfl

/-- **The packet codec.** Serialising and parsing restores the packet;
parsing and serialising restores the bytes of the packet, of any string
that holds as many as its header announces; what is serialised starts with
the header as it is authenticated; and the two header functions are each
other's inverse. -/
theorem packet_codec (P : Params) :
    (∀ (packet resp : QsmpPacket) (pstream : Mem), packet.msglen.toNat ≤ P.messageMax →
      let stream := qsmpPacketToStream P packet pstream
      let back := qsmpStreamToPacket P stream.1 resp
      stream.2 = 13 + packet.msglen.toNat ∧
        back.flag = packet.flag ∧ back.msglen = packet.msglen ∧
        back.sequence = packet.sequence ∧
        back.pmessage.read 0 packet.msglen.toNat =
          packet.pmessage.read 0 packet.msglen.toNat) ∧
    (∀ (bs : Bytes) (behind pstream : Mem) (resp : QsmpPacket),
      let l := (qsmpPacketHeaderDeserialize (behind.write 0 bs) resp).msglen.toNat
      let stream := qsmpPacketToStream P (qsmpStreamToPacket P (behind.write 0 bs) resp) pstream
      l ≤ P.messageMax → 13 + l ≤ bs.length →
        stream.2 = 13 + l ∧ stream.1.read 0 (13 + l) = bs.take (13 + l)) ∧
    (∀ (packet : QsmpPacket) (pstream : Mem),
      (qsmpPacketToStream P packet pstream).1.read 0 13 = qsmpPacketHeaderSerialize packet) ∧
    (∀ (header : Octets 13) (behind : Mem) (packet : QsmpPacket),
      qsmpPacketHeaderSerialize
        (qsmpPacketHeaderDeserialize (behind.write 0 header.val) packet) = header.val) ∧
    ∀ (packet resp : QsmpPacket) (behind : Mem),
      qsmpPacketHeaderDeserialize (behind.write 0 (qsmpPacketHeaderSerialize packet)) resp =
        { packet with pmessage := resp.pmessage } := by
  refine ⟨fun packet resp pstream h => ?_, fun bs behind pstream resp hmax hlen => ?_,
    fun packet pstream => read_header_qsmpPacketToStream,
    fun header behind packet => ?_, fun packet resp behind => ?_⟩
  · simp only [qsmpStreamToPacket_qsmpPacketToStream h]
    rw [qsmpPacketToStream_of_le h]
    exact ⟨rfl, trivial, trivial, trivial, Mem.read_write_of_length Mem.length_read⟩
  · obtain ⟨hstream, hread⟩ := qsmpPacketToStream_of_stream (P := P) (m := behind.write 0 bs) rfl
      hmax
    exact ⟨hstream, hread.trans (Mem.read_write_start hlen)⟩
  · rw [qsmpPacketHeaderSerialize_deserialize]
    exact Mem.read_write_of_length header.property
  · exact qsmpPacketHeaderDeserialize_of_read
      (Mem.read_write_of_length length_qsmpPacketHeaderSerialize)

theorem packet_codec_byte :
    (qsmpPacketToStream .dilithiumKyber ⟨4, 1, 7, .zero⟩ .zero).2 = 14 ∧
      (qsmpPacketToStream .dilithiumKyber (qsmpStreamToPacket .dilithiumKyber
        (Mem.zero.write 0 [4, 1, 0, 0, 0, 7, 0, 0, 0, 0, 0, 0, 0, 9, 0]) .init) .zero).1.read 0 14 =
        [4, 1, 0, 0, 0, 7, 0, 0, 0, 0, 0, 0, 0, 9] :=
  ⟨((packet_codec .dilithiumKyber).1 ⟨4, 1, 7, .zero⟩ .init .zero (by decide)).1,
    ((packet_codec .dilithiumKyber).2.1 [4, 1, 0, 0, 0, 7, 0, 0, 0, 0, 0, 0, 0, 9, 0] .zero .zero
      .init (by decide) (by decide)).2⟩

end Qsmp
