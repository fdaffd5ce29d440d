import Qsmp.Channel.Correctness
import Qsmp.Channel.Sealing
import Qsmp.Receive.Bounds
import Qsmp.Receive.Server
/-!
# What the server hands to the application

The loop of the server decrypts a message into an array that starts out
clear, and takes its size from the first zero in the array, not from the
length the decryption returns. A text without a zero is handed on as it was
sent, and the array is clear again; a message with a zero is cut at it, and
what stands behind the zero stays in the array for the messages to come.

The buffer is not longer than the largest packet a receive is meant to
take, and the socket puts a byte behind every packet: that of a packet that
fills the buffer is left to the next receive, and ends the connection.
-/

namespace Qsmp

/-- A message a client encrypts, with what the packet and the stream buffer
it uses hold. -/
structure Payload where
  text : Bytes
  packetout : QsmpPacket
  stream : Mem

/-- What the stack holds where the loop has its arrays. -/
structure ServerArrays where
  buffer : Mem
  mstr : Mem
  pmsg : Mem

section

variable (P : Params) (K : Primitives)

/-- The packet of a message. -/
def Payload.packet (A : QsmpConnectionState) (m : Payload) : QsmpPacket :=
  (qsmpEncryptPacket P K A m.packetout m.text).2.2

/-- The stream buffer with the packet, and the length of its stream form. -/
def Payload.stored (A : QsmpConnectionState) (m : Payload) : Mem × ℕ :=
  qsmpPacketToStream P (m.packet P K A) m.stream

/-- What the client sends: the stream form, and the byte behind it. -/
def Payload.wire (A : QsmpConnectionState) (m : Payload) : Bytes :=
  (m.stored P K A).1.read 0 ((m.stored P K A).2 + socketTerminatorSize)

/-- **The passes over what a receive has left** in the socket, until
nothing is: the loop behind them, and the texts of the callback. -/
def serverDrain (s : ServerLoop) (unread : Bytes) : ServerLoop × List Bytes :=
  if s.Runs ∧ unread ≠ [] then
    let pass := serverReceiveLoop P K s ⟨unread, false⟩
    let rest := serverDrain pass.loop (unread.drop connectionMtu)
    (rest.1, pass.callback.toList ++ rest.2)
  else (s, [])
termination_by unread.length
decreasing_by
  -- A receive that returns takes a byte at least.
  rename_i h
  have hpos : 0 < unread.length := List.length_pos_iff.2 h.2
  rw [List.length_drop, connectionMtu]
  omega

/-- **The calls of the callback**, with the text of each, as the packets of
a client come one at a receive. What the receive of a packet has left in
the socket, the loop finds there before the next packet. -/
def serverCalls : QsmpConnectionState → ServerLoop → Bytes → List Payload → List Bytes
  | _, _, _, [] => []
  | A, s, unread, m :: rest =>
    let left := serverDrain P K s unread
    if left.1.Runs then
      let pass := serverReceiveLoop P K left.1 ⟨m.wire P K A, false⟩
      left.2 ++ pass.callback.toList ++
        serverCalls (qsmpEncryptPacket P K A m.packetout m.text).2.1 pass.loop
          ((m.wire P K A).drop connectionMtu) rest
    else left.2

/-- The loop of a server that enters it over these arrays. -/
def ServerArrays.enter (a : ServerArrays) (cns : QsmpConnectionState) : ServerLoop :=
  .start P cns a.buffer a.mstr a.pmsg

end

variable {P : Params} {K : Primitives} {A B : QsmpConnectionState} {m : Payload} {s : ServerLoop}
variable {c : RcsCipherType}

/-- Any message the client can encrypt and put into a packet. -/
def Payload.Accepted (P : Params) (c : RcsCipherType) (m : Payload) : Prop :=
  m.text ≠ [] ∧ m.text.length + c.macSize ≤ P.messageMax

instance : Decidable (m.Accepted P c) := inferInstanceAs (Decidable (_ ∧ _))

/-- The condition on a message: it holds no zero, and its packet fits one
receive. -/
def Payload.Plain (c : RcsCipherType) (m : Payload) : Prop :=
  0 ∉ m.text ∧ headerSize + (m.text.length + c.macSize) ≤ connectionMtu

instance : Decidable (m.Plain c) := inferInstanceAs (Decidable (_ ∧ _))

/-- The condition on a message that another follows: the byte the socket
puts behind its packet comes with the same receive. -/
def Payload.Whole (c : RcsCipherType) (m : Payload) : Prop :=
  headerSize + (m.text.length + c.macSize) + socketTerminatorSize ≤ connectionMtu

instance : Decidable (m.Whole c) := inferInstanceAs (Decidable (_ ≤ _))

/-- **The condition on a sequence of messages**: each is plain, and each
that another follows comes whole. -/
def PlainRun (c : RcsCipherType) (sent : List Payload) : Prop :=
  (∀ m ∈ sent, m.Plain c) ∧ ∀ m ∈ sent.dropLast, m.Whole c

instance {sent : List Payload} : Decidable (PlainRun c sent) := inferInstanceAs (Decidable (_ ∧ _))

/-- Before a message: the two ends mirror each other, the loop goes on, and
the array of the text is clear. -/
structure ServerReady (A : QsmpConnectionState) (s : ServerLoop) : Prop where
  mirrored : Mirrored A s.cns
  runs : s.Runs
  clear : ∀ i, i < connectionMtu + 1 → s.mstr i = 0

/-! ## One packet -/

theorem serverReceivePacket_of_none (hflag : s.pkt.flag = QsmpFlags.encryptedMessage.toByte)
    (hdec : (qsmpDecryptPacket K s.cns s.mstr s.pkt).1 = .none) :
    let dec := qsmpDecryptPacket K s.cns s.mstr s.pkt
    let mlen := qscStringutilsStringSize dec.2.2.1 (connectionMtu + 1)
    serverReceivePacket K s =
      ({ s with cns := dec.2.1, mstr := dec.2.2.1.clear 0 mlen },
        some (dec.2.2.1.read 0 mlen)) := by
  simp only [serverReceivePacket, if_pos hflag, if_pos hdec]

/-- **A packet the decryption refuses ends the loop** without a call, and so
does any packet that is not an encrypted message. -/
theorem serverReceivePacket_of_ne (hdec : (qsmpDecryptPacket K s.cns s.mstr s.pkt).1 ≠ .none) :
    (serverReceivePacket K s).1.ended ≠ none ∧ (serverReceivePacket K s).2 = none := by
  by_cases hflag : s.pkt.flag = QsmpFlags.encryptedMessage.toByte
  · simp only [serverReceivePacket, if_pos hflag, if_neg hdec]
    exact ⟨Option.some_ne_none _, trivial⟩
  · rw [serverReceivePacket, if_neg hflag]
    split
    · exact ⟨Option.some_ne_none _, rfl⟩
    · exact ⟨Option.some_ne_none _, rfl⟩

/-- The branches leave the buffer and the packet alone. -/
theorem serverReceivePacket_frame :
    (serverReceivePacket K s).1.buffer = s.buffer ∧ (serverReceivePacket K s).1.pkt = s.pkt := by
  rw [serverReceivePacket]
  split
  · dsimp only
    split
    · exact ⟨rfl, rfl⟩
    · exact ⟨rfl, rfl⟩
  · split
    · exact ⟨rfl, rfl⟩
    · exact ⟨rfl, rfl⟩

/-- The transmit cipher of a client with the header of a message bound. -/
def Payload.cipher (P : Params) (K : Primitives) (A : QsmpConnectionState) (m : Payload) :
    RcsState :=
  qscRcsSetAssociated K A.txcpr
    (qsmpPacketHeaderSerialize (encryptHeader P A m.packetout m.text))

/-- The length of a packet on the wire, without what follows it. -/
def Payload.size (c : RcsCipherType) (m : Payload) : ℕ :=
  headerSize + (m.text.length + c.macSize)

/-- **The stream form of a message**: the header, and what the cipher makes
of the text. -/
theorem Payload.stored_eq (h : Mirrored A B) (hm : m.Accepted P A.txcpr.ctype) :
    (m.stored P K A).2 = m.size A.txcpr.ctype ∧
      (m.stored P K A).1.read 0 headerSize =
        qsmpPacketHeaderSerialize (encryptHeader P A m.packetout m.text) ∧
      (m.stored P K A).1.read headerSize (m.text.length + A.txcpr.ctype.macSize) =
        (m.cipher P K A).sealed K m.text := by
  obtain ⟨hne, hfit⟩ := hm
  obtain ⟨header, hheader⟩ : ∃ p, encryptHeader P A m.packetout m.text = p := ⟨_, rfl⟩
  have hmsglen : header.msglen.toNat = m.text.length + A.txcpr.ctype.macSize := by
    rw [← hheader]
    exact msglen_toNat_of_fits hfit
  have hctype : (m.cipher P K A).ctype = A.txcpr.ctype := by
    rw [cipher, qscRcsSetAssociated_ctype]
  have hbody : (encryptBody K A header m.text).2.1 =
      header.pmessage.write 0 ((m.cipher P K A).sealed K m.text) := by
    rw [encryptBody_seals h.ciphers.encrypts, ← hheader]
    rfl
  have hpacket : m.packet P K A =
      { header with pmessage := (encryptBody K A header m.text).2.1 } := by
    rw [packet, qsmpEncryptPacket_eq h.establishedA hne, hheader]
  have hle : (m.packet P K A).msglen.toNat ≤ P.messageMax := by
    rw [hpacket]
    exact hmsglen ▸ hfit
  have hread : (qsmpPacketToStream P (m.packet P K A) m.stream).1.read 0 _ = _ :=
    read_qsmpPacketToStream hle
  rw [hpacket] at hread
  simp only [hmsglen, hbody, qsmpPacketHeaderSerialize_pmessage] at hread
  rw [Mem.read_write_of_length (by rw [RcsState.length_sealed, hctype]), ← hbody, ← hpacket,
    Mem.read_add, Nat.zero_add] at hread
  obtain ⟨hhead, hseal⟩ := List.append_inj hread (by simp)
  refine ⟨?_, hhead.trans (by rw [hheader]), hseal⟩
  rw [stored, qsmpPacketToStream_of_le hle, hpacket, size, ← hmsglen]

/-- What the buffer of the loop holds once a packet is received. -/
def ServerLoop.filled (s : ServerLoop) (bs : Bytes) : Mem :=
  s.buffer.write 0 (bs.take connectionMtu)

/-- The packet the loop parses, of a message whose header comes whole. -/
def parsedPayload (P : Params) (A : QsmpConnectionState) (s : ServerLoop) (m : Payload)
    (bs : Bytes) : QsmpPacket :=
  { encryptHeader P A m.packetout m.text with
    pmessage := s.pkt.pmessage.write 0
      ((s.filled bs).read headerSize (m.text.length + A.txcpr.ctype.macSize)) }

/-- The buffer holds what was sent, as far as one receive goes, and behind
that what it held. -/
theorem filled_eq (h : Mirrored A B) (hm : m.Accepted P A.txcpr.ctype) {i : ℕ}
    (hi : i < connectionMtu) (hsize : i < m.size A.txcpr.ctype) :
    s.filled (m.wire P K A) i = (m.stored P K A).1 i := by
  have hlen : i < ((m.wire P K A).take connectionMtu).length := by
    rw [List.length_take, Payload.wire, Mem.length_read, (Payload.stored_eq h hm).1]
    omega
  have hadd : s.buffer.write 0 ((m.wire P K A).take connectionMtu) (0 + i) = _ := Mem.write_add hlen
  rw [Nat.zero_add] at hadd
  rw [ServerLoop.filled, hadd, List.getElem_take]
  simp only [Payload.wire, Mem.getElem_read, Nat.zero_add]

theorem filled_behind {bs : Bytes} {i : ℕ} (h : connectionMtu ≤ i) :
    s.filled bs i = s.buffer i := by
  refine Mem.write_of_ge ?_
  rw [List.length_take]
  omega

theorem parsedPayload_pmessage {bs : Bytes} {i : ℕ}
    (hi : i < m.text.length + A.txcpr.ctype.macSize) :
    (parsedPayload P A s m bs).pmessage i = s.filled bs (headerSize + i) := by
  have hadd : s.pkt.pmessage.write 0 ((s.filled bs).read headerSize
      (m.text.length + A.txcpr.ctype.macSize)) (0 + i) = _ := Mem.write_add (by simpa using hi)
  rw [Nat.zero_add] at hadd
  exact hadd.trans (Mem.getElem_read _)

/-- What the buffer holds when it is cleared again. -/
def ServerLoop.swept (s : ServerLoop) (bs : Bytes) : Mem :=
  (s.filled bs).clear 0 (bs.take connectionMtu).length

theorem swept_behind {bs : Bytes} {i : ℕ} (h : connectionMtu ≤ i) : s.swept bs i = s.buffer i := by
  have hle : (bs.take connectionMtu).length ≤ i := by
    rw [List.length_take]
    omega
  rw [ServerLoop.swept, Mem.clear_of_ge (by rwa [Nat.zero_add]), filled_behind h]

/-- As far as bytes have come the buffer is clear. -/
theorem swept_front {bs : Bytes} {i : ℕ} (h : i < connectionMtu) (hlen : i < bs.length) :
    s.swept bs i = 0 := by
  have hclear : s.swept bs (0 + i) = 0 := Mem.clear_of_lt (by
    rw [List.length_take]
    exact Nat.lt_min.2 ⟨h, hlen⟩)
  rwa [Nat.zero_add] at hclear

/-- On the wire the packet of a message has one byte more. -/
theorem Payload.length_wire (h : Mirrored A B) (hm : m.Accepted P A.txcpr.ctype) :
    (m.wire P K A).length = m.size A.txcpr.ctype + socketTerminatorSize := by
  rw [Payload.wire, Mem.length_read, (Payload.stored_eq h hm).1]

/-- **A pass over bytes that have come** parses the buffer and hands the
packet to its branch. -/
theorem serverReceiveLoop_of_ne {bs : Bytes} (h : bs ≠ []) :
    serverReceiveLoop P K s ⟨bs, false⟩ =
      let pkt := qsmpStreamToPacket P (s.filled bs) s.pkt
      let r := serverReceivePacket K { s with buffer := s.swept bs, pkt }
      ⟨r.1, bs.take connectionMtu, some pkt, r.2⟩ := by
  have hreceived : (ServerEvent.mk bs false).received ≠ [] := by
    rw [ServerEvent.received]
    intro hnil
    exact h (List.take_eq_nil_iff.1 hnil |>.resolve_left (by decide))
  rw [serverReceiveLoop, if_pos hreceived]
  rfl

/-- **A pass over a packet that is refused** makes no call, and ends the
loop. -/
theorem serverReceiveLoop_refused {bs : Bytes} (hbs : bs ≠ [])
    (hrefused : (qsmpDecryptPacket K s.cns s.mstr
      (qsmpStreamToPacket P (s.filled bs) s.pkt)).1 ≠ .none) :
    let pass := serverReceiveLoop P K s ⟨bs, false⟩
    pass.callback = none ∧ ¬ pass.loop.Runs := by
  obtain ⟨pkt, hpkt⟩ : ∃ pkt, qsmpStreamToPacket P (s.filled bs) s.pkt = pkt := ⟨_, rfl⟩
  rw [hpkt] at hrefused
  obtain ⟨hended, hnone⟩ := serverReceivePacket_of_ne (K := K)
    (s := { s with buffer := s.swept bs, pkt }) hrefused
  rw [serverReceiveLoop_of_ne hbs, hpkt]
  exact ⟨hnone, fun hruns => hended hruns.1⟩

theorem Payload.wire_ne_nil (h : Mirrored A B) (hm : m.Accepted P A.txcpr.ctype) :
    m.wire P K A ≠ [] := List.length_pos_iff.1 (by
  rw [Payload.length_wire h hm, socketTerminatorSize]
  omega)

/-- The packet of a message, as the loop parses it. -/
theorem qsmpStreamToPacket_payload (h : Mirrored A B) (hm : m.Accepted P A.txcpr.ctype) :
    qsmpStreamToPacket P (s.filled (m.wire P K A)) s.pkt =
      parsedPayload P A s m (m.wire P K A) := by
  have hheader : (s.filled (m.wire P K A)).read 0 headerSize =
      qsmpPacketHeaderSerialize (encryptHeader P A m.packetout m.text) := by
    rw [← (Payload.stored_eq (K := K) h hm).2.1]
    refine Mem.read_congr fun i hi => ?_
    rw [Nat.zero_add]
    refine filled_eq h hm ?_ ?_
    · rw [headerSize] at hi
      rw [connectionMtu]
      omega
    · rw [Payload.size]
      omega
  have hmsglen : (encryptHeader P A m.packetout m.text).msglen.toNat =
      m.text.length + A.txcpr.ctype.macSize := msglen_toNat_of_fits hm.2
  rw [qsmpStreamToPacket, qsmpPacketHeaderDeserialize_of_read hheader]
  simp only [hmsglen, if_pos hm.2]
  rfl

/-- **A pass over the packet of a message**. -/
theorem serverReceiveLoop_payload (h : Mirrored A B) (hm : m.Accepted P A.txcpr.ctype) :
    serverReceiveLoop P K s ⟨m.wire P K A, false⟩ =
      let pkt := parsedPayload P A s m (m.wire P K A)
      let r := serverReceivePacket K { s with buffer := s.swept (m.wire P K A), pkt }
      ⟨r.1, (m.wire P K A).take connectionMtu, some pkt, r.2⟩ := by
  rw [serverReceiveLoop_of_ne (Payload.wire_ne_nil h hm), qsmpStreamToPacket_payload h hm]

/-- What it leaves in the buffer and in the packet. -/
theorem serverReceiveLoop_payload_frame (h : Mirrored A B) (hm : m.Accepted P A.txcpr.ctype) :
    let pass := serverReceiveLoop P K s ⟨m.wire P K A, false⟩
    pass.loop.buffer = s.swept (m.wire P K A) ∧
      pass.loop.pkt = parsedPayload P A s m (m.wire P K A) := by
  simp only [serverReceiveLoop_payload h hm, serverReceivePacket_frame, and_self]

/-- **A packet that fits one receive is parsed as it was made.** -/
theorem parsedPayload_of_le (h : Mirrored A B) (hm : m.Accepted P A.txcpr.ctype)
    (hsize : m.size A.txcpr.ctype ≤ connectionMtu) :
    parsedPayload P A s m (m.wire P K A) =
      { encryptHeader P A m.packetout m.text with
        pmessage := s.pkt.pmessage.write 0 ((m.cipher P K A).sealed K m.text) } := by
  have hread : (s.filled (m.wire P K A)).read headerSize
      (m.text.length + A.txcpr.ctype.macSize) = (m.cipher P K A).sealed K m.text := by
    rw [← (Payload.stored_eq (K := K) h hm).2.2]
    refine Mem.read_congr fun i hi => ?_
    have hi' : headerSize + i < m.size A.txcpr.ctype := by
      rw [Payload.size]
      omega
    exact filled_eq h hm (by omega) hi'
  rw [parsedPayload, hread]

/-! ## Opening it -/

/-- The cipher of the server, once the header of a packet is bound, mirrors
that of the client. -/
theorem decryptBody_parsedPayload (h : Mirrored A B) (hm : m.Accepted P A.txcpr.ctype)
    (message : Mem) (bs : Bytes) : ∃ rx, RcsMirrors (m.cipher P K A) rx ∧
      decryptBody K B message (parsedPayload P A s m bs) =
        qscRcsTransform K rx message (parsedPayload P A s m bs).pmessage m.text.length := by
  refine ⟨_, h.ciphers.setAssociated
    (qsmpPacketHeaderSerialize (encryptHeader P A m.packetout m.text)), ?_⟩
  have hcount : ((parsedPayload P A s m bs).msglen - B.maclen).toNat = m.text.length :=
    h.count (length_lt_of_fits hm.2)
  rw [decryptBody, hcount]
  rfl

/-- **A packet that fits one receive is opened**: the text stands at the
front of the array, and the ends mirror each other again. -/
theorem ServerReady.opens (h : ServerReady A s) (hm : m.Accepted P A.txcpr.ctype)
    (hsize : m.size A.txcpr.ctype ≤ connectionMtu) :
    ∃ cns, qsmpDecryptPacket K s.cns s.mstr (parsedPayload P A s m (m.wire P K A)) =
        (.none, cns, s.mstr.write 0 m.text, m.text.length) ∧
      Mirrored (qsmpEncryptPacket P K A m.packetout m.text).2.1 cns ∧
      cns.target = s.cns.target := by
  rw [parsedPayload_of_le h.mirrored hm hsize]
  refine h.mirrored.opens hm.1 (length_lt_of_fits hm.2) m.packetout ?_ s.mstr
  exact Mem.read_write_of_length (by
    rw [RcsState.length_sealed, Payload.cipher, qscRcsSetAssociated_ctype])

/-- What the stack holds behind the buffer of the loop, so that the packet
of a message that does not fit one receive looks to have another tag. -/
def Payload.spoiled (P : Params) (K : Primitives) (A : QsmpConnectionState) (m : Payload) : Mem :=
  fun i => if i + 1 = m.size A.txcpr.ctype then (m.stored P K A).1 i + 1 else (m.stored P K A).1 i

/-- **A packet that does not fit one receive may be refused.** -/
theorem ServerReady.refuses (h : ServerReady A s) (hm : m.Accepted P A.txcpr.ctype)
    (hsize : connectionMtu < m.size A.txcpr.ctype)
    (hbehind : ∀ i, connectionMtu ≤ i → s.buffer i = m.spoiled P K A i) :
    (qsmpDecryptPacket K s.cns s.mstr (parsedPayload P A s m (m.wire P K A))).1 ≠ .none := by
  have hmirrored := h.mirrored
  have hpos : 0 < A.txcpr.ctype.macSize := macSize_pos _
  obtain ⟨rx, hrx, hbody⟩ := decryptBody_parsedPayload (K := K) (s := s) hmirrored hm s.mstr
    (m.wire P K A)
  have hctype : (m.cipher P K A).ctype = A.txcpr.ctype := qscRcsSetAssociated_ctype
  obtain ⟨-, -, hseal⟩ := Payload.stored_eq (K := K) hmirrored hm
  rw [RcsState.sealed, Mem.read_add] at hseal
  obtain ⟨hcpt, htag⟩ := List.append_inj hseal (by simp)
  -- The buffer holds the packet with the last byte of its tag changed.
  have hfilled : ∀ i, i < m.size A.txcpr.ctype →
      s.filled (m.wire P K A) i = m.spoiled P K A i := by
    intro i hi
    rcases Nat.lt_or_ge i connectionMtu with hlt | hge
    · rw [filled_eq hmirrored hm hlt hi, Payload.spoiled, if_neg (by omega)]
    · rw [filled_behind hge, hbehind i hge]
  have hread : (parsedPayload P A s m (m.wire P K A)).pmessage.read 0 m.text.length =
      (rcsCtrTransform K (m.cipher P K A) m.text).2 := by
    rw [← hcpt]
    refine Mem.read_congr fun i hi => ?_
    rw [Nat.zero_add, parsedPayload_pmessage (by omega), hfilled _ (by rw [Payload.size]; omega),
      Payload.spoiled, if_neg (by rw [Payload.size]; omega)]
  have hother : (parsedPayload P A s m (m.wire P K A)).pmessage.read m.text.length
      (m.cipher P K A).ctype.macSize ≠
        (rcsAuthenticate K (m.cipher P K A) (rcsCtrTransform K (m.cipher P K A) m.text).2).2 := by
    rw [← htag, hctype]
    intro heq
    obtain ⟨k, hk⟩ : ∃ k, A.txcpr.ctype.macSize = k + 1 := Nat.exists_eq_add_of_lt hpos |>.imp
      fun k hk => by omega
    have hlast := Mem.eq_of_read heq (i := k) (by omega)
    rw [parsedPayload_pmessage (by omega), hfilled _ (by rw [Payload.size]; omega),
      Payload.spoiled, if_pos (by rw [Payload.size]; omega), Nat.add_assoc] at hlast
    exact absurd hlast (by simp)
  have hrefused : (qscRcsTransform K rx s.mstr (parsedPayload P A s m (m.wire P K A)).pmessage
      m.text.length).2.2 = false := RcsState.transform_refuses hrx hread hother
  have hseq : (parsedPayload P A s m (m.wire P K A)).sequence = s.cns.rxseq + 1 :=
    congrArg (· + 1) hmirrored.sequence
  rw [qsmpDecryptPacket_eq hmirrored.establishedB hseq, hbody, if_neg (by rw [hrefused]; decide)]
  exact QsmpErrors.noConfusion

/-! ## One pass -/

theorem Payload.zero_notMem_iff : 0 ∉ m.text ↔ ∀ i (h : i < m.text.length), m.text[i] ≠ 0 := by
  rw [List.mem_iff_getElem]
  push Not
  exact Iff.rfl

/-- The array of the text, with a message at its front. -/
theorem ServerReady.text (h : ServerReady A s) {i : ℕ} (hi : i < connectionMtu + 1) :
    s.mstr.write 0 m.text i = m.text.getD i 0 := by
  rcases Nat.lt_or_ge i m.text.length with hlt | hge
  · have hadd : s.mstr.write 0 m.text (0 + i) = m.text[i] := Mem.write_add hlt
    rw [Nat.zero_add] at hadd
    rw [hadd, List.getD_eq_getElem _ _ hlt]
  · rw [Mem.write_of_ge (by omega), h.clear i hi, List.getD_eq_default _ _ hge]

/-- **A pass over a packet that fits one receive**: the callback is called
with the string at the front of the array, which is cleared as far. -/
theorem ServerReady.pass (h : ServerReady A s) (hm : m.Accepted P A.txcpr.ctype)
    (hsize : m.size A.txcpr.ctype ≤ connectionMtu) :
    let mlen := qscStringutilsStringSize (s.mstr.write 0 m.text) (connectionMtu + 1)
    let pass := serverReceiveLoop P K s ⟨m.wire P K A, false⟩
    pass.callback = some ((s.mstr.write 0 m.text).read 0 mlen) ∧
      pass.loop.mstr = (s.mstr.write 0 m.text).clear 0 mlen ∧
      Mirrored (qsmpEncryptPacket P K A m.packetout m.text).2.1 pass.loop.cns ∧
      pass.loop.Runs := by
  obtain ⟨cns, hdec, hmirrored, htarget⟩ := h.opens (K := K) hm hsize
  have hbranch := serverReceivePacket_of_none (K := K)
    (s := { s with
      buffer := s.swept (m.wire P K A)
      pkt := parsedPayload P A s m (m.wire P K A) }) rfl (by rw [hdec])
  simp only [hdec] at hbranch
  rw [serverReceiveLoop_payload h.mirrored hm]
  simp only [hbranch, ServerLoop.Runs]
  exact ⟨trivial, trivial, hmirrored, h.runs.1, by rw [htarget]; exact h.runs.2⟩

/-- **A message without a zero is handed on as it was sent**, and the loop
is ready for the next. -/
theorem ServerReady.pass_plain (h : ServerReady A s) (hm : m.Accepted P A.txcpr.ctype)
    (hplain : m.Plain A.txcpr.ctype) :
    let pass := serverReceiveLoop P K s ⟨m.wire P K A, false⟩
    pass.callback = some m.text ∧
      ServerReady (qsmpEncryptPacket P K A m.packetout m.text).2.1 pass.loop := by
  obtain ⟨hzero, hsize⟩ := hplain
  obtain ⟨hcallback, hmstr, hmirrored, hruns⟩ := h.pass (K := K) hm hsize
  have hlt : m.text.length < connectionMtu + 1 := by omega
  have hlen : qscStringutilsStringSize (s.mstr.write 0 m.text) (connectionMtu + 1) =
      m.text.length := by
    refine qscStringutilsStringSize_eq hlt (fun i hi => ?_) ?_
    · rw [h.text (by omega), List.getD_eq_getElem _ _ hi]
      exact Payload.zero_notMem_iff.1 hzero i hi
    · rw [h.text hlt, List.getD_eq_default _ _ (Nat.le_refl _)]
  rw [hlen] at hcallback hmstr
  rw [Mem.read_write_self] at hcallback
  refine ⟨hcallback, hmirrored, hruns, fun i hi => ?_⟩
  rw [hmstr]
  rcases Nat.lt_or_ge i m.text.length with hin | hout
  · have hclear : (s.mstr.write 0 m.text).clear 0 m.text.length (0 + i) = 0 := Mem.clear_of_lt hin
    rwa [Nat.zero_add] at hclear
  · rw [Mem.clear_of_ge (by rwa [Nat.zero_add]), h.text hi, List.getD_eq_default _ _ hout]

/-- **A message with a zero is cut**, at the zero at the latest. -/
theorem ServerReady.pass_cut (h : ServerReady A s) (hm : m.Accepted P A.txcpr.ctype)
    (hsize : m.size A.txcpr.ctype ≤ connectionMtu) (hzero : 0 ∈ m.text) :
    ∃ text, (serverReceiveLoop P K s ⟨m.wire P K A, false⟩).callback = some text ∧
      text ≠ m.text := by
  obtain ⟨hcallback, -⟩ := h.pass (K := K) hm hsize
  refine ⟨_, hcallback, fun heq => ?_⟩
  obtain ⟨i, hi, hget⟩ := List.mem_iff_getElem.1 hzero
  have hlt : i < connectionMtu + 1 := by
    rw [Payload.size] at hsize
    omega
  have hle : qscStringutilsStringSize (s.mstr.write 0 m.text) (connectionMtu + 1) ≤ i := by
    refine qscStringutilsStringSize_le hlt ?_
    rw [h.text hlt, List.getD_eq_getElem _ _ hi, hget]
  have hlen := congrArg List.length heq
  rw [Mem.length_read] at hlen
  omega

/-- A packet that is refused ends the loop without a call. -/
theorem ServerReady.pass_refused (h : ServerReady A s) (hm : m.Accepted P A.txcpr.ctype)
    (hsize : connectionMtu < m.size A.txcpr.ctype)
    (hbehind : ∀ i, connectionMtu ≤ i → s.buffer i = m.spoiled P K A i) :
    let pass := serverReceiveLoop P K s ⟨m.wire P K A, false⟩
    pass.callback = none ∧ ¬ pass.loop.Runs := by
  refine serverReceiveLoop_refused (Payload.wire_ne_nil h.mirrored hm) ?_
  rw [qsmpStreamToPacket_payload h.mirrored hm]
  exact h.refuses hm hsize hbehind

/-! ## The byte behind a packet -/

/-- The last offset that a length of 32 bits reaches. -/
def topOffset : ℕ := 2 ^ 32 - 1

/-- The packet the loop parses of a byte that comes alone. -/
def leftPacket (b : UInt8) (pmessage : Mem) : QsmpPacket := ⟨b, 0, 0, pmessage⟩

/-- The tag of such a packet, which counts no tag: the length of what is
authenticated wraps around, and takes in what lies behind the array. -/
def leftTag (K : Primitives) (A : QsmpConnectionState) (b : UInt8) (pm : Mem) : Bytes :=
  (rcsAuthenticate K
    (qscRcsSetAssociated K A.txcpr (qsmpPacketHeaderSerialize (leftPacket b pm)))
    (pm.read 0 (2 ^ 32 - A.txcpr.ctype.macSize))).2

/-- A byte that ends no tag of such a packet. -/
def spoiledByte (K : Primitives) (A : QsmpConnectionState) (b : UInt8) (pm : Mem) : UInt8 :=
  (leftTag K A b pm).getD (A.txcpr.ctype.macSize - 1) 0 + 1

/-- **What the stack holds** around the arrays: behind the buffer, and in
the array of the packet, the last byte a length reaches apart. -/
structure ServerLoop.Over (s : ServerLoop) (behind pm : Mem) (last : UInt8) : Prop where
  buffer : ∀ i, connectionMtu ≤ i → s.buffer i = behind i
  message : ∀ i, i < topOffset → s.pkt.pmessage i = pm i
  last : s.pkt.pmessage topOffset = last

/-- A message that fits one receive leaves the stack as it was, and its
body in the array. -/
theorem ServerReady.over_pass (h : ServerReady A s) (hm : m.Accepted P A.txcpr.ctype)
    (hsize : m.size A.txcpr.ctype ≤ connectionMtu) {behind pm : Mem} {last : UInt8}
    (hover : s.Over behind pm last) :
    (serverReceiveLoop P K s ⟨m.wire P K A, false⟩).loop.Over behind
      (pm.write 0 ((m.cipher P K A).sealed K m.text)) last := by
  obtain ⟨hbuffer, hpkt⟩ := serverReceiveLoop_payload_frame (K := K) (s := s) h.mirrored hm
  rw [parsedPayload_of_le h.mirrored hm hsize] at hpkt
  have hlen : ((m.cipher P K A).sealed K m.text).length ≤ connectionMtu := by
    rw [Payload.size] at hsize
    rw [RcsState.length_sealed, Payload.cipher, qscRcsSetAssociated_ctype]
    omega
  refine ⟨fun i hi => ?_, fun i hi => ?_, ?_⟩
  · rw [hbuffer, swept_behind hi, hover.buffer i hi]
  · rw [hpkt]
    simp only [Mem.write, hover.message i hi]
  · rw [hpkt]
    refine (Mem.write_of_ge ?_).trans hover.last
    rw [connectionMtu] at hlen
    rw [topOffset]
    omega

/-- **A byte that comes alone is parsed** as a packet without a message and
with sequence number zero. -/
theorem qsmpStreamToPacket_left {b : UInt8} (hclear : ∀ i, i < headerSize → s.buffer i = 0) :
    qsmpStreamToPacket P (s.filled [b]) s.pkt = leftPacket b s.pkt.pmessage := by
  have hheader : (s.filled [b]).read 0 headerSize =
      qsmpPacketHeaderSerialize (leftPacket b s.pkt.pmessage) := by
    have hzero : qscIntutilsLe32to8 0 ++ qscIntutilsLe64to8 0 = Mem.zero.read 1 12 := by decide
    have hbehind : (s.filled [b]).read 1 12 = Mem.zero.read 1 12 := by
      refine Mem.read_congr fun i hi => ?_
      have habove : s.filled [b] (1 + i) = s.buffer (1 + i) := Mem.write_of_ge (by
        rw [List.length_take, List.length_singleton, connectionMtu]
        omega)
      rw [habove, hclear _ (by rw [headerSize]; omega)]
      rfl
    have hfront : s.filled [b] 0 = b := rfl
    rw [qsmpPacketHeaderSerialize, leftPacket, hzero, headerSize, Mem.read_succ, hbehind, hfront]
  rw [qsmpStreamToPacket, qsmpPacketHeaderDeserialize_of_read hheader]
  simp only [leftPacket, UInt32.toNat_zero, Nat.zero_le, if_true, Mem.read_zero_len, Mem.write_nil]

/-- **It is refused** over a stack that holds no tag for it. -/
theorem ServerReady.refuses_left (h : ServerReady A s) {b : UInt8} {behind pm : Mem}
    (hover : s.Over behind pm (spoiledByte K A b pm)) :
    (qsmpDecryptPacket K s.cns s.mstr (leftPacket b s.pkt.pmessage)).1 ≠ .none := by
  intro hnone
  obtain ⟨-, -, hok⟩ := qsmpDecryptPacket_eq_none hnone
  have hmac : s.cns.maclen.toNat = A.txcpr.ctype.macSize := by
    rw [maclen_toNat, h.mirrored.tagType, ← h.mirrored.ciphers.ctype]
  have hpos : 0 < A.txcpr.ctype.macSize := macSize_pos _
  have hle : A.txcpr.ctype.macSize < 2 ^ 32 := hmac ▸ UInt32.toNat_lt _
  have hcount : ((leftPacket b s.pkt.pmessage).msglen - s.cns.maclen).toNat =
      2 ^ 32 - A.txcpr.ctype.macSize := by
    rw [leftPacket, UInt32.toNat_sub, hmac, UInt32.toNat_zero, Nat.add_zero,
      Nat.mod_eq_of_lt (by omega)]
  have hread : s.pkt.pmessage.read 0 (2 ^ 32 - A.txcpr.ctype.macSize) =
      pm.read 0 (2 ^ 32 - A.txcpr.ctype.macSize) :=
    Mem.read_congr fun i hi => hover.message _ (by
      rw [topOffset]
      omega)
  have hbound := h.mirrored.ciphers.setAssociated (K := K)
    (qsmpPacketHeaderSerialize (leftPacket b pm))
  have htag : s.pkt.pmessage.read (2 ^ 32 - A.txcpr.ctype.macSize) A.txcpr.ctype.macSize =
      leftTag K A b pm := by
    by_contra hother
    rw [decryptBody, hcount] at hok
    have hrefused := hok.symm.trans (RcsState.transform_refuses hbound hread
      (by rwa [qscRcsSetAssociated_ctype]))
    exact absurd hrefused (by decide)
  have hlast : (leftTag K A b pm).getD (A.txcpr.ctype.macSize - 1) 0 = spoiledByte K A b pm := by
    have hin : A.txcpr.ctype.macSize - 1 < (s.pkt.pmessage.read
        (2 ^ 32 - A.txcpr.ctype.macSize) A.txcpr.ctype.macSize).length := by
      rw [Mem.length_read]
      omega
    have hoffset : 2 ^ 32 - A.txcpr.ctype.macSize + (A.txcpr.ctype.macSize - 1) = topOffset := by
      rw [topOffset]
      omega
    rw [← htag, List.getD_eq_getElem _ _ hin, Mem.getElem_read, hoffset, hover.last]
  rw [spoiledByte] at hlast
  exact absurd hlast (by simp)

/-- **So it ends the loop** without a call. -/
theorem ServerReady.pass_left (h : ServerReady A s) {b : UInt8} {behind pm : Mem}
    (hclear : ∀ i, i < headerSize → s.buffer i = 0)
    (hover : s.Over behind pm (spoiledByte K A b pm)) :
    let pass := serverReceiveLoop P K s ⟨[b], false⟩
    pass.callback = none ∧ ¬ pass.loop.Runs := by
  refine serverReceiveLoop_refused (List.cons_ne_nil _ _) ?_
  rw [qsmpStreamToPacket_left hclear]
  exact h.refuses_left hover

/-! ## A run -/

theorem serverDrain_nil : serverDrain P K s [] = (s, []) := by
  rw [serverDrain, if_neg fun h => h.2 rfl]

theorem serverDrain_of_not_runs {unread : Bytes} (h : ¬ s.Runs) :
    serverDrain P K s unread = (s, []) := by
  rw [serverDrain, if_neg fun hgo => h hgo.1]

/-- One byte that is left is one pass. -/
theorem serverDrain_singleton {b : UInt8} (h : s.Runs) :
    serverDrain P K s [b] =
      let pass := serverReceiveLoop P K s ⟨[b], false⟩
      (pass.loop, pass.callback.toList) := by
  have hdrop : [b].drop connectionMtu = [] := rfl
  rw [serverDrain, if_pos ⟨h, List.cons_ne_nil _ _⟩, hdrop]
  simp only [serverDrain_nil, List.append_nil]

theorem serverCalls_of_not_runs {unread : Bytes} (h : ¬ s.Runs) : ∀ sent : List Payload,
    serverCalls P K A s unread sent = []
  | [] => rfl
  | m :: rest => by
    rw [serverCalls, serverDrain_of_not_runs h, if_neg h]

/-- With nothing left the next packet is received at once. -/
theorem serverCalls_cons (h : s.Runs) (rest : List Payload) :
    serverCalls P K A s [] (m :: rest) =
      let pass := serverReceiveLoop P K s ⟨m.wire P K A, false⟩
      pass.callback.toList ++
        serverCalls P K (qsmpEncryptPacket P K A m.packetout m.text).2.1 pass.loop
          ((m.wire P K A).drop connectionMtu) rest := by
  rw [serverCalls, serverDrain_nil, if_pos h]
  rfl

/-- A byte that is left and ends the loop leaves the messages that follow
without a call. -/
theorem serverCalls_of_left {b : UInt8} (h : s.Runs)
    (hcallback : (serverReceiveLoop P K s ⟨[b], false⟩).callback = none)
    (hends : ¬ (serverReceiveLoop P K s ⟨[b], false⟩).loop.Runs) :
    ∀ sent : List Payload, serverCalls P K A s [b] sent = []
  | [] => rfl
  | m :: rest => by
    rw [serverCalls, serverDrain_singleton h]
    simp only [hcallback, if_neg hends]
    rfl

/-- A packet that comes whole leaves nothing in the socket. -/
theorem Payload.Whole.drop_wire (h : Mirrored A B) (hm : m.Accepted P A.txcpr.ctype)
    (hwhole : m.Whole A.txcpr.ctype) : (m.wire P K A).drop connectionMtu = [] :=
  List.drop_eq_nil_of_le (by rw [length_wire h hm]; exact hwhole)

/-- One that fits a receive and does not come whole leaves one byte. -/
theorem Payload.drop_wire_of_not_whole (h : Mirrored A B) (hm : m.Accepted P A.txcpr.ctype)
    (hsize : m.size A.txcpr.ctype ≤ connectionMtu) (hwhole : ¬ m.Whole A.txcpr.ctype) :
    connectionMtu ≤ m.size A.txcpr.ctype ∧ ∃ b, (m.wire P K A).drop connectionMtu = [b] := by
  rw [Whole, ← size, socketTerminatorSize] at hwhole
  refine ⟨by omega, List.length_eq_one_iff.1 ?_⟩
  rw [List.length_drop, length_wire h hm, socketTerminatorSize]
  omega

theorem plainRun_nil : PlainRun c [] := ⟨List.forall_mem_nil _, List.forall_mem_nil _⟩

/-- The condition on a sequence is one on its head and its tail. -/
theorem plainRun_cons {rest : List Payload} :
    PlainRun c (m :: rest) ↔
      m.Plain c ∧ (rest ≠ [] → m.Whole c) ∧ PlainRun c rest := by
  rw [PlainRun, PlainRun, List.forall_mem_cons]
  cases rest with
  | nil => simp
  | cons next rest =>
    rw [List.dropLast_cons_cons]
    simp only [List.forall_mem_cons]
    constructor
    · rintro ⟨⟨hm, hplain⟩, hhead, hwhole⟩
      exact ⟨hm, fun _ => hhead, hplain, hwhole⟩
    · rintro ⟨hm, hhead, hplain, hwhole⟩
      exact ⟨⟨hm, hplain⟩, hhead (List.cons_ne_nil _ _), hwhole⟩

/-- What is accepted of one cipher type is accepted after a message. -/
theorem forall_accepted_tail {rest : List Payload}
    (h : ∀ x ∈ m :: rest, x.Accepted P A.txcpr.ctype) :
    ∀ x ∈ rest, x.Accepted P
      (qsmpEncryptPacket P K A m.packetout m.text).2.1.txcpr.ctype := by
  intro x hx
  rw [qsmpEncryptPacket_ctype]
  exact h x (List.mem_cons_of_mem _ hx)

/-- **Messages without zeros are handed on in order**, each as it was sent. -/
theorem serverCalls_plain : ∀ (sent : List Payload) (A : QsmpConnectionState) (s : ServerLoop),
    ServerReady A s → (∀ m ∈ sent, m.Accepted P A.txcpr.ctype) → PlainRun A.txcpr.ctype sent →
    serverCalls P K A s [] sent = sent.map Payload.text := by
  intro sent
  induction sent with
  | nil => exact fun A s _ _ _ => rfl
  | cons m rest ih =>
    intro A s h hsent hrun
    have hm := hsent m List.mem_cons_self
    obtain ⟨hplain, hwhole, hrest⟩ := plainRun_cons.1 hrun
    obtain ⟨hcallback, hready⟩ := h.pass_plain (K := K) hm hplain
    have hcalls := ih _ _ hready (forall_accepted_tail hsent) (by
      rw [qsmpEncryptPacket_ctype]
      exact hrest)
    rw [serverCalls_cons h.runs]
    simp only [hcallback]
    rcases eq_or_ne rest [] with rfl | hne
    · rfl
    · rw [(hwhole hne).drop_wire h.mirrored hm, hcalls]
      rfl

/-- **A packet that fills the receive ends the connection** when a message
follows it: the byte behind it is taken for a packet. -/
theorem ServerReady.pass_full (h : ServerReady A s) (hm : m.Accepted P A.txcpr.ctype)
    (hplain : m.Plain A.txcpr.ctype) (hwhole : ¬ m.Whole A.txcpr.ctype) (pm : Mem) :
    ∃ last : UInt8, ∀ (s : ServerLoop) (behind : Mem), ServerReady A s → s.Over behind pm last →
      ∀ rest, serverCalls P K A s [] (m :: rest) = [m.text] := by
  obtain ⟨hle, b, hdrop⟩ := Payload.drop_wire_of_not_whole (K := K) h.mirrored hm hplain.2 hwhole
  refine ⟨spoiledByte K (qsmpEncryptPacket P K A m.packetout m.text).2.1 b
    (pm.write 0 ((m.cipher P K A).sealed K m.text)), fun s behind h hover rest => ?_⟩
  obtain ⟨hcallback, hready⟩ := h.pass_plain (K := K) hm hplain
  have hclear : ∀ i, i < headerSize →
      (serverReceiveLoop P K s ⟨m.wire P K A, false⟩).loop.buffer i = 0 := by
    intro i hi
    rw [headerSize] at hi
    rw [(serverReceiveLoop_payload_frame h.mirrored hm).1]
    refine swept_front (by rw [connectionMtu]; omega) ?_
    rw [Payload.length_wire h.mirrored hm]
    rw [connectionMtu] at hle
    omega
  obtain ⟨hnone, hends⟩ := hready.pass_left (P := P) hclear (h.over_pass hm hplain.2 hover)
  rw [serverCalls_cons h.runs, hdrop]
  simp only [hcallback, serverCalls_of_left hready.runs hnone hends]
  rfl

/-- **A sequence that is not plain is not handed on.** The stack around the
arrays decides what a packet too long for a receive, or the byte behind one
that fills it, is taken for. -/
theorem serverCalls_ne : ∀ (sent : List Payload) (A : QsmpConnectionState) (s : ServerLoop)
    (pm : Mem), ServerReady A s → (∀ m ∈ sent, m.Accepted P A.txcpr.ctype) →
    ¬ PlainRun A.txcpr.ctype sent →
    ∃ (behind : Mem) (last : UInt8), ∀ s, ServerReady A s → s.Over behind pm last →
      serverCalls P K A s [] sent ≠ sent.map Payload.text := by
  intro sent
  induction sent with
  | nil => exact fun A s pm _ _ hnot => absurd plainRun_nil hnot
  | cons m rest ih =>
    intro A s pm hready haccepted hnot
    have hm := haccepted m List.mem_cons_self
    by_cases hplain : m.Plain A.txcpr.ctype
    · by_cases hwhole : m.Whole A.txcpr.ctype
      · -- The head passes; what the rest meets in the stack is what the head met.
        have hrest : ¬ PlainRun A.txcpr.ctype rest := fun hrest =>
          hnot (plainRun_cons.2 ⟨hplain, fun _ => hwhole, hrest⟩)
        obtain ⟨behind, last, hbehind⟩ := ih _ _ (pm.write 0 ((m.cipher P K A).sealed K m.text))
          (hready.pass_plain (K := K) hm hplain).2 (forall_accepted_tail haccepted) (by
            rw [qsmpEncryptPacket_ctype]
            exact hrest)
        refine ⟨behind, last, fun s h hover heq => ?_⟩
        obtain ⟨hcallback, hnext⟩ := h.pass_plain (K := K) hm hplain
        rw [serverCalls_cons h.runs, hwhole.drop_wire h.mirrored hm] at heq
        simp only [hcallback] at heq
        exact hbehind _ hnext (h.over_pass hm hplain.2 hover) (List.cons.inj heq).2
      · -- The head fills a receive, and a message follows it.
        have hne : rest ≠ [] := by
          rintro rfl
          exact hnot (plainRun_cons.2 ⟨hplain, fun h => absurd rfl h, plainRun_nil⟩)
        obtain ⟨last, hlast⟩ := hready.pass_full (K := K) hm hplain hwhole pm
        refine ⟨.zero, last, fun s h hover heq => ?_⟩
        rw [hlast s .zero h hover, List.map_cons] at heq
        exact hne (List.map_eq_nil_iff.1 (List.cons.inj heq).2.symm)
    · by_cases hsize : m.size A.txcpr.ctype ≤ connectionMtu
      · have hzero : 0 ∈ m.text := by
          by_contra hzero
          exact hplain ⟨hzero, hsize⟩
        refine ⟨.zero, 0, fun s h _ => ?_⟩
        obtain ⟨text, hcallback, hne⟩ := h.pass_cut (K := K) hm hsize hzero
        rw [serverCalls_cons h.runs]
        simp only [hcallback]
        exact fun heq => hne (List.cons.inj heq).1
      · refine ⟨m.spoiled P K A, 0, fun s h hover => ?_⟩
        obtain ⟨hcallback, hends⟩ := h.pass_refused (K := K) hm (by omega) hover.buffer
        rw [serverCalls_cons h.runs]
        simp only [hcallback, serverCalls_of_not_runs hends]
        exact fun heq => absurd heq.symm (List.cons_ne_nil _ _)

/-- What the arrays hold when the loop is entered. -/
theorem enter_mstr {a : ServerArrays} {i : ℕ} (hi : i < connectionMtu + 1) :
    (a.enter P B).mstr i = 0 := by
  have henter : (a.enter P B).mstr = a.mstr.clear 0 (connectionMtu + 1) := by
    simp only [ServerArrays.enter, ServerLoop.start]
  have hclear : a.mstr.clear 0 (connectionMtu + 1) (0 + i) = 0 := Mem.clear_of_lt hi
  rwa [Nat.zero_add, ← henter] at hclear

theorem enter_buffer {a : ServerArrays} {i : ℕ} (hi : connectionMtu ≤ i) :
    (a.enter P B).buffer i = a.buffer i := by
  have henter : (a.enter P B).buffer = a.buffer.clear 0 connectionMtu := by
    simp only [ServerArrays.enter, ServerLoop.start]
  rw [henter]
  exact Mem.clear_of_ge (by rwa [Nat.zero_add])

/-- A loop that is entered over mirrored connections is ready. -/
theorem serverReady_enter (h : Mirrored A B) (hconn : B.target.connectionStatus = .connected)
    (a : ServerArrays) : ServerReady A (a.enter P B) where
  mirrored := h
  runs := ⟨rfl, hconn⟩
  clear := fun _ => enter_mstr

/-- A stack that holds zeros under the array of the packet, and one byte at
the last offset a length reaches. -/
def endingIn (last : UInt8) : Mem := fun i => if i = topOffset then last else 0

/-- The loop is entered over such a stack. -/
theorem enter_over (behind : Mem) (last : UInt8) :
    (ServerArrays.enter P ⟨behind, .zero, endingIn last⟩ B).Over behind .zero last where
  buffer := fun _ => enter_buffer
  message := by
    intro i hi
    rcases Nat.lt_or_ge i P.messageMax with hlt | hge
    · have hclear : (endingIn last).clear 0 P.messageMax (0 + i) = 0 := Mem.clear_of_lt hlt
      rwa [Nat.zero_add] at hclear
    · exact (Mem.clear_of_ge (by rwa [Nat.zero_add])).trans (if_neg hi.ne)
  last := by
    have hmax : headerSize + P.messageMax < 2 ^ 31 := P.messageMax_lt
    have hend : endingIn last topOffset = last := if_pos rfl
    refine (Mem.clear_of_ge ?_).trans hend
    rw [topOffset]
    omega

/-- **Payload fidelity**: whatever the stack holds, the callback is called
once a message, in order, with the text of each. -/
def PayloadFaithful (P : Params) (K : Primitives) (A B : QsmpConnectionState)
    (sent : List Payload) : Prop :=
  ∀ a : ServerArrays, serverCalls P K A (a.enter P B) [] sent = sent.map Payload.text

/-- **When the application gets what was sent**: exactly when no message
holds a zero byte, each packet fits one receive, and so does the byte
behind it wherever another message follows. -/
theorem payload_faithful_iff (h : Mirrored A B)
    (hconn : B.target.connectionStatus = .connected) {sent : List Payload}
    (hsent : ∀ m ∈ sent, m.Accepted P A.txcpr.ctype) :
    PayloadFaithful P K A B sent ↔ PlainRun A.txcpr.ctype sent := by
  constructor
  · intro hfaithful
    by_contra hnot
    obtain ⟨behind, last, hne⟩ := serverCalls_ne (K := K) sent A
      (ServerArrays.enter P ⟨.zero, .zero, .zero⟩ B) .zero (serverReady_enter h hconn _) hsent hnot
    exact hne _ (serverReady_enter h hconn _) (enter_over behind last) (hfaithful _)
  · intro hplain a
    exact serverCalls_plain sent A _ (serverReady_enter h hconn a) hsent hplain

theorem payload_faithful_iff_text :
    PayloadFaithful .dilithiumKyber .plain (simplexEnd 1 2) (simplexEnd 2 1)
      [⟨[104, 105], .init, .zero⟩, ⟨[33], .init, .zero⟩] :=
  (payload_faithful_iff mirrored_simplexEnd rfl (by decide)).2 (by decide)

/-- Every accepted message reaches the application as it was sent. -/
def PayloadFidelity (P : Params) (K : Primitives) : Prop :=
  ∀ A B, Mirrored A B → B.target.connectionStatus = .connected → ∀ sent : List Payload,
    (∀ m ∈ sent, m.Accepted P A.txcpr.ctype) → PayloadFaithful P K A B sent

/-- Of the bytes 5, 0, 7 the application gets the first. -/
theorem not_payloadFidelity_zero : ¬ PayloadFidelity .dilithiumKyber .plain := by
  intro hall
  have hready := serverReady_enter (P := .dilithiumKyber) mirrored_simplexEnd rfl
    ⟨.zero, .zero, .zero⟩
  obtain ⟨text, hcallback, hne⟩ := hready.pass_cut (P := .dilithiumKyber) (K := .plain)
    (m := ⟨[5, 0, 7], .init, .zero⟩) (by decide) (by decide) (by decide)
  have hcalls := hall _ _ mirrored_simplexEnd rfl [⟨[5, 0, 7], .init, .zero⟩] (by decide)
    ⟨.zero, .zero, .zero⟩
  rw [serverCalls_cons hready.runs] at hcalls
  simp only [hcallback] at hcalls
  exact hne (List.cons.inj hcalls).1

end Qsmp
