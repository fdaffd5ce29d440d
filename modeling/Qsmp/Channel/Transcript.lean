import Qsmp.Channel.Correctness
import Qsmp.Qsc.Blocks
/-!
# What the receive cipher's MAC has seen

Over a history of received packets the MAC absorbs, for each, the header,
its length, the nonce, the cipher-text, the byte counter and a pad. Every
packet starts on a fresh block, the header in its first block tells how
long the rest is, and so the blocks of a history determine it.
-/

namespace Qsmp

/-- A packet as it reaches the receive cipher, and the memory its message
is to be written to. -/
structure Received where
  packet : QsmpPacket
  message : Mem

/-- The bytes of the body before the tag: `packetin->msglen - maclen`. -/
def Received.length (r : Received) (c : RcsCipherType) : ℕ :=
  (r.packet.msglen - UInt32.ofNat c.macSize).toNat

/-- What tells two received packets apart: the header, and the cipher-text
without the tag. -/
def Received.view (c : RcsCipherType) (r : Received) : Bytes × Bytes :=
  (qsmpPacketHeaderSerialize r.packet, r.packet.pmessage.read 0 (r.length c))

/-- The packet is long enough for a tag. -/
def Received.Tagged (c : RcsCipherType) (r : Received) : Prop :=
  c.macSize ≤ r.packet.msglen.toNat

variable (K : Primitives)

/-- What `qsmp_decrypt_packet` does with the cipher: the header is set as
associated data, the body is transformed. -/
def rcsReceive (ctx : RcsState) (r : Received) : RcsState :=
  (qscRcsTransform K (qscRcsSetAssociated K ctx (qsmpPacketHeaderSerialize r.packet)) r.message
    r.packet.pmessage (r.length ctx.ctype)).1

/-- The blocks it absorbs. -/
def rcsReceiveTrace (ctx : RcsState) (r : Received) : List Bytes :=
  qscRcsSetAssociatedTrace K ctx (qsmpPacketHeaderSerialize r.packet) ++
    qscRcsTransformTrace K (qscRcsSetAssociated K ctx (qsmpPacketHeaderSerialize r.packet))
      r.message r.packet.pmessage (r.length ctx.ctype)

/-- The blocks of a history. -/
def rcsHistoryTrace (ctx : RcsState) (history : List Received) : List Bytes :=
  transcript (rcsReceiveTrace K) (rcsReceive K) ctx history

variable {K}
variable {B : QsmpConnectionState} {ctx : RcsState} {r : Received} {c : RcsCipherType}

/-- **A packet in sequence on an established connection reaches the
cipher this way**, whatever the verdict. -/
theorem rcsReceive_eq_rxcpr (hB : B.exflag = .sessionEstablished)
    (htype : B.txcpr.ctype = B.rxcpr.ctype) (hseq : r.packet.sequence = B.rxseq + 1) :
    (qsmpDecryptPacket K B r.message r.packet).2.1.rxcpr = rcsReceive K B.rxcpr r := by
  have hmac : B.maclen = UInt32.ofNat B.rxcpr.ctype.macSize := by
    rw [QsmpConnectionState.maclen, htype]
    cases B.rxcpr.ctype <;> rfl
  have hbody : (decryptBody K B r.message r.packet).1 = rcsReceive K B.rxcpr r := by
    rw [decryptBody, rcsReceive, Received.length, hmac]
  rw [qsmpDecryptPacket_eq hB hseq]
  split
  · exact hbody
  · exact hbody

/-- The receive cipher between packets: it decrypts under the given
cipher type, and nothing is pending. -/
structure Idle (c : RcsCipherType) (ctx : RcsState) : Prop where
  ctype : ctx.ctype = c
  decrypts : ctx.encrypt = false
  empty : ctx.kstate.buffer = []

/-- So it is right after initialization. -/
theorem Idle.init {keyparams : RcsKeyparams} :
    Idle (qscRcsInitialize K keyparams false).ctype (qscRcsInitialize K keyparams false) :=
  ⟨rfl, rfl, rfl⟩

/-- A packet long enough for a tag has the length its header says. -/
theorem Received.Tagged.length_eq (h : r.Tagged c) :
    r.length c = r.packet.msglen.toNat - c.macSize := by
  have hmac : (UInt32.ofNat c.macSize).toNat = c.macSize := by cases c <;> rfl
  rw [Received.length, UInt32.toNat_sub_of_le _ _ (by rw [UInt32.le_iff_toNat_le, hmac]; exact h),
    hmac]

/-- The stream one packet presents to an idle cipher. -/
def packetStream (ctx : RcsState) (r : Received) : Bytes :=
  qsmpPacketHeaderSerialize r.packet ++ (qscIntutilsLe32to8 (UInt32.ofNat headerSize) ++
    (ctx.nonce.val ++ (r.packet.pmessage.read 0 (r.length ctx.ctype) ++
      qscIntutilsLe64to8 (32 + (ctx.counter + UInt64.ofNat (r.length ctx.ctype)) + 8))))

/-- Its length is that of the cipher-text and the fixed parts. -/
theorem length_packetStream :
    (packetStream ctx r).length = headerSize + 4 + rcsBlockSize + r.length ctx.ctype + 8 := by
  simp only [packetStream, List.length_append, length_qsmpPacketHeaderSerialize,
    length_qscIntutilsLe32to8, ctx.nonce.property, Mem.length_read, length_qscIntutilsLe64to8]
  omega

/-- The header is in front. -/
theorem take_packetStream :
    (packetStream ctx r).take headerSize = qsmpPacketHeaderSerialize r.packet :=
  List.take_left' length_qsmpPacketHeaderSerialize

/-- The blocks a packet adds to those its stream fills. -/
def packetCount (c : RcsCipherType) (length : ℕ) : ℕ :=
  finalizeCount c.rate c.macSize (length % c.rate.toNat)

/-- **One packet** presents its stream behind padding, moves the MAC state
by its blocks, and leaves the cipher idle. -/
theorem rcsReceive_trace (h : Idle c ctx) :
    (rcsReceive K ctx r).kstate =
        ⟨keccakAbsorbed K.permute ctx.kstate.state (rcsReceiveTrace K ctx r), []⟩ ∧
      Padded c.rate.toNat (packetCount c (packetStream ctx r).length) (packetStream ctx r)
        (rcsReceiveTrace K ctx r) ∧
      Idle c (rcsReceive K ctx r) := by
  obtain ⟨rfl, hdec, hempty⟩ := h
  have hpending : ctx.Pending := by
    rw [RcsState.Pending, QscKeccakState.position, hempty]
    exact ctx.ctype.rate.toNat_pos
  have hne : qsmpPacketHeaderSerialize r.packet ≠ [] := List.cons_ne_nil _ _
  obtain ⟨hstate, hcut⟩ := qscRcsSetAssociated_trace (K := K) hpending hne
  obtain ⟨assoc, hassoc⟩ : ∃ assoc, assoc =
      qscRcsSetAssociated K ctx (qsmpPacketHeaderSerialize r.packet) := ⟨_, rfl⟩
  have hassocp : assoc.Pending := by
    rw [hassoc]
    exact hpending.setAssociated hne
  have hassocd : assoc.encrypt = false := by rw [hassoc, qscRcsSetAssociated_encrypt, hdec]
  have hctype : assoc.ctype = ctx.ctype := by rw [hassoc, qscRcsSetAssociated_ctype]
  have htrans : (rcsReceive K ctx r).kstate = (rcsAuthenticate K assoc
      (r.packet.pmessage.read 0 (r.length ctx.ctype))).1 := by
    rw [rcsReceive, ← hassoc, qscRcsTransform_decrypt hassocd rfl]
    split
    · rfl
    · rfl
  obtain ⟨hauth, hpad⟩ := rcsAuthenticate_trace hassocp K
    (r.packet.pmessage.read 0 (r.length ctx.ctype))
  have htrace : rcsReceiveTrace K ctx r =
      qscRcsSetAssociatedTrace K ctx (qsmpPacketHeaderSerialize r.packet) ++
        rcsAuthenticateTrace K assoc (r.packet.pmessage.read 0 (r.length ctx.ctype)) := by
    rw [rcsReceiveTrace, ← hassoc, qscRcsTransformTrace_decrypt hassocd]
  refine ⟨?_, ?_, ?_⟩
  · rw [htrans, hauth, htrace, hassoc, hstate, keccakAbsorbed_append]
  · -- The associated data leaves a start of a block behind, in front of the nonce.
    rw [hempty, List.nil_append, ← hassoc] at hcut
    have hmod := hcut.length_mod (assoc.nonce.val ++
      (r.packet.pmessage.read 0 (r.length ctx.ctype) ++ qscIntutilsLe64to8
        (32 + (assoc.counter + UInt64.ofNat (r.length ctx.ctype)) + 8)))
    rw [hctype, rcsAuthenticateStream, Mem.length_read, List.append_assoc, List.append_assoc,
      hmod] at hpad
    have hpadded := hcut.pad hpad
    rw [htrace, hassoc]
    rw [length_qsmpPacketHeaderSerialize, hassoc, qscRcsSetAssociated_nonce,
      qscRcsSetAssociated_counter, List.append_assoc] at hpadded
    exact hpadded
  · refine ⟨?_, ?_, ?_⟩
    · rw [rcsReceive, qscRcsTransform_frame.1, qscRcsSetAssociated_ctype]
    · rw [rcsReceive, qscRcsTransform_frame.2.2, qscRcsSetAssociated_encrypt, hdec]
    · rw [htrans, hauth]

/-- **The transcript is all the MAC state depends on**: after any history
it is the state the history's blocks lead to, and the cipher is idle. -/
theorem rcsHistory_trace : ∀ {history : List Received} {ctx : RcsState}, Idle c ctx →
    (history.foldl (rcsReceive K) ctx).kstate =
        ⟨keccakAbsorbed K.permute ctx.kstate.state (rcsHistoryTrace K ctx history), []⟩ ∧
      Idle c (history.foldl (rcsReceive K) ctx) := by
  intro history
  induction history with
  | nil =>
    intro ctx h
    refine ⟨?_, h⟩
    ext1
    · rfl
    · exact h.empty
  | cons r rest ih =>
    intro ctx h
    obtain ⟨hstate, -, hidle⟩ := rcsReceive_trace (K := K) (r := r) h
    obtain ⟨hrest, hend⟩ := ih hidle
    have htrace : rcsHistoryTrace K ctx (r :: rest) =
        rcsReceiveTrace K ctx r ++ rcsHistoryTrace K (rcsReceive K ctx r) rest := rfl
    refine ⟨?_, hend⟩
    rw [List.foldl_cons, hrest, hstate, htrace, keccakAbsorbed_append]

/-- **A packet can be read off the front of a transcript**: the header is
in the first block, it gives the length of the stream, and the stream
holds the cipher-text at a fixed place. -/
theorem rcsReceiveTrace_head {ctx ctx' : RcsState} {r r' : Received} {t t' : List Bytes}
    (h : Idle c ctx) (h' : Idle c ctx') (hr : r.Tagged c) (hr' : r'.Tagged c)
    (heq : rcsReceiveTrace K ctx r ++ t = rcsReceiveTrace K ctx' r' ++ t') :
    r.view c = r'.view c ∧ t = t' := by
  obtain ⟨-, hpad, -⟩ := rcsReceive_trace (K := K) (r := r) h
  obtain ⟨-, hpad', -⟩ := rcsReceive_trace (K := K) (r := r') h'
  -- The header is in front, whatever the streams' lengths.
  have hheader : qsmpPacketHeaderSerialize r.packet = qsmpPacketHeaderSerialize r'.packet := by
    have hfront := @take_packetStream ctx r
    have hfront' := @take_packetStream ctx' r'
    rw [← hfront, ← hfront']
    refine hpad.take_eq hpad' heq ?_ ?_
    · rw [length_packetStream]
      omega
    · rw [length_packetStream]
      omega
  have hlength : r.length c = r'.length c := by
    rw [hr.length_eq, hr'.length_eq, (qsmpPacketHeaderSerialize_inj hheader).2.1]
  have hstream : (packetStream ctx r).length = (packetStream ctx' r').length := by
    rw [length_packetStream, length_packetStream, h.ctype, h'.ctype, hlength]
  rw [hstream] at hpad
  obtain ⟨hsame, htail⟩ := hpad.eq_of_length hpad' heq hstream
  refine ⟨?_, htail⟩
  rw [packetStream, packetStream, hheader, List.append_cancel_left_eq,
    List.append_cancel_left_eq, h.ctype, h'.ctype] at hsame
  -- Behind the nonces, which are of one length, come the cipher-texts.
  obtain ⟨-, hrest⟩ := List.append_inj hsame (by rw [ctx.nonce.property, ctx'.nonce.property])
  obtain ⟨hbody, -⟩ := List.append_inj hrest (by rw [Mem.length_read, Mem.length_read, hlength])
  rw [Received.view, Received.view, hheader, hbody]

end Qsmp
