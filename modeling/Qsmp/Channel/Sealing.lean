import Qsmp.Packet
import Qsmp.Qsc.Rcs
/-!
# Sealed packets

Every packet of an established connection, a message or a step of a
ratchet, is made in one way: the header is bound to the transmit cipher,
the plain text is encrypted, and the tag follows. A letter is such a packet
before it is sealed; what one cipher seals its mirror opens.
-/

namespace Qsmp

namespace RcsState

variable (K : Primitives)

/-- The cipher-text of a plain text and the tag. -/
def sealed (ctx : RcsState) (plain : Bytes) : Bytes :=
  (rcsCtrTransform K ctx plain).2 ++ (rcsAuthenticate K ctx (rcsCtrTransform K ctx plain).2).2

/-- The state a plain text leaves. -/
def after (ctx : RcsState) (plain : Bytes) : RcsState :=
  ctx.advance K (rcsCtrTransform K ctx plain).2

variable {K} {ctx tx rx : RcsState} {plain : Bytes} {output inp : Mem} {n : ℕ}

@[simp] theorem length_sealed : (ctx.sealed K plain).length = plain.length + ctx.ctype.macSize := by
  simp [sealed]

/-- **Sealing** writes the cipher-text and the tag, and nothing else. -/
theorem transform_seals (h : ctx.encrypt = true) (hin : inp.read 0 n = plain) :
    qscRcsTransform K ctx output inp n =
      (ctx.after K plain, output.write 0 (ctx.sealed K plain), true) := by
  subst hin
  rw [qscRcsTransform_encrypt h rfl, Mem.write_behind (by simp)]
  rfl

/-- **Opening** gives the plain text back. -/
theorem transform_opens (h : RcsMirrors tx rx) (hn : plain.length = n)
    (hin : inp.read 0 (n + tx.ctype.macSize) = tx.sealed K plain) :
    qscRcsTransform K rx output inp n =
      ({ tx.after K plain with encrypt := false }, output.write 0 plain, true) := by
  subst hn
  rw [Mem.read_add, Nat.zero_add, sealed] at hin
  obtain ⟨hcpt, htag⟩ := List.append_inj hin (by simp)
  have hback : (rcsCtrTransform K rx (rcsCtrTransform K tx plain).2).2 = plain := by
    rw [h.eq_rx]
    exact congrArg Prod.snd rcsCtrTransform_rcsCtrTransform
  have hauth : (rcsAuthenticate K rx (rcsCtrTransform K tx plain).2).2
      = inp.read plain.length rx.ctype.macSize := by
    rw [← h.ctype, htag, h.eq_rx]
    rfl
  rw [qscRcsTransform_decrypt h.decrypts hcpt, if_pos hauth, hback, h.eq_rx]
  rfl

/-- **A cipher-text with any other tag is refused.** -/
theorem transform_refuses {cpt : Bytes} (h : RcsMirrors tx rx) (hcpt : inp.read 0 n = cpt)
    (htag : inp.read n tx.ctype.macSize ≠ (rcsAuthenticate K tx cpt).2) :
    (qscRcsTransform K rx output inp n).2.2 = false := by
  have hauth : (rcsAuthenticate K rx cpt).2 ≠ inp.read n rx.ctype.macSize := by
    intro heq
    rw [← h.ctype] at heq
    refine htag (heq.symm.trans ?_)
    rw [h.eq_rx]
    rfl
  rw [qscRcsTransform_decrypt h.decrypts hcpt, if_neg hauth]

end RcsState

/-- **A letter**: the flag, the sequence number and the plain text of a
packet, and the length its header counts for the tag. -/
structure Letter where
  flag : QsmpFlags
  sequence : UInt64
  plain : Bytes
  taglen : UInt32
deriving DecidableEq

namespace Letter

/-- The packet of a letter, of which the cipher binds the header. -/
def header (l : Letter) : QsmpPacket where
  flag := l.flag.toByte
  msglen := UInt32.ofNat l.plain.length + l.taglen
  sequence := l.sequence
  pmessage := Mem.zero

variable (K : Primitives)

/-- The cipher with the header bound. -/
def bound (l : Letter) (ctx : RcsState) : RcsState :=
  qscRcsSetAssociated K ctx (qsmpPacketHeaderSerialize l.header)

/-- The cipher after the letter. -/
def next (l : Letter) (ctx : RcsState) : RcsState := (l.bound K ctx).after K l.plain

/-- **The letter on the wire**: its header, what the cipher makes of the
plain text, and as much behind it as may be. -/
def On (l : Letter) (tx : RcsState) (bytes : Bytes) : Prop :=
  ∃ rest, bytes = qsmpPacketHeaderSerialize l.header ++ ((l.bound K tx).sealed K l.plain ++ rest)

end Letter

/-- What a receive loop makes of a packet that has arrived in its buffer:
the header it has peeked, and the message behind it. -/
def delivered (buff : Mem) (bytes : Bytes) : QsmpPacket :=
  { qsmpPacketHeaderDeserialize (buff.write 0 bytes) .init with
    pmessage := (buff.write 0 bytes).shift headerSize }

namespace Letter

variable {K : Primitives} {l : Letter} {tx rx : RcsState} {bytes : Bytes}

theorem next_ctype : (l.next K tx).ctype = tx.ctype := qscRcsSetAssociated_ctype

/-- The mirror of a cipher after a letter. -/
theorem mirrors_next (h : RcsMirrors tx rx) :
    RcsMirrors (l.next K tx) { l.next K tx with encrypt := false } :=
  .of_encrypt (qscRcsSetAssociated_encrypt.trans h.encrypts)

/-- The header of a packet that is delivered is that of its letter. -/
theorem On.delivered_eq (h : l.On K tx bytes) (buff : Mem) :
    delivered buff bytes =
      { l.header with pmessage := (buff.write 0 bytes).shift headerSize } := by
  obtain ⟨rest, rfl⟩ := h
  have hread : (buff.write 0 (qsmpPacketHeaderSerialize l.header ++
      ((l.bound K tx).sealed K l.plain ++ rest))).read 0 headerSize
        = qsmpPacketHeaderSerialize l.header := by
    rw [Mem.read_write_start (by simp), List.take_left' length_qsmpPacketHeaderSerialize]
  rw [delivered, qsmpPacketHeaderDeserialize_of_read hread]

theorem On.flag (h : l.On K tx bytes) (buff : Mem) :
    (delivered buff bytes).flag = l.flag.toByte := by
  rw [h.delivered_eq]
  rfl

theorem On.msglen (h : l.On K tx bytes) (buff : Mem) :
    (delivered buff bytes).msglen = UInt32.ofNat l.plain.length + l.taglen := by
  rw [h.delivered_eq]
  rfl

theorem On.sequence (h : l.On K tx bytes) (buff : Mem) :
    (delivered buff bytes).sequence = l.sequence := by
  rw [h.delivered_eq]
  rfl

/-- **What a cipher seals its mirror opens**, wherever the packet is
delivered. -/
theorem On.opens (h : l.On K tx bytes) (hm : RcsMirrors tx rx) (buff output : Mem) :
    qscRcsTransform K
        (qscRcsSetAssociated K rx (qsmpPacketHeaderSerialize (delivered buff bytes))) output
        (delivered buff bytes).pmessage l.plain.length =
      ({ l.next K tx with encrypt := false }, output.write 0 l.plain, true) := by
  have hheader : qsmpPacketHeaderSerialize (delivered buff bytes)
      = qsmpPacketHeaderSerialize l.header := by
    rw [h.delivered_eq, qsmpPacketHeaderSerialize_pmessage]
  rw [hheader, h.delivered_eq]
  obtain ⟨rest, rfl⟩ := h
  have hctype : (l.bound K tx).ctype = tx.ctype := qscRcsSetAssociated_ctype
  refine RcsState.transform_opens (hm.setAssociated (K := K) _) rfl ?_
  -- The sealed text lies right behind the header.
  have hlen : ((l.bound K tx).sealed K l.plain).length
      = l.plain.length + (l.bound K tx).ctype.macSize := RcsState.length_sealed
  rw [Mem.shift_read, Nat.add_zero, Mem.write_append, length_qsmpPacketHeaderSerialize,
    Nat.zero_add]
  refine (Mem.read_write_start ?_).trans (List.take_left' hlen)
  rw [List.length_append, hlen, hctype]
  exact Nat.le_add_right _ _

/-- A stream that starts with the header and the sealed text of a letter
carries it. -/
theorem on_read {stream : Mem} {n : ℕ} (hn : headerSize + l.plain.length + tx.ctype.macSize ≤ n)
    (hread : stream.read 0 (headerSize + (l.plain.length + tx.ctype.macSize)) =
      qsmpPacketHeaderSerialize l.header ++ (l.bound K tx).sealed K l.plain) :
    l.On K tx (stream.read 0 n) := by
  obtain ⟨k, rfl⟩ := Nat.exists_eq_add_of_le hn
  refine ⟨stream.read (headerSize + l.plain.length + tx.ctype.macSize) k, ?_⟩
  rw [Mem.read_add, Nat.zero_add, Nat.add_assoc headerSize, hread, List.append_assoc]

/-- The length of what a cipher seals is that of any cipher of its type. -/
theorem length_sealed_bound :
    ((l.bound K tx).sealed K l.plain).length = l.plain.length + tx.ctype.macSize := by
  rw [RcsState.length_sealed, bound, qscRcsSetAssociated_ctype]

/-- So does an array the header and, behind it, the sealed text were
written to. -/
theorem on_unshift (tx : RcsState) (omsg : Mem) {n : ℕ}
    (hn : headerSize + l.plain.length + tx.ctype.macSize ≤ n) :
    l.On K tx (((omsg.write 0 (qsmpPacketHeaderSerialize l.header)).unshift headerSize
      (((omsg.write 0 (qsmpPacketHeaderSerialize l.header)).shift headerSize).write 0
        ((l.bound K tx).sealed K l.plain))).read 0 n) := by
  refine on_read hn ?_
  rw [Mem.unshift_write, Nat.add_zero, Mem.write_behind length_qsmpPacketHeaderSerialize]
  exact Mem.read_write_of_length (by
    rw [List.length_append, length_qsmpPacketHeaderSerialize, length_sealed_bound])

/-- **Sealing in place**: the header is written to the front of an array and
read back from there, and the plain text is sealed behind it. -/
theorem seals_behind (htx : tx.encrypt = true) {header : QsmpPacket} (hheader : l.header = header)
    (omsg : Mem) {input : Mem} {n : ℕ} (hinput : input.read 0 n = l.plain) :
    let omsg := omsg.write 0 (qsmpPacketHeaderSerialize header)
    omsg.read 0 headerSize = qsmpPacketHeaderSerialize header ∧
      ∃ body, qscRcsTransform K (qscRcsSetAssociated K tx (qsmpPacketHeaderSerialize header))
          (omsg.shift headerSize) input n = (l.next K tx, body, true) ∧
        ∀ len, headerSize + l.plain.length + tx.ctype.macSize ≤ len →
          l.On K tx ((omsg.unshift headerSize body).read 0 len) := by
  subst hheader
  refine ⟨Mem.read_write_of_length length_qsmpPacketHeaderSerialize, _,
    RcsState.transform_seals (qscRcsSetAssociated_encrypt.trans htx) hinput, fun len hlen => ?_⟩
  exact on_unshift tx omsg hlen

/-- The stream form of a packet that holds the sealed text, with the byte
behind it, carries the letter. -/
theorem on_stream {P : Params} {pmessage : Mem} (stream : Mem)
    (hle : l.plain.length + tx.ctype.macSize ≤ l.header.msglen.toNat)
    (hmax : l.header.msglen.toNat ≤ P.messageMax)
    (hread : pmessage.read 0 (l.plain.length + tx.ctype.macSize)
      = (l.bound K tx).sealed K l.plain) :
    l.On K tx ((qsmpPacketToStream P { l.header with pmessage } stream).1.read 0
      ((qsmpPacketToStream P { l.header with pmessage } stream).2 + socketTerminatorSize)) := by
  rw [qsmpPacketToStream_of_le (by exact hmax)]
  dsimp only
  refine on_read (by omega) ?_
  have hpart : (pmessage.read 0 l.header.msglen.toNat).take (l.plain.length + tx.ctype.macSize)
      = (l.bound K tx).sealed K l.plain := (Mem.read_of_read rfl (by omega)).symm.trans hread
  have hheader : (qsmpPacketHeaderSerialize l.header).length = headerSize :=
    length_qsmpPacketHeaderSerialize
  rw [qsmpPacketHeaderSerialize_pmessage, Mem.read_write_start
    (by rw [List.length_append, hheader, Mem.length_read]; omega), ← hheader,
    List.take_length_add_append, hpart]

end Letter

end Qsmp
