import Qsmp.Receive.Bounds
/-!
# The length of a received packet

Both functions that open a packet take the length of a tag off the length
its header announces before anything is authenticated, the one in 32 bits
and the other in 64, and neither asks how much the destination holds.
-/

namespace Qsmp

variable {K : Primitives} {P : Params} {cns : QsmpConnectionState} {pkt : QsmpPacket}
variable {keys : RatchetKeys P}

/-- **An established connection**, as every exchange and every ratchet
leaves one: the receive cipher decrypts, and both ciphers are of one
type. -/
structure QsmpConnectionState.Established (cns : QsmpConnectionState) : Prop where
  exflag : cns.exflag = .sessionEstablished
  decrypts : cns.rxcpr.encrypt = false
  types : cns.txcpr.ctype = cns.rxcpr.ctype

theorem QsmpConnectionState.established_ofKeys {tx rx : RcsKeyparams} {n : UInt64}
    (h : tx.key.length = rx.key.length) : (ofKeys K tx rx n).Established where
  exflag := rfl
  decrypts := rfl
  types := by
    simp only [ofKeys, qscRcsInitialize, h]

/-- **The lengths a function reckons with are safe** for a packet, where
`tag` is taken off its length once the function has `reached` the
difference: the difference does not wrap around, what is read is no more
than the packet has and what is written no more than the destination, of
`size` bytes, holds; and a packet too short or too long for that is not
`accepted`. -/
structure LengthsSafe (pkt : QsmpPacket) (tag size reads writes : ℕ)
    (reached accepted : Prop) : Prop where
  nowrap : reached → tag ≤ pkt.msglen.toNat
  reads : reads ≤ pkt.msglen.toNat
  writes : writes ≤ size
  rejected : pkt.msglen.toNat < tag ∨ tag + size < pkt.msglen.toNat → ¬ accepted

/-- The lengths of `qsmp_decrypt_packet` with a message buffer of `size`
bytes. -/
def DecryptLengths (K : Primitives) (cns : QsmpConnectionState) (message : Mem) (size : ℕ)
    (pkt : QsmpPacket) : Prop :=
  LengthsSafe pkt cns.maclen.toNat size (qsmpDecryptPacketReads cns pkt)
    (qsmpDecryptPacket K cns message pkt).2.2.2
    (pkt.sequence = cns.rxseq + 1 ∧ cns.exflag = .sessionEstablished)
    ((qsmpDecryptPacket K cns message pkt).1 = .none)

/-- The lengths of `symmetric_ratchet_response`, whose destination is the
token. -/
def RatchetLengths (K : Primitives) (keys : RatchetKeys P) (cns : QsmpConnectionState)
    (pkt : QsmpPacket) : Prop :=
  LengthsSafe pkt duplexMactagSize.toNat rtokSize (ratchetReads cns none pkt)
    (if (symmetricRatchetResponse K keys cns pkt).res then ratchetLength pkt else 0)
    (pkt.sequence = cns.rxseq + 1) ((symmetricRatchetResponse K keys cns pkt).res = true)

/-! ## Bodies that are authentic -/

/-- **Every text has a tag**: a body that a decrypting cipher accepts. -/
theorem exists_authentic {ctx : RcsState} (hdir : ctx.encrypt = false) (n : ℕ) :
    ∃ body : Mem, ∀ output, (qscRcsTransform K ctx output body n).2.2 = true := by
  obtain ⟨cpt, hcpt⟩ : ∃ cpt : Bytes, cpt.length = n :=
    ⟨List.replicate n 0, List.length_replicate⟩
  refine ⟨Mem.zero.write 0 (cpt ++ (rcsAuthenticate K ctx cpt).2), fun output => ?_⟩
  have htext : (Mem.zero.write 0 (cpt ++ (rcsAuthenticate K ctx cpt).2)).read 0 n = cpt := by
    rw [Mem.read_write_start (by rw [List.length_append]; omega), List.take_left' hcpt]
  have htag : (Mem.zero.write 0 (cpt ++ (rcsAuthenticate K ctx cpt).2)).read n
      ctx.ctype.macSize = (rcsAuthenticate K ctx cpt).2 := by
    rw [Mem.write_append, Nat.zero_add, hcpt]
    exact Mem.read_write_of_length length_rcsAuthenticate
  rw [qscRcsTransform_decrypt hdir htext, if_pos htag.symm]

theorem qsmpDecryptPacket_accepts {message body : Mem} (hseq : pkt.sequence = cns.rxseq + 1)
    (hest : cns.exflag = .sessionEstablished)
    (hbody : ∀ output, (qscRcsTransform K
      (qscRcsSetAssociated K cns.rxcpr (qsmpPacketHeaderSerialize pkt)) output body
      (pkt.msglen - cns.maclen).toNat).2.2 = true) :
    (qsmpDecryptPacket K cns message { pkt with pmessage := body }).1 = .none ∧
      (qsmpDecryptPacket K cns message { pkt with pmessage := body }).2.2.2 =
        (pkt.msglen - cns.maclen).toNat := by
  have hauth := hbody message
  simp only [qsmpDecryptPacket, if_pos hseq, if_pos hest, qsmpPacketHeaderSerialize_pmessage,
    QsmpConnectionState.maclen] at hauth ⊢
  simp only [hauth, if_true, and_self]

theorem symmetricRatchetResponse_accepts {body : Mem} (hseq : pkt.sequence = cns.rxseq + 1)
    (hbody : ∀ output, (qscRcsTransform K
      (qscRcsSetAssociated K cns.rxcpr (qsmpPacketHeaderSerialize pkt)) output body
      (ratchetLength pkt)).2.2 = true) :
    (symmetricRatchetResponse K keys cns { pkt with pmessage := body }).res = true := by
  have hauth := hbody Mem.zero
  simp only [symmetricRatchetResponse, if_pos hseq, qsmpPacketHeaderSerialize_pmessage,
    ratchetLength] at hauth ⊢
  simp only [hauth, if_true]

/-! ## When the lengths are safe -/

theorem maclen_eq (h : cns.Established) : cns.maclen.toNat = cns.rxcpr.ctype.macSize := by
  rw [maclen_toNat, h.types]

theorem ratchetLength_of_le (h : duplexMactagSize.toNat ≤ pkt.msglen.toNat) :
    ratchetLength pkt = pkt.msglen.toNat - duplexMactagSize.toNat := by
  have hwide : pkt.msglen.toUInt64.toNat = pkt.msglen.toNat := UInt32.toNat_toUInt64 _
  have htag : duplexMactagSize.toUInt64.toNat = duplexMactagSize.toNat := UInt32.toNat_toUInt64 _
  have hword : pkt.msglen.toNat < 2 ^ 32 := pkt.msglen.toNat_lt
  rw [ratchetLength, UInt64.toNat_sub, hwide, htag]
  omega

/-- A packet is harmless if its length is between that of a tag and that
of a tag and a full destination. -/
theorem LengthsSafe.of_le {tag size reads writes : ℕ} {reached accepted : Prop}
    (hlow : tag ≤ pkt.msglen.toNat) (hhigh : pkt.msglen.toNat ≤ tag + size)
    (hreads : reads ≤ pkt.msglen.toNat) (hwrites : writes ≤ pkt.msglen.toNat - tag) :
    LengthsSafe pkt tag size reads writes reached accepted where
  nowrap _ := hlow
  reads := hreads
  writes := by omega
  rejected hbad := by omega

/-- **The lengths that are safe**: those of a tag and of a text that the
destination holds. -/
def LengthFits (pkt : QsmpPacket) (tag size : ℕ) : Prop :=
  tag ≤ pkt.msglen.toNat ∧ pkt.msglen.toNat ≤ tag + size

/-- **When the lengths of `qsmp_decrypt_packet` are safe.** A packet that
is not in sequence is refused before they are reckoned with; every other
is taken as long as it says it is, and has a body that is authentic. -/
theorem decryptLengths_iff (h : cns.Established) (message : Mem) (size : ℕ) :
    (∀ body, DecryptLengths K cns message size { pkt with pmessage := body }) ↔
      (pkt.sequence = cns.rxseq + 1 → LengthFits pkt cns.maclen.toNat size) := by
  have htag := maclen_eq h
  constructor
  · intro hsafe hseq
    have hlow : cns.maclen.toNat ≤ pkt.msglen.toNat := (hsafe Mem.zero).nowrap ⟨hseq, h.exflag⟩
    refine ⟨hlow, le_of_not_gt fun hlong => ?_⟩
    -- A peer can authenticate a packet of any length.
    have hdir : (qscRcsSetAssociated K cns.rxcpr (qsmpPacketHeaderSerialize pkt)).encrypt =
        false := by
      rw [qscRcsSetAssociated_encrypt, h.decrypts]
    obtain ⟨body, hbody⟩ := exists_authentic (K := K) hdir (pkt.msglen - cns.maclen).toNat
    exact (hsafe body).rejected (.inr hlong)
      (qsmpDecryptPacket_accepts hseq h.exflag hbody).1
  · intro hfits body
    by_cases hseq : pkt.sequence = cns.rxseq + 1
    · obtain ⟨hlow, hhigh⟩ := hfits hseq
      have hlen : (pkt.msglen - cns.maclen).toNat = pkt.msglen.toNat - cns.maclen.toNat :=
        UInt32.toNat_sub_of_le _ _ (UInt32.le_iff_toNat_le.2 hlow)
      refine .of_le hlow hhigh ?_ ?_
      · rw [qsmpDecryptPacketReads, if_pos ⟨hseq, h.exflag⟩]
        simp only [rcsTransformReads, hlen]
        omega
      · rcases qsmpDecryptPacket_msglen (K := K) cns message { pkt with pmessage := body }
          with hzero | ⟨-, -, hout⟩
        · exact hzero ▸ Nat.zero_le _
        · exact le_of_eq (hout.trans hlen)
    · have herr : qsmpDecryptPacket K cns message { pkt with pmessage := body } =
          (.packetUnsequenced, { cns with rxseq := cns.rxseq + 1 }, message, 0) := by
        simp only [qsmpDecryptPacket, if_neg hseq]
      refine ⟨fun hr => absurd hr.1 hseq, ?_, ?_, fun _ ha => ?_⟩
      · rw [qsmpDecryptPacketReads, if_neg fun hr => hseq hr.1]
        exact Nat.zero_le _
      · rw [herr]
        exact Nat.zero_le _
      · rw [herr] at ha
        exact absurd ha QsmpErrors.noConfusion

/-- **And those of `symmetric_ratchet_response`**, which takes the length of
the longer tag off on a connection of either kind. -/
theorem ratchetLengths_iff (h : cns.Established) :
    (∀ body, RatchetLengths K keys cns { pkt with pmessage := body }) ↔
      (pkt.sequence = cns.rxseq + 1 → LengthFits pkt duplexMactagSize.toNat rtokSize) := by
  have hsixtyfour : duplexMactagSize.toNat = 64 := rfl
  have htag : cns.rxcpr.ctype.macSize ≤ 64 := (macSize_bounds _).2
  constructor
  · intro hsafe hseq
    have hlow : duplexMactagSize.toNat ≤ pkt.msglen.toNat := (hsafe Mem.zero).nowrap hseq
    refine ⟨hlow, le_of_not_gt fun hlong => ?_⟩
    have hdir : (qscRcsSetAssociated K cns.rxcpr (qsmpPacketHeaderSerialize pkt)).encrypt =
        false := by
      rw [qscRcsSetAssociated_encrypt, h.decrypts]
    obtain ⟨body, hbody⟩ := exists_authentic (K := K) hdir (ratchetLength pkt)
    exact (hsafe body).rejected (.inr hlong) (symmetricRatchetResponse_accepts hseq hbody)
  · intro hfits body
    by_cases hseq : pkt.sequence = cns.rxseq + 1
    · obtain ⟨hlow, hhigh⟩ := hfits hseq
      have hlen : ratchetLength { pkt with pmessage := body } =
          pkt.msglen.toNat - duplexMactagSize.toNat := ratchetLength_of_le hlow
      refine .of_le hlow hhigh ?_ ?_
      · rw [ratchetReads, if_pos ⟨hseq, fun n hn => absurd hn (Option.not_mem_none n)⟩]
        rw [rcsTransformReads, hlen]
        change _ ≤ pkt.msglen.toNat
        omega
      · split
        · exact le_of_eq hlen
        · exact Nat.zero_le _
    · have herr : (symmetricRatchetResponse K keys cns { pkt with pmessage := body }).res =
          false := by
        simp only [symmetricRatchetResponse, if_neg hseq]
      refine ⟨fun hr => absurd hr hseq, ?_, ?_, fun _ ha => ?_⟩
      · rw [ratchetReads, if_neg fun hr => hseq hr.1]
        exact Nat.zero_le _
      · rw [if_neg (by rw [herr]; exact Bool.false_ne_true)]
        exact Nat.zero_le _
      · rw [herr] at ha
        exact absurd ha Bool.false_ne_true

/-- **The lengths of received packets**: on an established connection each
function is safe on every packet with a header just if the header is out of
sequence, or announces at least a tag, and no more than a tag and the text
its destination holds. -/
theorem lengthsSafe_iff (h : cns.Established) (message : Mem) (size : ℕ)
    (keys : RatchetKeys P) (pkt : QsmpPacket) :
    ((∀ body, DecryptLengths K cns message size { pkt with pmessage := body }) ↔
        (pkt.sequence = cns.rxseq + 1 → LengthFits pkt cns.maclen.toNat size)) ∧
      ((∀ body, RatchetLengths K keys cns { pkt with pmessage := body }) ↔
        (pkt.sequence = cns.rxseq + 1 → LengthFits pkt duplexMactagSize.toNat rtokSize)) :=
  ⟨decryptLengths_iff h message size, ratchetLengths_iff h⟩

/-- The law for every packet a peer can send. -/
def LengthArithmetic (P : Params) (K : Primitives) : Prop :=
  ∀ (cns : QsmpConnectionState) (keys : RatchetKeys P) (message : Mem) (size : ℕ)
    (pkt : QsmpPacket), cns.Established →
      DecryptLengths K cns message size pkt ∧ RatchetLengths K keys cns pkt

theorem established_plain : (ReceiverState.plain P).cns.Established :=
  QsmpConnectionState.established_ofKeys (by simp only [List.length_replicate])

/-- The next packet of a session, with a tag and one byte. -/
theorem lengthsSafe_iff_byte :
    DecryptLengths .plain (ReceiverState.plain .dilithiumKyber).cns Mem.zero 1
        ⟨0, 65, 4, Mem.zero⟩ ∧
      RatchetLengths .plain (ReceiverState.plain .dilithiumKyber).keys
        (ReceiverState.plain .dilithiumKyber).cns ⟨0, 65, 4, Mem.zero⟩ := by
  have hsafe := lengthsSafe_iff (K := .plain) (established_plain (P := .dilithiumKyber))
    Mem.zero 1 (ReceiverState.plain .dilithiumKyber).keys ⟨0, 65, 4, Mem.zero⟩
  have htag : (ReceiverState.plain .dilithiumKyber).cns.maclen.toNat = 64 := by decide
  exact ⟨hsafe.1.2 (fun _ => ⟨by rw [htag]; decide, by rw [htag]; decide⟩) Mem.zero,
    hsafe.2.2 (fun _ => ⟨by decide, by decide⟩) Mem.zero⟩

/-- The next packet of a session announces no byte at all. -/
theorem not_lengthArithmetic_empty : ¬ LengthArithmetic .dilithiumKyber .plain := by
  intro hlaw
  obtain ⟨hdecrypt, -⟩ := hlaw (ReceiverState.plain .dilithiumKyber).cns
    (ReceiverState.plain .dilithiumKyber).keys Mem.zero 0 ⟨0, 0, 4, Mem.zero⟩ established_plain
  have hlow := hdecrypt.nowrap ⟨rfl, rfl⟩
  revert hlow
  decide

end Qsmp
