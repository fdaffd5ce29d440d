import Qsmp.Channel.Correctness
import Qsmp.Common.Histories
import Qsmp.Receive.Loop
/-!
# What the receive loops touch

The receive buffer is made as long as a packet only if its header
announces a length within `QSMP_MESSAGE_MAX`; on any other header it keeps
the size earlier packets have given it. The handlers reckon with the
announced length all the same, and take the length of a tag off it
whether it is that long or not. `PassFits` is the condition under which a
pass stays inside its blocks, in terms of the header, the size of the
buffer and the state of the connection.
-/

namespace Qsmp

open Access

variable {P : Params} {K : Primitives} {A : Asymmetric P}

/-! ## The footprints of the handlers

The handlers get a pointer to the message. What they do depends on the
bytes they are recorded to read, and on no others. -/

/-- **A decrypting transform** sees its input as far as the text and the
tag reach. -/
theorem qscRcsTransform_congr {ctx : RcsState} {output input input' : Mem} {length : ℕ}
    (hdir : ctx.encrypt = false)
    (h : ∀ i, i < rcsTransformReads ctx length → input i = input' i) :
    qscRcsTransform K ctx output input length = qscRcsTransform K ctx output input' length := by
  have htext : input.read 0 length = input'.read 0 length :=
    Mem.read_congr fun i hi => h (0 + i) (by simp only [rcsTransformReads]; omega)
  have htag : input.read length ctx.ctype.macSize = input'.read length ctx.ctype.macSize :=
    Mem.read_congr fun i hi => h (length + i) (by simp only [rcsTransformReads]; omega)
  rw [qscRcsTransform_decrypt hdir htext, qscRcsTransform_decrypt hdir rfl, htag]

variable {cns : QsmpConnectionState} {keys : RatchetKeys P} {pkt : QsmpPacket} {m : Mem}

/-- The transform as the handlers call it, its state having absorbed the
header. -/
theorem qscRcsTransform_congr_associated {length : ℕ} (output : Mem)
    (hdir : cns.rxcpr.encrypt = false)
    (h : ∀ i, i < rcsTransformReads cns.rxcpr length → pkt.pmessage i = m i) :
    qscRcsTransform K (qscRcsSetAssociated K cns.rxcpr (qsmpPacketHeaderSerialize pkt)) output
        pkt.pmessage length =
      qscRcsTransform K (qscRcsSetAssociated K cns.rxcpr (qsmpPacketHeaderSerialize pkt)) output
        m length := by
  refine qscRcsTransform_congr (by rw [qscRcsSetAssociated_encrypt, hdir]) fun i hi => h i ?_
  rwa [rcsTransformReads, qscRcsSetAssociated_ctype] at hi

theorem qsmpDecryptPacket_congr {message : Mem} (hdir : cns.rxcpr.encrypt = false)
    (h : ∀ i, i < qsmpDecryptPacketReads cns pkt → pkt.pmessage i = m i) :
    qsmpDecryptPacket K cns message pkt =
      qsmpDecryptPacket K cns message { pkt with pmessage := m } := by
  by_cases htaken : pkt.sequence = cns.rxseq + 1 ∧ cns.exflag = .sessionEstablished
  · rw [qsmpDecryptPacketReads, if_pos htaken] at h
    have hsame := qscRcsTransform_congr_associated (K := K) message hdir h
    simp only [qsmpDecryptPacket, qsmpPacketHeaderSerialize_pmessage, if_pos htaken.1,
      if_pos htaken.2, QsmpConnectionState.maclen] at hsame ⊢
    simp only [hsame]
    congr
  · simp only [qsmpDecryptPacket]
    by_cases hseq : pkt.sequence = cns.rxseq + 1
    · have hest : cns.exflag ≠ .sessionEstablished := fun hest => htaken ⟨hseq, hest⟩
      simp only [if_pos hseq, if_neg hest]
    · simp only [if_neg hseq]

theorem symmetricRatchetResponse_congr (hdir : cns.rxcpr.encrypt = false)
    (h : ∀ i, i < ratchetReads cns none pkt → pkt.pmessage i = m i) :
    symmetricRatchetResponse K keys cns pkt =
      symmetricRatchetResponse K keys cns { pkt with pmessage := m } := by
  by_cases hseq : pkt.sequence = cns.rxseq + 1
  · rw [ratchetReads, if_pos ⟨hseq, fun n hn => absurd hn (Option.not_mem_none n)⟩] at h
    have hsame := qscRcsTransform_congr_associated (K := K) Mem.zero hdir h
    simp only [symmetricRatchetResponse, qsmpPacketHeaderSerialize_pmessage, if_pos hseq,
      ratchetLength] at hsame ⊢
    simp only [hsame]
    congr
  · simp only [symmetricRatchetResponse, if_neg hseq]

theorem asymmetricRatchetResponse_congr {encap sign : A.Seed} {slen : ℕ} {stack : Mem}
    (hdir : cns.rxcpr.encrypt = false)
    (h : ∀ i, i < ratchetReads cns (some (.ofNat P.ratchetRequestMessageSize)) pkt →
      pkt.pmessage i = m i) :
    asymmetricRatchetResponse K A encap sign slen stack keys cns pkt =
      asymmetricRatchetResponse K A encap sign slen stack keys cns { pkt with pmessage := m } := by
  by_cases htaken : pkt.sequence = cns.rxseq + 1 ∧
      pkt.msglen = .ofNat P.ratchetRequestMessageSize
  · rw [ratchetReads, if_pos ⟨htaken.1, by simpa using htaken.2⟩] at h
    have hsame := qscRcsTransform_congr_associated (K := K) Mem.zero hdir h
    simp only [asymmetricRatchetResponse, qsmpPacketHeaderSerialize_pmessage, if_pos htaken,
      ratchetLength] at hsame ⊢
    simp only [hsame]
    congr
  · simp only [asymmetricRatchetResponse, if_neg htaken]

theorem asymmetricRatchetFinalize_congr (hdir : cns.rxcpr.encrypt = false)
    (h : ∀ i, i < ratchetReads cns (some (.ofNat P.ratchetResponseMessageSize)) pkt →
      pkt.pmessage i = m i) :
    asymmetricRatchetFinalize K A keys cns pkt =
      asymmetricRatchetFinalize K A keys cns { pkt with pmessage := m } := by
  by_cases htaken : pkt.sequence = cns.rxseq + 1 ∧
      pkt.msglen = .ofNat P.ratchetResponseMessageSize
  · rw [ratchetReads, if_pos ⟨htaken.1, by simpa using htaken.2⟩] at h
    have hsame := qscRcsTransform_congr_associated (K := K) Mem.zero hdir h
    simp only [asymmetricRatchetFinalize, qsmpPacketHeaderSerialize_pmessage, if_pos htaken,
      ratchetLength] at hsame ⊢
    simp only [hsame]
    congr
  · simp only [asymmetricRatchetFinalize, if_neg htaken]

/-- What `qsmp_decrypt_packet` says of the message: it has either written
nothing and says so, or the text of a packet it has authenticated. -/
theorem qsmpDecryptPacket_msglen (cns : QsmpConnectionState) (message : Mem) (pkt : QsmpPacket) :
    (qsmpDecryptPacket K cns message pkt).2.2.2 = 0 ∨
      (pkt.sequence = cns.rxseq + 1 ∧ cns.exflag = .sessionEstablished ∧
        (qsmpDecryptPacket K cns message pkt).2.2.2 = (pkt.msglen - cns.maclen).toNat) := by
  by_cases hseq : pkt.sequence = cns.rxseq + 1
  · by_cases hest : cns.exflag = .sessionEstablished
    · simp only [qsmpDecryptPacket, if_pos hseq, if_pos hest]
      split
      · exact .inr ⟨hseq, hest, rfl⟩
      · exact .inl rfl
    · left
      simp only [qsmpDecryptPacket, if_pos hseq, if_neg hest]
  · left
    simp only [qsmpDecryptPacket, if_neg hseq]

/-- **Behind the length it returns** the message is what it was. -/
theorem qsmpDecryptPacket_frame {message : Mem} {i : ℕ} (hdir : cns.rxcpr.encrypt = false)
    (h : (qsmpDecryptPacket K cns message pkt).2.2.2 ≤ i) :
    (qsmpDecryptPacket K cns message pkt).2.2.1 i = message i := by
  revert h
  simp only [qsmpDecryptPacket]
  split
  · split
    · rw [qscRcsTransform_decrypt (by rw [qscRcsSetAssociated_encrypt, hdir]) rfl]
      split
      · intro h
        exact Mem.write_of_ge (by simpa using h)
      · intro _
        rfl
    · intro _
      rfl
  · intro _
    rfl

/-! ## The packets that fit -/

/-- A packet that is authenticated fits a buffer if it is as long as the
length of the tag the handler takes off it, and what is left of it and the
tag of the receive cipher lie in the buffer. -/
def BodyFits (cns : QsmpConnectionState) (tag : UInt32) (pkt : QsmpPacket) (size : ℕ) : Prop :=
  tag.toNat ≤ pkt.msglen.toNat ∧
    headerSize + (pkt.msglen.toNat - tag.toNat) + cns.rxcpr.ctype.macSize ≤ size

/-- The buffer made for a packet is longer than the packet. -/
theorem BodyFits.of_le {tag : UInt32} (hle : tag.toNat ≤ pkt.msglen.toNat)
    (htag : cns.rxcpr.ctype.macSize ≤ tag.toNat) :
    BodyFits cns tag pkt (pkt.msglen.toNat + 15) := by
  refine ⟨hle, ?_⟩
  simp only [headerSize]
  omega

/-- **What a packet asks of a buffer** of `size` bytes, by the branch that
takes it: an authenticated packet is read only in sequence, and an encrypted
one only if there is a string to decrypt it to; a keep-alive request is sent
back in the buffer, and a response read if its counter is right. -/
def PacketFits (role : ReceiveRole) (prcv : ReceiverState P) (grant : Option Mem)
    (pkt : QsmpPacket) (size : ℕ) : Prop :=
  match ReceiveBranch.of role pkt.flag with
  | .encryptedMessage =>
    pkt.msglen + 1 ≠ 0 → grant ≠ none →
      pkt.sequence = prcv.cns.rxseq + 1 → prcv.cns.exflag = .sessionEstablished →
        BodyFits prcv.cns prcv.cns.maclen pkt size
  | .keepAliveRequest => headerSize + 8 + 2 * socketTerminatorSize ≤ size
  | .keepAliveResponse => pkt.sequence = prcv.kpa.seqctr → headerSize + 8 ≤ size
  | .symmetricRatchetRequest =>
    pkt.sequence = prcv.cns.rxseq + 1 → BodyFits prcv.cns duplexMactagSize pkt size
  | .asymmetricRatchetRequest =>
    pkt.sequence = prcv.cns.rxseq + 1 → pkt.msglen = .ofNat P.ratchetRequestMessageSize →
      BodyFits prcv.cns duplexMactagSize pkt size
  | .asymmetricRatchetResponse =>
    pkt.sequence = prcv.cns.rxseq + 1 → pkt.msglen = .ofNat P.ratchetResponseMessageSize →
      BodyFits prcv.cns duplexMactagSize pkt size
  | .connectionTerminate | .other => True

/-- The message itself is not asked. -/
theorem packetFits_pmessage {role : ReceiveRole} {prcv : ReceiverState P} {grant : Option Mem}
    {size : ℕ} : PacketFits role prcv grant { pkt with pmessage := m } size ↔
      PacketFits role prcv grant pkt size := Iff.rfl

/-- The largest buffer a loop allocates. -/
def Params.buffMax (P : Params) : ℕ := P.messageMax + headerSize + socketTerminatorSize * 2

/-- The size of the receive buffer while a packet is handled. -/
def ReceiveLoop.sizeFor (s : ReceiveLoop P) (pkt : QsmpPacket) : ℕ :=
  if P.InRange pkt then P.receiveLength pkt else s.buff.size

/-- **A pass that fits**: if a whole header is peeked at, one whose length
resizes no buffer meets a buffer that is as long as a header, and the
packet, if something is received, fits the buffer it is received into. -/
structure PassFits (role : ReceiveRole) (s : ReceiveLoop P) (e : ReceiveEvent A) : Prop where
  header : e.hdr.length = headerSize → ¬ P.InRange e.pkt → headerSize ≤ s.buff.size
  packet : e.hdr.length = headerSize → (P.InRange e.pkt → e.buffGrant ≠ none) →
    e.arrived ≠ [] → PacketFits role s.prcv e.mstrGrant e.pkt (s.sizeFor e.pkt)

/-! ## Each branch stays inside just if its packet fits -/

theorem macSize_bounds (t : RcsCipherType) : 0 < t.macSize ∧ t.macSize ≤ 64 := by
  cases t <;> decide

/-- The difference of the lengths wraps around on a packet shorter than a
tag, and no buffer is as long as that. -/
theorem bodyFits_iff {tag : UInt32} {size length : ℕ} (hsize : size ≤ P.buffMax)
    (hfits : tag.toNat ≤ pkt.msglen.toNat → length = pkt.msglen.toNat - tag.toNat)
    (hwraps : pkt.msglen.toNat < tag.toNat → 2 ^ 32 - 64 ≤ length) :
    Access.Inside ⟨size, headerSize, rcsTransformReads cns.rxcpr length⟩ ↔
      BodyFits cns tag pkt size := by
  have hpos : 0 < rcsTransformReads cns.rxcpr length :=
    Nat.add_pos_right length (macSize_bounds _).1
  have hmax : headerSize + P.messageMax < 2 ^ 31 := P.messageMax_lt
  rw [inside_iff_of_pos hpos, BodyFits]
  simp only [rcsTransformReads, Params.buffMax, socketTerminatorSize] at hsize ⊢
  constructor
  · intro h
    rcases Nat.lt_or_ge pkt.msglen.toNat tag.toNat with hlt | hge
    · have := hwraps hlt
      omega
    · rw [hfits hge] at h
      exact ⟨hge, by omega⟩
  · rintro ⟨hge, h⟩
    rw [hfits hge]
    omega

/-- The difference as `qsmp_decrypt_packet` reckons it. -/
theorem bodyFits_maclen {size : ℕ} (hsize : size ≤ P.buffMax) :
    Access.Inside ⟨size, headerSize,
        rcsTransformReads cns.rxcpr (pkt.msglen - cns.maclen).toNat⟩ ↔
      BodyFits cns cns.maclen pkt size := by
  have htag : cns.maclen.toNat ≤ 64 := maclen_toNat ▸ (macSize_bounds _).2
  refine bodyFits_iff hsize (fun hle => ?_) (fun hlt => ?_)
  · rw [UInt32.toNat_sub_of_le _ _ (UInt32.le_iff_toNat_le.2 hle)]
  · rw [UInt32.toNat_sub]
    omega

/-- And as the ratchet handlers do, in 64 bits. -/
theorem bodyFits_duplexMactagSize {size : ℕ} (hsize : size ≤ P.buffMax) :
    Access.Inside ⟨size, headerSize, rcsTransformReads cns.rxcpr (ratchetLength pkt)⟩ ↔
      BodyFits cns duplexMactagSize pkt size := by
  have hwide : pkt.msglen.toUInt64.toNat = pkt.msglen.toNat := UInt32.toNat_toUInt64 _
  have htag : duplexMactagSize.toUInt64.toNat = duplexMactagSize.toNat := UInt32.toNat_toUInt64 _
  have hsixtyfour : duplexMactagSize.toNat = 64 := rfl
  have hword : pkt.msglen.toNat < 2 ^ 32 := pkt.msglen.toNat_lt
  refine bodyFits_iff hsize (fun hle => ?_) (fun hlt => ?_)
  · rw [ratchetLength, UInt64.toNat_sub, hwide, htag]
    omega
  · rw [ratchetLength, UInt64.toNat_sub, hwide, htag]
    omega

/-- A body that is read on a condition. -/
theorem inside_ite {p : Prop} [Decidable p] {size off n : ℕ} :
    Access.Inside ⟨size, off, if p then n else 0⟩ ↔ (p → Access.Inside ⟨size, off, n⟩) := by
  by_cases hp : p
  · rw [if_pos hp]
    exact ⟨fun h _ => h, fun h => h hp⟩
  · rw [if_neg hp, inside_iff]
    exact ⟨fun _ hp' => absurd hp' hp, fun _ => .inl rfl⟩

/-- A sum that is not zero has not wrapped around. -/
theorem toNat_succ {n : UInt32} (h : n + 1 ≠ 0) : (n + 1).toNat = n.toNat + 1 := by
  have hne : (n + 1).toNat ≠ 0 := fun hzero => h (UInt32.toNat.inj hzero)
  have hlt : n.toNat < 2 ^ 32 := n.toNat_lt
  rw [UInt32.toNat_add] at hne ⊢
  simp only [UInt32.toNat_one] at hne ⊢
  omega

section Branches

variable {s : ReceiveLoop P} {grant : Option Mem}

/-- With a string to decrypt to, the accesses are these. -/
theorem receiveEncryptedMessage_accesses {rest : Mem} (hslen : pkt.msglen + 1 ≠ 0) :
    (receiveEncryptedMessage K s (some rest) pkt).accesses =
      [⟨(pkt.msglen + 1).toNat, 0, (pkt.msglen + 1).toNat⟩,
        ⟨s.buff.size, headerSize, qsmpDecryptPacketReads s.prcv.cns pkt⟩,
        ⟨(pkt.msglen + 1).toNat, 0, (qsmpDecryptPacket K s.prcv.cns
          ((s.mstr.resize (pkt.msglen + 1).toNat rest).clear (pkt.msglen + 1).toNat).mem
          pkt).2.2.2⟩] := by
  have hne : (pkt.msglen + 1).toNat ≠ 0 := fun h => hslen (UInt32.toNat.inj h)
  simp only [receiveEncryptedMessage, qscMemutilsRealloc, if_pos hne, Option.map_some]
  split <;> rfl

theorem receiveEncryptedMessage_allInside (hsize : s.buff.size ≤ P.buffMax) :
    AllInside (receiveEncryptedMessage K s grant pkt).accesses ↔
      (pkt.msglen + 1 ≠ 0 → grant ≠ none →
        pkt.sequence = s.prcv.cns.rxseq + 1 → s.prcv.cns.exflag = .sessionEstablished →
          BodyFits s.prcv.cns s.prcv.cns.maclen pkt s.buff.size) := by
  have hreads : Access.Inside ⟨s.buff.size, headerSize, qsmpDecryptPacketReads s.prcv.cns pkt⟩ ↔
      (pkt.sequence = s.prcv.cns.rxseq + 1 ∧ s.prcv.cns.exflag = .sessionEstablished →
        BodyFits s.prcv.cns s.prcv.cns.maclen pkt s.buff.size) := by
    rw [qsmpDecryptPacketReads, inside_ite, bodyFits_maclen hsize]
  by_cases hslen : pkt.msglen + 1 = 0
  · have hnone : qscMemutilsRealloc s.mstr (pkt.msglen + 1).toNat grant = none := by
      rw [qscMemutilsRealloc, if_neg (by simp [hslen])]
    simp only [receiveEncryptedMessage, hnone, allInside_nil, true_iff]
    exact fun h => absurd hslen h
  · cases grant with
    | none =>
      have hnone : qscMemutilsRealloc s.mstr (pkt.msglen + 1).toNat none = none := by
        simp [qscMemutilsRealloc]
      simp only [receiveEncryptedMessage, hnone, allInside_nil, true_iff]
      exact fun _ h => absurd rfl h
    | some rest =>
      rw [receiveEncryptedMessage_accesses hslen]
      simp only [allInside_cons, allInside_nil, and_true, hreads]
      constructor
      · rintro ⟨-, hfits, -⟩ - - hseq hest
        exact hfits ⟨hseq, hest⟩
      · intro hfits
        replace hfits := hfits hslen (Option.some_ne_none rest)
        refine ⟨(inside_iff_of_off rfl).2 (Nat.le_refl _),
          fun htaken => hfits htaken.1 htaken.2, ?_⟩
        rw [inside_iff_of_off rfl]
        rcases qsmpDecryptPacket_msglen (K := K) s.prcv.cns
          ((s.mstr.resize (pkt.msglen + 1).toNat rest).clear (pkt.msglen + 1).toNat).mem pkt
          with hzero | ⟨hseq, hest, hlen⟩
        · rw [hzero]
          exact Nat.zero_le _
        · -- The text is shorter than the packet, and the packet than the string.
          obtain ⟨hge, -⟩ := hfits hseq hest
          rw [hlen, UInt32.toNat_sub_of_le _ _ (UInt32.le_iff_toNat_le.2 hge)]
          have hsucc : (pkt.msglen + 1).toNat = pkt.msglen.toNat + 1 := toNat_succ hslen
          simp only
          omega

/-- The echo of a keep-alive request is longer than its header. -/
theorem receiveKeepAliveRequest_allInside :
    AllInside (receiveKeepAliveRequest s pkt).accesses ↔
      headerSize + 8 + 2 * socketTerminatorSize ≤ s.buff.size := by
  simp only [receiveKeepAliveRequest, Block.store_size, allInside_cons, allInside_nil, and_true,
    inside_iff_of_off, headerSize, socketTerminatorSize]
  omega

theorem receiveKeepAliveResponse_allInside :
    AllInside (receiveKeepAliveResponse s pkt).accesses ↔
      (pkt.sequence = s.prcv.kpa.seqctr → headerSize + 8 ≤ s.buff.size) := by
  have hread : Access.Inside ⟨s.buff.size, headerSize, 8⟩ ↔ headerSize + 8 ≤ s.buff.size :=
    inside_iff_of_pos (Nat.succ_pos 7)
  by_cases hseq : pkt.sequence = s.prcv.kpa.seqctr
  · by_cases htime : s.prcv.kpa.etime = qscIntutilsLe8to64 pkt.pmessage
    · simp only [receiveKeepAliveResponse, if_pos hseq, if_pos htime, allInside_cons,
        allInside_nil, and_true, hread]
      exact ⟨fun h _ => h, fun h => h hseq⟩
    · simp only [receiveKeepAliveResponse, if_pos hseq, if_neg htime, allInside_cons,
        allInside_nil, and_true, hread]
      exact ⟨fun h _ => h, fun h => h hseq⟩
  · simp only [receiveKeepAliveResponse, if_neg hseq, allInside_nil, true_iff]
    exact fun h => absurd h hseq

/-- A ratchet packet, whatever its handler makes of it. -/
theorem receiveRatchet_allInside {msglen : Option UInt32} {result : RatchetResult P}
    {err : QsmpErrors} (hsize : s.buff.size ≤ P.buffMax) :
    AllInside (receiveRatchet s (ratchetReads s.prcv.cns msglen pkt) result err).accesses ↔
      (pkt.sequence = s.prcv.cns.rxseq + 1 → (∀ n ∈ msglen, pkt.msglen = n) →
        BodyFits s.prcv.cns duplexMactagSize pkt s.buff.size) := by
  simp only [receiveRatchet, allInside_cons, allInside_nil, and_true, ratchetReads, inside_ite,
    bodyFits_duplexMactagSize hsize, and_imp]

variable {role : ReceiveRole} {e : ReceiveEvent A}

/-- **A packet that is handled stays inside just if it fits** the receive
buffer. -/
theorem receivePacket_allInside (hsize : s.buff.size ≤ P.buffMax) :
    AllInside (receivePacket K role s e pkt).accesses ↔
      PacketFits role s.prcv e.mstrGrant pkt s.buff.size := by
  rw [receivePacket, PacketFits]
  cases ReceiveBranch.of role pkt.flag with
  | encryptedMessage => exact receiveEncryptedMessage_allInside hsize
  | connectionTerminate => exact iff_of_true allInside_nil trivial
  | keepAliveRequest => exact receiveKeepAliveRequest_allInside
  | keepAliveResponse => exact receiveKeepAliveResponse_allInside
  | symmetricRatchetRequest =>
    refine (receiveRatchet_allInside hsize).trans ⟨fun h hseq => h hseq ?_, fun h hseq _ => h hseq⟩
    exact fun n hn => absurd hn (Option.not_mem_none n)
  | asymmetricRatchetRequest =>
    refine (receiveRatchet_allInside hsize).trans ?_
    simp only [Option.mem_some_iff, forall_eq']
  | asymmetricRatchetResponse =>
    refine (receiveRatchet_allInside hsize).trans ?_
    simp only [Option.mem_some_iff, forall_eq']
  | other => exact iff_of_true allInside_nil trivial

/-- No branch changes the size of the receive buffer. -/
@[simp] theorem receivePacket_buff_size :
    (receivePacket K role s e pkt).loop.buff.size = s.buff.size := by
  rw [receivePacket]
  cases ReceiveBranch.of role pkt.flag with
  | encryptedMessage =>
    simp only [receiveEncryptedMessage]
    split
    · rfl
    · split <;> rfl
  | connectionTerminate => rfl
  | keepAliveRequest => rfl
  | keepAliveResponse =>
    simp only [receiveKeepAliveResponse]
    split
    · split <;> rfl
    · rfl
  | symmetricRatchetRequest | asymmetricRatchetRequest | asymmetricRatchetResponse =>
    simp only [receiveRatchet]
    split <;> rfl
  | other =>
    simp only
    split <;> rfl

end Branches

/-! ## A pass, and a run -/

section Passes

variable {role : ReceiveRole} {s : ReceiveLoop P} {e : ReceiveEvent A} {buff : Block}

/-- The shortest message a branch is written for. -/
def ReceiveBranch.leastLength (cns : QsmpConnectionState) : ReceiveBranch → ℕ
  | encryptedMessage => cns.maclen.toNat
  | keepAliveRequest | keepAliveResponse => 8
  | symmetricRatchetRequest | asymmetricRatchetRequest | asymmetricRatchetResponse =>
    duplexMactagSize.toNat
  | connectionTerminate | other => 0

/-- **Packets as the peers write them fit**: a length in range, and no
shorter than the branch is written for, on a connection whose two ciphers
are of one type. -/
theorem PassFits.of_inRange (htypes : s.prcv.cns.txcpr.ctype = s.prcv.cns.rxcpr.ctype)
    (hrange : P.InRange e.pkt)
    (hleast : (ReceiveBranch.of role e.pkt.flag).leastLength s.prcv.cns ≤ e.pkt.msglen.toNat) :
    PassFits role s e := by
  refine ⟨fun _ h => absurd hrange h, fun _ _ _ => ?_⟩
  have hsize : s.sizeFor e.pkt = e.pkt.msglen.toNat + 15 := by
    rw [ReceiveLoop.sizeFor, if_pos hrange, Params.receiveLength, if_pos hrange]
    rfl
  rw [hsize, PacketFits]
  cases hbranch : ReceiveBranch.of role e.pkt.flag with
  | encryptedMessage =>
    rw [hbranch] at hleast
    have hmaclen : s.prcv.cns.maclen.toNat = s.prcv.cns.rxcpr.ctype.macSize :=
      htypes ▸ maclen_toNat
    exact fun _ _ _ _ => .of_le hleast (Nat.le_of_eq hmaclen.symm)
  | keepAliveRequest =>
    rw [hbranch] at hleast
    simp only [ReceiveBranch.leastLength, headerSize, socketTerminatorSize] at hleast ⊢
    omega
  | keepAliveResponse =>
    rw [hbranch] at hleast
    intro _
    simp only [ReceiveBranch.leastLength, headerSize] at hleast ⊢
    omega
  | symmetricRatchetRequest =>
    rw [hbranch] at hleast
    exact fun _ => .of_le hleast (macSize_bounds _).2
  | asymmetricRatchetRequest =>
    rw [hbranch] at hleast
    exact fun _ _ => .of_le hleast (macSize_bounds _).2
  | asymmetricRatchetResponse =>
    rw [hbranch] at hleast
    exact fun _ _ => .of_le hleast (macSize_bounds _).2
  | connectionTerminate => trivial
  | other => trivial

theorem headerSize_le_receiveLength : headerSize ≤ P.receiveLength pkt := by
  rw [Params.receiveLength]
  split
  · omega
  · exact Nat.le_refl _

theorem receiveLength_le_buffMax (h : P.InRange pkt) : P.receiveLength pkt ≤ P.buffMax := by
  rw [Params.receiveLength, if_pos h, Params.buffMax]
  exact Nat.add_le_add_right (Nat.add_le_add_right h.2 _) _

theorem sizeFor_le (hsize : s.buff.size ≤ P.buffMax) : s.sizeFor pkt ≤ P.buffMax := by
  rw [ReceiveLoop.sizeFor]
  split
  · exact receiveLength_le_buffMax (by assumption)
  · exact hsize

/-- At least a header is received into, so whatever arrives is received
in part. -/
theorem received_eq_nil : e.received = [] ↔ e.arrived = [] := by
  have hpos : P.receiveLength e.pkt ≠ 0 := by
    have hle : headerSize ≤ P.receiveLength e.pkt := headerSize_le_receiveLength
    simp only [headerSize] at hle
    omega
  rw [ReceiveEvent.received, List.take_eq_nil_iff]
  exact or_iff_right hpos

/-- The buffer is resized for a length in range, and kept for any other. -/
theorem resizeBuff_size (h : resizeBuff P s.buff e.pkt e.buffGrant = some buff) :
    buff.size = s.sizeFor e.pkt := by
  rw [ReceiveLoop.sizeFor]
  rw [resizeBuff] at h
  split at h
  · rename_i hrange
    rw [qscMemutilsRealloc] at h
    split at h
    · obtain ⟨rest, -, rfl⟩ := Option.map_eq_some_iff.1 h
      rw [if_pos hrange, Block.resize_size]
    · exact absurd h.symm (Option.some_ne_none buff)
  · rename_i hrange
    rw [if_neg hrange, Option.some.inj h]

/-- There is a buffer unless the allocator has refused one. -/
theorem resizeBuff_eq_none :
    resizeBuff P s.buff e.pkt e.buffGrant = none ↔ P.InRange e.pkt ∧ e.buffGrant = none := by
  have hpos : P.receiveLength e.pkt ≠ 0 := by
    have hle : headerSize ≤ P.receiveLength e.pkt := headerSize_le_receiveLength
    simp only [headerSize] at hle
    omega
  rw [resizeBuff, qscMemutilsRealloc, if_pos hpos]
  split
  · rename_i hrange
    rw [Option.map_eq_none_iff]
    exact (and_iff_right hrange).symm
  · rename_i hrange
    exact iff_of_false (Option.some_ne_none s.buff) fun h => hrange h.1

/-- The accesses of a pass that has a buffer: it is cleared and received
into, and the packet handled if anything has been received. -/
theorem receiveLoopPass_allInside_of_buff (hhdr : e.hdr.length = headerSize)
    (hbuff : resizeBuff P s.buff e.pkt e.buffGrant = some buff) (hsize : buff.size ≤ P.buffMax) :
    AllInside (receiveLoopPass K role s e).accesses ↔ P.receiveLength e.pkt ≤ buff.size ∧
      (e.arrived ≠ [] → PacketFits role s.prcv e.mstrGrant e.pkt buff.size) := by
  have hreceived : e.received.length ≤ P.receiveLength e.pkt := List.length_take_le _ _
  have hfill : AllInside [⟨buff.size, 0, P.receiveLength e.pkt⟩,
      ⟨buff.size, 0, e.received.length⟩] ↔ P.receiveLength e.pkt ≤ buff.size := by
    simp only [allInside_cons, allInside_nil, and_true, inside_iff_of_off]
    omega
  simp only [receiveLoopPass, if_pos hhdr, hbuff]
  by_cases harrived : e.arrived = []
  · rw [if_neg fun h => h (received_eq_nil.2 harrived)]
    exact hfill.trans (and_iff_left fun h => absurd harrived h).symm
  · rw [if_pos fun h => harrived (received_eq_nil.1 h), allInside_append, hfill]
    refine and_congr_right fun _ => ?_
    rw [receivePacket_allInside (by simpa using hsize), packetFits_pmessage, Block.store_size,
      Block.clear_size]
    exact ⟨fun h _ => h, fun h => h harrived⟩

/-- **A pass stays inside its blocks just if it fits.** -/
theorem receiveLoopPass_allInside (hsize : s.buff.size ≤ P.buffMax) :
    AllInside (receiveLoopPass K role s e).accesses ↔ PassFits role s e := by
  by_cases hhdr : e.hdr.length = headerSize
  · cases hbuff : resizeBuff P s.buff e.pkt e.buffGrant with
    | none =>
      obtain ⟨hrange, hgrant⟩ := resizeBuff_eq_none.1 hbuff
      simp only [receiveLoopPass, if_pos hhdr, hbuff, allInside_nil, true_iff]
      exact ⟨fun _ h => absurd hrange h, fun _ h => absurd hgrant (h hrange)⟩
    | some buff =>
      have hsome : P.InRange e.pkt → e.buffGrant ≠ none := fun hrange hgrant => by
        rw [resizeBuff_eq_none.2 ⟨hrange, hgrant⟩] at hbuff
        exact Option.some_ne_none buff hbuff.symm
      have hsizeFor : buff.size = s.sizeFor e.pkt := resizeBuff_size hbuff
      have hle : s.sizeFor e.pkt ≤ P.buffMax := sizeFor_le hsize
      rw [receiveLoopPass_allInside_of_buff hhdr hbuff (hsizeFor ▸ hle), hsizeFor]
      constructor
      · rintro ⟨hclear, hpacket⟩
        refine ⟨fun _ hrange => ?_, fun _ _ => hpacket⟩
        rwa [Params.receiveLength, ReceiveLoop.sizeFor, if_neg hrange, if_neg hrange] at hclear
      · intro hfits
        refine ⟨?_, hfits.packet hhdr hsome⟩
        by_cases hrange : P.InRange e.pkt
        · rw [ReceiveLoop.sizeFor, if_pos hrange]
        · have hheader := hfits.header hhdr hrange
          rwa [Params.receiveLength, ReceiveLoop.sizeFor, if_neg hrange, if_neg hrange]
  · simp only [receiveLoopPass, if_neg hhdr, receiveNothing, allInside_nil, true_iff]
    exact ⟨fun h => absurd h hhdr, fun h => absurd h hhdr⟩

/-- **The buffer never outgrows the largest packet.** -/
theorem receiveLoopPass_buff_size (hsize : s.buff.size ≤ P.buffMax) :
    (receiveLoopPass K role s e).loop.buff.size ≤ P.buffMax := by
  rw [receiveLoopPass]
  split
  · split
    · exact hsize
    · rename_i buff hbuff
      have hle : buff.size ≤ P.buffMax := resizeBuff_size hbuff ▸ sizeFor_le hsize
      simp only
      split
      · simpa using hle
      · simp only [receiveNothing]
        split <;> simpa [ReceiveLoop.leave] using hle
  · simp only [receiveNothing]
    split <;> exact hsize

end Passes

variable {role : ReceiveRole}

/-- **The bounds of a step**: no access of a pass leaves its block. -/
def InBounds (K : Primitives) (role : ReceiveRole) (s : ReceiveLoop P) : ReceiveStep A → Prop
  | .pass e => AllInside (receiveLoopPass K role s e).accesses
  | .others _ => True

/-- The condition on a step. -/
def StepFits (role : ReceiveRole) (s : ReceiveLoop P) : ReceiveStep A → Prop
  | .pass e => PassFits role s e
  | .others _ => True

/-- **The bounds of the loops**: whatever the headers, the lengths received
and the doings of the other threads, in every pass. -/
def ReceiveBounds (P : Params) (K : Primitives) (A : Asymmetric P) : Prop :=
  ∀ (role : ReceiveRole) (prcv : ReceiverState P) (buff mstr : Mem) (l : List (ReceiveStep A)),
    Along (receiveLoopStep K role) (fun s a _ => InBounds K role s a) (.start prcv buff mstr) l

/-- **When the loops stay inside their blocks**: over a run, just as long
as each pass fits. -/
theorem receive_inBounds_iff (prcv : ReceiverState P) (buff mstr : Mem)
    (l : List (ReceiveStep A)) :
    Along (receiveLoopStep K role) (fun s a _ => InBounds K role s a)
        (.start prcv buff mstr) l ↔
      Along (receiveLoopStep K role) (fun s a _ => StepFits role s a)
        (.start prcv buff mstr) l := by
  -- The size of the receive buffer is all that earlier packets leave behind.
  refine along_iff_along (I := fun s => s.buff.size ≤ P.buffMax) ?_ ?_ ?_
  · rintro s (e | prcv') s' hsize hstep -
    · rw [receiveLoopStep] at hstep
      split at hstep
      · obtain rfl := Option.some.inj hstep
        exact receiveLoopPass_buff_size hsize
      · exact absurd hstep.symm (Option.some_ne_none s')
    · obtain rfl := Option.some.inj hstep
      exact hsize
  · rintro s (e | prcv') s' hsize -
    · exact receiveLoopPass_allInside hsize
    · exact Iff.rfl
  · change socketTerminatorSize ≤ P.buffMax
    simp only [Params.buffMax]
    omega

/-- A loop's argument on an established connection. -/
def ReceiverState.plain (P : Params) : ReceiverState P where
  cns := .ofKeys .plain ⟨List.replicate 64 1, Octets.zero _, []⟩
    ⟨List.replicate 64 2, Octets.zero _, []⟩ 3
  kpa := ⟨0, 0, false⟩
  keys := ⟨Octets.zero _, Octets.zero _, Octets.zero _, Octets.zero _⟩

/-- A pass that peeks at `peeked` and receives `arrived`, where the
allocator never fails and the socket stays connected. -/
def ReceiveEvent.plain (P : Params) (peeked arrived : Bytes) : ReceiveEvent (.plain P) where
  peeked
  arrived
  buffGrant := some .zero
  mstrGrant := some .zero
  encap := (0 : UInt8)
  sign := (0 : UInt8)
  slen := 0
  stack := .zero
  fatal := false
  connected := true

/-- **The first packet announces no message**: the buffer is still one byte
long, and thirteen are cleared. -/
theorem not_receiveBounds_empty :
    ¬ ReceiveBounds .dilithiumKyber .plain (Asymmetric.plain .dilithiumKyber) := by
  intro hbounds
  have hpass := (hbounds .client (.plain .dilithiumKyber) .zero .zero
    [.pass (.plain _ (List.replicate 13 0) [])] _ rfl).1
  have hfits := (receiveLoopPass_allInside (by decide)).1 hpass
  exact absurd (hfits.header rfl (by decide)) (by decide)

end Qsmp
