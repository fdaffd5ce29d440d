import Mathlib.Data.List.Nodup
import Mathlib.Data.Nat.ModEq
import Qsmp.Channel.Correctness
/-!
# No counter block is used twice

The counter of a cipher is a 256-bit integer that steps on with every
block, and nothing between two keyings sets it back. The blocks that a
sequence of packets takes are therefore consecutive, and the receiver takes
the same, packet by packet, as long as the header tells it the length of
the message: the header has 32 bits for it, and a longer message is
narrowed.
-/

namespace Qsmp

/-! ## Counter values -/

/-- The counters as the little-endian integers they are. -/
def counterValues (counters : List RcsBlock) : List ℕ := counters.map fun nonce => leNat nonce.val

/-- `count` integers from `start` on, modulo the width of the counter. -/
def consecutive (start count : ℕ) : List ℕ := (List.range count).map fun i => (start + i) % 2 ^ 256

/-- **Counters that step on are consecutive integers.** -/
theorem counterValues_iterate (nonce : RcsBlock) (count : ℕ) :
    counterValues (List.iterate rcsNextNonce nonce count) =
      consecutive (leNat nonce.val) count := by
  rw [counterValues, ← List.range_map_iterate, List.map_map]
  exact List.map_congr_left fun i _ => leNat_iterate_rcsNextNonce nonce i

/-- No integer comes twice before the counter is around. -/
theorem nodup_consecutive (start : ℕ) {count : ℕ} (h : count ≤ 2 ^ 256) :
    (consecutive start count).Nodup := by
  refine List.Nodup.map_on (fun i hi j hj heq => ?_) List.nodup_range
  rw [List.mem_range] at hi hj
  have hmod : Nat.ModEq (2 ^ 256) i j := Nat.ModEq.add_left_cancel' start heq
  exact hmod.eq_of_lt_of_lt (Nat.lt_of_lt_of_le hi h) (Nat.lt_of_lt_of_le hj h)

/-! ## What the functions evaluate -/

section

variable (P : Params) (K : Primitives)

/-- The counters `rcs_ctr_transform` evaluates the block function at. -/
def rcsCtrTransformCounters (ctx : RcsState) (input : Bytes) : List RcsBlock :=
  CounterMode.counters rcsNextNonce rcsBlockSize ctx.nonce input

/-- Those of `qsc_rcs_transform`: none for a packet that is refused. -/
def qscRcsTransformCounters (ctx : RcsState) (output input : Mem) (length : ℕ) : List RcsBlock :=
  if ctx.encrypt then rcsCtrTransformCounters ctx (input.read 0 length)
  else if (qscRcsTransform K ctx output input length).2.2 then
    rcsCtrTransformCounters ctx (input.read 0 length)
  else []

/-- Those of `qsmp_encrypt_packet`. -/
def qsmpEncryptPacketCounters (cns : QsmpConnectionState) (packetout : QsmpPacket)
    (message : Bytes) : List RcsBlock :=
  if cns.exflag = .sessionEstablished ∧ message.length ≠ 0 then
    let header := encryptHeader P cns packetout message
    qscRcsTransformCounters K
      (qscRcsSetAssociated K cns.txcpr (qsmpPacketHeaderSerialize header)) header.pmessage
      (Mem.zero.write 0 message) message.length
  else []

/-- Those of `qsmp_decrypt_packet`. -/
def qsmpDecryptPacketCounters (cns : QsmpConnectionState) (message : Mem)
    (packetin : QsmpPacket) : List RcsBlock :=
  if packetin.sequence = cns.rxseq + 1 ∧ cns.exflag = .sessionEstablished then
    qscRcsTransformCounters K
      (qscRcsSetAssociated K cns.rxcpr (qsmpPacketHeaderSerialize packetin)) message
      packetin.pmessage (packetin.msglen - cns.maclen).toNat
  else []

end

variable {P : Params} {K : Primitives} {ctx : RcsState} {output inp : Mem} {n : ℕ}

/-- One counter a started block, from the nonce of the cipher on. -/
theorem rcsCtrTransformCounters_eq {input : Bytes} :
    rcsCtrTransformCounters ctx input =
      List.iterate rcsNextNonce ctx.nonce
        (CounterMode.startedBlocks rcsBlockSize input.length) :=
  CounterMode.counters_eq (by decide)

theorem length_rcsCtrTransformCounters {input : Bytes} :
    (rcsCtrTransformCounters ctx input).length =
      CounterMode.startedBlocks rcsBlockSize input.length := by
  rw [rcsCtrTransformCounters_eq, List.length_iterate]

/-- **The counters are those of the transform**: the output is the input
under the key stream there, and the cipher ends on the counter after. -/
theorem rcsCtrTransform_eq {input : Bytes} :
    rcsCtrTransform K ctx input =
      ({ ctx with nonce :=
          rcsNextNonce^[CounterMode.startedBlocks rcsBlockSize input.length] ctx.nonce },
        xorBytes ((rcsCtrTransformCounters ctx input).flatMap (rcsKeystream K ctx.schedule))
          input) := by
  have htransform : CounterMode.transform (rcsKeystream K ctx.schedule) rcsNextNonce rcsBlockSize
      ctx.nonce input = _ := CounterMode.transform_eq length_rcsKeystream (by decide)
  rw [rcsCtrTransform, htransform]
  rfl

/-- The counter after a transform depends on the length alone. -/
theorem advance_nonce {cpt input : Bytes} (hlen : cpt.length = input.length) :
    (ctx.advance K cpt).nonce =
      rcsNextNonce^[(rcsCtrTransformCounters ctx input).length] ctx.nonce := by
  rw [RcsState.advance, rcsCtrTransform_eq, length_rcsCtrTransformCounters, hlen]

/-- **So it is in either direction**, and the counter stands still over a
packet that is refused. -/
theorem qscRcsTransform_counters (ctx : RcsState) (output inp : Mem) (n : ℕ) :
    let r := qscRcsTransform K ctx output inp n
    let counters := qscRcsTransformCounters K ctx output inp n
    r.1.nonce = rcsNextNonce^[counters.length] ctx.nonce ∧
      (r.2.2 = true →
        r.2.1.read 0 n = xorBytes (counters.flatMap (rcsKeystream K ctx.schedule)) (inp.read 0 n)) ∧
      (r.2.2 = false → counters = []) := by
  have hstream : (rcsCtrTransform K ctx (inp.read 0 n)).2 = xorBytes
      ((rcsCtrTransformCounters ctx (inp.read 0 n)).flatMap (rcsKeystream K ctx.schedule))
      (inp.read 0 n) := congrArg Prod.snd rcsCtrTransform_eq
  cases h : ctx.encrypt with
  | true =>
    have hcounters : qscRcsTransformCounters K ctx output inp n =
        rcsCtrTransformCounters ctx (inp.read 0 n) := if_pos h
    rw [hcounters, RcsState.transform_seals h rfl]
    refine ⟨advance_nonce length_rcsCtrTransform, fun _ => ?_, Bool.noConfusion⟩
    rw [← hstream, Mem.read_write_start (by simp), RcsState.sealed, List.take_left' (by simp)]
  | false =>
    have hturn : ¬ ctx.encrypt = true := by rw [h]; decide
    rw [qscRcsTransformCounters, if_neg hturn, qscRcsTransform_decrypt h rfl]
    split
    · refine ⟨advance_nonce rfl, fun _ => ?_, Bool.noConfusion⟩
      rw [if_pos rfl, ← hstream, Mem.read_write_start (by simp),
        List.take_of_length_le (by simp)]
    · exact ⟨rfl, Bool.noConfusion, fun _ => rfl⟩

/-! ## One packet -/

variable {A B : QsmpConnectionState} {packetout packetin : QsmpPacket} {m : Bytes} {message : Mem}

/-- **A packet takes one counter a started block**, from the nonce of the
transmit cipher on. -/
theorem qsmpEncryptPacketCounters_eq (hest : A.exflag = .sessionEstablished)
    (henc : A.txcpr.encrypt = true) :
    qsmpEncryptPacketCounters P K A packetout m =
      List.iterate rcsNextNonce A.txcpr.nonce
        (CounterMode.startedBlocks rcsBlockSize m.length) := by
  rw [qsmpEncryptPacketCounters]
  by_cases hlen : m.length = 0
  · rw [if_neg fun h => h.2 hlen, hlen, CounterMode.startedBlocks_zero (by decide)]
    rfl
  · rw [if_pos ⟨hest, hlen⟩]
    have hturn : (qscRcsSetAssociated K A.txcpr (qsmpPacketHeaderSerialize
        (encryptHeader P A packetout m))).encrypt = true := qscRcsSetAssociated_encrypt.trans henc
    simp only [qscRcsTransformCounters, if_pos hturn, rcsCtrTransformCounters_eq,
      qscRcsSetAssociated_nonce, Mem.length_read]

/-- **Encryption evaluates there and moves on**: the cipher-text is the
message under the key stream of the counters. -/
theorem qsmpEncryptPacket_counters :
    let r := qsmpEncryptPacket P K A packetout m
    let counters := qsmpEncryptPacketCounters P K A packetout m
    r.2.1.txcpr.nonce = rcsNextNonce^[counters.length] A.txcpr.nonce ∧
      (A.txcpr.encrypt = true → r.1 = .none → r.2.2.pmessage.read 0 m.length =
        xorBytes (counters.flatMap (rcsKeystream K A.txcpr.schedule)) m) := by
  by_cases h : A.exflag = .sessionEstablished ∧ m.length ≠ 0
  · obtain ⟨header, hheader⟩ : ∃ p, encryptHeader P A packetout m = p := ⟨_, rfl⟩
    obtain ⟨hnonce, htext, -⟩ := qscRcsTransform_counters (K := K)
      (qscRcsSetAssociated K A.txcpr (qsmpPacketHeaderSerialize header)) header.pmessage
      (Mem.zero.write 0 m) m.length
    rw [qscRcsSetAssociated_nonce] at hnonce
    rw [qscRcsSetAssociated_schedule, Mem.read_write_self] at htext
    rw [qsmpEncryptPacket_eq h.1 fun hm => h.2 (congrArg List.length hm),
      qsmpEncryptPacketCounters, if_pos h, hheader]
    refine ⟨hnonce, fun henc _ => htext ?_⟩
    exact congrArg (fun r : RcsState × Mem × Bool => r.2.2) (encryptBody_seals henc header)
  · rw [qsmpEncryptPacket, qsmpEncryptPacketCounters, if_neg h, if_neg h]
    exact ⟨rfl, fun _ => QsmpErrors.noConfusion⟩

/-- **So does decryption**, which takes no counter for a packet it
refuses. -/
theorem qsmpDecryptPacket_counters :
    let r := qsmpDecryptPacket K B message packetin
    let counters := qsmpDecryptPacketCounters K B message packetin
    r.2.1.rxcpr.nonce = rcsNextNonce^[counters.length] B.rxcpr.nonce ∧
      (r.1 = .none → r.2.2.1.read 0 r.2.2.2 =
        xorBytes (counters.flatMap (rcsKeystream K B.rxcpr.schedule))
          (packetin.pmessage.read 0 r.2.2.2)) ∧
      (r.1 ≠ .none → counters = []) := by
  by_cases h : packetin.sequence = B.rxseq + 1 ∧ B.exflag = .sessionEstablished
  · obtain ⟨hnonce, htext, hnil⟩ := qscRcsTransform_counters (K := K)
      (qscRcsSetAssociated K B.rxcpr (qsmpPacketHeaderSerialize packetin)) message
      packetin.pmessage (packetin.msglen - B.maclen).toNat
    rw [qscRcsSetAssociated_nonce] at hnonce
    rw [qscRcsSetAssociated_schedule] at htext
    rw [qsmpDecryptPacket_eq h.2 h.1, qsmpDecryptPacketCounters, if_pos h]
    split
    · rename_i hok
      exact ⟨hnonce, fun _ => htext hok, fun hne => absurd rfl hne⟩
    · rename_i hrefused
      exact ⟨hnonce, QsmpErrors.noConfusion, fun _ => hnil (Bool.eq_false_iff.2 hrefused)⟩
  · have hcounters : qsmpDecryptPacketCounters K B message packetin = [] := if_neg h
    rw [hcounters, qsmpDecryptPacket]
    by_cases hseq : packetin.sequence = B.rxseq + 1
    · simp only [if_pos hseq, if_neg fun hest => h ⟨hseq, hest⟩]
      exact ⟨rfl, QsmpErrors.noConfusion, fun _ => trivial⟩
    · simp only [if_neg hseq]
      exact ⟨rfl, QsmpErrors.noConfusion, fun _ => trivial⟩

/-- **A packet that is accepted takes one counter a started block**, from
the nonce of the receive cipher on. -/
theorem qsmpDecryptPacketCounters_eq (hdir : B.rxcpr.encrypt = false)
    (hnone : (qsmpDecryptPacket K B message packetin).1 = .none) :
    qsmpDecryptPacketCounters K B message packetin =
      List.iterate rcsNextNonce B.rxcpr.nonce (CounterMode.startedBlocks rcsBlockSize
        (qsmpDecryptPacket K B message packetin).2.2.2) := by
  obtain ⟨hseq, hest, hok⟩ := qsmpDecryptPacket_eq_none hnone
  have hturn : ¬ (qscRcsSetAssociated K B.rxcpr
      (qsmpPacketHeaderSerialize packetin)).encrypt = true := by
    rw [qscRcsSetAssociated_encrypt, hdir]
    decide
  rw [qsmpDecryptPacketCounters, if_pos ⟨hseq, hest⟩, qscRcsTransformCounters, if_neg hturn,
    qsmpDecryptPacket_eq hest hseq, if_pos hok]
  rw [decryptBody] at hok
  rw [if_pos hok, rcsCtrTransformCounters_eq, qscRcsSetAssociated_nonce, Mem.length_read]

/-- A packet takes no more counters than its header has room for. -/
theorem length_qsmpDecryptPacketCounters_le :
    (qsmpDecryptPacketCounters K B message packetin).length ≤
      CounterMode.startedBlocks rcsBlockSize (packetin.msglen - B.maclen).toNat := by
  rw [qsmpDecryptPacketCounters]
  split
  · rw [qscRcsTransformCounters]
    split
    · rw [length_rcsCtrTransformCounters, Mem.length_read]
    · split
      · rw [length_rcsCtrTransformCounters, Mem.length_read]
      · exact Nat.zero_le _
  · exact Nat.zero_le _

/-- Decryption leaves the transmit cipher alone. -/
theorem qsmpDecryptPacket_txcpr :
    (qsmpDecryptPacket K B message packetin).2.1.txcpr = B.txcpr := by
  simp only [qsmpDecryptPacket]
  split
  · split
    · split
      · rfl
      · rfl
    · rfl
  · rfl

/-! ## A sequence of packets -/

/-- A message to encrypt, the packet to fill, and the buffer the peer
decrypts it into. -/
structure PacketCall where
  message : Bytes
  packetout : QsmpPacket
  buffer : Mem

/-- The counters a packet takes at either end. -/
structure PacketCounters where
  sent : List RcsBlock
  received : List RcsBlock

/-- The blocks a message starts. -/
def PacketCall.blocks (c : PacketCall) : ℕ :=
  CounterMode.startedBlocks rcsBlockSize c.message.length

/-- The blocks of a sequence of messages. -/
def totalBlocks (calls : List PacketCall) : ℕ := (calls.map PacketCall.blocks).sum

/-- **The counters of a sequence of packets**: `A` encrypts the messages in
order, and `B` decrypts every packet that comes of it. -/
def countersRun (P : Params) (K : Primitives) :
    QsmpConnectionState → QsmpConnectionState → List PacketCall → List PacketCounters
  | _, _, [] => []
  | A, B, c :: rest =>
    let enc := qsmpEncryptPacket P K A c.packetout c.message
    let sent := qsmpEncryptPacketCounters P K A c.packetout c.message
    if enc.1 = .none then
      ⟨sent, qsmpDecryptPacketCounters K B c.buffer enc.2.2⟩ ::
        countersRun P K enc.2.1 (qsmpDecryptPacket K B c.buffer enc.2.2).2.1 rest
    else ⟨sent, []⟩ :: countersRun P K enc.2.1 B rest

/-- **The key stream is used once**: the counters of the sender are
consecutive, as many for each message as it starts blocks; none comes twice
while there are fewer than `2 ^ 256`; and the peer takes the same for the
same packet. -/
structure KeystreamUnique (P : Params) (K : Primitives) (A B : QsmpConnectionState)
    (calls : List PacketCall) : Prop where
  consecutive : counterValues ((countersRun P K A B calls).flatMap PacketCounters.sent) =
    Qsmp.consecutive (leNat A.txcpr.nonce.val) (totalBlocks calls)
  started : ((countersRun P K A B calls).map fun p => p.sent.length) = calls.map PacketCall.blocks
  unique : totalBlocks calls < 2 ^ 256 →
    ((countersRun P K A B calls).flatMap PacketCounters.sent).Nodup
  peer : ∀ p ∈ countersRun P K A B calls, p.received = p.sent

/-- A connection that can encrypt. -/
structure Transmits (A : QsmpConnectionState) : Prop where
  established : A.exflag = .sessionEstablished
  encrypts : A.txcpr.encrypt = true

/-- It stays one, message or none. -/
theorem Transmits.next (h : Transmits A) : Transmits (qsmpEncryptPacket P K A packetout m).2.1 := by
  rw [qsmpEncryptPacket]
  split
  · exact ⟨h.established, (encryptBody_frame (K := K) (m := m) _).2.2.trans h.encrypts⟩
  · exact h

/-- Its counter stands behind the blocks of the message. -/
theorem Transmits.nonce (h : Transmits A) :
    (qsmpEncryptPacket P K A packetout m).2.1.txcpr.nonce =
      rcsNextNonce^[CounterMode.startedBlocks rcsBlockSize m.length] A.txcpr.nonce := by
  rw [qsmpEncryptPacket_counters.1, qsmpEncryptPacketCounters_eq h.established h.encrypts,
    List.length_iterate]

/-- The head of a run, whatever comes of it. -/
theorem countersRun_cons (A B : QsmpConnectionState) (c : PacketCall) (rest : List PacketCall) :
    ∃ received B', countersRun P K A B (c :: rest) =
      ⟨qsmpEncryptPacketCounters P K A c.packetout c.message, received⟩ ::
        countersRun P K (qsmpEncryptPacket P K A c.packetout c.message).2.1 B' rest := by
  rw [countersRun]
  split
  · exact ⟨_, _, rfl⟩
  · exact ⟨_, _, rfl⟩

/-- **The sender's counters over a run** step on from the nonce, a block at
a time, whatever the peer does. -/
theorem countersRun_sent : ∀ (calls : List PacketCall) (A B : QsmpConnectionState), Transmits A →
    (countersRun P K A B calls).flatMap PacketCounters.sent =
        List.iterate rcsNextNonce A.txcpr.nonce (totalBlocks calls) ∧
      ((countersRun P K A B calls).map fun p => p.sent.length) = calls.map PacketCall.blocks := by
  intro calls
  induction calls with
  | nil => exact fun A B _ => ⟨rfl, rfl⟩
  | cons c rest ih =>
    intro A B h
    obtain ⟨received, B', hrun⟩ := countersRun_cons (P := P) (K := K) A B c rest
    obtain ⟨hsent, hcounts⟩ := ih (qsmpEncryptPacket P K A c.packetout c.message).2.1 B' h.next
    have hhead : qsmpEncryptPacketCounters P K A c.packetout c.message =
        List.iterate rcsNextNonce A.txcpr.nonce c.blocks :=
      qsmpEncryptPacketCounters_eq h.established h.encrypts
    have htotal : totalBlocks (c :: rest) = c.blocks + totalBlocks rest := List.sum_cons
    rw [hrun, List.flatMap_cons, List.map_cons, List.map_cons, hsent, hcounts, h.nonce, hhead,
      List.length_iterate, htotal, List.iterate_add]
    exact ⟨rfl, rfl⟩

/-! ## The peer -/

/-- A message that needs more than 32 bits of length starts more blocks
than what is left of it. -/
theorem startedBlocks_narrowed {length : ℕ}
    (h : CounterMode.startedBlocks rcsBlockSize length ≤
      CounterMode.startedBlocks rcsBlockSize (length % 2 ^ 32)) : length < 2 ^ 32 := by
  by_contra hlong
  have hmod := Nat.mod_add_div length (2 ^ 32)
  have hdiv : 0 < length / 2 ^ 32 := Nat.div_pos (by omega) (by decide)
  simp only [CounterMode.startedBlocks, rcsBlockSize] at h
  omega

/-- Nothing is made of no message. -/
theorem qsmpEncryptPacket_down (A : QsmpConnectionState) (packetout : QsmpPacket) :
    qsmpEncryptPacket P K A packetout [] = (.channelDown, A, packetout) := by
  rw [qsmpEncryptPacket, if_neg fun h => h.2 rfl]

/-- **A peer that takes the same counters is sent short messages**: it can
take no more than the narrowed length starts. -/
theorem short_of_peer : ∀ (calls : List PacketCall) (A B : QsmpConnectionState), Transmits A →
    B.txcpr.ctype = A.txcpr.ctype →
    (∀ p ∈ countersRun P K A B calls, p.received = p.sent) →
    ∀ c ∈ calls, c.message.length < 2 ^ 32 := by
  intro calls
  induction calls with
  | nil => exact fun A B _ _ _ => List.forall_mem_nil _
  | cons c rest ih =>
    intro A B h htype hpeer
    have hnext : B.txcpr.ctype =
        (qsmpEncryptPacket P K A c.packetout c.message).2.1.txcpr.ctype :=
      htype.trans qsmpEncryptPacket_ctype.symm
    rw [countersRun] at hpeer
    rw [List.forall_mem_cons]
    by_cases hm : c.message = []
    · have hdown := qsmpEncryptPacket_down (P := P) (K := K) A c.packetout
      rw [hm, hdown, if_neg QsmpErrors.noConfusion, List.forall_mem_cons] at hpeer
      rw [hm]
      exact ⟨by decide, ih A B h htype hpeer.2⟩
    · rw [if_pos (by rw [qsmpEncryptPacket_eq h.established hm]), List.forall_mem_cons] at hpeer
      refine ⟨startedBlocks_narrowed ?_, ih _ _ h.next ?_ hpeer.2⟩
      · have hmac : B.maclen = A.maclen := by
          rw [QsmpConnectionState.maclen, QsmpConnectionState.maclen, htype]
        have hlength := congrArg List.length hpeer.1
        rw [qsmpEncryptPacketCounters_eq h.established h.encrypts, List.length_iterate] at hlength
        refine hlength.symm.le.trans (length_qsmpDecryptPacketCounters_le.trans ?_)
        rw [qsmpEncryptPacket_eq h.established hm, hmac, encryptHeader]
        simp only [UInt32.add_sub_cancel, UInt32.toNat_ofNat']
        exact Nat.le_refl _
      · rw [qsmpDecryptPacket_txcpr]
        exact hnext

/-- **The step.** A short message is opened at the counters it was sealed
at, and the connections mirror each other again. -/
theorem Mirrored.counters (h : Mirrored A B) (hm : m ≠ []) (hlen : m.length < 2 ^ 32)
    (packetout : QsmpPacket) (message : Mem) :
    let packet := (qsmpEncryptPacket P K A packetout m).2.2
    qsmpDecryptPacketCounters K B message packet = qsmpEncryptPacketCounters P K A packetout m ∧
      Mirrored (qsmpEncryptPacket P K A packetout m).2.1
        (qsmpDecryptPacket K B message packet).2.1 := by
  obtain ⟨header, hheader⟩ : ∃ p, encryptHeader P A packetout m = p := ⟨_, rfl⟩
  obtain ⟨tx, htx⟩ :
      ∃ tx, qscRcsSetAssociated K A.txcpr (qsmpPacketHeaderSerialize header) = tx := ⟨_, rfl⟩
  have hpacket : (qsmpEncryptPacket P K A packetout m).2.2 =
      { header with pmessage := header.pmessage.write 0 (tx.sealed K m) } := by
    rw [qsmpEncryptPacket_eq h.establishedA hm, hheader, encryptBody_seals h.ciphers.encrypts, htx]
  have hread : (header.pmessage.write 0 (tx.sealed K m)).read 0
      (m.length + A.txcpr.ctype.macSize) = tx.sealed K m := by
    refine Mem.read_write_of_length ?_
    rw [RcsState.length_sealed, ← htx, qscRcsSetAssociated_ctype]
  obtain ⟨cns, hdec, hmirror, -⟩ :=
    h.opens hm hlen packetout (by rw [hheader, htx]; exact hread) message
  simp only [hheader, ← hpacket] at hdec
  have hcounters := qsmpDecryptPacketCounters_eq h.ciphers.decrypts (congrArg Prod.fst hdec)
  rw [hdec, ← h.ciphers.nonce] at hcounters
  refine ⟨?_, by rwa [hdec]⟩
  rw [hcounters, qsmpEncryptPacketCounters_eq h.establishedA h.ciphers.encrypts]

/-- **Short messages are opened where they were sealed**, packet by
packet. -/
theorem peer_of_short : ∀ (calls : List PacketCall) (A B : QsmpConnectionState), Mirrored A B →
    (∀ c ∈ calls, c.message.length < 2 ^ 32) →
    ∀ p ∈ countersRun P K A B calls, p.received = p.sent := by
  intro calls
  induction calls with
  | nil => exact fun A B _ _ => List.forall_mem_nil _
  | cons c rest ih =>
    intro A B h hshort
    obtain ⟨hlen, hrest⟩ := List.forall_mem_cons.1 hshort
    rw [countersRun]
    by_cases hm : c.message = []
    · have hdown := qsmpEncryptPacket_down (P := P) (K := K) A c.packetout
      have hnone : qsmpEncryptPacketCounters P K A c.packetout [] = [] := if_neg fun h => h.2 rfl
      rw [hm, hdown, if_neg QsmpErrors.noConfusion, hnone, List.forall_mem_cons]
      exact ⟨rfl, ih A B h hrest⟩
    · obtain ⟨hcounters, hmirror⟩ := h.counters (P := P) (K := K) hm hlen c.packetout c.buffer
      rw [if_pos (by rw [qsmpEncryptPacket_eq h.establishedA hm]), List.forall_mem_cons]
      exact ⟨hcounters, ih _ _ hmirror hrest⟩

theorem Mirrored.transmits (h : Mirrored A B) : Transmits A :=
  ⟨h.establishedA, h.ciphers.encrypts⟩

/-- Both ends encrypt with ciphers of one type. -/
theorem Mirrored.txType (h : Mirrored A B) : B.txcpr.ctype = A.txcpr.ctype :=
  h.tagType.trans h.ciphers.ctype.symm

/-- **When the key stream is used once at both ends**: exactly when the
length of every message has 32 bits. -/
theorem keystream_unique_iff (h : Mirrored A B) (calls : List PacketCall) :
    KeystreamUnique P K A B calls ↔ ∀ c ∈ calls, c.message.length < 2 ^ 32 := by
  constructor
  · intro hunique
    exact short_of_peer calls A B h.transmits h.txType hunique.peer
  · intro hshort
    obtain ⟨hsent, hstarted⟩ := countersRun_sent (P := P) (K := K) calls A B h.transmits
    have hvalues : counterValues ((countersRun P K A B calls).flatMap PacketCounters.sent) =
        consecutive (leNat A.txcpr.nonce.val) (totalBlocks calls) := by
      rw [hsent, counterValues_iterate]
    refine ⟨hvalues, hstarted, fun htotal => ?_, peer_of_short calls A B h hshort⟩
    have hnodup := nodup_consecutive (leNat A.txcpr.nonce.val) htotal.le
    rw [← hvalues] at hnodup
    exact hnodup.of_map

theorem keystream_unique_iff_blocks :
    KeystreamUnique .dilithiumKyber .plain (simplexEnd 1 2) (simplexEnd 2 1)
      [⟨[7], .init, .zero⟩, ⟨List.replicate 32 9, .init, .zero⟩, ⟨[], .init, .zero⟩,
        ⟨List.replicate 40 1, .init, .zero⟩] :=
  (keystream_unique_iff mirrored_simplexEnd _).2 (by decide)

/-- The key stream is used once, for every sequence of messages. -/
def KeystreamUniqueness (P : Params) (K : Primitives) : Prop :=
  ∀ A B, Mirrored A B → ∀ calls : List PacketCall, KeystreamUnique P K A B calls

/-- Of a message of `2 ^ 32` bytes the header counts none. -/
theorem not_keystreamUniqueness_long : ¬ KeystreamUniqueness .dilithiumKyber .plain := by
  intro hall
  have hunique := hall _ _ mirrored_simplexEnd [⟨List.replicate (2 ^ 32) 0, .init, .zero⟩]
  have hshort := short_of_peer _ _ _ mirrored_simplexEnd.transmits mirrored_simplexEnd.txType
    hunique.peer _ List.mem_cons_self
  rw [List.length_replicate] at hshort
  exact absurd hshort (Nat.lt_irrefl _)

end Qsmp
