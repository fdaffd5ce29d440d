import Qsmp.Channel.Keystream
import Qsmp.Qsc.RcsCtr
/-!
# Two builds on one channel

What the tag of a packet covers is the header, the counter and the
cipher-text, and the permutation behind it is the same in every build. The
block function is not. Two ends that run different block functions
therefore accept each other's packets all the same, and stay in step; what
is delivered is the message under both key streams.
-/

namespace Qsmp

/-! ## One build: the blocks of the key stream -/

section

variable {P : Params} {permute : KeccakArray → KeccakArray} {A B : QsmpConnectionState}

/-- **No block of the key stream comes twice**: the packets of a run take
distinct counters, and the block function is a permutation. -/
theorem keystream_blocks_nodup (h : Transmits A) (calls : List PacketCall)
    (htotal : totalBlocks calls ≤ 2 ^ 256) :
    (((countersRun P (rcsPrimitives permute) A B calls).flatMap PacketCounters.sent).map
      (rcsKeystream (rcsPrimitives permute) A.txcpr.schedule)).Nodup := by
  obtain ⟨hsent, -⟩ := countersRun_sent (P := P) (K := rcsPrimitives permute) calls A B h
  have hvalues : counterValues ((countersRun P (rcsPrimitives permute) A B calls).flatMap
      PacketCounters.sent) = consecutive (leNat A.txcpr.nonce.val) (totalBlocks calls) := by
    rw [hsent, counterValues_iterate]
  have hnodup := nodup_consecutive (leNat A.txcpr.nonce.val) htotal
  rw [← hvalues] at hnodup
  refine hnodup.of_map.map ?_
  intro a b heq
  exact (bijective_rcsTransform256 A.txcpr.schedule).1 (Subtype.ext heq)

/-- Three messages that start four blocks. -/
theorem keystream_blocks_nodup_four :
    (((countersRun .dilithiumKyber (rcsPrimitives id) (simplexEnd 1 2) (simplexEnd 2 1)
        [⟨[7], .init, .zero⟩, ⟨List.replicate 32 9, .init, .zero⟩,
          ⟨List.replicate 40 1, .init, .zero⟩]).flatMap PacketCounters.sent).map
      (rcsKeystream (rcsPrimitives id) (simplexEnd 1 2).txcpr.schedule)).Nodup :=
  keystream_blocks_nodup ⟨rfl, rfl⟩ _ (by decide)

end

/-! ## Two builds: one cipher -/

section

variable {permute : KeccakArray → KeccakArray} {F G : RcsRoundkeys → RcsBlock → RcsBlock}
variable {ctx tx rx : RcsState} {plain cpt : Bytes} {output inp : Mem} {n : ℕ}

/-- The tag does not look at the block function, and the counter only at
the length. -/
theorem advance_build (ctx : RcsState) (cpt : Bytes) :
    ctx.advance ⟨permute, G⟩ cpt = ctx.advance ⟨permute, F⟩ cpt := by
  rw [RcsState.advance, RcsState.advance, rcsCtrTransform_eq, rcsCtrTransform_eq]
  rfl

/-- **What one build seals the other opens**, whatever its block function
makes of the cipher-text. -/
theorem RcsState.transform_crosses (h : RcsMirrors tx rx) (hn : plain.length = n)
    (hin : inp.read 0 (n + tx.ctype.macSize) = tx.sealed ⟨permute, F⟩ plain) :
    qscRcsTransform ⟨permute, G⟩ rx output inp n =
      ({ tx.after ⟨permute, F⟩ plain with encrypt := false },
        output.write 0 (rcsCtrTransform ⟨permute, G⟩ tx
          (rcsCtrTransform ⟨permute, F⟩ tx plain).2).2, true) := by
  subst hn
  rw [Mem.read_add, Nat.zero_add, RcsState.sealed] at hin
  obtain ⟨hcpt, htag⟩ := List.append_inj hin (by simp)
  have hauth : (rcsAuthenticate ⟨permute, G⟩ rx (rcsCtrTransform ⟨permute, F⟩ tx plain).2).2
      = inp.read plain.length rx.ctype.macSize := by
    rw [← h.ctype, htag, h.eq_rx]
    rfl
  rw [qscRcsTransform_decrypt h.decrypts hcpt, if_pos hauth, h.eq_rx, advance_build (F := F)]
  rfl

end

/-! ## The key stream of a message -/

section

variable (K : Primitives)

/-- The key stream of `n` bytes, from a counter on. -/
def rcsStream (schedule : RcsRoundkeys) (nonce : RcsBlock) (n : ℕ) : Bytes :=
  ((List.iterate rcsNextNonce nonce (CounterMode.startedBlocks rcsBlockSize n)).flatMap
    (rcsKeystream K schedule)).take n

variable {K}

@[simp] theorem length_rcsStream {schedule : RcsRoundkeys} {nonce : RcsBlock} {n : ℕ} :
    (rcsStream K schedule nonce n).length = n := by
  have hsize : rcsBlockSize = 32 := rfl
  have hblocks : ∀ l : List RcsBlock,
      (l.flatMap (rcsKeystream K schedule)).length = 32 * l.length := by
    intro l
    induction l with
    | nil => rfl
    | cons nonce l ih =>
      rw [List.flatMap_cons, List.length_append, length_rcsKeystream, ih, List.length_cons, hsize]
      omega
  rw [rcsStream, List.length_take, hblocks, List.length_iterate, CounterMode.startedBlocks, hsize]
  omega

/-- A transform is the exclusive or with it. -/
theorem rcsCtrTransform_stream (ctx : RcsState) (input : Bytes) :
    (rcsCtrTransform K ctx input).2 =
      xorBytes (rcsStream K ctx.schedule ctx.nonce input.length) input := by
  rw [rcsCtrTransform_eq, rcsCtrTransformCounters_eq, rcsStream]
  dsimp only
  rw [xorBytes_take]

end

/-! ## Two builds: one channel -/

section

variable (P : Params) (K K' : Primitives)

/-- One message, encrypted by `A` in one build and decrypted by `B` in
another. -/
def crossTransfer (A B : QsmpConnectionState) (m : Bytes) (buf : Buffers) :
    Outcome × QsmpConnectionState × QsmpConnectionState :=
  let enc := qsmpEncryptPacket P K A buf.packetout m
  let stream := (qsmpPacketToStream P enc.2.2 buf.stream).1
  let dec := qsmpDecryptPacket K' B buf.message (qsmpStreamToPacket P stream buf.packetin)
  (⟨enc.1, dec.1, dec.2.2.1.read 0 dec.2.2.2, dec.2.2.2⟩, enc.2.1, dec.2.1)

/-- A run of them, in order. -/
def crossTransfers : QsmpConnectionState → QsmpConnectionState → List (Bytes × Buffers) →
    List Outcome × QsmpConnectionState × QsmpConnectionState
  | A, B, [] => ([], A, B)
  | A, B, (m, buf) :: rest =>
    let first := crossTransfer P K K' A B m buf
    let run := crossTransfers first.2.1 first.2.2 rest
    (first.1 :: run.1, run.2)

/-- The two key streams agree on every byte of the messages, which start at
a counter and follow one another. -/
def StreamsAgree (schedule : RcsRoundkeys) : RcsBlock → List Bytes → Prop
  | _, [] => True
  | nonce, m :: rest =>
    rcsStream K' schedule nonce m.length = rcsStream K schedule nonce m.length ∧
      StreamsAgree schedule
        (rcsNextNonce^[CounterMode.startedBlocks rcsBlockSize m.length] nonce) rest

end

section

variable {P : Params} {permute : KeccakArray → KeccakArray}
variable {F G : RcsRoundkeys → RcsBlock → RcsBlock}
variable {A B : QsmpConnectionState} {m : Bytes}

/-- **The step**: the packet is accepted, the connections mirror each other
again, and the message comes out under both key streams. -/
theorem Mirrored.crosses (h : Mirrored A B) (hm : m ≠ []) (hlen : m.length < 2 ^ 32)
    (packetout : QsmpPacket) {pmessage : Mem}
    (hread : pmessage.read 0 (m.length + A.txcpr.ctype.macSize) =
      (qscRcsSetAssociated ⟨permute, F⟩ A.txcpr
        (qsmpPacketHeaderSerialize (encryptHeader P A packetout m))).sealed ⟨permute, F⟩ m)
    (message : Mem) :
    ∃ cns, qsmpDecryptPacket ⟨permute, G⟩ B message
          { encryptHeader P A packetout m with pmessage } =
        (.none, cns, message.write 0 (xorBytes
          (rcsStream ⟨permute, G⟩ A.txcpr.schedule A.txcpr.nonce m.length)
          (xorBytes (rcsStream ⟨permute, F⟩ A.txcpr.schedule A.txcpr.nonce m.length) m)),
          m.length) ∧
      Mirrored (qsmpEncryptPacket P ⟨permute, F⟩ A packetout m).2.1 cns := by
  obtain ⟨header, hheader⟩ : ∃ p, encryptHeader P A packetout m = p := ⟨_, rfl⟩
  have hseq : ({ header with pmessage } : QsmpPacket).sequence = B.rxseq + 1 := by
    rw [← hheader]
    exact congrArg (· + 1) h.sequence
  have hcount : (header.msglen - B.maclen).toNat = m.length := by
    rw [← hheader]
    exact h.count hlen
  have hciphers := h.ciphers.setAssociated (K := ⟨permute, F⟩) (qsmpPacketHeaderSerialize header)
  obtain ⟨tx, htx⟩ : ∃ tx, qscRcsSetAssociated ⟨permute, F⟩ A.txcpr
    (qsmpPacketHeaderSerialize header) = tx := ⟨_, rfl⟩
  rw [htx] at hciphers
  have htext : (rcsCtrTransform ⟨permute, G⟩ tx (rcsCtrTransform ⟨permute, F⟩ tx m).2).2 =
      xorBytes (rcsStream ⟨permute, G⟩ A.txcpr.schedule A.txcpr.nonce m.length)
        (xorBytes (rcsStream ⟨permute, F⟩ A.txcpr.schedule A.txcpr.nonce m.length) m) := by
    rw [rcsCtrTransform_stream, length_rcsCtrTransform, rcsCtrTransform_stream, ← htx,
      qscRcsSetAssociated_schedule, qscRcsSetAssociated_nonce]
  have hbody : decryptBody ⟨permute, G⟩ B message { header with pmessage } =
      ({ tx.after ⟨permute, F⟩ m with encrypt := false }, message.write 0 (xorBytes
        (rcsStream ⟨permute, G⟩ A.txcpr.schedule A.txcpr.nonce m.length)
        (xorBytes (rcsStream ⟨permute, F⟩ A.txcpr.schedule A.txcpr.nonce m.length) m)), true) := by
    rw [decryptBody, qsmpPacketHeaderSerialize_pmessage, hcount, ← htext]
    refine RcsState.transform_crosses hciphers rfl ?_
    rw [← htx, qscRcsSetAssociated_ctype, hread, hheader]
  rw [qsmpEncryptPacket_eq h.establishedA hm, hheader, encryptBody_seals h.ciphers.encrypts,
    qsmpDecryptPacket_eq h.establishedB hseq, hbody, if_pos rfl, hcount, htx]
  refine ⟨_, rfl, ?_⟩
  exact
    { establishedA := h.establishedA
      establishedB := h.establishedB
      ciphers := .of_encrypt hciphers.encrypts
      tagType := by
        rw [← htx]
        exact h.tagType.trans (h.ciphers.ctype.symm.trans qscRcsSetAssociated_ctype.symm)
      sequence := congrArg (· + 1) h.sequence }

/-- A message that fits crosses over, and the counter moves on by the
blocks it starts. -/
theorem mirrored_crossTransfer (h : Mirrored A B) (hm : m ≠ [])
    (hfit : m.length + A.txcpr.ctype.macSize ≤ P.messageMax) (buf : Buffers) :
    let r := crossTransfer P ⟨permute, F⟩ ⟨permute, G⟩ A B m buf
    r.1 = ⟨.none, .none, xorBytes
        (rcsStream ⟨permute, G⟩ A.txcpr.schedule A.txcpr.nonce m.length)
        (xorBytes (rcsStream ⟨permute, F⟩ A.txcpr.schedule A.txcpr.nonce m.length) m),
        m.length⟩ ∧
      Mirrored r.2.1 r.2.2 ∧ r.2.1.txcpr.ctype = A.txcpr.ctype ∧
      r.2.1.txcpr.schedule = A.txcpr.schedule ∧
      r.2.1.txcpr.nonce =
        rcsNextNonce^[CounterMode.startedBlocks rcsBlockSize m.length] A.txcpr.nonce := by
  have hshort : m.length < 2 ^ 32 := length_lt_of_fits hfit
  obtain ⟨sent, hsent⟩ : ∃ p : QsmpPacket, p = { encryptHeader P A buf.packetout m with
    pmessage := (encryptBody ⟨permute, F⟩ A (encryptHeader P A buf.packetout m) m).2.1 } := ⟨_, rfl⟩
  have hlen : sent.msglen.toNat = m.length + A.txcpr.ctype.macSize := by
    rw [hsent]
    exact msglen_toNat_of_fits hfit
  have hwire : qsmpStreamToPacket P (qsmpPacketToStream P sent buf.stream).1 buf.packetin
      = parsedPacket P ⟨permute, F⟩ A m buf := by
    rw [qsmpStreamToPacket_qsmpPacketToStream (by rw [hlen]; exact hfit), hsent]
    rfl
  obtain ⟨cns, hdec, hmirror⟩ := h.crosses (G := G) hm hshort buf.packetout
    (read_parsedPacket (K := ⟨permute, F⟩) h.ciphers.encrypts hfit) buf.message
  have hopened : qsmpDecryptPacket ⟨permute, G⟩ B buf.message
    (parsedPacket P ⟨permute, F⟩ A m buf) = _ := hdec
  have hnonce := (@qsmpEncryptPacket_counters P ⟨permute, F⟩ A buf.packetout m).1
  rw [qsmpEncryptPacketCounters_eq h.establishedA h.ciphers.encrypts, List.length_iterate] at hnonce
  have hframe := encryptBody_frame (K := ⟨permute, F⟩) (A := A) (m := m)
    (encryptHeader P A buf.packetout m)
  rw [qsmpEncryptPacket_eq h.establishedA hm] at hmirror hnonce
  have hdelivered : (buf.message.write 0 (xorBytes
      (rcsStream ⟨permute, G⟩ A.txcpr.schedule A.txcpr.nonce m.length)
      (xorBytes (rcsStream ⟨permute, F⟩ A.txcpr.schedule A.txcpr.nonce m.length) m))).read 0
        m.length = _ := Mem.read_write_of_length (by simp)
  simp only [crossTransfer, qsmpEncryptPacket_eq h.establishedA hm, ← hsent, hwire, hopened,
    hdelivered]
  exact ⟨trivial, hmirror, hframe.1, hframe.2.1, hnonce⟩

/-- **A channel between two builds looks sound and is not.** Over any list
of messages that fit, every encryption and every decryption succeeds, every
length is right, and the connections mirror each other at the end; and the
messages delivered are those sent exactly when the two block functions give
the same key stream for them. -/
theorem mirrored_crossTransfers : ∀ (A B : QsmpConnectionState) (msgs : List (Bytes × Buffers)),
    Mirrored A B →
    (∀ m ∈ msgs, m.1 ≠ [] ∧ m.1.length + A.txcpr.ctype.macSize ≤ P.messageMax) →
    let r := crossTransfers P ⟨permute, F⟩ ⟨permute, G⟩ A B msgs
    r.1.map (fun o => (o.sent, o.received, o.msglen)) =
        msgs.map (fun m => (.none, .none, m.1.length)) ∧
      Mirrored r.2.1 r.2.2 ∧
      (r.1.map Outcome.message = msgs.map Prod.fst ↔
        StreamsAgree ⟨permute, F⟩ ⟨permute, G⟩ A.txcpr.schedule A.txcpr.nonce
          (msgs.map Prod.fst)) := by
  intro A B msgs
  induction msgs generalizing A B with
  | nil => exact fun h _ => ⟨rfl, h, Iff.intro (fun _ => trivial) fun _ => rfl⟩
  | cons head rest ih =>
    intro h hfit
    obtain ⟨m, buf⟩ := head
    obtain ⟨hm, hlen⟩ := hfit (m, buf) List.mem_cons_self
    obtain ⟨hout, hmirror, htype, hschedule, hnonce⟩ :=
      @mirrored_crossTransfer P permute F G A B m h hm hlen buf
    obtain ⟨hrest, hend, hagree⟩ := ih _ _ hmirror fun x hx => by
      rw [htype]
      exact hfit x (List.mem_cons_of_mem _ hx)
    rw [hschedule, hnonce] at hagree
    have hhead : xorBytes (rcsStream ⟨permute, G⟩ A.txcpr.schedule A.txcpr.nonce m.length)
        (xorBytes (rcsStream ⟨permute, F⟩ A.txcpr.schedule A.txcpr.nonce m.length) m) = m ↔
        rcsStream ⟨permute, G⟩ A.txcpr.schedule A.txcpr.nonce m.length =
          rcsStream ⟨permute, F⟩ A.txcpr.schedule A.txcpr.nonce m.length := by
      rw [xorBytes_xorBytes_eq_iff (by simp) (by simp), List.take_of_length_le (by simp),
        List.take_of_length_le (by simp)]
    simp only [crossTransfers, List.map_cons, hout, hrest, StreamsAgree, List.cons.injEq,
      true_and]
    exact ⟨hend, and_congr hhead hagree⟩

/-- Two messages between the plain build and that of the AES instructions. -/
theorem mirrored_crossTransfers_two :
    let r := crossTransfers .dilithiumKyber (rcsPrimitives id) (rcsNiPrimitives id)
      (simplexEnd 1 2) (simplexEnd 2 1)
      [([7], ⟨.init, .zero, .init, .zero⟩), ([8, 9], ⟨.init, .zero, .init, .zero⟩)]
    r.1.map (fun o => (o.sent, o.received, o.msglen)) = [(.none, .none, 1), (.none, .none, 2)] ∧
      Mirrored r.2.1 r.2.2 := by
  have hplain : rcsPrimitives id = ⟨id, rcsTransform256⟩ := rfl
  have hni : rcsNiPrimitives id = ⟨id, rcsNetwork (rcsRow ∘ rcsFlip)⟩ := rfl
  rw [hplain, hni]
  obtain ⟨houtcomes, hmirror, -⟩ := @mirrored_crossTransfers .dilithiumKyber id
    rcsTransform256 (rcsNetwork (rcsRow ∘ rcsFlip)) (simplexEnd 1 2) (simplexEnd 2 1)
    [([7], ⟨.init, .zero, .init, .zero⟩), ([8, 9], ⟨.init, .zero, .init, .zero⟩)]
    mirrored_simplexEnd (by decide)
  exact ⟨houtcomes, hmirror⟩

end

end Qsmp
