import Qsmp.Common.Heap
import Qsmp.Common.Preconditions
import Qsmp.Kex.Stages
/-!
# What the codec touches, and what the drivers serialise

The two functions of the codec check the length of the message against
`QSMP_MESSAGE_MAX` and know nothing of the buffers they are given; what
they touch of them is recorded here. The stream buffer of a driver has
`QSMP_MESSAGE_MAX + 1` bytes. Every packet a step function makes is shorter
than that by the size of a header, and stays so while it waits to be sent,
so that in every run of a driver what is offered to the socket was
serialised inside its buffer.
-/

namespace Qsmp

open Dialogue Access

variable {S : Type} {P : Params} {K : Primitives} {A : Asymmetric P} {stack : Mem}
variable {l : Locals S} {tr : List Event} {d : Draws A}

/-- How much of a message the codec copies. -/
def copied (P : Params) (msglen : UInt32) : ℕ :=
  if msglen.toNat ≤ P.messageMax then msglen.toNat else 0

/-- What `qsmp_packet_to_stream` writes of a stream buffer of `size` bytes:
the flag, the length, the sequence number and the message. -/
def qsmpPacketToStreamWrites (P : Params) (size : ℕ) (packet : QsmpPacket) : List Access :=
  [⟨size, 0, 1⟩, ⟨size, 1, 4⟩, ⟨size, 5, 8⟩, ⟨size, 13, copied P packet.msglen⟩]

/-- The length a header announces. -/
def announced (pstream : Mem) : UInt32 := qscIntutilsLe8to32 (pstream.shift 1)

/-- What `qsmp_stream_to_packet` reads, with `size` bytes of the stream
received. -/
def qsmpStreamToPacketReads (P : Params) (size : ℕ) (pstream : Mem) : List Access :=
  [⟨size, 0, 1⟩, ⟨size, 1, 4⟩, ⟨size, 5, 8⟩, ⟨size, 13, copied P (announced pstream)⟩]

/-- What `qsmp_stream_to_packet` writes of a message buffer of `size` bytes. -/
def qsmpStreamToPacketWrites (P : Params) (size : ℕ) (pstream : Mem) : List Access :=
  [⟨size, 0, copied P (announced pstream)⟩]

/-- A packet that has room in a stream buffer, with its header. -/
def FitsStream (P : Params) (p : QsmpPacket) : Prop := headerSize + p.msglen.toNat ≤ P.messageMax

/-- A string that is a packet serialised inside its buffer: that of the
driver, or the 14 bytes of an error packet. -/
def SerialisedInside (P : Params) (stack : Mem) (bs : Bytes) : Prop :=
  (∃ q, bs = wire P stack q ∧
    AllInside (qsmpPacketToStreamWrites P (P.messageMax + 1) (q.getD .init))) ∨
  ∃ sequence qerr, bs = errorWire P stack sequence qerr ∧
    AllInside (qsmpPacketToStreamWrites P (headerSize + 1)
      { qsmpPacketErrorMessage .init qerr with sequence })

/-- The packet to send, if there is one, fits. -/
def Loaded (P : Params) (l : Locals S) : Prop := ∀ q, l.reqt = some q → FitsStream P q

/-- A part of a driver that offers only what was serialised inside, asks
only for lengths in `asks`, and leaves a packet that fits. -/
def Spares (P : Params) (stack : Mem) (asks : ℕ → Prop) (f : Locals S → Dialogue (Locals S)) :
    Prop :=
  ∀ l, Loaded P l → wp (SerialisedInside P stack) asks (f l) (Loaded P)

/-- A step function that makes a packet that fits of one that does. -/
def Fills (P : Params) (step : KexStep S) : Prop :=
  ∀ ks cns p q, FitsStream P q → FitsStream P (step ks cns p q).packetout

/-! ## The codec -/

section

variable {size : ℕ} {packet resp : QsmpPacket} {m m' : Mem}

/-- The header is inside whenever the whole packet is. -/
theorem allInside_stream_iff {n : ℕ} :
    AllInside [⟨size, 0, 1⟩, ⟨size, 1, 4⟩, ⟨size, 5, 8⟩, ⟨size, 13, n⟩] ↔
      headerSize + n ≤ size := by
  simp only [allInside_cons, allInside_nil, inside_iff, headerSize, and_true]
  omega

theorem allInside_qsmpPacketToStreamWrites (h : packet.msglen.toNat ≤ P.messageMax) :
    AllInside (qsmpPacketToStreamWrites P size packet) ↔
      headerSize + packet.msglen.toNat ≤ size := by
  rw [qsmpPacketToStreamWrites, allInside_stream_iff, copied, if_pos h]

/-- A message buffer of `QSMP_MESSAGE_MAX` bytes takes whatever a header
announces. -/
theorem allInside_qsmpStreamToPacketWrites (h : P.messageMax ≤ size) :
    AllInside (qsmpStreamToPacketWrites P size m) := by
  have hcopied : copied P (announced m) ≤ P.messageMax := by
    rw [copied]
    split
    · assumption
    · exact Nat.zero_le _
  simp only [qsmpStreamToPacketWrites, allInside_cons, allInside_nil, inside_iff, and_true]
  omega

theorem qsmpStreamToPacket_msglen :
    (qsmpStreamToPacket P m resp).msglen = announced m := by
  simp only [qsmpStreamToPacket]
  split
  · rfl
  · rfl

theorem qsmpStreamToPacket_pmessage : (qsmpStreamToPacket P m resp).pmessage =
    resp.pmessage.write 0 (m.read 13 (copied P (announced m))) := by
  have hmsglen : (qsmpPacketHeaderDeserialize m resp).msglen = announced m := rfl
  have hpmessage : (qsmpPacketHeaderDeserialize m resp).pmessage = resp.pmessage := rfl
  rw [copied]
  simp only [qsmpStreamToPacket, hmsglen, hpmessage]
  by_cases hle : (announced m).toNat ≤ P.messageMax
  · simp only [if_pos hle]
  · simp only [if_neg hle, hpmessage, Mem.read_zero_len, Mem.write_nil]

/-- **Nothing else of the stream is read**: streams that agree on the
accesses parse to one packet. -/
theorem qsmpStreamToPacket_congr
    (h : ∀ a ∈ qsmpStreamToPacketReads P size m, ∀ i < a.len, m (a.off + i) = m' (a.off + i)) :
    qsmpStreamToPacket P m resp = qsmpStreamToPacket P m' resp := by
  simp only [qsmpStreamToPacketReads, List.forall_mem_cons] at h
  obtain ⟨hflag, hmsglen, hsequence, hbody, -⟩ := h
  have hlen : (m.shift 1).read 0 4 = (m'.shift 1).read 0 4 := by
    rw [Mem.shift_read, Mem.shift_read]
    exact Mem.read_congr hmsglen
  have hseq : (m.shift 5).read 0 8 = (m'.shift 5).read 0 8 := by
    rw [Mem.shift_read, Mem.shift_read]
    exact Mem.read_congr hsequence
  have hheader : qsmpPacketHeaderDeserialize m resp = qsmpPacketHeaderDeserialize m' resp := by
    simp only [qsmpPacketHeaderDeserialize, qscIntutilsLe8to32, qscIntutilsLe8to64, hlen, hseq]
    rw [show m 0 = m' 0 from hflag 0 Nat.one_pos]
  have hmsg : (qsmpPacketHeaderDeserialize m' resp).msglen = announced m := by
    rw [← hheader]
    rfl
  simp only [qsmpStreamToPacket, hheader, hmsg]
  split
  · rename_i hle
    rw [copied, if_pos hle] at hbody
    rw [Mem.read_congr hbody]
  · rfl

/-- Nothing else of the message is written. -/
theorem qsmpStreamToPacket_frame {i : ℕ}
    (h : ∀ a ∈ qsmpStreamToPacketWrites P size m, a.off + a.len ≤ i) :
    (qsmpStreamToPacket P m resp).pmessage i = resp.pmessage i := by
  rw [qsmpStreamToPacketWrites, List.forall_mem_singleton] at h
  have hlen : 0 + copied P (announced m) ≤ i := h
  have hread : 0 + (m.read 13 (copied P (announced m))).length ≤ i := by rwa [Mem.length_read]
  rw [qsmpStreamToPacket_pmessage, Mem.write_of_ge hread]

/-- Nothing else of the stream is written. -/
theorem qsmpPacketToStream_frame {i : ℕ}
    (h : ∀ a ∈ qsmpPacketToStreamWrites P size packet, a.off + a.len ≤ i) :
    (qsmpPacketToStream P packet m).1 i = m i := by
  simp only [qsmpPacketToStreamWrites, List.forall_mem_cons, copied] at h
  obtain ⟨hflag, hmsglen, hsequence, hbody, -⟩ := h
  have hheader : ((((m.write 0 [packet.flag]).write 1 (qscIntutilsLe32to8 packet.msglen)).write 5
      (qscIntutilsLe64to8 packet.sequence)) i) = m i := by
    rw [Mem.write_of_ge (by simpa using hsequence), Mem.write_of_ge (by simpa using hmsglen),
      Mem.write_of_ge (by simpa using hflag)]
  simp only [qsmpPacketToStream]
  split
  · rename_i hle
    rw [if_pos hle] at hbody
    exact (Mem.write_of_ge (by rwa [Mem.length_read])).trans hheader
  · exact hheader

end

/-! ## The step functions -/

section

variable {tm : UInt64} {encap keypair sign : A.Seed}

theorem fitsStream_of_le {p : QsmpPacket} {n : ℕ} (h : p.msglen = .ofNat n)
    (hn : headerSize + n ≤ P.messageMax) : FitsStream P p := by
  have hmax : headerSize + P.messageMax < 2 ^ 31 := P.messageMax_lt
  rw [FitsStream, h, UInt32.toNat_ofNat_of_lt' (by simp only [UInt32.size]; omega)]
  exact hn

theorem fitsStream_zero {p : QsmpPacket} (h : p.msglen = 0) : FitsStream P p := by
  rw [FitsStream, h, Params.messageMax, UInt32.toNat_zero]
  omega

theorem fitsStream_init : FitsStream P .init := fitsStream_zero rfl

theorem fitsStream_clear {p : QsmpPacket} : FitsStream P (qsmpPacketClear p) := fitsStream_zero rfl

theorem connectRequest_fits : headerSize + (keyidSize + configSize) ≤ P.messageMax := by
  simp only [Params.messageMax, keyidSize, configSize, duplexHashSize]
  omega

theorem fills_kexDuplexClientExchangeRequest :
    Fills P (kexDuplexClientExchangeRequest K A encap keypair sign) := by
  intro kcs cns p q hq
  simp only [kexDuplexClientExchangeRequest]
  split
  · split
    · split
      · refine fitsStream_of_le rfl ?_
        rw [Params.messageMax]
        omega
      · exact hq
    · exact hq
  · exact hq

theorem fills_kexDuplexClientEstablishRequest : Fills P (kexDuplexClientEstablishRequest K A) := by
  intro kcs cns p q hq
  simp only [kexDuplexClientEstablishRequest]
  split
  · split
    · split
      · split
        · exact fitsStream_zero rfl
        · exact hq
      · exact hq
    · exact hq
  · exact hq

theorem fills_kexDuplexClientEstablishVerify :
    Fills P (kexDuplexClientEstablishVerify (P := P)) := by
  intro kcs cns p q hq
  rw [kexDuplexClientEstablishVerify]
  split
  · exact hq
  · exact hq

theorem fills_kexDuplexServerConnectResponse :
    Fills P (kexDuplexServerConnectResponse K A tm keypair sign) := by
  intro kss cns p q hq
  simp only [kexDuplexServerConnectResponse]
  split
  · split
    · split
      · split
        · refine fitsStream_of_le rfl ?_
          rw [Params.messageMax]
          omega
        · exact hq
      · exact hq
    · exact hq
  · exact hq

theorem fills_kexDuplexServerExchangeResponse :
    Fills P (kexDuplexServerExchangeResponse K A encap sign) := by
  intro kss cns p q hq
  simp only [kexDuplexServerExchangeResponse]
  split
  · split
    · split
      · split
        · refine fitsStream_of_le rfl ?_
          rw [Params.messageMax]
          omega
        · exact hq
      · exact hq
    · exact hq
  · exact hq

theorem fills_kexDuplexServerEstablishResponse :
    Fills P (kexDuplexServerEstablishResponse (P := P)) := by
  intro kss cns p q hq
  rw [kexDuplexServerEstablishResponse]
  split
  · exact fitsStream_zero rfl
  · exact hq

theorem fills_kexSimplexClientExchangeRequest :
    Fills P (kexSimplexClientExchangeRequest K A encap) := by
  intro kcs cns p q hq
  simp only [kexSimplexClientExchangeRequest]
  split
  · split
    · split
      · refine fitsStream_of_le rfl ?_
        rw [Params.messageMax]
        omega
      · exact hq
    · exact hq
  · exact hq

theorem fills_kexSimplexClientEstablishVerify :
    Fills P (kexSimplexClientEstablishVerify (P := P)) := by
  intro kcs cns p q hq
  rw [kexSimplexClientEstablishVerify]
  split
  · exact hq
  · exact hq

theorem fills_kexSimplexServerConnectResponse :
    Fills P (kexSimplexServerConnectResponse K A tm keypair sign) := by
  intro kss cns p q hq
  simp only [kexSimplexServerConnectResponse]
  split
  · split
    · split
      · split
        · refine fitsStream_of_le rfl ?_
          simp only [Params.messageMax, simplexHashSize, duplexHashSize]
          omega
        · exact hq
      · exact hq
    · exact hq
  · exact hq

theorem fills_kexSimplexServerExchangeResponse :
    Fills P (kexSimplexServerExchangeResponse K A) := by
  intro kss cns p q hq
  simp only [kexSimplexServerExchangeResponse]
  split
  · split
    · exact fitsStream_zero rfl
    · exact hq
  · exact hq

end

/-! ## The parts of a driver -/

variable {f g accept : Locals S → Dialogue (Locals S)} {step : KexStep S}
variable {len : ℕ} {flag : QsmpFlags} {failure : QsmpErrors} {asks : ℕ → Prop}

/-- Taking a packet leaves the one to send. -/
theorem Loaded.countReceived (h : Loaded P l) (resp : QsmpPacket) :
    Loaded P (l.countReceived resp) := h

theorem Loaded.wire_inside (h : Loaded P l) : SerialisedInside P stack (wire P stack l.reqt) := by
  have hfits : FitsStream P (l.reqt.getD .init) := by
    cases hreqt : l.reqt with
    | none => exact fitsStream_init
    | some q => exact h q hreqt
  rw [FitsStream] at hfits
  refine .inl ⟨l.reqt, rfl, (allInside_qsmpPacketToStreamWrites (by omega)).2 ?_⟩
  omega

/-- The array of an error packet is as long as its stream form. -/
theorem errorWire_inside {sequence : UInt64} {qerr : QsmpErrors} :
    SerialisedInside P stack (errorWire P stack sequence qerr) := by
  have hfits : headerSize + (keyidSize + configSize) ≤ P.messageMax := connectRequest_fits
  have hlen : (qsmpPacketErrorMessage .init qerr).msglen.toNat = 1 := rfl
  simp only [headerSize, keyidSize, configSize] at hfits
  refine .inr ⟨sequence, qerr, rfl, (allInside_qsmpPacketToStreamWrites ?_).2 ?_⟩
  · simp only [hlen]
    omega
  · simp only [hlen]
    omega

theorem spares_ifNone (hf : Spares P stack asks f) : Spares P stack asks (ifNone f) := by
  intro l hl
  rw [ifNone]
  split
  · exact hf l hl
  · exact hl

theorem spares_bind (hf : Spares P stack asks f) (hg : Spares P stack asks g) :
    Spares P stack asks fun l => (f l).bind g :=
  fun l hl => wp_seq (hf l hl) hg

theorem spares_transmit : Spares (S := S) P stack asks (transmit P stack) := by
  intro l hl
  simp only [transmit, wp]
  refine ⟨hl.wire_inside, fun n => ?_⟩
  split
  · exact hl
  · exact hl

theorem spares_receive (hlen : asks len) : Spares (S := S) P stack asks (receive P stack len) := by
  intro l hl
  simp only [receive, wp]
  refine ⟨hlen, fun bs => ?_⟩
  generalize parse P stack bs l.resp = resp
  split
  · split
    · exact hl
    · exact hl
  · exact hl

theorem spares_dispatch (ha : Spares P stack asks accept) :
    Spares P stack asks (dispatch flag failure accept) := by
  intro l hl
  rw [dispatch]
  split
  · exact ha l hl
  · split
    · exact hl
    · exact hl

theorem spares_answer (hstep : Fills P step) : Spares P stack asks (answer step) := by
  intro l hl
  rw [answer]
  split
  · exact trivial
  · intro q hq
    rw [← Option.some.inj hq]
    exact hstep _ _ _ _ fitsStream_clear

theorem spares_answerFirst (hstep : Fills P step) : Spares P stack asks (answerFirst step) := by
  intro l hl
  refine spares_answer hstep _ fun q hq => ?_
  rw [← Option.some.inj hq]
  exact fitsStream_init

theorem spares_verify (hstep : Fills P step) : Spares P stack asks (verify step) := by
  intro l hl q hq
  rw [← Option.some.inj hq]
  refine hstep _ _ _ _ ?_
  cases hreqt : l.reqt with
  | none => exact fitsStream_init
  | some q => exact hl q hreqt

theorem spares_receiveStage (hlen : asks len) (ha : Spares P stack asks accept) :
    Spares P stack asks (receiveStage P stack len flag failure accept) :=
  spares_bind (spares_receive hlen) (spares_ifNone (spares_dispatch ha))

theorem spares_exchangeStage (hlen : asks len) (ha : Spares P stack asks accept) :
    Spares P stack asks (exchangeStage P stack len flag failure accept) :=
  spares_bind spares_transmit (spares_ifNone (spares_receiveStage hlen ha))

theorem spares_clearResponse (hf : Spares P stack asks f) : Spares P stack asks (clearResponse f) :=
  fun _ hl => hf _ hl

theorem spares_duplexServerEstablishStage (hlen : asks estlen) (hstep : Fills P step) :
    Spares P stack asks (duplexServerEstablishStage (P := P) stack step) := by
  have haccept : Spares P stack asks fun l => (answer step l).bind fun l =>
      if l.qerr = .none then transmit P stack l else .done (l.fail .establishFailure) := by
    refine spares_bind (spares_answer hstep) fun l hl => ?_
    split
    · exact spares_transmit l hl
    · exact hl
  refine spares_bind spares_transmit (spares_ifNone fun l hl => ?_)
  simp only [wp]
  refine ⟨hlen, fun bs => ?_⟩
  split
  · have hl' : Loaded P (l.countReceived (parse P stack bs l.resp)) := hl.countReceived _
    generalize l.countReceived (parse P stack bs l.resp) = l' at hl' ⊢
    exact spares_dispatch haccept l' hl'
  · exact hl

/-- What follows the last stage offers at most the error packet. -/
theorem wp_finish {sequence : UInt64} {reset : S → S} :
    wp (SerialisedInside P stack) asks (finish P stack sequence reset l) fun _ => True := by
  rw [finish]
  split
  · exact trivial
  · split
    · simp only [wp]
      intro connected
      split
      · exact ⟨errorWire_inside, fun _ => trivial⟩
      · exact trivial
    · exact trivial

/-! ## The drivers -/

/-- A server has nothing to send when it starts. -/
theorem loaded_start {ks : S} {cns : QsmpConnectionState} : Loaded P (.start ks cns) :=
  fun _ h => absurd h.symm (Option.some_ne_none _)

theorem loaded_ofStep {r : StepResult S} (h : FitsStream P r.packetout) :
    Loaded P (.ofStep r) := by
  intro q hq
  rw [← Option.some.inj hq]
  exact h

theorem fitsStream_kexDuplexClientConnectRequest {kcs : QsmpKexDuplexClientState P}
    {cns : QsmpConnectionState} {tm : UInt64} :
    FitsStream P (kexDuplexClientConnectRequest K tm kcs cns .init).packetout := by
  simp only [kexDuplexClientConnectRequest]
  split
  · exact fitsStream_of_le rfl connectRequest_fits
  · exact fitsStream_init

theorem fitsStream_kexSimplexClientConnectRequest {kcs : QsmpKexSimplexClientState P}
    {cns : QsmpConnectionState} {tm : UInt64} :
    FitsStream P (kexSimplexClientConnectRequest K tm kcs cns .init).packetout := by
  simp only [kexSimplexClientConnectRequest]
  split
  · exact fitsStream_of_le rfl connectRequest_fits
  · exact fitsStream_init

theorem qsmpKexDuplexClientKeyExchange_shows (hcon : asks (duplexClientConlen P))
    (hexc : asks (duplexClientExclen P)) (hest : asks estlen) {kcs : QsmpKexDuplexClientState P}
    {cns : QsmpConnectionState} {r : Option (Returned (QsmpKexDuplexClientState P))}
    (h : Runs (qsmpKexDuplexClientKeyExchange K A stack d kcs cns) tr r) :
    ∀ e ∈ tr, Shows (SerialisedInside P stack) asks e := by
  refine (runs_of_wp (Q := fun _ => True) h ?_).1
  refine wp_seq (spares_ifNone (spares_exchangeStage hcon (spares_answer
    fills_kexDuplexClientExchangeRequest)) _
      (loaded_ofStep fitsStream_kexDuplexClientConnectRequest)) fun l hl => ?_
  refine wp_seq (spares_ifNone (spares_clearResponse (spares_exchangeStage hexc (spares_answer
    fills_kexDuplexClientEstablishRequest))) l hl) fun l hl => ?_
  exact wp_seq (spares_ifNone (spares_clearResponse (spares_exchangeStage hest (spares_verify
    fills_kexDuplexClientEstablishVerify))) l hl) fun _ _ => wp_finish

theorem qsmpKexDuplexServerKeyExchange_shows (hcon : asks serverConlen)
    (hexc : asks (duplexServerExclen P)) (hest : asks estlen) {kss : QsmpKexDuplexServerState P}
    {cns : QsmpConnectionState} {r : Option (Returned (QsmpKexDuplexServerState P))}
    (h : Runs (qsmpKexDuplexServerKeyExchange K A stack d kss cns) tr r) :
    ∀ e ∈ tr, Shows (SerialisedInside P stack) asks e := by
  refine (runs_of_wp (Q := fun _ => True) h ?_).1
  refine wp_seq (spares_receiveStage hcon (spares_answerFirst
    fills_kexDuplexServerConnectResponse) _ loaded_start) fun l hl => ?_
  refine wp_seq (spares_ifNone (spares_exchangeStage hexc (spares_answer
    fills_kexDuplexServerExchangeResponse)) l hl) fun l hl => ?_
  exact wp_seq (spares_ifNone (spares_duplexServerEstablishStage hest
    fills_kexDuplexServerEstablishResponse) l hl) fun _ _ => wp_finish

theorem qsmpKexSimplexClientKeyExchange_shows (hcon : asks (simplexClientConlen P))
    (hexc : asks estlen) {kcs : QsmpKexSimplexClientState P}
    {cns : QsmpConnectionState} {r : Option (Returned (QsmpKexSimplexClientState P))}
    (h : Runs (qsmpKexSimplexClientKeyExchange K A stack d kcs cns) tr r) :
    ∀ e ∈ tr, Shows (SerialisedInside P stack) asks e := by
  refine (runs_of_wp (Q := fun _ => True) h ?_).1
  refine wp_seq (spares_ifNone (spares_exchangeStage hcon (spares_answer
    fills_kexSimplexClientExchangeRequest)) _
      (loaded_ofStep fitsStream_kexSimplexClientConnectRequest)) fun l hl => ?_
  exact wp_seq (spares_ifNone (spares_clearResponse (spares_exchangeStage hexc (spares_verify
    fills_kexSimplexClientEstablishVerify))) l hl) fun _ _ => wp_finish

theorem qsmpKexSimplexServerKeyExchange_shows (hcon : asks serverConlen)
    (hexc : asks (simplexServerExclen P)) {kss : QsmpKexSimplexServerState P}
    {cns : QsmpConnectionState} {r : Option (Returned (QsmpKexSimplexServerState P))}
    (h : Runs (qsmpKexSimplexServerKeyExchange K A stack d kss cns) tr r) :
    ∀ e ∈ tr, Shows (SerialisedInside P stack) asks e := by
  refine (runs_of_wp (Q := fun _ => True) h ?_).1
  refine wp_seq (spares_receiveStage hcon (spares_answerFirst
    fills_kexSimplexServerConnectResponse) _ loaded_start) fun l hl => ?_
  refine wp_seq (spares_ifNone (spares_exchangeStage hexc (spares_answer
    fills_kexSimplexServerExchangeResponse)) l hl) fun l hl => ?_
  exact wp_seq (spares_ifNone spares_transmit l hl) fun _ _ => wp_finish

end Qsmp
