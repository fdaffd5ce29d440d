import Qsmp.Common.Framing
import Qsmp.Receive.Bounds
import Qsmp.Receive.Server
/-!
# The receive loops as readers of a stream

The peer's packets stand on the stream with one terminator behind each, and
TCP shows a loop as much of the stream as it likes. The loops take for
granted that what one call receives is one packet: the client's and the
listener's ask for two bytes more than the packet has, so that one of the
next packet goes with it if it is there, and none of the loops waits for
the rest of a packet. They read every packet that comes alone and whole.
-/

namespace Qsmp

/-! ## What is on the stream -/

/-- A packet as a peer writes it, and the byte the socket puts behind it.
The body is not empty and not longer than `QSMP_MESSAGE_MAX`. One packet is
no frame: the client's answer to a keep-alive counts the byte behind it in
its length of 22, so that the socket sends 23, two behind the body. -/
structure Frame (P : Params) where
  flag : UInt8
  sequence : UInt64
  body : Bytes
  terminator : UInt8
  nonempty : 0 < body.length
  fits : body.length ≤ P.messageMax

/-- A packet as a loop takes it: the header, and of the body what has
arrived. -/
structure Arrived where
  flag : UInt8
  msglen : UInt32
  sequence : UInt64
  body : Bytes
deriving DecidableEq

variable {P : Params} {K : Primitives} {A : Asymmetric P}

namespace Frame

/-- The packet of a frame. -/
def packet (f : Frame P) : QsmpPacket :=
  ⟨f.flag, .ofNat f.body.length, f.sequence, Mem.zero.write 0 f.body⟩

/-- The bytes of a frame. -/
def wire (f : Frame P) : Bytes :=
  qsmpPacketHeaderSerialize f.packet ++ f.body ++ [f.terminator]

/-- The packet a frame is to be taken for. -/
def arrived (f : Frame P) : Arrived :=
  ⟨f.flag, .ofNat f.body.length, f.sequence, f.body⟩

variable (f : Frame P)

theorem toNat_msglen : f.packet.msglen.toNat = f.body.length := by
  have hfits := f.fits
  have hmax := P.messageMax_lt
  exact UInt32.toNat_ofNat_of_lt' (by simp only [UInt32.size]; omega)

theorem length_wire : f.wire.length = headerSize + f.body.length + socketTerminatorSize := by
  simp only [wire, List.length_append, length_qsmpPacketHeaderSerialize, List.length_singleton,
    socketTerminatorSize]

theorem inRange : P.InRange f.packet := by
  rw [Params.InRange, f.toNat_msglen]
  exact ⟨f.nonempty, f.fits⟩

/-- **What a sender puts on the stream**: a packet that fits, in its stream
form and with the byte behind it, is a frame. -/
theorem wire_of_packet {pkt : QsmpPacket} (stream : Mem) (hrange : P.InRange pkt) :
    ∃ f : Frame P, f.flag = pkt.flag ∧ f.sequence = pkt.sequence ∧
      f.body = pkt.pmessage.read 0 pkt.msglen.toNat ∧
      (qsmpPacketToStream P pkt stream).1.read 0
        ((qsmpPacketToStream P pkt stream).2 + socketTerminatorSize) = f.wire := by
  refine ⟨⟨pkt.flag, pkt.sequence, pkt.pmessage.read 0 pkt.msglen.toNat,
    (qsmpPacketToStream P pkt stream).1 (headerSize + pkt.msglen.toNat),
    by rw [Mem.length_read]; exact hrange.1, by rw [Mem.length_read]; exact hrange.2⟩,
    rfl, rfl, rfl, ?_⟩
  have hread : (qsmpPacketToStream P pkt stream).1.read 0 (headerSize + pkt.msglen.toNat) = _ :=
    read_qsmpPacketToStream hrange.2
  rw [qsmpPacketToStream_of_le hrange.2] at hread ⊢
  simp only [wire, socketTerminatorSize] at hread ⊢
  rw [Mem.read_add, hread, Nat.zero_add, Mem.read_succ, Mem.read_zero_len]
  simp [packet, qsmpPacketHeaderSerialize]

end Frame

/-- The packet a pass has handled, of which `taken` bytes were received. -/
def Arrived.of (pkt : QsmpPacket) (taken : ℕ) : Arrived :=
  ⟨pkt.flag, pkt.msglen, pkt.sequence,
    pkt.pmessage.read 0 (min pkt.msglen.toNat (taken - headerSize))⟩

/-- The packet of the header in front of a stream. -/
def headerOf (unread : Bytes) : QsmpPacket :=
  qsmpPacketHeaderDeserialize (Mem.zero.write 0 (unread.take headerSize)) .init

theorem headerOf_wire (f : Frame P) (rest : Bytes) :
    headerOf (f.wire ++ rest) = { f.packet with pmessage := Mem.zero } := by
  have htake : (f.wire ++ rest).take headerSize = qsmpPacketHeaderSerialize f.packet := by
    rw [Frame.wire, List.append_assoc, List.append_assoc,
      List.take_left' length_qsmpPacketHeaderSerialize]
  rw [headerOf, htake]
  exact qsmpPacketHeaderDeserialize_of_read
    (Mem.read_write_of_length length_qsmpPacketHeaderSerialize)

/-- What stands behind the header. -/
theorem drop_wire (f : Frame P) (rest : Bytes) :
    ((f.wire ++ rest).drop headerSize).take f.body.length = f.body := by
  rw [Frame.wire, List.append_assoc, List.append_assoc,
    List.drop_left' length_qsmpPacketHeaderSerialize, List.take_left' rfl]

/-! ## The loops as readers -/

/-- A pass of a loop over the stream: how much of it the peek shows and how
much can be received, besides what else the pass meets; or the doings of
the other threads. -/
inductive StreamStep {P : Params} (A : Asymmetric P) where
  | pass (e : ReceiveEvent A) (peekLen recvLen : ℕ)
  | others (prcv : ReceiverState P)

/-- What a pass meets on a stream. -/
def ReceiveEvent.over (e : ReceiveEvent A) (unread : Bytes) (peekLen recvLen : ℕ) :
    ReceiveEvent A :=
  { e with peeked := unread.take peekLen, arrived := unread.take recvLen }

/-- `client_receive_loop` and `listener_receive_loop` as readers. -/
def receiveReader (K : Primitives) (A : Asymmetric P) (role : ReceiveRole) :
    StreamReader (ReceiveLoop P) (StreamStep A) UInt8 Arrived where
  Running := ReceiveLoop.Runs
  decidable := inferInstance
  pass s i unread :=
    match i with
    | .pass e peekLen recvLen =>
      let r := receiveLoopPass K role s (e.over unread peekLen recvLen)
      ⟨r.loop, r.taken.length, r.handled.map (Arrived.of · r.taken.length)⟩
    | .others prcv => ⟨{ s with prcv }, 0, none⟩

/-- A pass of the server's loop over the stream, or the doings of the other
threads. -/
inductive ServerStep where
  | pass (recvLen : ℕ) (fatal : Bool)
  | others (cns : QsmpConnectionState)

/-- `server_receive_loop` as a reader. -/
def serverReader (P : Params) (K : Primitives) :
    StreamReader ServerLoop ServerStep UInt8 Arrived where
  Running := ServerLoop.Runs
  decidable := inferInstance
  pass s i unread :=
    match i with
    | .pass recvLen fatal =>
      let r := serverReceiveLoop P K s ⟨unread.take recvLen, fatal⟩
      ⟨r.loop, r.taken.length, r.handled.map (Arrived.of · r.taken.length)⟩
    | .others cns => ⟨{ s with cns }, 0, none⟩

/-! ## What framing promises -/

/-- The flag of the packet that ends a connection. -/
def Arrived.Terminates (p : Arrived) : Prop := p.flag = QsmpFlags.connectionTerminate.toByte

/-- **The packets sent are the packets processed**: in order, none lost,
merged or cut, none after the first terminate; all of them, once a loop
that runs has less than `short` bytes left; and a loop that is left for a
terminate has processed one. -/
structure Framed {σ ι : Type*} (R : StreamReader σ ι UInt8 Arrived)
    (ended : σ → Option LoopEnd) (short : ℕ) (sent : List (Frame P))
    (s : Reading σ UInt8 Arrived) : Prop where
  order : s.read <+: sent.map Frame.arrived
  before : ∀ p ∈ s.read.dropLast, ¬ p.Terminates
  all : R.Running s.state → s.unread.length < short → s.read = sent.map Frame.arrived
  terminated : ended s.state = some (.close .none false) → ∃ p ∈ s.read.getLast?, p.Terminates

section Stops

variable {σ ι : Type*} {R : StreamReader σ ι UInt8 Arrived} {ended : σ → Option LoopEnd}
variable {s s' : Reading σ UInt8 Arrived} {i : ι}

/-- A reader stops at a terminate, and so has read at most one. -/
structure StopsAtTerminate (R : StreamReader σ ι UInt8 Arrived) (ended : σ → Option LoopEnd)
    (s : Reading σ UInt8 Arrived) : Prop where
  running : R.Running s.state → ∀ p ∈ s.read, ¬ p.Terminates
  before : ∀ p ∈ s.read.dropLast, ¬ p.Terminates
  terminated : ended s.state = some (.close .none false) → ∃ p ∈ s.read.getLast?, p.Terminates

theorem StopsAtTerminate.step (hs : StopsAtTerminate R ended s) (hstep : R.step s i = some s')
    (hrunning : ∀ t, R.Running t → ended t = none)
    (hread : ∀ p, (R.pass s.state i s.unread).read = some p →
      (ended (R.pass s.state i s.unread).state = some (.close .none false) ↔ p.Terminates))
    (hnone : (R.pass s.state i s.unread).read = none →
      ended (R.pass s.state i s.unread).state ≠ some (.close .none false)) :
    StopsAtTerminate R ended s' := by
  obtain ⟨hruns, rfl⟩ := StreamReader.step_eq_some hstep
  cases hpass : (R.pass s.state i s.unread).read with
  | none =>
    rw [Option.toList_none, List.append_nil]
    exact ⟨fun _ => hs.running hruns, hs.before, fun h => absurd h (hnone hpass)⟩
  | some p =>
    rw [Option.toList_some]
    have hstops := hread p hpass
    refine ⟨fun hruns' q hq => ?_, ?_, fun h => ?_⟩
    · rcases List.mem_append.1 hq with hq | hq
      · exact hs.running hruns q hq
      · obtain rfl := List.mem_singleton.1 hq
        intro hterm
        have hclosed := hstops.2 hterm
        rw [hrunning _ hruns'] at hclosed
        exact absurd hclosed.symm (Option.some_ne_none _)
    · rw [List.dropLast_concat]
      exact hs.running hruns
    · exact ⟨p, by rw [List.getLast?_concat]; rfl, hstops.1 h⟩

theorem StopsAtTerminate.framed {short : ℕ} {sent : List (Frame P)}
    (hs : StopsAtTerminate R ended s) (hin : InStep R Frame.wire Frame.arrived short sent s)
    (hshort : short ≤ headerSize) : Framed R ended short sent s where
  order := hin.read_prefix
  before := hs.before
  all := hin.read_all fun f => by
    rw [f.length_wire]
    omega
  terminated := hs.terminated

end Stops

/-! ## What one call receives -/

/-- **A packet comes alone and whole**: of the stream `unread` a call takes
nothing, or the packet in front and its terminator; a terminate may come
without it, or with bytes behind it. -/
def TakesWhole (unread : Bytes) (n : ℕ) : Prop :=
  n = 0 ∨ n = headerSize + (headerOf unread).msglen.toNat + socketTerminatorSize ∨
    headerSize + (headerOf unread).msglen.toNat ≤ n ∧
      (headerOf unread).flag = QsmpFlags.connectionTerminate.toByte

/-- The packet in front is the last, and comes whole. -/
def TakesLast (unread : Bytes) (n : ℕ) : Prop :=
  headerSize + (headerOf unread).msglen.toNat ≤ n ∧
    unread.length ≤ headerSize + (headerOf unread).msglen.toNat + socketTerminatorSize

/-- The condition on a pass of the client's or the listener's loop: if a
whole header is peeked at and a buffer granted, the packet comes alone and
whole, or it is the last. -/
def StreamStep.Whole (s : Reading (ReceiveLoop P) UInt8 Arrived) : StreamStep A → Prop
  | .pass e peekLen recvLen =>
    headerSize ≤ min peekLen s.unread.length → e.buffGrant ≠ none →
      TakesWhole s.unread
        (min recvLen (min (P.receiveLength (headerOf s.unread)) s.unread.length)) ∨
      TakesLast s.unread (min recvLen (min (P.receiveLength (headerOf s.unread)) s.unread.length))
  | .others _ => True

/-- The condition on a pass of the server's loop: the packet comes alone
and whole. -/
def ServerStep.Whole (s : Reading ServerLoop UInt8 Arrived) : ServerStep → Prop
  | .pass recvLen _ => TakesWhole s.unread (min recvLen (min connectionMtu s.unread.length))
  | .others _ => True

section Receive

variable {role : ReceiveRole} {s : ReceiveLoop P} {e : ReceiveEvent A}

/-- **A pass takes nothing, or handles a packet** made of the header it has
peeked at and of what it has received. -/
theorem receiveLoopPass_cases (role : ReceiveRole) (s : ReceiveLoop P) (e : ReceiveEvent A) :
    ((receiveLoopPass K role s e).taken = [] ∧ (receiveLoopPass K role s e).handled = none ∧
      ((receiveLoopPass K role s e).loop.ended = some (.close .none false) →
        s.ended = some (.close .none false))) ∨
    ∃ (s' : ReceiveLoop P) (m : Mem), e.hdr.length = headerSize ∧
      (P.InRange e.pkt → e.buffGrant ≠ none) ∧ e.received ≠ [] ∧
      (receiveLoopPass K role s e).taken = e.received ∧
      (∀ k n, k + n ≤ e.received.length → m.read k n = (e.received.drop k).take n) ∧
      s'.ended = s.ended ∧
      (receiveLoopPass K role s e).handled = some { e.pkt with pmessage := m.shift headerSize } ∧
      (receiveLoopPass K role s e).loop =
        (receivePacket K role s' e { e.pkt with pmessage := m.shift headerSize }).loop := by
  have hnothing (t : ReceiveLoop P) (l : List Access) (ht : t.ended = s.ended) :
      (receiveNothing t l e).loop.ended = some (.close .none false) →
        s.ended = some (.close .none false) := by
    simp only [receiveNothing]
    split
    · exact fun h => ht.symm.trans h
    · exact fun h => absurd (Option.some.inj h) (by simp)
  rw [receiveLoopPass]
  split
  · rename_i hhdr
    split
    · exact .inl ⟨rfl, rfl, fun h => absurd (Option.some.inj h) (by decide)⟩
    · rename_i buff hbuff
      by_cases hreceived : e.received = []
      · simp only [if_neg (not_not.2 hreceived)]
        exact .inl ⟨rfl, rfl, hnothing _ _ rfl⟩
      · obtain ⟨filled, hfilled⟩ :
            ∃ b, (buff.clear (P.receiveLength e.pkt)).store e.received = b := ⟨_, rfl⟩
        rw [if_pos hreceived]
        simp only [hfilled]
        refine .inr ⟨{ s with buff := filled }, filled.mem, hhdr, fun hrange hgrant => ?_,
          hreceived, trivial, fun k n hkn => ?_, rfl, rfl, rfl⟩
        · rw [resizeBuff, if_pos hrange, qscMemutilsRealloc, hgrant] at hbuff
          split at hbuff <;> exact absurd hbuff.symm (Option.some_ne_none buff)
        · rw [← hfilled]
          exact Block.store_read hkn
  · exact .inl ⟨rfl, rfl, hnothing s [] rfl⟩

theorem ReceiveBranch.of_eq_connectionTerminate {flag : UInt8} :
    ReceiveBranch.of role flag = .connectionTerminate ↔
      flag = QsmpFlags.connectionTerminate.toByte := by
  rw [ReceiveBranch.of]
  by_cases henc : flag = QsmpFlags.encryptedMessage.toByte
  · rw [if_pos henc, henc]
    exact iff_of_false (by decide) (by decide)
  · by_cases hterm : flag = QsmpFlags.connectionTerminate.toByte
    · rw [if_neg henc, if_pos hterm]
      exact iff_of_true rfl hterm
    · rw [if_neg henc, if_neg hterm]
      refine iff_of_false (fun h => ?_) hterm
      repeat' split at h
      all_goals exact absurd h (by decide)

theorem receiveRatchet_ended {reads : ℕ} {result : RatchetResult P} {err : QsmpErrors}
    (hs : s.ended = none) :
    (receiveRatchet s reads result err).loop.ended ≠ some (.close .none false) := by
  simp only [receiveRatchet]
  split
  · exact fun h => Option.some_ne_none _ (h.symm.trans hs)
  · exact fun h => absurd (LoopEnd.close.inj (Option.some.inj h)).2 (by decide)

/-- **A loop is left for a terminate** by the branch of its flag and by no
other. -/
theorem receivePacket_ended {pkt : QsmpPacket} (hs : s.ended = none) :
    (receivePacket K role s e pkt).loop.ended = some (.close .none false) ↔
      pkt.flag = QsmpFlags.connectionTerminate.toByte := by
  have hother (b : ReceiveBranch) (hb : b ≠ .connectionTerminate)
      (hbranch : ReceiveBranch.of role pkt.flag = b) :
      ¬ pkt.flag = QsmpFlags.connectionTerminate.toByte := fun h =>
    hb (hbranch.symm.trans (ReceiveBranch.of_eq_connectionTerminate.2 h))
  have hnone : s.ended ≠ some (.close .none false) := by
    rw [hs]
    exact (Option.some_ne_none _).symm
  -- Every other branch that leaves the loop tells the peer, or gives another code.
  have hnotified (err : QsmpErrors) : LoopEnd.close err true ≠ .close .none false :=
    fun h => absurd (LoopEnd.close.inj h).2 (by decide)
  rw [receivePacket]
  cases hbranch : ReceiveBranch.of role pkt.flag with
  | connectionTerminate =>
    exact iff_of_true rfl (ReceiveBranch.of_eq_connectionTerminate.1 hbranch)
  | encryptedMessage =>
    refine iff_of_false (fun h => ?_) (hother _ (by decide) hbranch)
    simp only [receiveEncryptedMessage] at h
    split at h
    · exact hnotified _ (Option.some.inj h)
    · split at h
      · exact hnone h
      · exact hnotified _ (Option.some.inj h)
  | keepAliveRequest => exact iff_of_false hnone (hother _ (by decide) hbranch)
  | keepAliveResponse =>
    refine iff_of_false (fun h => ?_) (hother _ (by decide) hbranch)
    simp only [receiveKeepAliveResponse] at h
    split at h
    · split at h
      · exact hnone h
      · exact hnotified _ (Option.some.inj h)
    · exact hnotified _ (Option.some.inj h)
  | symmetricRatchetRequest =>
    exact iff_of_false (receiveRatchet_ended hs) (hother _ (by decide) hbranch)
  | asymmetricRatchetRequest =>
    exact iff_of_false (receiveRatchet_ended hs) (hother _ (by decide) hbranch)
  | asymmetricRatchetResponse =>
    exact iff_of_false (receiveRatchet_ended hs) (hother _ (by decide) hbranch)
  | other =>
    refine iff_of_false (fun h => ?_) (hother _ (by decide) hbranch)
    simp only at h
    split at h
    · exact absurd (LoopEnd.close.inj (Option.some.inj h)).1 (by decide)
    · exact hnone h

/-- The header a pass over a stream peeks at is the one in front of it. -/
theorem ReceiveEvent.pkt_over {unread : Bytes} {peekLen recvLen : ℕ}
    (hpeek : (e.over unread peekLen recvLen).hdr.length = headerSize) :
    headerSize ≤ min peekLen unread.length ∧
      (e.over unread peekLen recvLen).pkt = headerOf unread := by
  simp only [ReceiveEvent.over, ReceiveEvent.hdr, List.take_take, List.length_take] at hpeek
  refine ⟨by omega, ?_⟩
  rw [ReceiveEvent.pkt, headerOf, ReceiveEvent.hdr, ReceiveEvent.over, List.take_take,
    Nat.min_eq_left (by omega)]

/-- What a whole packet in front of the stream is taken for. -/
theorem Arrived.of_received {f : Frame P} {rest received : Bytes} {m : Mem} {flag : UInt8}
    {msglen : UInt32} {sequence : UInt64}
    (hheader : headerOf (f.wire ++ rest) = ⟨flag, msglen, sequence, Mem.zero⟩)
    (hreceived : received <+: f.wire ++ rest)
    (hwhole : headerSize + f.body.length ≤ received.length)
    (hm : m.read headerSize f.body.length = (received.drop headerSize).take f.body.length) :
    Arrived.of ⟨flag, msglen, sequence, m.shift headerSize⟩ received.length = f.arrived := by
  rw [headerOf_wire] at hheader
  obtain ⟨rfl, rfl, rfl, -⟩ := QsmpPacket.mk.inj hheader
  have hbody : (received.drop headerSize).take f.body.length = f.body := by
    obtain ⟨behind, hbehind⟩ := hreceived
    have hdrop := drop_wire f rest
    rw [← hbehind, List.drop_append_of_le_length (by omega),
      List.take_append_of_le_length (by rw [List.length_drop]; omega)] at hdrop
    exact hdrop
  have hmin : min f.body.length (received.length - headerSize) = f.body.length := by omega
  rw [Arrived.of, Frame.arrived, Frame.packet]
  have hlen : (UInt32.ofNat f.body.length).toNat = f.body.length := f.toNat_msglen
  rw [hlen, hmin, Mem.shift_read, Nat.add_zero, hm, hbody]

end Receive

/-! ## The loops take whole packets -/

section Takes

variable {f : Frame P} {rest : List (Frame P)}

/-- Nothing stands behind the last packet. -/
theorem rest_of_short (h : (f.wire ++ rest.flatMap Frame.wire).length ≤ f.wire.length) :
    rest = [] := by
  cases rest with
  | nil => rfl
  | cons g rest =>
    rw [List.length_append, List.flatMap_cons, List.length_append, g.length_wire] at h
    simp only [headerSize] at h
    omega

theorem msglen_headerOf_wire (rest : Bytes) :
    (headerOf (f.wire ++ rest)).msglen.toNat = f.body.length := by
  rw [headerOf_wire]
  exact f.toNat_msglen

theorem receiveReader_takes {role : ReceiveRole} {s : Reading (ReceiveLoop P) UInt8 Arrived}
    {i : StreamStep A} (hruns : s.state.Runs)
    (hunread : s.unread = f.wire ++ rest.flatMap Frame.wire) (hwhole : i.Whole s) :
    Takes (receiveReader K A role) Frame.wire Frame.arrived headerSize s i f rest := by
  cases i with
  | others prcv => exact .nothing rfl rfl
  | pass e peekLen recvLen =>
    rcases receiveLoopPass_cases (K := K) role s.state (e.over s.unread peekLen recvLen) with
      ⟨htaken, hhandled, -⟩ |
      ⟨s', m, hhdr, hgrant, hreceived, htaken, hm, hended, hhandled, hloop⟩
    · refine .nothing ?_ ?_
      · simp only [receiveReader, htaken, List.length_nil]
      · simp only [receiveReader, hhandled, Option.map_none]
    · obtain ⟨hpeek, hpkt⟩ := e.pkt_over hhdr
      have hheader : headerOf s.unread = { f.packet with pmessage := Mem.zero } := by
        rw [hunread, headerOf_wire]
      have hmsglen : (headerOf s.unread).msglen.toNat = f.body.length := by
        rw [hunread, msglen_headerOf_wire]
      have hrange : P.InRange (headerOf s.unread) := by
        rw [Params.InRange, hmsglen]
        exact ⟨f.nonempty, f.fits⟩
      have hlength : (e.over s.unread peekLen recvLen).received.length =
          min recvLen (min (P.receiveLength (headerOf s.unread)) s.unread.length) := by
        rw [ReceiveEvent.received, hpkt, ReceiveEvent.over, List.length_take, List.length_take]
        omega
      have hpos : (e.over s.unread peekLen recvLen).received.length ≠ 0 :=
        fun h => hreceived (List.eq_nil_of_length_eq_zero h)
      have hwire : f.wire.length = headerSize + f.body.length + socketTerminatorSize :=
        f.length_wire
      have hpre : (e.over s.unread peekLen recvLen).received <+: s.unread :=
        (List.take_prefix _ _).trans (List.take_prefix _ _)
      have hcond := hwhole hpeek (hgrant (hpkt ▸ hrange))
      rw [← hlength, TakesWhole, TakesLast, hmsglen] at hcond
      have hbody : headerSize + f.body.length ≤
          (e.over s.unread peekLen recvLen).received.length := by
        rcases hcond with (hzero | hexact | ⟨hle, -⟩) | ⟨hle, -⟩
        · exact absurd hzero hpos
        · omega
        · exact hle
        · exact hle
      have hread : ((receiveReader K A role).pass s.state (.pass e peekLen recvLen)
          s.unread).read = some f.arrived := by
        simp only [receiveReader, hhandled, htaken, Option.map_some, Option.some.injEq]
        have hfront : headerOf (f.wire ++ rest.flatMap Frame.wire) =
            (e.over s.unread peekLen recvLen).pkt := by rw [hpkt, hunread]
        exact Arrived.of_received hfront (hunread ▸ hpre) hbody
          (hm headerSize f.body.length hbody)
      have htakenLength : ((receiveReader K A role).pass s.state (.pass e peekLen recvLen)
          s.unread).taken = (e.over s.unread peekLen recvLen).received.length := by
        simp only [receiveReader, htaken]
      refine .frame hread fun hruns' => ?_
      rw [htakenLength]
      rcases hcond with (hzero | hexact | ⟨-, hterm⟩) | ⟨hle, hlast⟩
      · exact absurd hzero hpos
      · left
        rw [hexact, hwire]
      · -- A terminate is handled, and the loop does not run on.
        have hleft : (receiveLoopPass K role s.state
            (e.over s.unread peekLen recvLen)).loop.ended = some (.close .none false) := by
          rw [hloop, receivePacket_ended (hended.trans hruns.1), hpkt]
          exact hterm
        exact absurd (hruns'.1.symm.trans hleft) (Option.some_ne_none _).symm
      · right
        refine ⟨rest_of_short (f := f) ?_, ?_⟩
        · rw [← hunread, hwire]
          exact hlast
        · simp only [headerSize, socketTerminatorSize] at hlast hle ⊢
          omega

/-- A loop that runs and meets less than a header takes nothing. -/
theorem receiveReader_short {role : ReceiveRole} {s : Reading (ReceiveLoop P) UInt8 Arrived}
    {i : StreamStep A} (hshort : s.unread.length < headerSize) :
    ((receiveReader K A role).pass s.state i s.unread).taken = 0 ∧
      ((receiveReader K A role).pass s.state i s.unread).read = none := by
  cases i with
  | others prcv => exact ⟨rfl, rfl⟩
  | pass e peekLen recvLen =>
    rcases receiveLoopPass_cases (K := K) role s.state (e.over s.unread peekLen recvLen) with
      ⟨htaken, hhandled, -⟩ | ⟨_, _, hhdr, -⟩
    · simp only [receiveReader, htaken, hhandled, List.length_nil, Option.map_none, and_self]
    · obtain ⟨hpeek, -⟩ := e.pkt_over hhdr
      omega

theorem receiveReader_stops {role : ReceiveRole} {s s' : Reading (ReceiveLoop P) UInt8 Arrived}
    {i : StreamStep A} (hs : StopsAtTerminate (receiveReader K A role) ReceiveLoop.ended s)
    (hstep : (receiveReader K A role).step s i = some s') :
    StopsAtTerminate (receiveReader K A role) ReceiveLoop.ended s' := by
  have hruns : s.state.Runs := (StreamReader.step_eq_some hstep).1
  have hnone : s.state.ended ≠ some (.close .none false) := by
    rw [hruns.1]
    exact (Option.some_ne_none _).symm
  cases i with
  | others prcv =>
    refine hs.step hstep (fun t ht => ht.1) (fun p hp => ?_) fun _ => hnone
    exact absurd hp.symm (Option.some_ne_none p)
  | pass e peekLen recvLen =>
    rcases receiveLoopPass_cases (K := K) role s.state (e.over s.unread peekLen recvLen) with
      ⟨-, hhandled, hend⟩ | ⟨s₁, m, -, -, -, htaken, -, hended, hhandled, hloop⟩
    · refine hs.step hstep (fun t ht => ht.1) (fun p hp => ?_) fun _ h => hnone (hend h)
      simp only [receiveReader, hhandled, Option.map_none] at hp
      exact absurd hp.symm (Option.some_ne_none p)
    · refine hs.step hstep (fun t ht => ht.1) (fun p hp => ?_) fun hp => ?_
      · simp only [receiveReader, hhandled, Option.map_some, Option.some.injEq] at hp ⊢
        rw [hloop, receivePacket_ended (hended.trans hruns.1), ← hp]
        exact Iff.rfl
      · simp only [receiveReader, hhandled, Option.map_some] at hp
        exact absurd hp (Option.some_ne_none _)

end Takes

/-! ## And so does the server's -/

section Server

variable {f : Frame P} {rest : List (Frame P)}

/-- **The packet the server converts** a whole packet in front of the
stream to. -/
theorem qsmpStreamToPacket_wire {received behind : Bytes} (m : Mem) (pkt : QsmpPacket)
    (hreceived : received <+: f.wire ++ behind)
    (hwhole : headerSize + f.body.length ≤ received.length) :
    qsmpStreamToPacket P (m.write 0 received) pkt =
      { f.packet with pmessage := pkt.pmessage.write 0 f.body } := by
  have hbody : f.packet.pmessage.read 0 f.packet.msglen.toNat = f.body := by
    rw [f.toNat_msglen]
    exact Mem.read_write_self
  have hfront : received.take (headerSize + f.body.length) =
      qsmpPacketHeaderSerialize f.packet ++ f.body := by
    have hlen : (qsmpPacketHeaderSerialize f.packet ++ f.body).length =
        headerSize + f.body.length := by
      rw [List.length_append, length_qsmpPacketHeaderSerialize]
    obtain ⟨more, hmore⟩ := hreceived
    have htake : (received ++ more).take (headerSize + f.body.length) =
        received.take (headerSize + f.body.length) := List.take_append_of_le_length hwhole
    rw [← htake, hmore, Frame.wire, List.append_assoc, List.take_left' hlen]
  have hread : (m.write 0 received).read 0 (headerSize + f.packet.msglen.toNat) =
      qsmpPacketHeaderSerialize f.packet ++
        f.packet.pmessage.read 0 f.packet.msglen.toNat := by
    rw [hbody, f.toNat_msglen, Mem.read_write_start hwhole, hfront]
  rw [qsmpStreamToPacket_of_read f.inRange.2 hread, hbody]

theorem serverReceivePacket_ended {s : ServerLoop} (hs : s.ended = none) :
    (serverReceivePacket K s).1.ended = some (.close .none false) ↔
      s.pkt.flag = QsmpFlags.connectionTerminate.toByte := by
  have hnone : s.ended ≠ some (.close .none false) := by
    rw [hs]
    exact (Option.some_ne_none _).symm
  have hnotified (err : QsmpErrors) : LoopEnd.close err true ≠ .close .none false :=
    fun h => absurd (LoopEnd.close.inj h).2 (by decide)
  rw [serverReceivePacket]
  split
  · rename_i henc
    refine iff_of_false (fun h => ?_) (by rw [henc]; decide)
    simp only at h
    split at h
    · exact hnone h
    · exact hnotified _ (Option.some.inj h)
  · split
    · rename_i hterm
      exact iff_of_true rfl hterm
    · rename_i hterm
      exact iff_of_false (fun h => hnotified _ (Option.some.inj h)) hterm

variable {s s' : Reading ServerLoop UInt8 Arrived} {i : ServerStep}

/-- A pass takes nothing, or handles what it has received. -/
theorem serverReceiveLoop_cases (s : ServerLoop) (e : ServerEvent) :
    (e.received = [] ∧ (serverReceiveLoop P K s e).taken = [] ∧
      (serverReceiveLoop P K s e).handled = none ∧
      ((serverReceiveLoop P K s e).loop.ended = some (.close .none false) →
        s.ended = some (.close .none false))) ∨
    (e.received ≠ [] ∧ (serverReceiveLoop P K s e).taken = e.received ∧
      ∃ s' : ServerLoop, s'.ended = s.ended ∧
        s'.pkt = qsmpStreamToPacket P (s.buffer.write 0 e.received) s.pkt ∧
        (serverReceiveLoop P K s e).handled = some s'.pkt ∧
        (serverReceiveLoop P K s e).loop = (serverReceivePacket K s').1) := by
  by_cases hreceived : e.received = []
  · simp only [serverReceiveLoop, if_neg (not_not.2 hreceived)]
    refine .inl ⟨hreceived, trivial, trivial, ?_⟩
    split
    · exact fun h => absurd (LoopEnd.close.inj (Option.some.inj h)).1 (by decide)
    · exact id
  · obtain ⟨pkt, hpkt⟩ :
        ∃ pkt, qsmpStreamToPacket P (s.buffer.write 0 e.received) s.pkt = pkt := ⟨_, rfl⟩
    simp only [serverReceiveLoop, if_pos hreceived, hpkt]
    exact .inr ⟨hreceived, trivial, { s with
      buffer := (s.buffer.write 0 e.received).clear 0 e.received.length, pkt }, rfl, rfl, rfl, rfl⟩

theorem serverReader_takes (hruns : s.state.Runs)
    (hunread : s.unread = f.wire ++ rest.flatMap Frame.wire) (hwhole : i.Whole s) :
    Takes (serverReader P K) Frame.wire Frame.arrived 1 s i f rest := by
  cases i with
  | others cns => exact .nothing rfl rfl
  | pass recvLen fatal =>
    obtain ⟨e, he⟩ : ∃ e : ServerEvent, e = ⟨s.unread.take recvLen, fatal⟩ := ⟨_, rfl⟩
    have hpass : (serverReader P K).pass s.state (.pass recvLen fatal) s.unread =
        ⟨(serverReceiveLoop P K s.state e).loop, (serverReceiveLoop P K s.state e).taken.length,
          (serverReceiveLoop P K s.state e).handled.map
            (Arrived.of · (serverReceiveLoop P K s.state e).taken.length)⟩ := by
      rw [he]
      rfl
    rcases serverReceiveLoop_cases (P := P) (K := K) s.state e with
      ⟨-, htaken, hhandled, -⟩ | ⟨hreceived, htaken, s', hended, hpkt, hhandled, hloop⟩
    · refine .nothing ?_ ?_
      · rw [hpass, htaken, List.length_nil]
      · rw [hpass, hhandled, Option.map_none]
    · have hmsglen : (headerOf s.unread).msglen.toNat = f.body.length := by
        rw [hunread, msglen_headerOf_wire]
      have hflag : (headerOf s.unread).flag = f.flag := by
        rw [hunread, headerOf_wire]
        rfl
      have hlength : e.received.length = min recvLen (min connectionMtu s.unread.length) := by
        rw [he, ServerEvent.received, List.length_take, List.length_take]
        omega
      have hpos : e.received.length ≠ 0 := fun h => hreceived (List.eq_nil_of_length_eq_zero h)
      have hpre : e.received <+: f.wire ++ rest.flatMap Frame.wire := by
        rw [← hunread, he]
        exact (List.take_prefix _ _).trans (List.take_prefix _ _)
      rw [ServerStep.Whole, ← hlength, TakesWhole, hmsglen, hflag] at hwhole
      have hbody : headerSize + f.body.length ≤ e.received.length := by
        rcases hwhole with hzero | hexact | ⟨hle, -⟩
        · exact absurd hzero hpos
        · omega
        · exact hle
      rw [qsmpStreamToPacket_wire _ _ hpre hbody] at hpkt
      have hread : Arrived.of s'.pkt e.received.length = f.arrived := by
        have hmin : min f.body.length (e.received.length - headerSize) = f.body.length := by omega
        have hlen : (UInt32.ofNat f.body.length).toNat = f.body.length := f.toNat_msglen
        rw [hpkt, Arrived.of, Frame.packet, Frame.arrived, hlen, hmin, Mem.read_write_self]
      refine .frame (by rw [hpass, hhandled, htaken, Option.map_some, hread]) fun hruns' => .inl ?_
      rw [hpass, htaken]
      rcases hwhole with hzero | hexact | ⟨-, hterm⟩
      · exact absurd hzero hpos
      · rw [hexact, f.length_wire]
      · -- A terminate is handled, and the loop does not run on.
        have hleft : (serverReceiveLoop P K s.state e).loop.ended =
            some (.close .none false) := by
          rw [hloop, serverReceivePacket_ended (hended.trans hruns.1), hpkt]
          exact hterm
        rw [hpass] at hruns'
        exact absurd (hruns'.1.symm.trans hleft) (Option.some_ne_none _).symm

theorem serverReader_short (hshort : s.unread.length < 1) :
    ((serverReader P K).pass s.state i s.unread).taken = 0 ∧
      ((serverReader P K).pass s.state i s.unread).read = none := by
  cases i with
  | others cns => exact ⟨rfl, rfl⟩
  | pass recvLen fatal =>
    have hnil : s.unread = [] := List.eq_nil_of_length_eq_zero (by omega)
    rcases serverReceiveLoop_cases (P := P) (K := K) s.state ⟨s.unread.take recvLen, fatal⟩ with
      ⟨-, htaken, hhandled, -⟩ | ⟨hreceived, -⟩
    · simp only [serverReader, htaken, hhandled, List.length_nil, Option.map_none, and_self]
    · exact absurd (by rw [ServerEvent.received, hnil, List.take_nil, List.take_nil]) hreceived

theorem serverReader_stops (hs : StopsAtTerminate (serverReader P K) ServerLoop.ended s)
    (hstep : (serverReader P K).step s i = some s') :
    StopsAtTerminate (serverReader P K) ServerLoop.ended s' := by
  have hruns : s.state.Runs := (StreamReader.step_eq_some hstep).1
  have hnone : s.state.ended ≠ some (.close .none false) := by
    rw [hruns.1]
    exact (Option.some_ne_none _).symm
  cases i with
  | others cns =>
    refine hs.step hstep (fun t ht => ht.1) (fun p hp => ?_) fun _ => hnone
    exact absurd hp.symm (Option.some_ne_none p)
  | pass recvLen fatal =>
    rcases serverReceiveLoop_cases (P := P) (K := K) s.state ⟨s.unread.take recvLen, fatal⟩ with
      ⟨-, -, hhandled, hend⟩ | ⟨-, htaken, s₁, hended, -, hhandled, hloop⟩
    · refine hs.step hstep (fun t ht => ht.1) (fun p hp => ?_) fun _ h => hnone (hend h)
      simp only [serverReader, hhandled, Option.map_none] at hp
      exact absurd hp.symm (Option.some_ne_none p)
    · refine hs.step hstep (fun t ht => ht.1) (fun p hp => ?_) fun hp => ?_
      · simp only [serverReader, hhandled, Option.map_some, Option.some.injEq] at hp ⊢
        rw [hloop, serverReceivePacket_ended (hended.trans hruns.1), ← hp]
        exact Iff.rfl
      · simp only [serverReader, hhandled, Option.map_some] at hp
        exact absurd hp (Option.some_ne_none _)

end Server

/-! ## Runs -/

/-- **Stream framing**: whatever the peer sends and however TCP splits or
joins it, each of the three loops processes the packets sent. -/
def StreamFraming (P : Params) (K : Primitives) (A : Asymmetric P) : Prop :=
  (∀ (role : ReceiveRole) (prcv : ReceiverState P) (buff mstr : Mem) (sent : List (Frame P))
      (l : List (StreamStep A)),
    Along (receiveReader K A role).step
      (fun _ _ s => Framed (receiveReader K A role) ReceiveLoop.ended headerSize sent s)
      ⟨.start prcv buff mstr, sent.flatMap Frame.wire, []⟩ l) ∧
  ∀ (cns : QsmpConnectionState) (buffer mstr pmsg : Mem) (sent : List (Frame P))
      (l : List ServerStep),
    Along (serverReader P K).step
      (fun _ _ s => Framed (serverReader P K) ServerLoop.ended 1 sent s)
      ⟨.start P cns buffer mstr pmsg, sent.flatMap Frame.wire, []⟩ l

/-- **Packets that come alone and whole are processed as sent**: in every
run of one of the three loops in which each pass meets the condition, every
pass leaves the packets processed a first part of those sent. -/
theorem stream_framed (P : Params) (K : Primitives) (A : Asymmetric P) :
    (∀ (role : ReceiveRole) (prcv : ReceiverState P) (buff mstr : Mem) (sent : List (Frame P))
        (l : List (StreamStep A)),
      Along (receiveReader K A role).step (fun s i _ => i.Whole s)
        ⟨.start prcv buff mstr, sent.flatMap Frame.wire, []⟩ l →
      Along (receiveReader K A role).step
        (fun _ _ s => Framed (receiveReader K A role) ReceiveLoop.ended headerSize sent s)
        ⟨.start prcv buff mstr, sent.flatMap Frame.wire, []⟩ l) ∧
    ∀ (cns : QsmpConnectionState) (buffer mstr pmsg : Mem) (sent : List (Frame P))
        (l : List ServerStep),
      Along (serverReader P K).step (fun s i _ => i.Whole s)
        ⟨.start P cns buffer mstr pmsg, sent.flatMap Frame.wire, []⟩ l →
      Along (serverReader P K).step
        (fun _ _ s => Framed (serverReader P K) ServerLoop.ended 1 sent s)
        ⟨.start P cns buffer mstr pmsg, sent.flatMap Frame.wire, []⟩ l := by
  refine ⟨fun role prcv buff mstr sent l hwhole => ?_,
    fun cns buffer mstr pmsg sent l hwhole => ?_⟩
  · refine Along.of_invariant (I := fun s =>
      InStep (receiveReader K A role) Frame.wire Frame.arrived headerSize sent s ∧
        StopsAtTerminate (receiveReader K A role) ReceiveLoop.ended s) ?_ ⟨.start, ?_⟩ hwhole
    · rintro s i s' ⟨hin, hstops⟩ hstep hcond
      have hruns : s.state.Runs := (StreamReader.step_eq_some hstep).1
      have hin' := hin.step (by decide) hstep receiveReader_short
        fun f rest hunread => receiveReader_takes hruns hunread hcond
      have hstops' := receiveReader_stops hstops hstep
      exact ⟨⟨hin', hstops'⟩, hstops'.framed hin' (Nat.le_refl _)⟩
    · exact ⟨fun _ _ hp => absurd hp List.not_mem_nil, fun _ hp => absurd hp List.not_mem_nil,
        fun h => absurd h.symm (Option.some_ne_none _)⟩
  · refine Along.of_invariant (I := fun s =>
      InStep (serverReader P K) Frame.wire Frame.arrived 1 sent s ∧
        StopsAtTerminate (serverReader P K) ServerLoop.ended s) ?_ ⟨.start, ?_⟩ hwhole
    · rintro s i s' ⟨hin, hstops⟩ hstep hcond
      have hruns : s.state.Runs := (StreamReader.step_eq_some hstep).1
      have hin' := hin.step Nat.one_pos hstep serverReader_short
        fun f rest hunread => serverReader_takes hruns hunread hcond
      have hstops' := serverReader_stops hstops hstep
      exact ⟨⟨hin', hstops'⟩, hstops'.framed hin' (by decide)⟩
    · exact ⟨fun _ _ hp => absurd hp List.not_mem_nil, fun _ hp => absurd hp List.not_mem_nil,
        fun h => absurd h.symm (Option.some_ne_none _)⟩

/-- A keep-alive request, as a listener writes it. -/
def Frame.keepAlive : Frame .dilithiumKyber :=
  ⟨QsmpFlags.keepAliveRequest.toByte, 0, [1, 0, 0, 0, 0, 0, 0, 0], 0, by decide, by decide⟩

/-- A terminate, as `qsmp_connection_close` writes it. -/
def Frame.terminate : Frame .dilithiumKyber :=
  ⟨QsmpFlags.connectionTerminate.toByte, sequenceTerminator, [0], 0, by decide, by decide⟩

theorem stream_framed_plain :
    Along (receiveReader .plain (.plain .dilithiumKyber) .client).step
      (fun _ _ s => Framed (receiveReader .plain (.plain .dilithiumKyber) .client)
        ReceiveLoop.ended headerSize [.keepAlive, .terminate] s)
      ⟨.start (.plain _) .zero .zero, [Frame.keepAlive, .terminate].flatMap Frame.wire, []⟩
      [.pass (.plain _ [] []) 13 22] ∧
    Along (serverReader .dilithiumKyber .plain).step
      (fun _ _ s => Framed (serverReader .dilithiumKyber .plain) ServerLoop.ended 1
        [.terminate] s)
      ⟨.start .dilithiumKyber (ReceiverState.plain .dilithiumKyber).cns .zero .zero .zero,
        [Frame.terminate].flatMap Frame.wire, []⟩ [.pass 15 false] := by
  refine ⟨(stream_framed _ _ _).1 _ _ _ _ _ _ ?_,
    (stream_framed _ _ (Asymmetric.plain _)).2 _ _ _ _ _ _ ?_⟩
  · exact fun _ _ => ⟨fun _ _ => .inl (.inr (.inl (by decide))), trivial⟩
  · exact fun _ _ => ⟨.inr (.inl (by decide)), trivial⟩

/-- **Two packets that come together are not told apart**: with the first
the client receives a byte of the second, and peeks at its next header one
byte further on. -/
theorem not_streamFraming_coalesced :
    ¬ StreamFraming .dilithiumKyber .plain (Asymmetric.plain .dilithiumKyber) := by
  intro hframing
  have hrun := hframing.1 .client (.plain _) .zero .zero [.keepAlive, .terminate]
    [.pass (.plain _ [] []) 13 37, .pass (.plain _ [] []) 13 14]
  have horder := ((hrun _ rfl).2 _ rfl).1.order
  exact absurd horder (by decide)

end Qsmp
