import Qsmp.Qsc.Memutils
import Qsmp.Ratchet.Handlers
/-!
# The receive loops of the client and the listener

A pass of either loop peeks at a header, makes the receive buffer as long
as the packet it announces, receives into the buffer and hands the packet
to the branch that takes its flag. The buffer and the message string are
blocks of the heap that live as long as the loop, and a pass records every
access it makes to them. The loops differ in which half of the keep-alive
exchange they take part in. The connection and what else the loop's
argument points to is shared with the threads that send.
-/

namespace Qsmp

/-! ## The state of a loop -/

/-- `client_receive_loop` or `listener_receive_loop` -/
inductive ReceiveRole where
  | client | listener
deriving DecidableEq, Repr

/-- `qsmp_keep_alive_state`, less the socket. -/
structure QsmpKeepAliveState where
  etime : UInt64
  seqctr : UInt64
  recd : Bool
deriving DecidableEq

/-- `client_receiver_state` and `listener_receiver_state`: the connection,
the keep-alive state of a listener, and the variables of the process the
ratchet uses. The callback is left out. -/
structure ReceiverState (P : Params) where
  cns : QsmpConnectionState
  kpa : QsmpKeepAliveState
  keys : RatchetKeys P

/-- How a loop is left: after `qsmp_connection_close`, with the code and
whether the peer is told, or because the socket is no longer connected. -/
inductive LoopEnd where
  | close (err : QsmpErrors) (notify : Bool)
  | disconnected
deriving DecidableEq

/-- `qsmp_messages_allocate_fail`, which the loops close a connection with
as if it were a code of `qsmp_errors`. -/
def allocateFail : QsmpErrors := .ofByte 0x07

/-- The variables of a loop that outlive a pass. -/
structure ReceiveLoop (P : Params) where
  prcv : ReceiverState P
  buff : Block
  mstr : Block
  ended : Option LoopEnd

/-- What a pass meets: the bytes the peek shows and those that can be
received, the answers of the allocator, what the asymmetric ratchet draws
and how much of its answer the socket takes, whether the last error of the
socket is fatal and whether it is connected. -/
structure ReceiveEvent {P : Params} (A : Asymmetric P) where
  peeked : Bytes
  arrived : Bytes
  buffGrant : Option Mem
  mstrGrant : Option Mem
  encap : A.Seed
  sign : A.Seed
  slen : ℕ
  stack : Mem
  fatal : Bool
  connected : Bool

/-- What the handling of a packet leaves: the loop, the accesses made to
its blocks, and the bytes handed to the socket. -/
structure Handled (P : Params) where
  loop : ReceiveLoop P
  accesses : List Access
  out : Option Bytes

/-- What a pass leaves: besides, the bytes taken from the socket, and the
packet if one was handled. -/
structure ReceivePass (P : Params) extends Handled P where
  taken : Bytes
  handled : Option QsmpPacket

variable {P : Params} (K : Primitives) {A : Asymmetric P}

namespace ReceiveLoop

/-- `qsmp_connection_close` and the way out of the loop. -/
def leave (s : ReceiveLoop P) (e : LoopEnd) : ReceiveLoop P := { s with ended := some e }

/-- The loop's variables as they are when it is entered: both blocks are
one byte long. -/
def start (prcv : ReceiverState P) (buff mstr : Mem) : ReceiveLoop P :=
  ⟨prcv, ⟨socketTerminatorSize, buff⟩, ⟨socketTerminatorSize, mstr⟩, none⟩

end ReceiveLoop

/-! ## What the handlers read -/

/-- The bytes a decrypting `qsc_rcs_transform` reads: the text and the
tag. -/
def rcsTransformReads (ctx : RcsState) (length : ℕ) : ℕ := length + ctx.ctype.macSize

/-- The bytes of the message `qsmp_decrypt_packet` reads. -/
def qsmpDecryptPacketReads (cns : QsmpConnectionState) (packetin : QsmpPacket) : ℕ :=
  if packetin.sequence = cns.rxseq + 1 ∧ cns.exflag = .sessionEstablished then
    rcsTransformReads cns.rxcpr (packetin.msglen - cns.maclen).toNat
  else 0

/-- A condition on the length that may be given is decided on that length. -/
instance decidableLength (msglen : Option UInt32) (n : UInt32) : Decidable (∀ k ∈ msglen, n = k) :=
  Option.decidableForallMem msglen

/-- The bytes of the message a ratchet handler reads, one that takes only
packets of the length `msglen` if a length is given. -/
def ratchetReads (cns : QsmpConnectionState) (msglen : Option UInt32) (packetin : QsmpPacket) :
    ℕ :=
  if packetin.sequence = cns.rxseq + 1 ∧ (∀ n ∈ msglen, packetin.msglen = n) then
    rcsTransformReads cns.rxcpr (ratchetLength packetin)
  else 0

/-! ## The branches -/

/-- The branches of the two loops. -/
inductive ReceiveBranch where
  | encryptedMessage | connectionTerminate | keepAliveRequest | keepAliveResponse
  | symmetricRatchetRequest | asymmetricRatchetRequest | asymmetricRatchetResponse | other
deriving DecidableEq, Repr

/-- The branch that takes a flag, in the order of the tests. -/
def ReceiveBranch.of (role : ReceiveRole) (flag : UInt8) : ReceiveBranch :=
  if flag = QsmpFlags.encryptedMessage.toByte then .encryptedMessage
  else if flag = QsmpFlags.connectionTerminate.toByte then .connectionTerminate
  else if role = .client ∧ flag = QsmpFlags.keepAliveRequest.toByte then .keepAliveRequest
  else if role = .listener ∧ flag = QsmpFlags.keepAliveResponse.toByte then .keepAliveResponse
  else if flag = QsmpFlags.symmetricRatchetRequest.toByte then .symmetricRatchetRequest
  else if flag = QsmpFlags.asymmetricRatchetRequest.toByte then .asymmetricRatchetRequest
  else if flag = QsmpFlags.asymmetricRatchetResponse.toByte then .asymmetricRatchetResponse
  else .other

/-- An encrypted message. The length of the message string is reckoned in
32 bits. -/
def receiveEncryptedMessage (s : ReceiveLoop P) (grant : Option Mem) (pkt : QsmpPacket) :
    Handled P :=
  let slen := (pkt.msglen + 1).toNat
  match qscMemutilsRealloc s.mstr slen grant with
  | none => ⟨s.leave (.close allocateFail true), [], none⟩
  | some mstr =>
    let mstr := mstr.clear slen
    let (qerr, cns, message, mlen) := qsmpDecryptPacket K s.prcv.cns mstr.mem pkt
    let accesses : List Access :=
      [⟨mstr.size, 0, slen⟩,
        ⟨s.buff.size, headerSize, qsmpDecryptPacketReads s.prcv.cns pkt⟩,
        ⟨mstr.size, 0, mlen⟩]
    let s := { s with prcv := { s.prcv with cns }, mstr := { mstr with mem := message } }
    if qerr = .none then ⟨s, accesses, none⟩
    else ⟨s.leave (.close .authenticationFailure true), accesses, none⟩

/-- A keep-alive request: the header is overwritten with that of the
response, and the buffer sent back. The length sent has room for the
terminator, and the socket adds one. -/
def receiveKeepAliveRequest (s : ReceiveLoop P) (pkt : QsmpPacket) : Handled P :=
  let klen := headerSize + 8 + socketTerminatorSize
  let pkt := { pkt with flag := QsmpFlags.keepAliveResponse.toByte }
  let buff := s.buff.store (qsmpPacketHeaderSerialize pkt)
  ⟨{ s with buff },
    [⟨buff.size, 0, headerSize⟩, ⟨buff.size, 0, klen + socketTerminatorSize⟩],
    some (buff.mem.read 0 (klen + socketTerminatorSize))⟩

/-- A keep-alive response. -/
def receiveKeepAliveResponse (s : ReceiveLoop P) (pkt : QsmpPacket) : Handled P :=
  if pkt.sequence = s.prcv.kpa.seqctr then
    let tme := qscIntutilsLe8to64 pkt.pmessage
    let accesses : List Access := [⟨s.buff.size, headerSize, 8⟩]
    if s.prcv.kpa.etime = tme then
      let kpa := { s.prcv.kpa with seqctr := s.prcv.kpa.seqctr + 1, recd := true }
      ⟨{ s with prcv := { s.prcv with kpa } }, accesses, none⟩
    else ⟨s.leave (.close .badKeepAlive true), accesses, none⟩
  else ⟨s.leave (.close .badKeepAlive true), [], none⟩

/-- A packet of a ratchet, which the handler has read `reads` bytes of. A
failure closes the connection with `err`. -/
def receiveRatchet (s : ReceiveLoop P) (reads : ℕ) (result : RatchetResult P)
    (err : QsmpErrors) : Handled P :=
  let s := { s with prcv := { s.prcv with cns := result.cns, keys := result.keys } }
  ⟨if result.res then s else s.leave (.close err true),
    [⟨s.buff.size, headerSize, reads⟩], result.out⟩

/-- The code a failed symmetric ratchet closes the connection with. -/
def ReceiveRole.symmetricRatchetError : ReceiveRole → QsmpErrors
  | client => .keychainFail
  | listener => .authenticationFailure

/-- The packet `pkt` goes to the branch of its flag. -/
def receivePacket (role : ReceiveRole) (s : ReceiveLoop P) (e : ReceiveEvent A)
    (pkt : QsmpPacket) : Handled P :=
  match ReceiveBranch.of role pkt.flag with
  | .encryptedMessage => receiveEncryptedMessage K s e.mstrGrant pkt
  | .connectionTerminate => ⟨s.leave (.close .none false), [], none⟩
  | .keepAliveRequest => receiveKeepAliveRequest s pkt
  | .keepAliveResponse => receiveKeepAliveResponse s pkt
  | .symmetricRatchetRequest =>
    receiveRatchet s (ratchetReads s.prcv.cns none pkt)
      (symmetricRatchetResponse K s.prcv.keys s.prcv.cns pkt) role.symmetricRatchetError
  | .asymmetricRatchetRequest =>
    receiveRatchet s (ratchetReads s.prcv.cns (some (.ofNat P.ratchetRequestMessageSize)) pkt)
      (asymmetricRatchetResponse K A e.encap e.sign e.slen e.stack s.prcv.keys s.prcv.cns pkt)
      .keychainFail
  | .asymmetricRatchetResponse =>
    receiveRatchet s (ratchetReads s.prcv.cns (some (.ofNat P.ratchetResponseMessageSize)) pkt)
      (asymmetricRatchetFinalize K A s.prcv.keys s.prcv.cns pkt) .keychainFail
  | .other => ⟨if e.fatal then s.leave (.close .channelDown false) else s, [], none⟩

/-! ## A pass -/

/-- The lengths the receive buffer is resized for. -/
def Params.InRange (P : Params) (pkt : QsmpPacket) : Prop :=
  0 < pkt.msglen.toNat ∧ pkt.msglen.toNat ≤ P.messageMax

instance (P : Params) (pkt : QsmpPacket) : Decidable (P.InRange pkt) :=
  inferInstanceAs (Decidable (_ ∧ _))

/-- The number of bytes cleared, and the most that are received. -/
def Params.receiveLength (P : Params) (pkt : QsmpPacket) : ℕ :=
  if P.InRange pkt then pkt.msglen.toNat + headerSize + socketTerminatorSize * 2 else headerSize

/-- The receive buffer as it is resized for a packet. -/
def resizeBuff (P : Params) (buff : Block) (pkt : QsmpPacket) (grant : Option Mem) :
    Option Block :=
  if P.InRange pkt then qscMemutilsRealloc buff (P.receiveLength pkt) grant else some buff

namespace ReceiveEvent

variable (e : ReceiveEvent A)

/-- The bytes the peek has left in `hdr`. -/
def hdr : Bytes := e.peeked.take headerSize

/-- The packet of the header peeked at. -/
def pkt : QsmpPacket := qsmpPacketHeaderDeserialize (Mem.zero.write 0 e.hdr) .init

/-- The bytes received. -/
def received : Bytes := e.arrived.take (P.receiveLength e.pkt)

/-- **The packet that comes**: the header peeked at, and behind it what the
buffer holds, resized and cleared, once the bytes are received. None comes
without a whole header, a buffer for it and a byte received. -/
def comes (buff : Block) : Option QsmpPacket :=
  if e.hdr.length = headerSize ∧ e.received ≠ [] then
    (resizeBuff P buff e.pkt e.buffGrant).map fun buff =>
      { e.pkt with
        pmessage :=
          ((buff.clear (P.receiveLength e.pkt)).store e.received).mem.shift headerSize }
  else none

end ReceiveEvent

/-- A pass that receives nothing. -/
def receiveNothing (s : ReceiveLoop P) (accesses : List Access) (e : ReceiveEvent A) :
    ReceivePass P :=
  ⟨⟨if e.connected then s else s.leave .disconnected, accesses, none⟩, [], none⟩

/-- One pass of `client_receive_loop` or `listener_receive_loop`. -/
def receiveLoopPass (role : ReceiveRole) (s : ReceiveLoop P) (e : ReceiveEvent A) :
    ReceivePass P :=
  if e.hdr.length = headerSize then
    match resizeBuff P s.buff e.pkt e.buffGrant with
    | none => ⟨⟨s.leave (.close allocateFail true), [], none⟩, [], none⟩
    | some buff =>
      let plen := P.receiveLength e.pkt
      let accesses : List Access := [⟨buff.size, 0, plen⟩, ⟨buff.size, 0, e.received.length⟩]
      let s := { s with buff := (buff.clear plen).store e.received }
      if e.received ≠ [] then
        let pkt := { e.pkt with pmessage := s.buff.mem.shift headerSize }
        let r := receivePacket K role s e pkt
        ⟨{ r with accesses := accesses ++ r.accesses }, e.received, some pkt⟩
      else receiveNothing s accesses e
  else receiveNothing s [] e

section Pass

variable (role : ReceiveRole) (s : ReceiveLoop P) (e : ReceiveEvent A)

theorem receiveNothing_hands (accesses : List Access) :
    (receiveNothing s accesses e).handled = none ∧
      (receiveNothing s accesses e).loop.prcv = s.prcv := by
  refine ⟨rfl, ?_⟩
  rw [receiveNothing]
  dsimp only
  split <;> rfl

/-- **A pass handles the packet that comes**. -/
theorem receiveLoopPass_handled : (receiveLoopPass K role s e).handled = e.comes s.buff := by
  rw [receiveLoopPass, ReceiveEvent.comes]
  by_cases hhdr : e.hdr.length = headerSize
  · rw [if_pos hhdr]
    cases resizeBuff P s.buff e.pkt e.buffGrant with
    | none => simp only [Option.map_none, ite_self]
    | some buff =>
      dsimp only
      by_cases hreceived : e.received ≠ []
      · rw [if_pos hreceived, if_pos ⟨hhdr, hreceived⟩]
        rfl
      · rw [if_neg hreceived, if_neg fun h => hreceived h.2]
        rfl
  · rw [if_neg hhdr, if_neg fun h => hhdr h.1]
    rfl

/-- **What a pass can do**: it hands a packet to its branch, or leaves what
the loop shares as it is. -/
theorem receiveLoopPass_hands :
    ((receiveLoopPass K role s e).handled = none ∧
      (receiveLoopPass K role s e).loop.prcv = s.prcv) ∨
    ∃ buff pkt, (receiveLoopPass K role s e).handled = some pkt ∧
      (receiveLoopPass K role s e).loop = (receivePacket K role { s with buff } e pkt).loop := by
  rw [receiveLoopPass]
  by_cases hhdr : e.hdr.length = headerSize
  · rw [if_pos hhdr]
    cases resizeBuff P s.buff e.pkt e.buffGrant with
    | none => exact .inl ⟨rfl, rfl⟩
    | some buff =>
      dsimp only
      by_cases hreceived : e.received ≠ []
      · rw [if_pos hreceived]
        exact .inr ⟨_, _, rfl, rfl⟩
      · rw [if_neg hreceived]
        exact .inl (receiveNothing_hands _ _ _)
  · rw [if_neg hhdr]
    exact .inl (receiveNothing_hands _ _ _)

end Pass

/-! ## The loop as a machine -/

/-- The loop is entered once more. -/
def ReceiveLoop.Runs (s : ReceiveLoop P) : Prop :=
  s.ended = none ∧ s.prcv.cns.target.connectionStatus = .connected

instance (s : ReceiveLoop P) : Decidable s.Runs := inferInstanceAs (Decidable (_ ∧ _))

/-- A pass of the loop, or what the other threads do to the state they
share with it between two passes. -/
inductive ReceiveStep {P : Params} (A : Asymmetric P) where
  | pass (e : ReceiveEvent A)
  | others (prcv : ReceiverState P)

/-- One step of `client_receive_loop` or `listener_receive_loop`. There is
no pass once the loop is left. -/
def receiveLoopStep (role : ReceiveRole) (s : ReceiveLoop P) :
    ReceiveStep A → Option (ReceiveLoop P)
  | .pass e => if s.Runs then some (receiveLoopPass K role s e).loop else none
  | .others prcv => some { s with prcv }

end Qsmp
