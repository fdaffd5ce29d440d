import Qsmp.Common.Dialogue
import Qsmp.Kex.Duplex
import Qsmp.Kex.Simplex
/-!
# The four key-exchange drivers

Each driver alternates sends and receives over the socket, hands every
received packet to a step function, and at the end either keeps the
connection or reports the error and disposes of it. The ten receive
stages are one definition with parameters, save the establish stage of the
duplex server, which has a body of its own.
-/

namespace Qsmp

/-- The local variables of a driver. -/
structure Locals (S : Type) where
  qerr : QsmpErrors
  ks : S
  cns : QsmpConnectionState
  /-- The packet to send; `none` while its message pointer is null. -/
  reqt : Option QsmpPacket
  /-- The packet received. -/
  resp : QsmpPacket

namespace Locals

variable {S : Type} (l : Locals S)

/-- The local error code is set. -/
def fail (qerr : QsmpErrors) : Locals S := { l with qerr := qerr }

/-- A packet was sent: `cns->txseq += 1`. -/
def countSent : Locals S := { l with cns := { l.cns with txseq := l.cns.txseq + 1 } }

/-- A packet was taken: `cns->rxseq += 1`. -/
def countReceived (resp : QsmpPacket) : Locals S :=
  { l with resp := resp, cns := { l.cns with rxseq := l.cns.rxseq + 1 } }

/-- What a step function changes. -/
def apply (r : StepResult S) : Locals S :=
  { l with qerr := r.qerr, ks := r.ks, cns := r.cns, reqt := some r.packetout }

end Locals

/-- A step function: the role's state, the connection, the packet received
and the packet to fill. -/
abbrev KexStep (S : Type) :=
  S → QsmpConnectionState → QsmpPacket → QsmpPacket → StepResult S

section Stages

variable {S : Type} (P : Params) (stack : Mem)

/-- The cleared stream buffer `spct`, of `QSMP_MESSAGE_MAX + 1` bytes.
What lies behind it on the stack is arbitrary. -/
def streamBuffer : Mem := fun i => if i < P.messageMax + 1 then 0 else stack i

/-- Go on only with no error set. -/
def ifNone (f : Locals S → Dialogue (Locals S)) (l : Locals S) : Dialogue (Locals S) :=
  if l.qerr = .none then f l else .done l

/-- The bytes offered to the socket for a packet: its stream form, and one
byte more for the terminator. A packet whose message pointer is null is
empty. -/
def wire (packet : Option QsmpPacket) : Bytes :=
  let stream := qsmpPacketToStream P (packet.getD .init) (streamBuffer P stack)
  stream.1.read 0 (stream.2 + socketTerminatorSize)

/-- Send the request packet, and count it if all of it went out. -/
def transmit (l : Locals S) : Dialogue (Locals S) :=
  .send (wire P stack l.reqt) fun slen =>
    if slen = (wire P stack l.reqt).length then .done l.countSent
    else .done (l.fail .transmitFailure)

/-- The packet parsed from the stream buffer once `bs` is received into it. -/
def parse (bs : Bytes) (resp : QsmpPacket) : QsmpPacket :=
  qsmpStreamToPacket P ((streamBuffer P stack).write 0 bs) resp

/-- Receive `len` bytes, parse them, and check the sequence number. The
last stage of each client parses before it looks at the length; the packet
is not read again when the length is wrong, so the order is not seen. -/
def receive (len : ℕ) (l : Locals S) : Dialogue (Locals S) :=
  .recv len fun bs =>
    if bs.length = len then
      if (parse P stack bs l.resp).sequence = l.cns.rxseq then
        .done (l.countReceived (parse P stack bs l.resp))
      else .done (l.fail .packetUnsequenced)
    else .done (l.fail .receiveFailure)

/-- Branch on the flag of the received packet: the expected one, an error
whose code is the first byte of the message, or any other. -/
def dispatch (flag : QsmpFlags) (failure : QsmpErrors) (accept : Locals S → Dialogue (Locals S))
    (l : Locals S) : Dialogue (Locals S) :=
  if l.resp.flag = flag.toByte then accept l
  else if l.resp.flag = QsmpFlags.errorCondition.toByte then
    -- `(qsmp_errors)resp.pmessage[0]`: a zero byte sets no error.
    .done (l.fail (.ofByte (l.resp.pmessage 0)))
  else .done (l.fail failure)

/-- Clear the request packet and run a step function. Clearing it writes
through its message pointer. -/
def answer (step : KexStep S) (l : Locals S) : Dialogue (Locals S) :=
  match l.reqt with
  -- `qsmp_packet_clear` stores through the null pointer.
  | none => .fault
  | some reqt => .done (l.apply (step l.ks l.cns l.resp (qsmpPacketClear reqt)))

/-- Run a step function that makes no packet. -/
def verify (step : KexStep S) (l : Locals S) : Dialogue (Locals S) :=
  .done (l.apply (step l.ks l.cns l.resp (l.reqt.getD .init)))

/-- A receive: the length, the flag the stage expects, the code it fails
with, and what it does with the packet. -/
def receiveStage (len : ℕ) (flag : QsmpFlags) (failure : QsmpErrors)
    (accept : Locals S → Dialogue (Locals S)) (l : Locals S) : Dialogue (Locals S) :=
  (receive P stack len l).bind (ifNone (dispatch flag failure accept))

/-- A send and the receive that follows it. -/
def exchangeStage (len : ℕ) (flag : QsmpFlags) (failure : QsmpErrors)
    (accept : Locals S → Dialogue (Locals S)) (l : Locals S) : Dialogue (Locals S) :=
  (transmit P stack l).bind (ifNone (receiveStage P stack len flag failure accept))

/-- The clients clear the packet received before they send again. -/
def clearResponse (f : Locals S → Dialogue (Locals S)) (l : Locals S) : Dialogue (Locals S) :=
  f { l with resp := qsmpPacketClear l.resp }

/-- The bytes of an error packet: a header, the code, and the byte behind
the 14-byte array they are sent from. -/
def errorWire (sequence : UInt64) (qerr : QsmpErrors) : Bytes :=
  let packet : QsmpPacket := { qsmpPacketErrorMessage .init qerr with sequence }
  let stream := qsmpPacketToStream P packet fun i => if i < headerSize + 1 then 0 else stack i
  stream.1.read 0 (stream.2 + socketTerminatorSize)

/-- The end of every driver: the role's state is reset; after an error a
connected peer is told, the socket shut down and the connection disposed
of. `sequence` is the one the error packet carries. -/
def finish (sequence : UInt64) (reset : S → S) (l : Locals S) :
    Dialogue (QsmpErrors × S × QsmpConnectionState) :=
  if l.qerr = .none then .done (l.qerr, reset l.ks, l.cns)
  else
    let result := (l.qerr, reset l.ks, qsmpConnectionStateDispose l.cns)
    if l.cns.target.connectionStatus = .connected then
      .poll fun connected =>
        if connected then
          .send (errorWire P stack sequence l.qerr) fun _ => .shut (.done result)
        else .shut (.done result)
    else .done result

end Stages

/-- What a driver draws on: the time it reads, and one seed for each call
that needs randomness. -/
structure Draws {P : Params} (A : Asymmetric P) where
  tm : UInt64
  keypair : A.Seed
  encap : A.Seed
  /-- For the first signature of the role. -/
  sign : A.Seed
  /-- For the second, which only the duplex server makes. -/
  resign : A.Seed

variable {P : Params} (K : Primitives) (A : Asymmetric P) (stack : Mem) (d : Draws A)

/-! ## The lengths received -/

/-- `CONLEN` of the duplex client. -/
def duplexClientConlen (P : Params) : ℕ :=
  duplexHashSize + P.signatureSize + P.publicKeySize + headerSize + socketTerminatorSize
/-- `EXCLEN` of the duplex client. -/
def duplexClientExclen (P : Params) : ℕ :=
  P.cipherTextSize + duplexHashSize + P.signatureSize + headerSize + socketTerminatorSize
/-- `ESTLEN`, and `EXCLEN` of the simplex client: a header and a terminator. -/
def estlen : ℕ := headerSize + socketTerminatorSize
/-- `CONLEN` of both servers. -/
def serverConlen : ℕ := keyidSize + configSize + headerSize + socketTerminatorSize
/-- `EXCLEN` of the duplex server. -/
def duplexServerExclen (P : Params) : ℕ :=
  P.cipherTextSize + P.publicKeySize + duplexHashSize + P.signatureSize + headerSize
    + socketTerminatorSize
/-- `CONLEN` of the simplex client. -/
def simplexClientConlen (P : Params) : ℕ :=
  P.signatureSize + simplexHashSize + P.publicKeySize + headerSize + socketTerminatorSize
/-- `EXCLEN` of the simplex server. -/
def simplexServerExclen (P : Params) : ℕ := P.cipherTextSize + headerSize + socketTerminatorSize

/-! ## The drivers -/

/-- The locals of a client once its connection request is made. -/
def Locals.ofStep {S : Type} (r : StepResult S) : Locals S :=
  ⟨r.qerr, r.ks, r.cns, some r.packetout, .init⟩

/-- The locals of a server before it receives. -/
def Locals.start {S : Type} (ks : S) (cns : QsmpConnectionState) : Locals S :=
  ⟨.none, ks, cns, none, .init⟩

/-- A server's first packet sets the message pointer of its answer. -/
def answerFirst {S : Type} (step : KexStep S) (l : Locals S) : Dialogue (Locals S) :=
  answer step { l with reqt := some .init }

/-- `qsmp_kex_duplex_client_key_exchange` -/
def qsmpKexDuplexClientKeyExchange (kcs : QsmpKexDuplexClientState P)
    (cns : QsmpConnectionState) :
    Dialogue (QsmpErrors × QsmpKexDuplexClientState P × QsmpConnectionState) :=
  (ifNone (exchangeStage P stack (duplexClientConlen P) .connectResponse .connectFailure
      (answer (kexDuplexClientExchangeRequest K A d.encap d.keypair d.sign)))
    (.ofStep (kexDuplexClientConnectRequest K d.tm kcs cns .init))).bind fun l =>
  (ifNone (clearResponse (exchangeStage P stack (duplexClientExclen P) .exchangeResponse
      .establishFailure (answer (kexDuplexClientEstablishRequest K A)))) l).bind fun l =>
  (ifNone (clearResponse (exchangeStage P stack estlen .establishResponse .establishFailure
      (verify kexDuplexClientEstablishVerify))) l).bind
  (finish P stack 0xFF kexDuplexClientReset)

/-- The establish stage of the duplex server. The sequence number of the
packet received is counted, not checked; the establish response is sent
in the same stage. -/
def duplexServerEstablishStage {S : Type} (step : KexStep S) (l : Locals S) :
    Dialogue (Locals S) :=
  (transmit P stack l).bind <| ifNone fun l =>
    .recv estlen fun bs =>
      if bs.length = estlen then
        -- `cns->rxseq += 1`, with no comparison before it.
        dispatch .establishRequest .establishFailure
          (fun l => (answer step l).bind fun l =>
            if l.qerr = .none then transmit P stack l else .done (l.fail .establishFailure))
          (l.countReceived (parse P stack bs l.resp))
      else .done (l.fail .receiveFailure)

/-- `qsmp_kex_duplex_server_key_exchange` -/
def qsmpKexDuplexServerKeyExchange (kss : QsmpKexDuplexServerState P)
    (cns : QsmpConnectionState) :
    Dialogue (QsmpErrors × QsmpKexDuplexServerState P × QsmpConnectionState) :=
  (receiveStage P stack serverConlen .connectRequest .connectFailure
      (answerFirst (kexDuplexServerConnectResponse K A d.tm d.keypair d.sign))
    (.start kss cns)).bind fun l =>
  (ifNone (exchangeStage P stack (duplexServerExclen P) .exchangeRequest .exchangeFailure
      (answer (kexDuplexServerExchangeResponse K A d.encap d.resign))) l).bind fun l =>
  (ifNone (duplexServerEstablishStage (P := P) stack kexDuplexServerEstablishResponse) l).bind
  (finish P stack sequenceTerminator kexDuplexServerReset)

/-- `qsmp_kex_simplex_client_key_exchange` -/
def qsmpKexSimplexClientKeyExchange (kcs : QsmpKexSimplexClientState P)
    (cns : QsmpConnectionState) :
    Dialogue (QsmpErrors × QsmpKexSimplexClientState P × QsmpConnectionState) :=
  (ifNone (exchangeStage P stack (simplexClientConlen P) .connectResponse .connectFailure
      (answer (kexSimplexClientExchangeRequest K A d.encap)))
    (.ofStep (kexSimplexClientConnectRequest K d.tm kcs cns .init))).bind fun l =>
  (ifNone (clearResponse (exchangeStage P stack estlen .exchangeResponse .establishFailure
      (verify kexSimplexClientEstablishVerify))) l).bind
  (finish P stack 0xFF kexSimplexClientReset)

/-- `qsmp_kex_simplex_server_key_exchange` -/
def qsmpKexSimplexServerKeyExchange (kss : QsmpKexSimplexServerState P)
    (cns : QsmpConnectionState) :
    Dialogue (QsmpErrors × QsmpKexSimplexServerState P × QsmpConnectionState) :=
  (receiveStage P stack serverConlen .connectRequest .connectFailure
      (answerFirst (kexSimplexServerConnectResponse K A d.tm d.keypair d.sign))
    (.start kss cns)).bind fun l =>
  (ifNone (exchangeStage P stack (simplexServerExclen P) .exchangeRequest .exchangeFailure
      (answer (kexSimplexServerExchangeResponse K A))) l).bind fun l =>
  (ifNone (transmit P stack) l).bind
  (finish P stack sequenceTerminator kexSimplexServerReset)

end Qsmp
