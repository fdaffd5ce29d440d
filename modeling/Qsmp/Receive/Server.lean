import Qsmp.Qsc.Stringutils
import Qsmp.Receive.Loop
/-!
# The receive loop of the server

Once the exchange is over the server receives into a buffer of the size of
the largest packet of the network, converts what it has received to a
packet whatever its length, and hands the text of an encrypted message to
the application. The text is decrypted to an array that lives as long as
the loop, and its size is that of the string the array then holds.
-/

namespace Qsmp

/-- `QSMP_CONNECTION_MTU` -/
def connectionMtu : ℕ := 1500

/-- The variables of `server_receive_loop` that outlive a pass, and the
connection. The message of `pkt` is the array `pmsg`. -/
structure ServerLoop where
  cns : QsmpConnectionState
  buffer : Mem
  mstr : Mem
  pkt : QsmpPacket
  ended : Option LoopEnd

/-- What a pass meets: the bytes that can be received, and whether the last
error of the socket is fatal. -/
structure ServerEvent where
  arrived : Bytes
  fatal : Bool

/-- What a pass leaves: the loop, the bytes taken from the socket, the
packet handled, and the text the callback is called with, if it is. -/
structure ServerPass where
  loop : ServerLoop
  taken : Bytes
  handled : Option QsmpPacket
  callback : Option Bytes

namespace ServerLoop

/-- The loop is entered once more. -/
def Runs (s : ServerLoop) : Prop :=
  s.ended = none ∧ s.cns.target.connectionStatus = .connected

instance (s : ServerLoop) : Decidable s.Runs := inferInstanceAs (Decidable (_ ∧ _))

/-- `qsmp_connection_close` and the way out of the loop. -/
def leave (s : ServerLoop) (e : LoopEnd) : ServerLoop := { s with ended := some e }

/-- The three arrays are cleared when the loop is entered, and what lies
behind them is not. -/
def start (P : Params) (cns : QsmpConnectionState) (buffer mstr pmsg : Mem) : ServerLoop where
  cns
  buffer := buffer.clear 0 connectionMtu
  mstr := mstr.clear 0 (connectionMtu + 1)
  pkt := { QsmpPacket.init with pmessage := pmsg.clear 0 P.messageMax }
  ended := none

end ServerLoop

/-- The bytes received. -/
def ServerEvent.received (e : ServerEvent) : Bytes := e.arrived.take connectionMtu

variable (P : Params) (K : Primitives)

/-- The packet `pkt` that a pass of the loop has received goes to the branch
of its flag. -/
def serverReceivePacket (s : ServerLoop) : ServerLoop × Option Bytes :=
  if s.pkt.flag = QsmpFlags.encryptedMessage.toByte then
    let (qerr, cns, mstr, _) := qsmpDecryptPacket K s.cns s.mstr s.pkt
    if qerr = .none then
      -- The length the decryption returns is overwritten.
      let mlen := qscStringutilsStringSize mstr (connectionMtu + 1)
      ({ s with cns, mstr := mstr.clear 0 mlen }, some (mstr.read 0 mlen))
    else ({ s with cns, mstr }.leave (.close .authenticationFailure true), none)
  else if s.pkt.flag = QsmpFlags.connectionTerminate.toByte then
    (s.leave (.close .none false), none)
  else (s.leave (.close .connectionFailure true), none)

/-- One pass of `server_receive_loop`. -/
def serverReceiveLoop (s : ServerLoop) (e : ServerEvent) : ServerPass :=
  if e.received ≠ [] then
    let buffer := s.buffer.write 0 e.received
    let pkt := qsmpStreamToPacket P buffer s.pkt
    let s := { s with buffer := buffer.clear 0 e.received.length, pkt }
    let r := serverReceivePacket K s
    ⟨r.1, e.received, some pkt, r.2⟩
  else
    ⟨if e.fatal then s.leave (.close .channelDown false) else s, [], none, none⟩

end Qsmp
