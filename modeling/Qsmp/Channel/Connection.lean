import Qsmp.Packet
import Qsmp.Qsc.Rcs
/-!
# The connection state and the encrypted channel

A connection holds one cipher for each direction and one sequence number
for each. `qsmpEncryptPacket` and `qsmpDecryptPacket` are the only
functions that use them once the exchange is over.
-/

namespace Qsmp

/-- `qsc_socket_states` -/
inductive QscSocketStates where
  | none | connected | listening | connectionless
deriving DecidableEq, Repr

/-- `qsmp_mode` -/
inductive QsmpMode where
  | simplex | duplex
deriving DecidableEq, Repr

/-- `qsc_socket`, of which only the status is read. -/
structure QscSocket where
  connectionStatus : QscSocketStates
deriving DecidableEq, Repr

/-- `qsmp_connection_state` -/
@[ext] structure QsmpConnectionState where
  rtcs : Octets duplexSymmetricKeySize
  target : QscSocket
  rxcpr : RcsState
  txcpr : RcsState
  rxseq : UInt64
  txseq : UInt64
  instanceCount : UInt32
  exflag : QsmpFlags
  receiver : Bool
  mode : QsmpMode
deriving DecidableEq

/-- `qsmp_connection_state_dispose`. The receiver and mode fields keep
their values. -/
def qsmpConnectionStateDispose (cns : QsmpConnectionState) : QsmpConnectionState :=
  { cns with
    rxcpr := qscRcsDispose
    txcpr := qscRcsDispose
    target := ⟨.none⟩
    rtcs := Octets.zero _
    rxseq := 0
    txseq := 0
    instanceCount := 0
    exflag := .none }

/-- What a key exchange starts from: `client_duplex_state_initialize` and
the three functions like it clear the exchange flag and both sequence
numbers. -/
def QsmpConnectionState.Fresh (cns : QsmpConnectionState) : Prop :=
  cns.exflag = .none ∧ cns.rxseq = 0 ∧ cns.txseq = 0

/-- A freshly initialised connection to a connected peer. -/
def QsmpConnectionState.initial (mode : QsmpMode) (receiver : Bool) : QsmpConnectionState where
  rtcs := Octets.zero _
  target := ⟨.connected⟩
  rxcpr := qscRcsDispose
  txcpr := qscRcsDispose
  rxseq := 0
  txseq := 0
  instanceCount := 0
  exflag := .none
  receiver
  mode

theorem QsmpConnectionState.fresh_initial {mode : QsmpMode} {receiver : Bool} :
    (initial mode receiver).Fresh := ⟨rfl, rfl, rfl⟩

/-- The connection a key exchange ends in, up to the fields the channel
does not read: `tx` and `rx` key the two directions, and `n` packets have
passed each way. -/
def QsmpConnectionState.ofKeys (K : Primitives) (tx rx : RcsKeyparams) (n : UInt64) :
    QsmpConnectionState where
  rtcs := Octets.zero _
  target := ⟨.connected⟩
  rxcpr := qscRcsInitialize K rx false
  txcpr := qscRcsInitialize K tx true
  rxseq := n
  txseq := n
  instanceCount := 0
  exflag := .sessionEstablished
  receiver := false
  mode := .duplex

/-- The MAC size the channel functions assume, read off the transmit
cipher in both directions. -/
def QsmpConnectionState.maclen (cns : QsmpConnectionState) : UInt32 :=
  if cns.txcpr.ctype = .cipher256 then simplexMactagSize else duplexMactagSize

variable (P : Params) (K : Primitives)

/-- `qsmp_encrypt_packet`, of a message of any length. -/
def qsmpEncryptPacket (cns : QsmpConnectionState) (packetout : QsmpPacket) (message : Bytes) :
    QsmpErrors × QsmpConnectionState × QsmpPacket :=
  if cns.exflag = .sessionEstablished ∧ message.length ≠ 0 then
    let cns := { cns with txseq := cns.txseq + 1 }
    let packetout : QsmpPacket :=
      { flag := QsmpFlags.encryptedMessage.toByte
        msglen := UInt32.ofNat message.length + cns.maclen
        sequence := cns.txseq
        pmessage := packetout.pmessage.clear 0 P.messageMax }
    let txcpr := qscRcsSetAssociated K cns.txcpr (qsmpPacketHeaderSerialize packetout)
    let (txcpr, pmessage, _) :=
      qscRcsTransform K txcpr packetout.pmessage (Mem.zero.write 0 message) message.length
    (.none, { cns with txcpr }, { packetout with pmessage })
  else (.channelDown, cns, packetout)

/-- `qsmp_decrypt_packet`: the code, the connection, the message buffer
and the message length. The receive sequence advances whatever the
outcome. -/
def qsmpDecryptPacket (cns : QsmpConnectionState) (message : Mem) (packetin : QsmpPacket) :
    QsmpErrors × QsmpConnectionState × Mem × ℕ :=
  let cns := { cns with rxseq := cns.rxseq + 1 }
  if packetin.sequence = cns.rxseq then
    if cns.exflag = .sessionEstablished then
      let rxcpr := qscRcsSetAssociated K cns.rxcpr (qsmpPacketHeaderSerialize packetin)
      -- The difference wraps around on a packet shorter than a tag.
      let msglen := (packetin.msglen - cns.maclen).toNat
      let (rxcpr, message, res) := qscRcsTransform K rxcpr message packetin.pmessage msglen
      let cns := { cns with rxcpr }
      if res then (.none, cns, message, msglen)
      else (.authenticationFailure, cns, message, 0)
    else (.channelDown, cns, message, 0)
  else (.packetUnsequenced, cns, message, 0)

end Qsmp
