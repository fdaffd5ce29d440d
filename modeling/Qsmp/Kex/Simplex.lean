import Qsmp.Kex.State
/-!
# The simplex exchange, step by step

The client trusts the server's key; nothing of the client is
authenticated. One secret is shared, and the server's answer to the
exchange request is a bare header.
-/

namespace Qsmp

variable {P : Params} (K : Primitives) (A : Asymmetric P)

/-- `kex_simplex_server_keyid_verify` -/
def kexSimplexServerKeyidVerify (keyid : Octets keyidSize) (message : Mem) : Bool :=
  qscIntutilsVerify keyid.val (message.read 0 keyidSize) == 0

/-- `kex_simplex_client_connect_request`, at the time `tm`. -/
def kexSimplexClientConnectRequest (tm : UInt64) (kcs : QsmpKexSimplexClientState P)
    (cns : QsmpConnectionState) (packetout : QsmpPacket) :
    StepResult (QsmpKexSimplexClientState P) :=
  if tm ≤ kcs.expiration then
    { qerr := .none
      ks := { kcs with schash := simplexSchash K P kcs.keyid kcs.verkey }
      cns := { cns with exflag := .connectRequest }
      packetout :=
        { flag := QsmpFlags.connectRequest.toByte
          msglen := UInt32.ofNat (keyidSize + configSize)
          sequence := cns.txseq
          pmessage := (packetout.pmessage.write 0 kcs.keyid.val).write keyidSize
            P.configString.val } }
  else .fail .keyExpired kcs cns packetout

/-- `kex_simplex_client_exchange_request` -/
def kexSimplexClientExchangeRequest (encap : A.Seed) (kcs : QsmpKexSimplexClientState P)
    (cns : QsmpConnectionState) (packetin packetout : QsmpPacket) :
    StepResult (QsmpKexSimplexClientState P) :=
  if cns.exflag = .connectRequest ∧ packetin.flag = QsmpFlags.connectResponse.toByte then
    let mlen := signedLength P simplexHashSize packetin.pmessage
    match A.verify (packetin.pmessage.read 0 mlen) kcs.verkey with
    | some message =>
      let khash := signedHash simplexHashSize message
      let pubk := packetin.pmessage.octets mlen P.publicKeySize
      let phash := qscSha3Compute256 K.permute pubk.val
      if qscIntutilsVerify phash.val khash = 0 then
        let enc := A.encapsulate pubk encap
        -- Both ciphers are raised here, before the server has answered.
        let keys := simplexExpand K enc.1 kcs.schash
        { qerr := .none
          ks := kcs
          cns := { cns with
            rtcs := keys.rtcs
            txcpr := qscRcsInitialize K (keys.first simplexSymmetricKeySize) true
            rxcpr := qscRcsInitialize K (keys.second simplexSymmetricKeySize) false
            exflag := .exchangeRequest }
          packetout :=
            { flag := QsmpFlags.exchangeRequest.toByte
              msglen := UInt32.ofNat P.cipherTextSize
              sequence := cns.txseq
              pmessage := (packetout.pmessage.clear 0 P.messageMax).write 0 enc.2.val } }
      else .fail .hashInvalid kcs cns packetout
    | none => .fail .authenticationFailure kcs cns packetout
  else .fail .invalidRequest kcs cns packetout

/-- `kex_simplex_client_establish_verify`, which makes no packet. -/
def kexSimplexClientEstablishVerify (kcs : QsmpKexSimplexClientState P)
    (cns : QsmpConnectionState) (packetin packetout : QsmpPacket) :
    StepResult (QsmpKexSimplexClientState P) :=
  if cns.exflag = .exchangeRequest ∧ packetin.flag = QsmpFlags.exchangeResponse.toByte then
    ⟨.none, kcs, { cns with exflag := .sessionEstablished }, packetout⟩
  else .fail .invalidRequest kcs cns packetout

/-- `kex_simplex_server_connect_response`, at the time `tm`. The order of
the checks is the key identity, the expiration, the configuration. -/
def kexSimplexServerConnectResponse (tm : UInt64) (keypair sign : A.Seed)
    (kss : QsmpKexSimplexServerState P) (cns : QsmpConnectionState)
    (packetin packetout : QsmpPacket) : StepResult (QsmpKexSimplexServerState P) :=
  if packetin.flag = QsmpFlags.connectRequest.toByte then
    if kexSimplexServerKeyidVerify kss.keyid packetin.pmessage then
      if tm ≤ kss.expiration then
        let confs := packetin.pmessage.read keyidSize configSize
        if qscStringutilsCompareStrings confs P.configString.val then
          let schash := simplexSchash K P kss.keyid kss.verkey
          let keys := A.generateKeypair keypair
          let phash := qscSha3Compute256 K.permute keys.1.val
          let signed := A.sign phash.val kss.sigkey sign
          { qerr := .none
            ks := { kss with schash, pubkey := keys.1, prikey := keys.2 }
            cns := { cns with exflag := .connectResponse }
            packetout :=
              { flag := QsmpFlags.connectResponse.toByte
                msglen := UInt32.ofNat (P.signatureSize + simplexHashSize + P.publicKeySize)
                sequence := cns.txseq
                pmessage := ((packetout.pmessage.clear 0 P.messageMax).write 0 signed).write
                  signed.length keys.1.val } }
        else .fail .unknownProtocol kss cns packetout
      else .fail .keyExpired kss cns packetout
    else .fail .keyUnrecognized kss cns packetout
  else .fail .invalidRequest kss cns packetout

/-- `kex_simplex_server_exchange_response`, which raises the channel. -/
def kexSimplexServerExchangeResponse (kss : QsmpKexSimplexServerState P)
    (cns : QsmpConnectionState) (packetin packetout : QsmpPacket) :
    StepResult (QsmpKexSimplexServerState P) :=
  if cns.exflag = .connectResponse ∧ packetin.flag = QsmpFlags.exchangeRequest.toByte then
    -- Nothing is signed here: whatever decapsulates raises the channel.
    match A.decapsulate (packetin.pmessage.octets 0 P.cipherTextSize) kss.prikey with
    | some ssec =>
      let keys := simplexExpand K ssec kss.schash
      { qerr := .none
        ks := kss
        cns := { cns with
          rtcs := keys.rtcs
          rxcpr := qscRcsInitialize K (keys.first simplexSymmetricKeySize) false
          txcpr := qscRcsInitialize K (keys.second simplexSymmetricKeySize) true
          exflag := .sessionEstablished }
        packetout :=
          { flag := QsmpFlags.exchangeResponse.toByte
            msglen := 0
            sequence := cns.txseq
            pmessage := packetout.pmessage.clear 0 P.messageMax } }
    | none => .fail .decapsulationFailure kss cns packetout
  else .fail .invalidRequest kss cns packetout

/-! ## What success says -/

section

variable {K A} {tm : UInt64} {encap keypair sign : A.Seed} {cns : QsmpConnectionState}
variable {packetin packetout : QsmpPacket}

section Client

variable {kcs : QsmpKexSimplexClientState P} {r : StepResult (QsmpKexSimplexClientState P)}

theorem kexSimplexClientConnectRequest_of_none
    (hr : r = kexSimplexClientConnectRequest K tm kcs cns packetout) (h : r.qerr = .none) :
    tm ≤ kcs.expiration ∧
      r.ks = { kcs with schash := simplexSchash K P kcs.keyid kcs.verkey } ∧
      r.cns = { cns with exflag := .connectRequest } := by
  simp only [kexSimplexClientConnectRequest] at hr
  split at hr
  · rename_i htime
    subst hr
    exact ⟨htime, rfl, rfl⟩
  · exact absurd h (by simp [hr, StepResult.fail])

theorem kexSimplexClientExchangeRequest_of_none
    (hr : r = kexSimplexClientExchangeRequest K A encap kcs cns packetin packetout)
    (h : r.qerr = .none) :
    let mlen := signedLength P simplexHashSize packetin.pmessage
    let pubk := packetin.pmessage.octets mlen P.publicKeySize
    let keys := simplexExpand K (A.encapsulate pubk encap).1 kcs.schash
    cns.exflag = .connectRequest ∧
      SignsHash256 K A (packetin.pmessage.read 0 mlen) kcs.verkey pubk.val ∧
      r.ks = kcs ∧
      r.cns = { cns with
        rtcs := keys.rtcs
        txcpr := qscRcsInitialize K (keys.first simplexSymmetricKeySize) true
        rxcpr := qscRcsInitialize K (keys.second simplexSymmetricKeySize) false
        exflag := .exchangeRequest } := by
  simp only [kexSimplexClientExchangeRequest] at hr
  split at hr
  · rename_i hpos
    split at hr
    · rename_i message hverify
      split at hr
      · rename_i hhash
        subst hr
        exact ⟨hpos.1, ⟨message, hverify, qscIntutilsVerify_hash.1 hhash⟩, rfl, rfl⟩
      · exact absurd h (by simp [hr, StepResult.fail])
    · exact absurd h (by simp [hr, StepResult.fail])
  · exact absurd h (by simp [hr, StepResult.fail])

theorem kexSimplexClientEstablishVerify_of_none
    (hr : r = kexSimplexClientEstablishVerify kcs cns packetin packetout) (h : r.qerr = .none) :
    cns.exflag = .exchangeRequest ∧ r.ks = kcs ∧
      r.cns = { cns with exflag := .sessionEstablished } := by
  simp only [kexSimplexClientEstablishVerify] at hr
  split at hr
  · rename_i hpos
    subst hr
    exact ⟨hpos.1, rfl, rfl⟩
  · exact absurd h (by simp [hr, StepResult.fail])

end Client

section Server

variable {kss : QsmpKexSimplexServerState P} {r : StepResult (QsmpKexSimplexServerState P)}

theorem kexSimplexServerConnectResponse_of_none
    (hr : r = kexSimplexServerConnectResponse K A tm keypair sign kss cns packetin packetout)
    (h : r.qerr = .none) :
    packetin.flag = QsmpFlags.connectRequest.toByte ∧
      kexSimplexServerKeyidVerify kss.keyid packetin.pmessage = true ∧ tm ≤ kss.expiration ∧
      qscStringutilsCompareStrings (packetin.pmessage.read keyidSize configSize)
        P.configString.val = true ∧
      r.ks = { kss with schash := simplexSchash K P kss.keyid kss.verkey,
                        pubkey := (A.generateKeypair keypair).1,
                        prikey := (A.generateKeypair keypair).2 } ∧
      r.cns = { cns with exflag := .connectResponse } := by
  simp only [kexSimplexServerConnectResponse] at hr
  split at hr
  · rename_i hflag
    split at hr
    · rename_i hkeyid
      split at hr
      · rename_i htime
        split at hr
        · rename_i hconf
          subst hr
          exact ⟨hflag, hkeyid, htime, hconf, rfl, rfl⟩
        · exact absurd h (by simp [hr, StepResult.fail])
      · exact absurd h (by simp [hr, StepResult.fail])
    · exact absurd h (by simp [hr, StepResult.fail])
  · exact absurd h (by simp [hr, StepResult.fail])

theorem kexSimplexServerExchangeResponse_of_none
    (hr : r = kexSimplexServerExchangeResponse K A kss cns packetin packetout)
    (h : r.qerr = .none) :
    cns.exflag = .connectResponse ∧
      ∃ ssec, A.decapsulate (packetin.pmessage.octets 0 P.cipherTextSize) kss.prikey = some ssec ∧
        r.ks = kss ∧
        r.cns = { cns with
          rtcs := (simplexExpand K ssec kss.schash).rtcs
          rxcpr := qscRcsInitialize K
            ((simplexExpand K ssec kss.schash).first simplexSymmetricKeySize) false
          txcpr := qscRcsInitialize K
            ((simplexExpand K ssec kss.schash).second simplexSymmetricKeySize) true
          exflag := .sessionEstablished } := by
  simp only [kexSimplexServerExchangeResponse] at hr
  split at hr
  · rename_i hpos
    split at hr
    · rename_i ssec hdecap
      subst hr
      exact ⟨hpos.1, ssec, hdecap, rfl, rfl⟩
    · exact absurd h (by simp [hr, StepResult.fail])
  · exact absurd h (by simp [hr, StepResult.fail])

end Server

end

end Qsmp
