import Qsmp.Kex.State
/-!
# The duplex exchange, step by step

The seven step functions of the duplex exchange. Each checks the position
the connection is in and the flag of the packet it is handed; a failed
check ends the exchange. Behind the functions stands, for each, what its
success says.
-/

namespace Qsmp

variable {P : Params} (K : Primitives) (A : Asymmetric P)

/-- `kex_duplex_client_connect_request`, at the time `tm`. -/
def kexDuplexClientConnectRequest (tm : UInt64) (kcs : QsmpKexDuplexClientState P)
    (cns : QsmpConnectionState) (packetout : QsmpPacket) :
    StepResult (QsmpKexDuplexClientState P) :=
  if tm ≤ kcs.expiration then
    { qerr := .none
      ks := { kcs with schash := duplexSchash K P kcs.keyid kcs.verkey kcs.rverkey }
      cns := { cns with exflag := .connectRequest }
      packetout :=
        { flag := QsmpFlags.connectRequest.toByte
          msglen := UInt32.ofNat (keyidSize + configSize)
          sequence := cns.txseq
          pmessage := (packetout.pmessage.write 0 kcs.keyid.val).write keyidSize
            P.configString.val } }
  else .fail .keyExpired kcs cns packetout

/-- `kex_duplex_client_exchange_request` -/
def kexDuplexClientExchangeRequest (encap keypair sign : A.Seed)
    (kcs : QsmpKexDuplexClientState P) (cns : QsmpConnectionState)
    (packetin packetout : QsmpPacket) : StepResult (QsmpKexDuplexClientState P) :=
  if cns.exflag = .connectRequest ∧ packetin.flag = QsmpFlags.connectResponse.toByte then
    let mlen := signedLength P duplexHashSize packetin.pmessage
    match A.verify (packetin.pmessage.read 0 mlen) kcs.rverkey with
    | some message =>
      let khash := signedHash duplexHashSize message
      let pubk := packetin.pmessage.octets mlen P.publicKeySize
      let phash := qscSha3Compute512 K.permute pubk.val
      if qscIntutilsVerify phash.val khash = 0 then
        let enc := A.encapsulate pubk encap
        let pmessage := (packetout.pmessage.clear 0 P.messageMax).write 0 enc.2.val
        let keys := A.generateKeypair keypair
        let pmessage := pmessage.write P.cipherTextSize keys.1.val
        -- What is signed is read back off the message: the cipher-text and the key behind it.
        let phash := qscSha3Compute512 K.permute
          (pmessage.read 0 (P.cipherTextSize + P.publicKeySize))
        let pmessage := pmessage.write (P.cipherTextSize + P.publicKeySize)
          (A.sign phash.val kcs.sigkey sign)
        { qerr := .none
          ks := { kcs with ssec := enc.1, pubkey := keys.1, prikey := keys.2 }
          cns := { cns with exflag := .exchangeRequest }
          packetout :=
            { flag := QsmpFlags.exchangeRequest.toByte
              msglen := UInt32.ofNat
                (P.cipherTextSize + P.publicKeySize + duplexHashSize + P.signatureSize)
              sequence := cns.txseq
              pmessage := pmessage } }
      else .fail .hashInvalid kcs cns packetout
    | none => .fail .authenticationFailure kcs cns packetout
  else .fail .invalidRequest kcs cns packetout

/-- `kex_duplex_client_establish_request` -/
def kexDuplexClientEstablishRequest (kcs : QsmpKexDuplexClientState P)
    (cns : QsmpConnectionState) (packetin packetout : QsmpPacket) :
    StepResult (QsmpKexDuplexClientState P) :=
  if cns.exflag = .exchangeRequest ∧ packetin.flag = QsmpFlags.exchangeResponse.toByte then
    -- The length is decoded from the start of the message, the signature read behind the
    -- cipher-text.
    let mlen := signedLength P duplexHashSize packetin.pmessage
    match A.verify (packetin.pmessage.read P.cipherTextSize mlen) kcs.rverkey with
    | some message =>
      let khash := signedHash duplexHashSize message
      let cpt := packetin.pmessage.octets 0 P.cipherTextSize
      let phash := qscSha3Compute512 K.permute cpt.val
      if qscIntutilsVerify phash.val khash = 0 then
        match A.decapsulate cpt kcs.prikey with
        | some secb =>
          let keys := duplexExpand K kcs.ssec kcs.schash secb
          { qerr := .none
            ks := kcs
            cns := { cns with
              rtcs := keys.rtcs
              txcpr := qscRcsInitialize K (keys.first duplexSymmetricKeySize) true
              rxcpr := qscRcsInitialize K (keys.second duplexSymmetricKeySize) false
              exflag := .establishRequest }
            packetout := { packetout with
              flag := QsmpFlags.establishRequest.toByte
              msglen := 0
              sequence := cns.txseq } }
        | none => .fail .decapsulationFailure kcs cns packetout
      else .fail .hashInvalid kcs cns packetout
    | none => .fail .authenticationFailure kcs cns packetout
  else .fail .invalidRequest kcs cns packetout

/-- `kex_duplex_client_establish_verify`, which makes no packet. -/
def kexDuplexClientEstablishVerify (kcs : QsmpKexDuplexClientState P)
    (cns : QsmpConnectionState) (packetin packetout : QsmpPacket) :
    StepResult (QsmpKexDuplexClientState P) :=
  if cns.exflag = .establishRequest ∧ packetin.flag = QsmpFlags.establishResponse.toByte then
    ⟨.none, kcs, { cns with exflag := .sessionEstablished }, packetout⟩
  else .fail .invalidRequest kcs cns packetout

/-- `kex_duplex_server_connect_response`, at the time `tm`. The order of
the checks is the key identity, the expiration, the configuration. -/
def kexDuplexServerConnectResponse (tm : UInt64) (keypair sign : A.Seed)
    (kss : QsmpKexDuplexServerState P) (cns : QsmpConnectionState)
    (packetin packetout : QsmpPacket) : StepResult (QsmpKexDuplexServerState P) :=
  if packetin.flag = QsmpFlags.connectRequest.toByte then
    match kss.keyQuery (packetin.pmessage.octets 0 keyidSize) with
    | some rverkey =>
      -- The query writes the key into the state before the checks that can still fail.
      let kss := { kss with rverkey }
      if tm ≤ kss.expiration then
        let confs := packetin.pmessage.read keyidSize configSize
        if qscStringutilsCompareStrings confs P.configString.val then
          let schash := duplexSchash K P kss.keyid kss.rverkey kss.verkey
          let keys := A.generateKeypair keypair
          let phash := qscSha3Compute512 K.permute keys.1.val
          let signed := A.sign phash.val kss.sigkey sign
          { qerr := .none
            ks := { kss with schash, pubkey := keys.1, prikey := keys.2 }
            cns := { cns with exflag := .connectResponse }
            packetout :=
              { flag := QsmpFlags.connectResponse.toByte
                msglen := UInt32.ofNat (duplexHashSize + P.signatureSize + P.publicKeySize)
                sequence := cns.txseq
                pmessage := (packetout.pmessage.write 0 signed).write signed.length
                  keys.1.val } }
        else .fail .unknownProtocol kss cns packetout
      else .fail .keyExpired kss cns packetout
    | none => .fail .keyUnrecognized kss cns packetout
  else .fail .invalidRequest kss cns packetout

/-- `kex_duplex_server_exchange_response` -/
def kexDuplexServerExchangeResponse (encap sign : A.Seed) (kss : QsmpKexDuplexServerState P)
    (cns : QsmpConnectionState) (packetin packetout : QsmpPacket) :
    StepResult (QsmpKexDuplexServerState P) :=
  if cns.exflag = .connectResponse ∧ packetin.flag = QsmpFlags.exchangeRequest.toByte then
    let mlen := signedLength P duplexHashSize packetin.pmessage
    match A.verify (packetin.pmessage.read (P.cipherTextSize + P.publicKeySize) mlen)
        kss.rverkey with
    | some message =>
      let khash := signedHash duplexHashSize message
      let phash := qscSha3Compute512 K.permute
        (packetin.pmessage.read 0 (P.cipherTextSize + P.publicKeySize))
      if qscIntutilsVerify phash.val khash = 0 then
        match A.decapsulate (packetin.pmessage.octets 0 P.cipherTextSize) kss.prikey with
        | some seca =>
          let enc := A.encapsulate (packetin.pmessage.octets P.cipherTextSize P.publicKeySize)
            encap
          -- Hashed as it lies in the message.
          let pmessage := packetout.pmessage.write 0 enc.2.val
          let phash := qscSha3Compute512 K.permute (pmessage.read 0 P.cipherTextSize)
          let pmessage := pmessage.write P.cipherTextSize (A.sign phash.val kss.sigkey sign)
          let keys := duplexExpand K seca kss.schash enc.1
          { qerr := .none
            ks := kss
            cns := { cns with
              rtcs := keys.rtcs
              rxcpr := qscRcsInitialize K (keys.first duplexSymmetricKeySize) false
              txcpr := qscRcsInitialize K (keys.second duplexSymmetricKeySize) true
              exflag := .exchangeResponse }
            packetout :=
              { flag := QsmpFlags.exchangeResponse.toByte
                msglen := UInt32.ofNat (P.cipherTextSize + duplexHashSize + P.signatureSize)
                sequence := cns.txseq
                pmessage := pmessage } }
        | none => .fail .decapsulationFailure kss cns packetout
      else .fail .hashInvalid kss cns packetout
    | none => .fail .authenticationFailure kss cns packetout
  else .fail .invalidRequest kss cns packetout

/-- `kex_duplex_server_establish_response` -/
def kexDuplexServerEstablishResponse (kss : QsmpKexDuplexServerState P)
    (cns : QsmpConnectionState) (packetin packetout : QsmpPacket) :
    StepResult (QsmpKexDuplexServerState P) :=
  if cns.exflag = .exchangeResponse ∧ packetin.flag = QsmpFlags.establishRequest.toByte then
    { qerr := .none
      ks := kss
      cns := { cns with exflag := .sessionEstablished }
      packetout := { packetout with
        flag := QsmpFlags.establishResponse.toByte
        msglen := 0
        sequence := cns.txseq } }
  else .fail .invalidRequest kss cns packetout

/-! ## What success says -/

section

variable {K A} {tm : UInt64} {encap keypair sign : A.Seed} {cns : QsmpConnectionState}
variable {packetin packetout : QsmpPacket}

section Client

variable {kcs : QsmpKexDuplexClientState P} {r : StepResult (QsmpKexDuplexClientState P)}

theorem kexDuplexClientConnectRequest_of_none
    (hr : r = kexDuplexClientConnectRequest K tm kcs cns packetout) (h : r.qerr = .none) :
    tm ≤ kcs.expiration ∧
      r.ks = { kcs with schash := duplexSchash K P kcs.keyid kcs.verkey kcs.rverkey } ∧
      r.cns = { cns with exflag := .connectRequest } := by
  simp only [kexDuplexClientConnectRequest] at hr
  split at hr
  · rename_i htime
    subst hr
    exact ⟨htime, rfl, rfl⟩
  · exact absurd h (by simp [hr, StepResult.fail])

theorem kexDuplexClientExchangeRequest_of_none
    (hr : r = kexDuplexClientExchangeRequest K A encap keypair sign kcs cns packetin packetout)
    (h : r.qerr = .none) :
    let mlen := signedLength P duplexHashSize packetin.pmessage
    let pubk := packetin.pmessage.octets mlen P.publicKeySize
    cns.exflag = .connectRequest ∧
      SignsHash512 K A (packetin.pmessage.read 0 mlen) kcs.rverkey pubk.val ∧
      r.ks = { kcs with ssec := (A.encapsulate pubk encap).1,
                        pubkey := (A.generateKeypair keypair).1,
                        prikey := (A.generateKeypair keypair).2 } ∧
      r.cns = { cns with exflag := .exchangeRequest } := by
  simp only [kexDuplexClientExchangeRequest] at hr
  split at hr
  · rename_i hpos
    split at hr
    · rename_i message hverify
      split at hr
      · rename_i hhash
        subst hr
        exact ⟨hpos.1, ⟨message, hverify, qscIntutilsVerify_hash.1 hhash⟩, rfl, rfl⟩
      · exact absurd h (by simp [hr, StepResult.fail])
    · exact absurd h (by simp [hr, StepResult.fail])
  · exact absurd h (by simp [hr, StepResult.fail])

theorem kexDuplexClientEstablishRequest_of_none
    (hr : r = kexDuplexClientEstablishRequest K A kcs cns packetin packetout)
    (h : r.qerr = .none) :
    let mlen := signedLength P duplexHashSize packetin.pmessage
    let cpt := packetin.pmessage.octets 0 P.cipherTextSize
    cns.exflag = .exchangeRequest ∧
      SignsHash512 K A (packetin.pmessage.read P.cipherTextSize mlen) kcs.rverkey cpt.val ∧
      ∃ secb, A.decapsulate cpt kcs.prikey = some secb ∧ r.ks = kcs ∧
        r.cns = { cns with
          rtcs := (duplexExpand K kcs.ssec kcs.schash secb).rtcs
          txcpr := qscRcsInitialize K
            ((duplexExpand K kcs.ssec kcs.schash secb).first duplexSymmetricKeySize) true
          rxcpr := qscRcsInitialize K
            ((duplexExpand K kcs.ssec kcs.schash secb).second duplexSymmetricKeySize) false
          exflag := .establishRequest } := by
  simp only [kexDuplexClientEstablishRequest] at hr
  split at hr
  · rename_i hpos
    split at hr
    · rename_i message hverify
      split at hr
      · rename_i hhash
        split at hr
        · rename_i secb hdecap
          subst hr
          exact ⟨hpos.1, ⟨message, hverify, qscIntutilsVerify_hash.1 hhash⟩, secb, hdecap,
            rfl, rfl⟩
        · exact absurd h (by simp [hr, StepResult.fail])
      · exact absurd h (by simp [hr, StepResult.fail])
    · exact absurd h (by simp [hr, StepResult.fail])
  · exact absurd h (by simp [hr, StepResult.fail])

theorem kexDuplexClientEstablishVerify_of_none
    (hr : r = kexDuplexClientEstablishVerify kcs cns packetin packetout) (h : r.qerr = .none) :
    cns.exflag = .establishRequest ∧ r.ks = kcs ∧
      r.cns = { cns with exflag := .sessionEstablished } := by
  simp only [kexDuplexClientEstablishVerify] at hr
  split at hr
  · rename_i hpos
    subst hr
    exact ⟨hpos.1, rfl, rfl⟩
  · exact absurd h (by simp [hr, StepResult.fail])

end Client

section Server

variable {kss : QsmpKexDuplexServerState P} {r : StepResult (QsmpKexDuplexServerState P)}

theorem kexDuplexServerConnectResponse_of_none
    (hr : r = kexDuplexServerConnectResponse K A tm keypair sign kss cns packetin packetout)
    (h : r.qerr = .none) :
    packetin.flag = QsmpFlags.connectRequest.toByte ∧ tm ≤ kss.expiration ∧
      qscStringutilsCompareStrings (packetin.pmessage.read keyidSize configSize)
        P.configString.val = true ∧
      ∃ rverkey, kss.keyQuery (packetin.pmessage.octets 0 keyidSize) = some rverkey ∧
        r.ks = { kss with rverkey := rverkey,
                          schash := duplexSchash K P kss.keyid rverkey kss.verkey,
                          pubkey := (A.generateKeypair keypair).1,
                          prikey := (A.generateKeypair keypair).2 } ∧
        r.cns = { cns with exflag := .connectResponse } := by
  simp only [kexDuplexServerConnectResponse] at hr
  split at hr
  · rename_i hflag
    split at hr
    · rename_i rverkey hquery
      split at hr
      · rename_i htime
        split at hr
        · rename_i hconf
          subst hr
          exact ⟨hflag, htime, hconf, rverkey, hquery, rfl, rfl⟩
        · exact absurd h (by simp [hr, StepResult.fail])
      · exact absurd h (by simp [hr, StepResult.fail])
    · exact absurd h (by simp [hr, StepResult.fail])
  · exact absurd h (by simp [hr, StepResult.fail])

theorem kexDuplexServerExchangeResponse_of_none
    (hr : r = kexDuplexServerExchangeResponse K A encap sign kss cns packetin packetout)
    (h : r.qerr = .none) :
    let mlen := signedLength P duplexHashSize packetin.pmessage
    let pubk := packetin.pmessage.octets P.cipherTextSize P.publicKeySize
    let secb := (A.encapsulate pubk encap).1
    cns.exflag = .connectResponse ∧
      SignsHash512 K A (packetin.pmessage.read (P.cipherTextSize + P.publicKeySize) mlen)
        kss.rverkey (packetin.pmessage.read 0 (P.cipherTextSize + P.publicKeySize)) ∧
      ∃ seca, A.decapsulate (packetin.pmessage.octets 0 P.cipherTextSize) kss.prikey = some seca ∧
        r.ks = kss ∧
        r.cns = { cns with
          rtcs := (duplexExpand K seca kss.schash secb).rtcs
          rxcpr := qscRcsInitialize K
            ((duplexExpand K seca kss.schash secb).first duplexSymmetricKeySize) false
          txcpr := qscRcsInitialize K
            ((duplexExpand K seca kss.schash secb).second duplexSymmetricKeySize) true
          exflag := .exchangeResponse } := by
  simp only [kexDuplexServerExchangeResponse] at hr
  split at hr
  · rename_i hpos
    split at hr
    · rename_i message hverify
      split at hr
      · rename_i hhash
        split at hr
        · rename_i seca hdecap
          subst hr
          exact ⟨hpos.1, ⟨message, hverify, qscIntutilsVerify_hash.1 hhash⟩, seca, hdecap,
            rfl, rfl⟩
        · exact absurd h (by simp [hr, StepResult.fail])
      · exact absurd h (by simp [hr, StepResult.fail])
    · exact absurd h (by simp [hr, StepResult.fail])
  · exact absurd h (by simp [hr, StepResult.fail])

theorem kexDuplexServerEstablishResponse_of_none
    (hr : r = kexDuplexServerEstablishResponse kss cns packetin packetout) (h : r.qerr = .none) :
    cns.exflag = .exchangeResponse ∧ r.ks = kss ∧
      r.cns = { cns with exflag := .sessionEstablished } := by
  simp only [kexDuplexServerEstablishResponse] at hr
  split at hr
  · rename_i hpos
    subst hr
    exact ⟨hpos.1, rfl, rfl⟩
  · exact absurd h (by simp [hr, StepResult.fail])

end Server

end

end Qsmp
