import Qsmp.Kex.Agreement
import Qsmp.Server.Slots
import Qsmp.Session.Startup
/-!
# From the key files to a session

The functions that set up the parties of an exchange from the keys they
hold, and how the key of the other side is read from its text. A party may
have been started any number of times since its key was made.
-/

namespace Qsmp

/-! ## Setting up the parties -/

section Initialize

variable {P : Params}

/-- The connection as all five functions set it, of which
`server_state_initialize` does no more: the keys and the ciphers are
cleared, and nothing has been sent or received. -/
abbrev QsmpConnectionState.reset (cns : QsmpConnectionState) : QsmpConnectionState :=
  serverStateInitialize cns

/-- `client_duplex_state_initialize`. The identity is that of the remote
key. -/
def clientDuplexStateInitialize (kcs : QsmpKexDuplexClientState P) (cns : QsmpConnectionState)
    (kset : QsmpServerSignatureKey P) (rverkey : QsmpClientSignatureKey) :
    QsmpKexDuplexClientState P × QsmpConnectionState :=
  ({ kcs with
      verkey := kset.verkey
      sigkey := kset.sigkey
      keyid := rverkey.keyid
      rverkey := rverkey.verkey P
      expiration := rverkey.expiration },
    { cns.reset with mode := .duplex, receiver := false })

/-- `listener_duplex_state_initialize`, less the socket of the keep-alive
state. It clears the ciphers and does not dispose of them, which leaves
their type zero. -/
def listenerDuplexStateInitialize (kss : QsmpKexDuplexServerState P) (cns : QsmpConnectionState)
    (kset : QsmpServerSignatureKey P)
    (keyQuery : Octets keyidSize → Option (Octets P.verifyKeySize)) :
    QsmpKexDuplexServerState P × QsmpConnectionState :=
  ({ kss with
      keyid := kset.keyid
      sigkey := kset.sigkey
      verkey := kset.verkey
      keyQuery
      expiration := kset.expiration },
    { cns.reset with mode := .duplex, receiver := true })

/-- `client_simplex_state_initialize`, which leaves `receiver` as it is. -/
def clientSimplexStateInitialize (kcs : QsmpKexSimplexClientState P) (cns : QsmpConnectionState)
    (pubk : QsmpClientSignatureKey) : QsmpKexSimplexClientState P × QsmpConnectionState :=
  ({ kcs with
      keyid := pubk.keyid
      verkey := pubk.verkey P
      expiration := pubk.expiration },
    { cns.reset with mode := .simplex })

/-- The role's state as `listener_simplex_state_initialize` and
`server_state_initialize` fill it. -/
def QsmpKexSimplexServerState.ofKey (kss : QsmpKexSimplexServerState P)
    (kset : QsmpServerSignatureKey P) : QsmpKexSimplexServerState P :=
  { kss with
    keyid := kset.keyid
    sigkey := kset.sigkey
    verkey := kset.verkey
    expiration := kset.expiration }

/-- `listener_simplex_state_initialize`, with the same remarks. -/
def listenerSimplexStateInitialize (kss : QsmpKexSimplexServerState P)
    (cns : QsmpConnectionState) (kset : QsmpServerSignatureKey P) :
    QsmpKexSimplexServerState P × QsmpConnectionState :=
  (kss.ofKey kset, { cns.reset with mode := .simplex })

/-- `server_state_initialize`, which leaves the mode as it is, too: the
role's state with the connection. -/
def serverKexStateInitialize (kss : QsmpKexSimplexServerState P) (cns : QsmpConnectionState)
    (pprik : QsmpServerSignatureKey P) : QsmpKexSimplexServerState P × QsmpConnectionState :=
  (kss.ofKey pprik, cns.reset)

end Initialize

/-! ## The key of the other side -/

section Read

variable (B : PubkeyParams) (C : Clock)

/-- The end of `client_ipv4_dialogue` and the middle of
`sender_ipv4_dialogue`: the file is read into the array, of which the
client's is not cleared, and decoded. -/
def readPubkey (stack pskey : Mem) (answer : Option ℕ) (file : Option Bytes) :
    Bool × QsmpClientSignatureKey :=
  qsmpDecodePublicKey B C stack .zero
    (qscFileutilsCopyFileToStream answer file pskey B.pubkey.stringSize).2

/-- `listener_key_query`, which does not look at the identity it is asked
for. `opens` is the answer to looking for the sender's file. -/
def listenerKeyQuery (stack : Mem) (opens : Bool) (answer : Option ℕ) (file : Option Bytes)
    (_pkid : Octets keyidSize) : Option (Octets B.verifyKeySize) :=
  if qscFileutilsExists opens file then
    let (res, ckey) := readPubkey B C stack .zero answer file
    if res then some (ckey.verkey B.toParams) else none
  else none

variable {B C} {kset : QsmpServerSignatureKey B.toParams}

/-- **The text of a key, read whole**, gives the key. -/
theorem readPubkey_eq (kset : QsmpServerSignatureKey B.toParams) (stack pskey : Mem) {n : ℕ}
    (hn : B.pubkey.stringSize ≤ n) :
    ∃ pubk, readPubkey B C stack pskey (some n)
        (some ((qsmpEncodePublicKey B C .zero kset).read 0 B.pubkey.stringSize)) = (true, pubk) ∧
      pubk.keyid = kset.keyid ∧ pubk.verkey B.toParams = kset.verkey ∧
      pubk.expiration = qscTimestampDatetimeToSeconds C
        (Mem.zero.write 0 (pubkeyDate C kset.expiration)) := by
  obtain ⟨text, htext⟩ : ∃ text, text = (qsmpEncodePublicKey B C .zero kset).read 0
    B.pubkey.stringSize := ⟨_, rfl⟩
  have hlen : text.length = B.pubkey.stringSize := by rw [htext, Mem.length_read]
  have hread : (pskey.write 0 (text.take (min n B.pubkey.stringSize))).read 0
      B.pubkey.stringSize = text := by
    rw [Nat.min_eq_right hn, List.take_of_length_le hlen.le, Mem.read_write_of_length hlen]
  obtain ⟨pubk, hdecode, -, hkeyid, hverkey, hexpiration⟩ :=
    qsmpDecodePublicKey_encode stack (hread.trans htext)
  rw [← htext]
  exact ⟨pubk, hdecode, hkeyid, hverkey, hexpiration⟩

/-- The listener finds the sender's verification key, whatever identity it
is asked for. -/
theorem listenerKeyQuery_eq (stack : Mem) {n : ℕ} (hn : B.pubkey.stringSize ≤ n)
    (keyid : Octets keyidSize) :
    listenerKeyQuery B C stack true (some n)
      (some ((qsmpEncodePublicKey B C .zero kset).read 0 B.pubkey.stringSize)) keyid =
        some kset.verkey := by
  obtain ⟨pubk, hread, -, hverkey, -⟩ := readPubkey_eq (C := C) kset stack .zero hn
  rw [listenerKeyQuery, hread]
  exact congrArg some hverkey

end Read

/-! ## A session -/

/-- A time whose text is read back as the time: its date is one the library
maps back, and not in October. -/
structure Clock.Keeps (C : Clock) (e : UInt64) : Prop where
  date : (C.localtime e.toInt64).Date
  inverse : C.InverseAt e.toInt64
  notOctober : (C.localtime e.toInt64).tmMon ≠ 9

section Session

variable {B : PubkeyParams} {C : Clock} {A : Asymmetric B.toParams} {G : A.Keygen}
variable {first : Startup A} {later : List (Startup A)} {files : KeyFiles}

/-- When the key a start makes expires. -/
def Startup.expires (s : Startup A) : UInt64 := s.now + UInt64.ofNat pubkeyDurationSeconds

/-- **All starts of a party hand out one key**, and the text of its public
part is in the file, whole. -/
theorem starts_whole (C : Clock) (G : A.Keygen) (keeper : KeyKeeper)
    (hfiles : files.prikey = none) (hhealthy : ∀ s ∈ first :: later, s.Healthy) :
    ∃ kset : QsmpServerSignatureKey B.toParams, kset.expiration = first.expires ∧
      (∃ seed, kset.sigkey = (G seed).2 ∧ kset.verkey = (G seed).1) ∧
      ∀ d ∈ starts B (keeper.dialogue B C G) (first :: later) files,
        d.prik = kset ∧ d.files.pubkey =
          some ((qsmpEncodePublicKey B C .zero kset).read 0 B.pubkey.stringSize) := by
  obtain ⟨keyid, -, hout⟩ := dialogue_first (C := C) (G := G) keeper
    (hhealthy first (List.mem_cons_self ..)) hfiles
  refine ⟨first.made G keyid, rfl, ⟨first.seed, rfl, rfl⟩, fun d hd => ?_⟩
  have hlen := length_serialized (first.made G keyid)
  have hpos := sigkeyEncodedSize_pos (P := B.toParams)
  have hne : (first.made G keyid).serialized ≠ [] := fun hnil => by
    rw [hnil, List.length_nil] at hlen
    omega
  have hkept : paddedKey B.toParams (first.made G keyid).serialized =
      (first.made G keyid).serialized := by
    rw [paddedKey, List.take_of_length_le hlen.le, Mem.read_write_of_length hlen]
  have hprikey : (keeper.dialogue B C G first (.zero _ files)).files.prikey =
      some (first.made G keyid).serialized := by
    rw [hout.kept]
  rw [starts, List.mem_cons] at hd
  rcases hd with rfl | hd
  · exact ⟨hout.key, by rw [hout.kept]⟩
  · have hlater := starts_handOut keeper hne hprikey hkept later
      (fun s hs => hhealthy s (List.mem_cons_of_mem _ hs)) d hd
    exact ⟨hlater.key, by rw [hlater.kept, hout.kept]⟩

/-- What a reader of the file gets: the identity and the verification key,
and the expiration. -/
theorem readPubkey_keeps {kset : QsmpServerSignatureKey B.toParams} (stack pskey : Mem) {n : ℕ}
    (hn : B.pubkey.stringSize ≤ n) (hclock : C.Keeps kset.expiration) :
    ∃ pubk, readPubkey B C stack pskey (some n)
        (some ((qsmpEncodePublicKey B C .zero kset).read 0 B.pubkey.stringSize)) = (true, pubk) ∧
      pubk.keyid = kset.keyid ∧ pubk.verkey B.toParams = kset.verkey ∧
      pubk.expiration = kset.expiration := by
  obtain ⟨pubk, hread, hkeyid, hverkey, hexpiration⟩ :=
    readPubkey_eq (C := C) kset stack pskey hn
  refine ⟨pubk, hread, hkeyid, hverkey, hexpiration.trans ?_⟩
  exact (datetimeToSeconds_iff hclock.date hclock.inverse
    (Mem.read_write_of_length length_pubkeyDate)).2 hclock.notOctober

/-- **From the first start of a server to a session.** The server makes its
key at its first start and may be started again any number of times; a
client reads the text of the key as any of these starts left it. Then the
two drivers, set up from the key and from its text, come to agreement
whatever the schedule, until the key expires. The build signs without
Falcon, every start is healthy, and the text keeps the expiration, which it
does not in October. -/
theorem simplex_session (K : Primitives) (hf : B.falconSignature = false) (hkem : A.KemCorrect)
    (hsign : G.Correct) (hfiles : files.prikey = none)
    (hhealthy : ∀ s ∈ first :: later, s.Healthy) (hclock : C.Keeps first.expires)
    (d d' : KeyDialogue B.toParams)
    (hd : d ∈ starts B (serverKeyDialogue B C G) (first :: later) files)
    (hd' : d' ∈ starts B (serverKeyDialogue B C G) (first :: later) files)
    (pskey decoder stack stack' : Mem) (n : ℕ) (hn : B.pubkey.stringSize ≤ n) (dc ds : Draws A)
    (htime : dc.tm ≤ first.expires) (htime' : ds.tm ≤ first.expires)
    (kcs : QsmpKexSimplexClientState B.toParams) (kss : QsmpKexSimplexServerState B.toParams)
    (cns cns' : QsmpConnectionState)
    (server : QsmpKexSimplexServerState B.toParams × QsmpConnectionState)
    (hserver : server = serverKexStateInitialize kss cns' d.prik ∨
      server = listenerSimplexStateInitialize kss cns' d.prik) :
    let read := readPubkey B C decoder pskey (some n) d'.files.pubkey
    let client := clientSimplexStateInitialize kcs cns read.2
    read.1 = true ∧ Inevitably Duet.Step (SimplexAgreed K A client.1 dc ds)
      (Duet.start (qsmpKexSimplexClientKeyExchange K A stack dc client.1 client.2)
        (qsmpKexSimplexServerKeyExchange K A stack' ds server.1 server.2)) := by
  obtain ⟨kset, hexp, ⟨seed, hsigkey, hverkey⟩, hall⟩ :=
    starts_whole C G .server hfiles hhealthy
  obtain ⟨hprik, -⟩ := hall d hd
  obtain ⟨-, hpubkey⟩ := hall d' hd'
  obtain ⟨pubk, hread, hkeyid, hrverkey, hexpiration⟩ :=
    readPubkey_keeps decoder pskey hn (hexp ▸ hclock)
  have hpair : A.SignsFor kset.sigkey kset.verkey := by
    rw [hsigkey, hverkey]
    exact hsign seed
  have hkss : server.1 = kss.ofKey kset ∧ server.2.Fresh := by
    rcases hserver with rfl | rfl
    · exact ⟨by rw [serverKexStateInitialize, hprik], rfl, rfl, rfl⟩
    · exact ⟨by rw [listenerSimplexStateInitialize, hprik], rfl, rfl, rfl⟩
  rw [hpubkey, hread, hkss.1]
  refine ⟨rfl, simplex_agreement hf hkem hpair hrverkey hkeyid ?_ ?_ ⟨rfl, rfl, rfl⟩ hkss.2⟩
  · exact le_of_le_of_eq htime (hexp.symm.trans hexpiration.symm)
  · exact le_of_le_of_eq htime' hexp.symm

/-- **From the key files of a sender and a listener to a session.** Each
has made its key at its own first start; the sender reads the listener's
text as any start of the listener left it, and the listener asks the
sender's text for the key, as any start of the sender left it. The drivers
come to agreement until the listener's key expires, under the conditions of
the simplex session; nothing looks at when the sender's does. -/
theorem duplex_session {firstS : Startup A} {laterS : List (Startup A)} {filesS : KeyFiles}
    (K : Primitives) (hf : B.falconSignature = false) (hkem : A.KemCorrect)
    (hsign : G.Correct) (hfiles : files.prikey = none)
    (hhealthy : ∀ s ∈ first :: later, s.Healthy) (hclock : C.Keeps first.expires)
    (hfilesS : filesS.prikey = none) (hhealthyS : ∀ s ∈ firstS :: laterS, s.Healthy)
    (d d' dS dS' : KeyDialogue B.toParams)
    (hd : d ∈ starts B (listenerKeyDialogue B C G) (first :: later) files)
    (hd' : d' ∈ starts B (listenerKeyDialogue B C G) (first :: later) files)
    (hdS : dS ∈ starts B (senderKeyDialogue B C G) (firstS :: laterS) filesS)
    (hdS' : dS' ∈ starts B (senderKeyDialogue B C G) (firstS :: laterS) filesS)
    (pskey decoder decoder' stack stack' : Mem) (n n' : ℕ) (hn : B.pubkey.stringSize ≤ n)
    (hn' : B.pubkey.stringSize ≤ n') (dc ds : Draws A) (htime : dc.tm ≤ first.expires)
    (htime' : ds.tm ≤ first.expires) (kcs : QsmpKexDuplexClientState B.toParams)
    (kss : QsmpKexDuplexServerState B.toParams) (cns cns' : QsmpConnectionState) :
    let read := readPubkey B C decoder pskey (some n) d'.files.pubkey
    let sender := clientDuplexStateInitialize kcs cns dS.prik read.2
    let listener := listenerDuplexStateInitialize kss cns' d.prik
      (listenerKeyQuery B C decoder' true (some n') dS'.files.pubkey)
    read.1 = true ∧ Inevitably Duet.Step (DuplexAgreed K A sender.1 dc ds)
      (Duet.start (qsmpKexDuplexClientKeyExchange K A stack dc sender.1 sender.2)
        (qsmpKexDuplexServerKeyExchange K A stack' ds listener.1 listener.2)) := by
  obtain ⟨kset, hexp, ⟨seed, hsigkey, hverkey⟩, hall⟩ :=
    starts_whole C G .listener hfiles hhealthy
  obtain ⟨ksetS, -, ⟨seedS, hsigkeyS, hverkeyS⟩, hallS⟩ :=
    starts_whole C G .sender hfilesS hhealthyS
  obtain ⟨hprik, -⟩ := hall d hd
  obtain ⟨-, hpubkey⟩ := hall d' hd'
  obtain ⟨hprikS, -⟩ := hallS dS hdS
  obtain ⟨-, hpubkeyS⟩ := hallS dS' hdS'
  obtain ⟨pubk, hread, hkeyid, hrverkey, hexpiration⟩ :=
    readPubkey_keeps decoder pskey hn (hexp ▸ hclock)
  have hpair : A.SignsFor kset.sigkey kset.verkey := by
    rw [hsigkey, hverkey]
    exact hsign seed
  have hpairS : A.SignsFor ksetS.sigkey ksetS.verkey := by
    rw [hsigkeyS, hverkeyS]
    exact hsign seedS
  rw [hpubkey, hread, hprik, hprikS, hpubkeyS]
  refine ⟨rfl, duplex_agreement hf hkem hpairS hpair hrverkey ?_ hkeyid ?_ ?_ ⟨rfl, rfl, rfl⟩
    ⟨rfl, rfl, rfl⟩⟩
  · exact listenerKeyQuery_eq decoder' hn' pubk.keyid
  · exact le_of_le_of_eq htime (hexp.symm.trans hexpiration.symm)
  · exact le_of_le_of_eq htime' hexp.symm

end Session

/-! ## The default build, in May -/

/-- The key that is made a year before the sixth of May keeps its
expiration. -/
theorem Clock.may_keeps : Clock.may.Keeps Startup.may.expires where
  date := by
    refine ⟨⟨?_, ?_, ?_, ?_, ?_, ?_⟩, ?_, ?_⟩ <;> decide
  inverse := by
    have hexpires : Startup.may.expires.toInt64 = 1714979289 := by decide
    exact hexpires ▸ may_inverseAt
  notOctober := by decide

theorem Asymmetric.Keygen.plain_correct {P : Params} (hs : 0 < P.signingKeySize)
    (hv : 0 < P.verifyKeySize) : (Asymmetric.Keygen.plain P).Correct :=
  fun _ => Asymmetric.plain_signsFor hs hv

/-- What the server hands out at its second start. -/
def KeyDialogue.second (keeper : KeyKeeper) : KeyDialogue PubkeyParams.dilithiumKyber.toParams :=
  let dialogue := keeper.dialogue .dilithiumKyber .may (.plain _)
  dialogue .may (.zero _ (dialogue .may (.zero _ ⟨none, none⟩)).files)

theorem KeyDialogue.second_mem (keeper : KeyKeeper) :
    second keeper ∈ starts .dilithiumKyber (keeper.dialogue .dilithiumKyber .may (.plain _))
      [.may, .may] ⟨none, none⟩ :=
  List.mem_cons_of_mem _ (List.mem_cons_self ..)

theorem Startup.may_twice : ∀ s ∈ [Startup.may, Startup.may], s.Healthy := by
  intro s hs
  rcases List.mem_cons.1 hs with rfl | hs
  · exact may_healthy
  · exact List.mem_singleton.1 hs ▸ may_healthy

theorem simplex_session_may :
    let read := readPubkey .dilithiumKyber .may .zero .zero (some 4000)
      (KeyDialogue.second .server).files.pubkey
    let client := clientSimplexStateInitialize (.plain .dilithiumKyber)
      (.initial .simplex false) read.2
    let server := serverKexStateInitialize (.plain .dilithiumKyber) (.initial .simplex true)
      (KeyDialogue.second .server).prik
    read.1 = true ∧ Inevitably Duet.Step
      (SimplexAgreed .plain (.plain .dilithiumKyber) client.1 (.plain _) (.plain _))
      (Duet.start (qsmpKexSimplexClientKeyExchange .plain (.plain _) .zero (.plain _) client.1
          client.2)
        (qsmpKexSimplexServerKeyExchange .plain (.plain _) .zero (.plain _) server.1 server.2)) :=
  simplex_session .plain rfl (Asymmetric.plain_kemCorrect (by decide))
    (Asymmetric.Keygen.plain_correct (by decide) (by decide)) rfl Startup.may_twice
    Clock.may_keeps _ _ (KeyDialogue.second_mem .server) (KeyDialogue.second_mem .server)
    .zero .zero .zero .zero 4000 (by decide) _ _ (by decide) (by decide) _ _ _ _ _ (.inl rfl)

theorem duplex_session_may :
    let read := readPubkey .dilithiumKyber .may .zero .zero (some 4000)
      (KeyDialogue.second .listener).files.pubkey
    let sender := clientDuplexStateInitialize (.plain .dilithiumKyber) (.initial .duplex false)
      (KeyDialogue.second .sender).prik read.2
    let listener := listenerDuplexStateInitialize (.plain .dilithiumKyber) (.initial .duplex true)
      (KeyDialogue.second .listener).prik
      (listenerKeyQuery .dilithiumKyber .may .zero true (some 4000)
        (KeyDialogue.second .sender).files.pubkey)
    read.1 = true ∧ Inevitably Duet.Step
      (DuplexAgreed .plain (.plain .dilithiumKyber) sender.1 (.plain _) (.plain _))
      (Duet.start (qsmpKexDuplexClientKeyExchange .plain (.plain _) .zero (.plain _) sender.1
          sender.2)
        (qsmpKexDuplexServerKeyExchange .plain (.plain _) .zero (.plain _) listener.1
          listener.2)) :=
  duplex_session .plain rfl (Asymmetric.plain_kemCorrect (by decide))
    (Asymmetric.Keygen.plain_correct (by decide) (by decide)) rfl Startup.may_twice
    Clock.may_keeps rfl Startup.may_twice _ _ _ _ (KeyDialogue.second_mem .listener)
    (KeyDialogue.second_mem .listener) (KeyDialogue.second_mem .sender)
    (KeyDialogue.second_mem .sender) .zero .zero .zero .zero .zero 4000 4000 (by decide)
    (by decide) _ _ (by decide) (by decide) _ _ _ _

end Qsmp
