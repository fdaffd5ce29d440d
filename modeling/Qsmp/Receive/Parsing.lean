import Qsmp.Kex.Buffers
import Qsmp.Receive.Server
/-!
# Where received bytes are parsed

Ten stages of the drivers and the receive loop of the server hand what a
receive has put into a buffer to `qsmp_stream_to_packet`. The drivers ask
for the whole of a packet whose size they know, the loop takes what comes;
the function is told neither, and follows the length in the header. It
stays inside what was received exactly when header and message were.
-/

namespace Qsmp

open Dialogue Access

/-- The places where received bytes are parsed. -/
inductive ParseSite where
  | duplexClientConnect | duplexClientExchange | duplexClientEstablish
  | duplexServerConnect | duplexServerExchange | duplexServerEstablish
  | simplexClientConnect | simplexClientExchange
  | simplexServerConnect | simplexServerExchange
  | serverReceiveLoop
deriving DecidableEq, Repr

namespace ParseSite

/-- The bytes asked for. -/
def requested (P : Params) : ParseSite → ℕ
  | duplexClientConnect => duplexClientConlen P
  | duplexClientExchange => duplexClientExclen P
  | duplexServerConnect | simplexServerConnect => serverConlen
  | duplexServerExchange => duplexServerExclen P
  | duplexClientEstablish | duplexServerEstablish | simplexClientExchange => estlen
  | simplexClientConnect => simplexClientConlen P
  | simplexServerExchange => simplexServerExclen P
  | serverReceiveLoop => connectionMtu

/-- The bytes are parsed only when all of them have come. The last stage of
each client parses first, the loop of the server does not count. -/
def whole : ParseSite → Bool
  | duplexClientEstablish | simplexClientExchange | serverReceiveLoop => false
  | _ => true

/-- The size of the message buffer of the packet parsed. -/
def messageSize (P : Params) : ParseSite → ℕ
  | duplexClientConnect | duplexClientExchange | duplexClientEstablish
  | serverReceiveLoop => P.messageMax
  | _ => P.messageMax + 1

/-- A receive here can yield these bytes, and they are then parsed. -/
def Obtains (P : Params) (site : ParseSite) (bs : Bytes) : Prop :=
  bs.length ≤ site.requested P ∧ (site.whole = true → bs.length = site.requested P) ∧
    (site = serverReceiveLoop → bs ≠ [])

instance (P : Params) (site : ParseSite) (bs : Bytes) : Decidable (site.Obtains P bs) :=
  inferInstanceAs (Decidable (_ ∧ _))

/-- Every message buffer takes the longest message. -/
theorem messageMax_le {P : Params} {site : ParseSite} : P.messageMax ≤ site.messageSize P := by
  cases site <;> simp [messageSize]

end ParseSite

variable {P : Params} {site : ParseSite} {bs : Bytes} {buffer : Mem} {packet : QsmpPacket}

/-- **The parser stays inside the bytes received**: it reads only these,
writes only inside the message buffer, and hands no packet on whose header
announces more. -/
structure ParsesInside (P : Params) (site : ParseSite) (bs : Bytes) (buffer : Mem)
    (packet : QsmpPacket) : Prop where
  reads : AllInside (qsmpStreamToPacketReads P bs.length (buffer.write 0 bs))
  writes : AllInside (qsmpStreamToPacketWrites P (site.messageSize P) (buffer.write 0 bs))
  rejects : headerSize + (qsmpStreamToPacket P (buffer.write 0 bs) packet).msglen.toNat ≤ bs.length

theorem parsesInside_iff : ParsesInside P site bs buffer packet ↔
    headerSize + (announced (buffer.write 0 bs)).toNat ≤ bs.length := by
  constructor
  · intro h
    have hrejects := h.rejects
    rwa [qsmpStreamToPacket_msglen] at hrejects
  · intro h
    refine ⟨?_, allInside_qsmpStreamToPacketWrites ParseSite.messageMax_le, ?_⟩
    · rw [qsmpStreamToPacketReads, allInside_stream_iff, copied]
      split
      · exact h
      · omega
    · rw [qsmpStreamToPacket_msglen]
      exact h

/-- The driver asks for the packets of its stages and no others. -/
def AtStage (P : Params) (n : ℕ) : Prop :=
  ∃ site : ParseSite, site ≠ .serverReceiveLoop ∧ n = site.requested P

/-- What the drivers show in their runs: every packet sent was serialised
inside its buffer, and every receive is that of a stage. -/
def DriversKeepInside (P : Params) : Prop :=
  ∀ (K : Primitives) (A : Asymmetric P) (stack : Mem) (d : Draws A) (cns : QsmpConnectionState)
    (tr : List Event),
    (∃ kcs r, Runs (qsmpKexDuplexClientKeyExchange K A stack d kcs cns) tr r) ∨
      (∃ kss r, Runs (qsmpKexDuplexServerKeyExchange K A stack d kss cns) tr r) ∨
      (∃ kcs r, Runs (qsmpKexSimplexClientKeyExchange K A stack d kcs cns) tr r) ∨
      (∃ kss r, Runs (qsmpKexSimplexServerKeyExchange K A stack d kss cns) tr r) →
    ∀ e ∈ tr, Shows (SerialisedInside P stack) (AtStage P) e

/-- What the loop of the server parses is what a receive has yielded. -/
def LoopParsesReceived (P : Params) : Prop :=
  ∀ (K : Primitives) (s : ServerLoop) (e : ServerEvent) (packet : QsmpPacket),
    (serverReceiveLoop P K s e).handled = some packet →
      ParseSite.serverReceiveLoop.Obtains P (serverReceiveLoop P K s e).taken ∧
        packet = qsmpStreamToPacket P (s.buffer.write 0 (serverReceiveLoop P K s e).taken) s.pkt

theorem driversKeepInside : DriversKeepInside P := by
  intro K A stack d cns tr h
  have hstage (site : ParseSite) (h : site ≠ .serverReceiveLoop) : AtStage P (site.requested P) :=
    ⟨site, h, rfl⟩
  obtain ⟨kcs, r, h⟩ | ⟨kss, r, h⟩ | ⟨kcs, r, h⟩ | ⟨kss, r, h⟩ := h
  · exact qsmpKexDuplexClientKeyExchange_shows (hstage .duplexClientConnect nofun)
      (hstage .duplexClientExchange nofun)
      (hstage .duplexClientEstablish nofun) h
  · exact qsmpKexDuplexServerKeyExchange_shows (hstage .duplexServerConnect nofun)
      (hstage .duplexServerExchange nofun)
      (hstage .duplexServerEstablish nofun) h
  · exact qsmpKexSimplexClientKeyExchange_shows (hstage .simplexClientConnect nofun)
      (hstage .simplexClientExchange nofun) h
  · exact qsmpKexSimplexServerKeyExchange_shows (hstage .simplexServerConnect nofun)
      (hstage .simplexServerExchange nofun) h

theorem loopParsesReceived : LoopParsesReceived P := by
  intro K s e packet h
  by_cases hreceived : e.received = []
  · simp [serverReceiveLoop, hreceived] at h
  · have htaken : (serverReceiveLoop P K s e).taken = e.received := by
      simp [serverReceiveLoop, hreceived]
    have hle : e.received.length ≤ connectionMtu := by
      rw [ServerEvent.received, List.length_take]
      omega
    rw [htaken]
    refine ⟨⟨hle, nofun, fun _ => hreceived⟩, ?_⟩
    simp only [serverReceiveLoop, if_pos hreceived] at h
    exact (Option.some.inj h).symm

/-- **Parsing inside the received bytes**: at every place what is received
is parsed inside, and every packet within the accepted limit is serialised
inside a stream buffer. -/
def ParsingInside (P : Params) : Prop :=
  (∀ (site : ParseSite) (bs : Bytes) (buffer : Mem) (packet : QsmpPacket), site.Obtains P bs →
    ParsesInside P site bs buffer packet) ∧
  (∀ packet : QsmpPacket, packet.msglen.toNat ≤ P.messageMax →
    AllInside (qsmpPacketToStreamWrites P (P.messageMax + 1) packet)) ∧
  DriversKeepInside P ∧ LoopParsesReceived P

/-- A header alone, with a message of 100 bytes announced. -/
def loneHeader : Bytes := [4, 100, 0, 0, 0, 1, 0, 0, 0, 0, 0, 0, 0]

end Qsmp
