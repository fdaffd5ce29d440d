import Qsmp.Channel.Integrity
import Qsmp.Channel.Transcript
/-!
# The histories of the channel and its MAC states

The channel keeps, beside the two connections, what each end has absorbed.
The code keeps no such list: it keeps a MAC state at each end. Over every
run the two say the same. The MAC state of an end is what its list makes of
the state it started from, by one function for both ends, and that of the
receiver is where the blocks of the packets it was given lead.
-/

namespace Qsmp

/-- What of a cipher its MAC goes by. -/
def RcsState.mac (ctx : RcsState) : RcsCipherType × QscKeccakState × UInt64 :=
  (ctx.ctype, ctx.kstate, ctx.counter)

/-- **What an entry does to a cipher**: the header is set as associated
data, and the cipher-text is authenticated behind the nonce. -/
def Absorbed.into (K : Primitives) (ctx : RcsState) (e : Absorbed) : RcsState :=
  let bound := qscRcsSetAssociated K { ctx with nonce := e.nonce } e.header
  { bound with
    counter := bound.counter + UInt64.ofNat e.cpt.length
    kstate := (rcsAuthenticate K bound e.cpt).1 }

/-- What tells two entries apart, as it tells two packets. -/
def Absorbed.view (e : Absorbed) : Bytes × Bytes := (e.header, e.cpt)

variable {P : Params} {K : Primitives} {ctx ctx' : RcsState} {e : Absorbed}
variable {A B : QsmpConnectionState} {m : Bytes} {packet : QsmpPacket} {message : Mem}

/-! ## One entry -/

/-- Associated data reaches the MAC alone. -/
theorem qscRcsSetAssociated_mac {data : Bytes} (h : ctx.mac = ctx'.mac) :
    (qscRcsSetAssociated K ctx data).mac = (qscRcsSetAssociated K ctx' data).mac := by
  simp only [RcsState.mac, Prod.mk.injEq] at h
  obtain ⟨htype, hstate, hcounter⟩ := h
  simp only [RcsState.mac, qscRcsSetAssociated_ctype, qscRcsSetAssociated_counter,
    Prod.mk.injEq, htype, hcounter, true_and, and_true]
  rw [qscRcsSetAssociated, qscRcsSetAssociated]
  split
  · simp only [rcsMacUpdate, htype, hstate]
  · exact hstate

/-- So does an entry: no more of the cipher decides what it does. -/
theorem Absorbed.into_mac (h : ctx.mac = ctx'.mac) :
    (e.into K ctx).mac = (e.into K ctx').mac := by
  have hbound : (qscRcsSetAssociated K { ctx with nonce := e.nonce } e.header).mac =
      (qscRcsSetAssociated K { ctx' with nonce := e.nonce } e.header).mac :=
    qscRcsSetAssociated_mac h
  simp only [RcsState.mac, Prod.mk.injEq] at hbound
  obtain ⟨htype, hstate, hcounter⟩ := hbound
  simp only [into, RcsState.mac, rcsAuthenticate, htype, hstate, hcounter,
    qscRcsSetAssociated_nonce]

/-- What a list of entries makes of a cipher, likewise. -/
theorem foldl_into_mac : ∀ (entries : List Absorbed) {ctx ctx' : RcsState}, ctx.mac = ctx'.mac →
    (entries.foldl (Absorbed.into K) ctx).mac = (entries.foldl (Absorbed.into K) ctx').mac := by
  intro entries
  induction entries with
  | nil => exact fun h => h
  | cons e rest ih => exact fun h => ih (Absorbed.into_mac h)

/-- One entry more. -/
theorem foldl_into_append {entries : List Absorbed}
    (h : ctx.mac = (entries.foldl (Absorbed.into K) ctx').mac) :
    (e.into K ctx).mac = ((entries ++ [e]).foldl (Absorbed.into K) ctx').mac := by
  rw [List.foldl_append]
  exact Absorbed.into_mac h

/-- **Encryption absorbs its entry.** -/
theorem encryptBody_into (h : A.txcpr.encrypt = true) (header : QsmpPacket) :
    (encryptBody K A header m).1.mac =
      (Absorbed.into K A.txcpr ⟨qsmpPacketHeaderSerialize header, A.txcpr.nonce,
        (encryptBody K A header m).2.1.read 0 m.length⟩).mac := by
  obtain ⟨tx, htx⟩ :
      ∃ tx, qscRcsSetAssociated K A.txcpr (qsmpPacketHeaderSerialize header) = tx := ⟨_, rfl⟩
  have hread : (encryptBody K A header m).2.1.read 0 m.length = (rcsCtrTransform K tx m).2 := by
    have hlen : (rcsCtrTransform K tx m).2.length = m.length := length_rcsCtrTransform
    rw [encryptBody_seals h, htx, RcsState.sealed, Mem.write_append, Nat.zero_add,
      Mem.read_write_below (by omega)]
    exact Mem.read_write_of_length hlen
  rw [hread, encryptBody_seals h, htx, Absorbed.into]
  simp only [htx]
  rfl

/-- **So does decryption**, whatever the verdict. -/
theorem decryptBody_into (h : B.rxcpr.encrypt = false) :
    (decryptBody K B message packet).1.mac =
      (Absorbed.into K B.rxcpr ⟨qsmpPacketHeaderSerialize packet, B.rxcpr.nonce,
        packet.pmessage.read 0 (packet.msglen - B.maclen).toNat⟩).mac := by
  obtain ⟨rx, hrx⟩ :
      ∃ rx, qscRcsSetAssociated K B.rxcpr (qsmpPacketHeaderSerialize packet) = rx := ⟨_, rfl⟩
  have hdec : rx.encrypt = false := by rw [← hrx, qscRcsSetAssociated_encrypt, h]
  rw [decryptBody, hrx, qscRcsTransform_decrypt hdec rfl, Absorbed.into]
  simp only [hrx]
  split
  · rfl
  · rfl

/-- The cipher keeps its type. -/
theorem decryptBody_ctype (B : QsmpConnectionState) (packet : QsmpPacket) (message : Mem) :
    (decryptBody K B message packet).1.ctype = B.rxcpr.ctype :=
  qscRcsTransform_frame.1.trans qscRcsSetAssociated_ctype

/-- **The packets that reach the cipher** are those in sequence on an
established connection; no other moves it. -/
theorem qsmpDecryptPacket_rxcpr (packet : QsmpPacket) (message : Mem) :
    (qsmpDecryptPacket K B message packet).2.1.txcpr = B.txcpr ∧
      (qsmpDecryptPacket K B message packet).2.1.rxcpr =
        if packet.sequence = B.rxseq + 1 ∧ B.exflag = .sessionEstablished then
          (decryptBody K B message packet).1
        else B.rxcpr := by
  by_cases hseq : packet.sequence = B.rxseq + 1
  · by_cases hest : B.exflag = .sessionEstablished
    · rw [if_pos ⟨hseq, hest⟩, qsmpDecryptPacket_eq hest hseq]
      split
      · exact ⟨rfl, rfl⟩
      · exact ⟨rfl, rfl⟩
    · rw [if_neg fun h => hest h.2]
      simp only [qsmpDecryptPacket, hseq, if_true, if_neg hest, and_self]
  · rw [if_neg fun h => hseq h.1]
    simp only [qsmpDecryptPacket, if_neg hseq, and_self]

namespace Channel

variable {s t : Channel} {history : List Received}

/-! ## Every run -/

/-- **The invariant.** The lists are what the MAC states have absorbed, and
`history` is what the receiver was given. -/
structure Heard (K : Primitives) (A B : QsmpConnectionState) (s : Channel)
    (history : List Received) : Prop where
  encrypts : s.A.txcpr.encrypt = true
  decrypts : s.B.rxcpr.encrypt = false
  tagType : s.B.txcpr.ctype = s.B.rxcpr.ctype
  tagged : s.A.txcpr.mac = (s.tagged.foldl (Absorbed.into K) A.txcpr).mac
  absorbed : s.B.rxcpr.mac = (s.absorbed.foldl (Absorbed.into K) B.rxcpr).mac
  received : s.B.rxcpr = history.foldl (rcsReceive K) B.rxcpr
  view : s.absorbed.map Absorbed.view = history.map (Received.view B.rxcpr.ctype)
  ctype : s.B.rxcpr.ctype = B.rxcpr.ctype

theorem Heard.start (h : Mirrored A B) : Heard K A B (start A B) [] where
  encrypts := h.ciphers.encrypts
  decrypts := h.ciphers.decrypts
  tagType := h.tagType
  tagged := rfl
  absorbed := rfl
  received := rfl
  view := rfl
  ctype := rfl

theorem Heard.send (h : Heard K A B s history) (m : Bytes) (packetout : QsmpPacket) :
    Heard K A B (s.send P K m packetout) history := by
  by_cases hgo : s.A.exflag = .sessionEstablished ∧ m ≠ []
  · obtain ⟨hest, hm⟩ := hgo
    obtain ⟨header, hheader⟩ : ∃ p, encryptHeader P s.A packetout m = p := ⟨_, rfl⟩
    have hentry := foldl_into_append (e := ⟨qsmpPacketHeaderSerialize header, s.A.txcpr.nonce,
      (encryptBody K s.A header m).2.1.read 0 m.length⟩) h.tagged
    simp only [Channel.send, qsmpEncryptPacket_eq hest hm, hheader, if_true]
    exact { h with
      encrypts := (encryptBody_frame header).2.2.trans h.encrypts
      tagged := (encryptBody_into h.encrypts header).trans hentry }
  · -- Nothing is sent on a connection that is down, or of an empty message.
    have hlen : ¬ (s.A.exflag = .sessionEstablished ∧ m.length ≠ 0) := fun hc =>
      hgo ⟨hc.1, fun hm => hc.2 (by rw [hm]; rfl)⟩
    have henc : qsmpEncryptPacket P K s.A packetout m = (.channelDown, s.A, packetout) := by
      rw [qsmpEncryptPacket, if_neg hlen]
    simp only [Channel.send, henc, reduceCtorEq, if_false]
    exact { h with }

/-- What a delivery makes of the channel, whatever the verdict. -/
theorem deliver_frame (packet : QsmpPacket) (message : Mem) :
    (s.deliver K packet message).A = s.A ∧ (s.deliver K packet message).tagged = s.tagged ∧
      (s.deliver K packet message).B = (qsmpDecryptPacket K s.B message packet).2.1 ∧
      (s.deliver K packet message).absorbed =
        if packet.sequence = s.B.rxseq + 1 ∧ s.B.exflag = .sessionEstablished then
          s.absorbed ++ [s.entry packet]
        else s.absorbed := by
  rw [Channel.deliver]
  split
  · exact ⟨rfl, rfl, rfl, rfl⟩
  · exact ⟨rfl, rfl, rfl, rfl⟩

/-- A packet that does not reach the cipher leaves the histories. -/
theorem Heard.deliver_of_not (h : Heard K A B s history)
    (hnot : ¬ (packet.sequence = s.B.rxseq + 1 ∧ s.B.exflag = .sessionEstablished)) :
    Heard K A B (s.deliver K packet message) history := by
  obtain ⟨hA, htagged, hB, habsorbed⟩ := deliver_frame (K := K) (s := s) packet message
  obtain ⟨htx, hrx⟩ := qsmpDecryptPacket_rxcpr (K := K) (B := s.B) packet message
  rw [if_neg hnot] at habsorbed hrx
  rw [← hB] at htx hrx
  constructor
  · rw [hA]
    exact h.encrypts
  · rw [hrx]
    exact h.decrypts
  · rw [htx, hrx]
    exact h.tagType
  · rw [hA, htagged]
    exact h.tagged
  · rw [hrx, habsorbed]
    exact h.absorbed
  · rw [hrx]
    exact h.received
  · rw [habsorbed]
    exact h.view
  · rw [hrx]
    exact h.ctype

/-- One that does is an entry more, and a packet more. -/
theorem Heard.deliver (h : Heard K A B s history)
    (hgo : packet.sequence = s.B.rxseq + 1 ∧ s.B.exflag = .sessionEstablished) :
    Heard K A B (s.deliver K packet message) (history ++ [⟨packet, message⟩]) := by
  obtain ⟨hA, htagged, hB, habsorbed⟩ := deliver_frame (K := K) (s := s) packet message
  obtain ⟨htx, hrx⟩ := qsmpDecryptPacket_rxcpr (K := K) (B := s.B) packet message
  have hreceive := rcsReceive_eq_rxcpr (K := K) (r := ⟨packet, message⟩) hgo.2 h.tagType hgo.1
  rw [if_pos hgo] at habsorbed hrx
  rw [← hB] at htx hrx hreceive
  have htype : (s.deliver K packet message).B.rxcpr.ctype = s.B.rxcpr.ctype := by
    rw [hrx]
    exact decryptBody_ctype s.B packet message
  have hmac : s.B.maclen = UInt32.ofNat B.rxcpr.ctype.macSize := by
    rw [QsmpConnectionState.maclen, h.tagType, h.ctype]
    cases B.rxcpr.ctype <;> rfl
  constructor
  · rw [hA]
    exact h.encrypts
  · rw [hrx]
    exact decryptBody_frame.2.trans h.decrypts
  · rw [htx, htype]
    exact h.tagType
  · rw [hA, htagged]
    exact h.tagged
  · rw [hrx, habsorbed, decryptBody_into h.decrypts]
    exact foldl_into_append h.absorbed
  · rw [hreceive, h.received, List.foldl_append]
    rfl
  · rw [habsorbed, List.map_append, List.map_append, h.view, List.map_singleton,
      List.map_singleton, Absorbed.view, Channel.entry, Received.view, Received.length, hmac]
  · rw [htype]
    exact h.ctype

theorem Heard.step (h : Heard K A B s history) (hstep : Step P K s t) :
    ∃ history, Heard K A B t history := by
  cases hstep with
  | send m packetout => exact ⟨history, h.send m packetout⟩
  | deliver packet message running mac =>
    by_cases hgo : packet.sequence = s.B.rxseq + 1 ∧ s.B.exflag = .sessionEstablished
    · exact ⟨_, h.deliver hgo⟩
    · exact ⟨history, h.deliver_of_not hgo⟩

theorem Heard.run (h : Mirrored A B) (hrun : Relation.ReflTransGen (Step P K) (.start A B) s) :
    ∃ history, Heard K A B s history := by
  induction hrun with
  | refl => exact ⟨[], .start h⟩
  | tail _ hstep ih =>
    obtain ⟨_, hheard⟩ := ih
    exact hheard.step hstep

/-- **The lists are what the MACs have absorbed.** In every state a run
reaches, the MAC state of either end is what its list makes of the state
both ends started from. -/
theorem mac_eq_foldl (h : Mirrored A B)
    (hrun : Relation.ReflTransGen (Step P K) (start A B) s) :
    s.A.txcpr.mac = (s.tagged.foldl (Absorbed.into K) A.txcpr).mac ∧
      s.B.rxcpr.mac = (s.absorbed.foldl (Absorbed.into K) A.txcpr).mac := by
  obtain ⟨history, hheard⟩ := Heard.run h hrun
  have hmirror : B.rxcpr.mac = A.txcpr.mac := by
    rw [h.ciphers.eq_rx]
    rfl
  exact ⟨hheard.tagged, hheard.absorbed.trans (foldl_into_mac _ hmirror)⟩

/-- **An entry the idealised MAC vouches for** is one over which the MAC
states of the two ends agree: the receiver's, once it has absorbed the
packet, is the sender's when it had made as many tags. -/
theorem mac_of_prefix (h : Mirrored A B)
    (hrun : Relation.ReflTransGen (Step P K) (start A B) s)
    (hpre : s.absorbed ++ [s.entry packet] <+: s.tagged) :
    ((s.entry packet).into K s.B.rxcpr).mac =
      ((s.tagged.take (s.absorbed.length + 1)).foldl (Absorbed.into K) A.txcpr).mac := by
  obtain ⟨rest, hrest⟩ := hpre
  have htake : s.tagged.take (s.absorbed.length + 1) = s.absorbed ++ [s.entry packet] := by
    rw [← hrest]
    exact List.take_left' List.length_append
  rw [htake]
  exact foldl_into_append (mac_eq_foldl h hrun).2

/-- **The receiver's cipher is what its packets make of it**, and the MAC
state is where their blocks lead; the list is what tells them apart. -/
theorem absorbed_transcript (h : Mirrored A B) {keyparams : RcsKeyparams}
    (hkey : B.rxcpr = qscRcsInitialize K keyparams false)
    (hrun : Relation.ReflTransGen (Step P K) (start A B) s) :
    ∃ history : List Received,
      s.absorbed.map Absorbed.view = history.map (Received.view B.rxcpr.ctype) ∧
        s.B.rxcpr = history.foldl (rcsReceive K) B.rxcpr ∧
        s.B.rxcpr.kstate = ⟨keccakAbsorbed K.permute B.rxcpr.kstate.state
          (rcsHistoryTrace K B.rxcpr history), []⟩ := by
  obtain ⟨history, hheard⟩ := Heard.run h hrun
  have hidle : Idle B.rxcpr.ctype B.rxcpr := by
    rw [hkey]
    exact .init
  refine ⟨history, hheard.view, hheard.received, ?_⟩
  rw [hheard.received, (rcsHistory_trace hidle).1]

end Channel

end Qsmp
