import Qsmp.Channel.Correctness
import Qsmp.Server.Connections
/-!
# Broadcast

`qsmp_server_broadcast` goes through the slots with one packet variable and
one stream buffer. The variable is initialised with zeros, its pointer to
the message included, and nothing ever points it to a buffer.
-/

namespace Qsmp

variable {P : Params} {K : Primitives}

/-! ## The function -/

/-- A packet variable. Where `isNull`, its `pmessage` is a null pointer. -/
structure PacketVariable where
  packet : QsmpPacket
  isNull : Bool

/-- `qsmp_packet pkt = { 0 }` -/
def PacketVariable.zero : PacketVariable := ⟨.init, true⟩

/-- `qsmp_encrypt_packet` on a packet variable, or nothing if it writes
through a null pointer: the message is cleared before it is encrypted. -/
def encryptInto (P : Params) (K : Primitives) (cns : QsmpConnectionState) (pkt : PacketVariable)
    (message : Bytes) : Option (QsmpConnectionState × PacketVariable) :=
  if pkt.isNull ∧ cns.exflag = .sessionEstablished ∧ message.length ≠ 0 then none
  else
    let r := qsmpEncryptPacket P K cns pkt.packet message
    some (r.2.1, { pkt with packet := r.2.2 })

/-- `qsmp_packet_to_stream` of a packet variable, or nothing if it reads
through a null pointer. -/
def streamFrom (P : Params) (pkt : PacketVariable) (pstream : Mem) : Option (Mem × ℕ) :=
  if pkt.isNull ∧ pkt.packet.msglen ≠ 0 ∧ pkt.packet.msglen.toNat ≤ P.messageMax then none
  else some (qsmpPacketToStream P pkt.packet pstream)

/-- A broadcast under way: the table, the two variables, and what has been
sent, each with the slot it was sent to. -/
structure Broadcast where
  set : QsmpConnectionSet
  pkt : PacketVariable
  msgstr : Mem
  sent : List (ℕ × Bytes)

/-- The turn of slot `i`, where `connected` is what `qsc_socket_is_connected`
answers. The result of the encryption is not looked at. -/
def broadcastSlot (P : Params) (K : Primitives) (connected : ℕ → Bool) (message : Bytes)
    (b : Broadcast) (i : ℕ) : Option Broadcast :=
  match qsmpConnectionsIndex b.set i with
  | none => some b
  | some cns =>
    if qsmpConnectionsActive b.set i = true ∧ connected i = true then
      (encryptInto P K cns b.pkt message).bind fun r =>
        (streamFrom P r.2 b.msgstr).map fun stream =>
          { set := b.set.modify i fun _ => r.1
            pkt := r.2
            msgstr := stream.1
            sent := b.sent ++ [(i, stream.1.read 0 (stream.2 + socketTerminatorSize))] }
    else some b

/-- `qsmp_server_broadcast`, or nothing if it does not return. -/
def qsmpServerBroadcast (P : Params) (K : Primitives) (connected : ℕ → Bool)
    (set : QsmpConnectionSet) (message : Bytes) : Option Broadcast :=
  (List.range set.length).foldlM (broadcastSlot P K connected message) ⟨set, .zero, .zero, []⟩

/-! ## What a broadcast is for -/

/-- What has been sent to slot `i`. -/
def Broadcast.sentTo (b : Broadcast) (i : ℕ) : List Bytes :=
  (b.sent.filter fun e => e.1 = i).map Prod.snd

/-- A slot that a broadcast is meant for: active, connected and
established. -/
def Due (connected : ℕ → Bool) (set : QsmpConnectionSet) (i : ℕ) : Prop :=
  qsmpConnectionsActive set i = true ∧ connected i = true ∧
    ∃ cns, qsmpConnectionsIndex set i = some cns ∧ cns.exflag = .sessionEstablished

/-- A peer parses and decrypts what is on the wire to the message. -/
def Understands (P : Params) (K : Primitives) (peer : QsmpConnectionState) (wire message : Bytes) :
    Prop :=
  ∀ (packetin : QsmpPacket) (buffer : Mem),
    let dec := qsmpDecryptPacket K peer buffer
      (qsmpStreamToPacket P (Mem.zero.write 0 wire) packetin)
    dec.1 = .none ∧ dec.2.2.1.read 0 dec.2.2.2 = message

/-- **A broadcast delivers**: each slot it is meant for is sent one packet,
which the peer understands, and moves its transmit state on by that packet
and nothing else; every other slot is sent nothing and keeps its record. -/
structure Delivers (P : Params) (K : Primitives) (connected : ℕ → Bool)
    (peers : ℕ → QsmpConnectionState) (set : QsmpConnectionSet) (message : Bytes)
    (b : Broadcast) : Prop where
  due : ∀ i cns, Due connected set i → qsmpConnectionsIndex set i = some cns →
    (∃ wire, b.sentTo i = [wire] ∧ Understands P K (peers i) wire message) ∧
      ∃ txcpr, qsmpConnectionsIndex b.set i =
        some { cns with txseq := cns.txseq + 1, txcpr := txcpr }
  others : ∀ i, ¬ Due connected set i →
    b.sentTo i = [] ∧ qsmpConnectionsIndex b.set i = qsmpConnectionsIndex set i
  active : b.set.active = set.active

/-- The broadcast returns, and has delivered. -/
def Broadcasts (P : Params) (K : Primitives) (connected : ℕ → Bool)
    (peers : ℕ → QsmpConnectionState) (set : QsmpConnectionSet) (message : Bytes) : Prop :=
  ∃ b, qsmpServerBroadcast P K connected set message = some b ∧
    Delivers P K connected peers set message b

/-- The law: a message that fits a packet reaches every peer whose slot
mirrors it. -/
def BroadcastDelivery (P : Params) (K : Primitives) : Prop :=
  ∀ (connected : ℕ → Bool) (peers : ℕ → QsmpConnectionState) (set : QsmpConnectionSet)
    (message : Bytes), message ≠ [] →
    (∀ i cns, Due connected set i → qsmpConnectionsIndex set i = some cns →
      Mirrored cns (peers i) ∧ message.length + cns.txcpr.ctype.macSize ≤ P.messageMax) →
    Broadcasts P K connected peers set message

/-! ## The turn of a slot -/

variable {connected : ℕ → Bool} {message : Bytes} {b b' : Broadcast} {i : ℕ} {l : List ℕ}
variable {peers : ℕ → QsmpConnectionState} {set : QsmpConnectionSet}

/-- A slot that is not active, or not connected, is passed over. -/
theorem broadcastSlot_passes
    (h : ¬ (qsmpConnectionsActive b.set i = true ∧ connected i = true)) :
    broadcastSlot P K connected message b i = some b := by
  simp only [broadcastSlot]
  split
  · rfl
  · rw [if_neg h]

/-- **Through a null pointer nothing is encrypted**: what does not fault
leaves the connection and the variable as they were. -/
theorem encryptInto_zero {cns : QsmpConnectionState}
    {r : QsmpConnectionState × PacketVariable} (h : encryptInto P K cns .zero message = some r) :
    r = (cns, .zero) := by
  rw [encryptInto] at h
  split at h
  · exact nomatch h
  · rename_i hnot
    obtain rfl := Option.some.inj h
    rw [qsmpEncryptPacket, if_neg fun hsend => hnot ⟨rfl, hsend⟩]

/-- A record that is written with itself. -/
theorem modify_self {cns : QsmpConnectionState} (h : qsmpConnectionsIndex set i = some cns) :
    set.modify i (fun _ => cns) = set := by
  refine QsmpConnectionSet.ext (List.ext_getElem? fun j => ?_) rfl rfl
  rw [QsmpConnectionSet.modify, List.getElem?_modify]
  by_cases hij : i = j
  · subst hij
    rw [qsmpConnectionsIndex] at h
    simp [h]
  · simp [hij]

/-- A turn with the variable of the start changes no record, and is a packet
sent to a slot that is active and connected. -/
theorem broadcastSlot_zero (hpkt : b.pkt = .zero)
    (h : broadcastSlot P K connected message b i = some b') :
    b'.set = b.set ∧ b'.pkt = .zero ∧ ∃ more, b'.sent = b.sent ++ more ∧
      (qsmpConnectionsActive b.set i = true → connected i = true → ∃ wire, (i, wire) ∈ more) := by
  by_cases hturn : qsmpConnectionsActive b.set i = true ∧ connected i = true
  · obtain ⟨cns, hcns⟩ : ∃ cns, qsmpConnectionsIndex b.set i = some cns :=
      ⟨_, List.getElem?_eq_getElem (QsmpConnectionSet.lt_of_active hturn.1)⟩
    simp only [broadcastSlot, hcns, if_pos hturn, hpkt] at h
    obtain ⟨r, hr, h⟩ := Option.bind_eq_some_iff.1 h
    obtain ⟨stream, hstream, rfl⟩ := Option.map_eq_some_iff.1 h
    obtain rfl := encryptInto_zero hr
    refine ⟨modify_self hcns, rfl, _, rfl, fun _ _ => ⟨_, List.mem_singleton_self _⟩⟩
  · rw [broadcastSlot_passes hturn] at h
    obtain rfl := Option.some.inj h
    exact ⟨rfl, hpkt, [], (List.append_nil _).symm, fun ha hc => absurd ⟨ha, hc⟩ hturn⟩

/-! ## The whole broadcast -/

/-- **So does the loop**: no record changes, and every slot that is active
and connected has been sent something. -/
theorem broadcastSlots_zero (hpkt : b.pkt = .zero)
    (h : l.foldlM (broadcastSlot P K connected message) b = some b') :
    b'.set = b.set ∧ ∃ more, b'.sent = b.sent ++ more ∧ ∀ i ∈ l,
      qsmpConnectionsActive b.set i = true → connected i = true → ∃ wire, (i, wire) ∈ more := by
  induction l generalizing b with
  | nil =>
    obtain rfl := Option.some.inj h
    exact ⟨rfl, [], (List.append_nil _).symm, fun i hi => absurd hi List.not_mem_nil⟩
  | cons j l ih =>
    rw [List.foldlM_cons] at h
    obtain ⟨b₁, hfirst, hrest⟩ := Option.bind_eq_some_iff.1 h
    obtain ⟨hset₁, hpkt₁, more₁, hsent₁, hwire₁⟩ := broadcastSlot_zero hpkt hfirst
    obtain ⟨hset, more, hsent, hwire⟩ := ih hpkt₁ hrest
    refine ⟨hset.trans hset₁, more₁ ++ more, ?_, fun i hi ha hc => ?_⟩
    · rw [hsent, hsent₁, List.append_assoc]
    · rcases List.mem_cons.1 hi with rfl | hi
      · obtain ⟨wire, hmem⟩ := hwire₁ ha hc
        exact ⟨wire, List.mem_append_left _ hmem⟩
      · obtain ⟨wire, hmem⟩ := hwire i hi (hset₁ ▸ ha) hc
        exact ⟨wire, List.mem_append_right _ hmem⟩

/-- Where no slot is active and connected, all are passed over. -/
theorem broadcastSlots_passes
    (h : ∀ i, qsmpConnectionsActive b.set i = true → connected i = false) :
    l.foldlM (broadcastSlot P K connected message) b = some b := by
  induction l with
  | nil => rfl
  | cons j l ih =>
    rw [List.foldlM_cons, broadcastSlot_passes fun ⟨ha, hc⟩ =>
      Bool.false_ne_true ((h j ha).symm.trans hc)]
    exact ih

theorem mem_sentTo {wire : Bytes} (h : (i, wire) ∈ b.sent) : wire ∈ b.sentTo i :=
  List.mem_map.2 ⟨_, List.mem_filter.2 ⟨h, decide_eq_true rfl⟩, rfl⟩

/-- A slot that is active and connected spoils the broadcast: if it is
established its transmit state has not moved, and if not it was sent to. -/
theorem not_broadcasts (ha : qsmpConnectionsActive set i = true) (hc : connected i = true) :
    ¬ Broadcasts P K connected peers set message := by
  rintro ⟨b, hb, hdelivers⟩
  obtain ⟨hset, more, hsent, hwire⟩ := broadcastSlots_zero rfl hb
  obtain ⟨wire, hmem⟩ := hwire i (List.mem_range.2 (QsmpConnectionSet.lt_of_active ha)) ha hc
  by_cases hdue : Due connected set i
  · obtain ⟨-, -, cns, hcns, -⟩ := id hdue
    obtain ⟨-, txcpr, hmoved⟩ := hdelivers.due i cns hdue hcns
    rw [hset, hcns] at hmoved
    have hseq := congrArg QsmpConnectionState.txseq (Option.some.inj hmoved)
    exact absurd hseq (by simp)
  · have hnone := (hdelivers.others i hdue).1
    rw [List.nil_append] at hsent
    exact List.not_mem_nil (hnone ▸ mem_sentTo (hsent ▸ hmem))

/-- **When a broadcast delivers**: just if there is nobody to deliver to. -/
theorem broadcasts_iff (P : Params) (K : Primitives) (connected : ℕ → Bool)
    (peers : ℕ → QsmpConnectionState) (set : QsmpConnectionSet) (message : Bytes) :
    Broadcasts P K connected peers set message ↔
      ∀ i, qsmpConnectionsActive set i = true → connected i = false := by
  constructor
  · intro hb i ha
    rw [← Bool.not_eq_true]
    exact fun hc => not_broadcasts ha hc hb
  · intro h
    refine ⟨_, broadcastSlots_passes h, ?_, fun i _ => ⟨rfl, rfl⟩, rfl⟩
    rintro i cns ⟨ha, hc, -⟩ -
    exact absurd ((h i ha).symm.trans hc) Bool.false_ne_true

/-- A table of one slot, whose connection is established. -/
def QsmpConnectionSet.one : QsmpConnectionSet where
  conset := [.ofKeys .plain ⟨List.replicate 64 1, Octets.zero _, []⟩
    ⟨List.replicate 64 2, Octets.zero _, []⟩ 3]
  active := [true]
  maximum := 1
  length_active := by decide

/-- One byte for the peer of the only slot. -/
theorem not_broadcastDelivery_one : ¬ BroadcastDelivery .dilithiumKyber .plain := by
  intro hlaw
  obtain ⟨peer, hpeer⟩ : ∃ peer, ∀ i cns,
      qsmpConnectionsIndex QsmpConnectionSet.one i = some cns → Mirrored cns peer ∧
        [(7 : UInt8)].length + cns.txcpr.ctype.macSize ≤ Params.messageMax .dilithiumKyber := by
    refine ⟨.ofKeys .plain ⟨List.replicate 64 2, Octets.zero _, []⟩
      ⟨List.replicate 64 1, Octets.zero _, []⟩ 3, fun i cns hcns => ?_⟩
    obtain ⟨hi, rfl⟩ := List.getElem?_eq_some_iff.1 hcns
    obtain rfl : i = 0 := Nat.lt_one_iff.1 hi
    refine ⟨⟨rfl, rfl, .of_keyparams, rfl, rfl⟩, ?_⟩
    have hfits : 1 + 64 ≤ Params.messageMax .dilithiumKyber := by decide
    exact hfits
  have hactive : qsmpConnectionsActive QsmpConnectionSet.one 0 = true := by decide
  exact not_broadcasts hactive rfl (hlaw (fun _ => true) (fun _ => peer) .one [7] nofun
    fun i cns _ hcns => hpeer i cns hcns)

end Qsmp
