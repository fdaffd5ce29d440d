import Qsmp.Common.Receipts
import Qsmp.Kex.Stages
/-!
# What becomes of a peer's error report

A driver that fails tells its peer with a packet of fifteen bytes, whose
sequence number is a constant of its role, and shuts the stream down. The
stages of the peer wait for packets of a fixed size and look at the
sequence number before they look at the flag. A stage that waits for more
than fifteen bytes takes the report for a short receive, one that does not
takes it for a packet out of sequence; the last stage of the duplex server
checks no sequence number, and it alone reads the code.
-/

namespace Qsmp

open Dialogue

variable {S : Type} {P : Params} {K : Primitives} {A : Asymmetric P} {stack : Mem} {d : Draws A}
variable {l : Locals S} {seq : UInt64} {e code : QsmpErrors} {n len : ℕ} {bs : Bytes}

/-- What a receive of `n` bytes yields when the peer has sent nothing but an
error report, and shut the stream down. -/
def IsReport (P : Params) (seq : UInt64) (e : QsmpErrors) (n : ℕ) (bs : Bytes) : Prop :=
  ∃ stack, bs = (errorWire P stack seq e).take n

/-- What a stage that waits for `n` bytes makes of a report it does not
read. -/
def missedAs (n : ℕ) : QsmpErrors := if n ≤ 15 then .packetUnsequenced else .receiveFailure

/-! ## The report on the wire -/

/-- The packet of a report. -/
def reportPacket (seq : UInt64) (e : QsmpErrors) : QsmpPacket :=
  { qsmpPacketErrorMessage .init e with sequence := seq }

theorem toNat_msglen_reportPacket : (reportPacket seq e).msglen.toNat = 1 := rfl

theorem read_reportPacket : (reportPacket seq e).pmessage.read 0 1 = [e.toByte] := rfl

theorem one_le_messageMax : 1 ≤ P.messageMax := by
  simp only [Params.messageMax, headerSize]
  omega

/-- **A report**: the header, the code, and one byte more. -/
theorem errorWire_eq (P : Params) (stack : Mem) (seq : UInt64) (e : QsmpErrors) :
    ∃ b, errorWire P stack seq e =
      qsmpPacketHeaderSerialize (reportPacket seq e) ++ [e.toByte] ++ [b] := by
  obtain ⟨stream, hstream⟩ :
      ∃ m : Mem, (fun i => if i < headerSize + 1 then 0 else stack i) = m := ⟨_, rfl⟩
  have hle : (reportPacket seq e).msglen.toNat ≤ P.messageMax := one_le_messageMax
  have hread : (qsmpPacketToStream P (reportPacket seq e) stream).1.read 0 (headerSize + 1) = _ :=
    read_qsmpPacketToStream hle
  have hsize : (qsmpPacketToStream P (reportPacket seq e) stream).2 = headerSize + 1 := by
    rw [qsmpPacketToStream_of_le hle, toNat_msglen_reportPacket]
  have hwire : errorWire P stack seq e =
      (qsmpPacketToStream P (reportPacket seq e) stream).1.read 0
        ((qsmpPacketToStream P (reportPacket seq e) stream).2 + socketTerminatorSize) := by
    rw [← hstream]
    rfl
  refine ⟨(qsmpPacketToStream P (reportPacket seq e) stream).1 (headerSize + 1), ?_⟩
  rw [hwire, hsize, socketTerminatorSize, Mem.read_add, hread, toNat_msglen_reportPacket,
    read_reportPacket, Nat.zero_add, Mem.read_succ, Mem.read_zero_len]

/-- It is fifteen bytes long. -/
theorem length_errorWire : (errorWire P stack seq e).length = 15 := by
  obtain ⟨b, hwire⟩ := errorWire_eq P stack seq e
  rw [hwire, List.length_append, List.length_append, length_qsmpPacketHeaderSerialize]
  rfl

theorem IsReport.length (h : IsReport P seq e n bs) : bs.length = min n 15 := by
  obtain ⟨stack, rfl⟩ := h
  rw [List.length_take, length_errorWire]

/-- **A report received as far as its code** parses to it. -/
theorem IsReport.parse (h : IsReport P seq e n bs) (hn : estlen ≤ n) (stack : Mem)
    (resp : QsmpPacket) :
    (parse P stack bs resp).sequence = seq ∧
      (parse P stack bs resp).flag = QsmpFlags.errorCondition.toByte ∧
      (parse P stack bs resp).pmessage 0 = e.toByte := by
  have hlen := h.length
  obtain ⟨other, rfl⟩ := h
  obtain ⟨b, hwire⟩ := errorWire_eq P other seq e
  have hfront : (qsmpPacketHeaderSerialize (reportPacket seq e) ++ [e.toByte]).length =
      headerSize + 1 := by
    rw [List.length_append, length_qsmpPacketHeaderSerialize]
    rfl
  have hn' : headerSize + 1 ≤ n := hn
  have hread : ((streamBuffer P stack).write 0 ((errorWire P other seq e).take n)).read 0
      (headerSize + (reportPacket seq e).msglen.toNat) =
        qsmpPacketHeaderSerialize (reportPacket seq e) ++
          (reportPacket seq e).pmessage.read 0 (reportPacket seq e).msglen.toNat := by
    rw [toNat_msglen_reportPacket, read_reportPacket, Mem.read_write_start
      (by rw [hlen, headerSize]; rw [headerSize] at hn'; omega), List.take_take,
      Nat.min_eq_left hn', hwire, List.take_left' hfront]
  have hparse : Qsmp.parse P stack ((errorWire P other seq e).take n) resp =
      { reportPacket seq e with pmessage := resp.pmessage.write 0 [e.toByte] } :=
    qsmpStreamToPacket_of_read one_le_messageMax hread
  rw [hparse]
  exact ⟨rfl, rfl, rfl⟩

/-! ## The stages -/

section Stages

variable {flag : QsmpFlags} {failure : QsmpErrors} {after : QsmpFlags} {step : KexStep S}
variable {accept f g : Locals S → Dialogue (Locals S)} {c : UInt64} {bad : ℕ → Bytes → Prop}

/-- A receive of `n` bytes that yields a report. -/
def ReportIn (P : Params) (seq : UInt64) (e : QsmpErrors) (n m : ℕ) (bs : Bytes) : Prop :=
  m = n ∧ IsReport P seq e n bs

/-- **What a stage makes of a report**: it ends with `code`. Where the report
is still to come it ends with an error, or has received one packet and
counted it. -/
def MeetsReport (bad : ℕ → Bytes → Prop) (code : QsmpErrors) (c : UInt64)
    (f : Locals S → Dialogue (Locals S)) : Prop :=
  ∀ l i, l.qerr = .none → l.cns.rxseq = c →
    OnReceipt bad (f l) i (fun l' => i = 0 ∧ l'.qerr = code) fun j l' =>
      l'.qerr = .none → i = j + 1 ∧ l'.cns.rxseq = c + 1

/-- A part of a stage that receives nothing, and counts nothing received. -/
def Silent (f : Locals S → Dialogue (Locals S)) : Prop :=
  ∀ l bad i Q, OnReceipt bad (f l) i Q fun j l' =>
    l'.qerr = .none → j = i ∧ l'.cns.rxseq = l.cns.rxseq

theorem silent_transmit : Silent (S := S) (transmit P stack) := by
  intro l bad i Q
  simp only [transmit, OnReceipt]
  intro n
  split
  · exact fun _ => ⟨rfl, rfl⟩
  · exact fun hnone => QsmpErrors.noConfusion hnone

theorem silent_answer (hstep : Sets step after) : Silent (answer step) := by
  intro l bad i Q
  rw [answer]
  split
  · exact trivial
  · exact fun hnone => ⟨rfl, hstep.rxseq _ _ _ _ hnone⟩

theorem silent_answerFirst (hstep : Sets step after) : Silent (answerFirst step) :=
  fun _ bad i Q => silent_answer hstep _ bad i Q

theorem silent_verify (hstep : Sets step after) : Silent (verify step) :=
  fun _ _ _ _ hnone => ⟨rfl, hstep.rxseq _ _ _ _ hnone⟩

/-- The branch on the flag adds no receive. -/
theorem silent_dispatch (ha : Silent accept) : Silent (dispatch flag failure accept) := by
  intro l bad i Q
  rw [dispatch]
  split
  · exact ha l bad i Q
  · split
    · exact fun _ => ⟨rfl, rfl⟩
    · exact fun _ => ⟨rfl, rfl⟩

/-- What a stage does with a packet it has counted. -/
theorem onReceipt_counted {resp : QsmpPacket} {i : ℕ} {Q : Locals S → Prop} (hf : Silent f)
    (hc : l.cns.rxseq = c) : OnReceipt bad (f (l.countReceived resp)) i Q fun j l' =>
      l'.qerr = .none → i + 1 = j + 1 ∧ l'.cns.rxseq = c + 1 := by
  refine onReceipt_mono (fun _ h => h) (fun j l' h hnone => ?_) (hf _ bad i Q)
  obtain ⟨rfl, hrx⟩ := h hnone
  exact ⟨rfl, hrx.trans (by rw [← hc]; rfl)⟩

/-- **A stage that checks the sequence number misses the report.** -/
theorem meetsReport_receiveStage (hlen : estlen ≤ len) (hseq : seq ≠ c) (ha : Silent accept) :
    MeetsReport (ReportIn P seq e n) (missedAs n) c
      (receiveStage P stack len flag failure accept) := by
  intro l i hl hc
  rw [receiveStage, onReceipt_bind, receive]
  cases i with
  | zero =>
    rintro bs ⟨rfl, hreport⟩
    have hcount := hreport.length
    obtain ⟨hparsed, -, -⟩ := hreport.parse hlen stack l.resp
    rw [missedAs]
    by_cases hle : len ≤ 15
    · have hwhole : bs.length = len := hcount.trans (Nat.min_eq_left hle)
      simp only [if_pos hwhole, hparsed, hc, if_neg hseq, if_pos hle]
      exact ⟨trivial, rfl⟩
    · have hshort : bs.length ≠ len := by omega
      simp only [if_neg hshort, if_neg hle]
      exact ⟨trivial, rfl⟩
  | succ i =>
    simp only [OnReceipt]
    intro bs
    generalize parse P stack bs l.resp = resp
    split
    · split
      · have hnone : (l.countReceived resp).qerr = .none := hl
        simp only [OnReceipt, ifNone_of_none hnone]
        exact onReceipt_counted (silent_dispatch ha) hc
      · exact fun hnone => QsmpErrors.noConfusion hnone
    · exact fun hnone => QsmpErrors.noConfusion hnone

/-- A send in front of a stage. -/
theorem MeetsReport.sendFirst (hf : MeetsReport bad code c f) :
    MeetsReport bad code c fun l => (transmit P stack l).bind (ifNone f) := by
  intro l i hl hc
  rw [onReceipt_bind]
  simp only [transmit, OnReceipt]
  intro k
  split
  · have hnone : l.countSent.qerr = .none := hl
    simp only [OnReceipt, ifNone_of_none hnone]
    exact hf _ i hnone hc
  · exact fun hnone => QsmpErrors.noConfusion hnone

theorem meetsReport_exchangeStage (hlen : estlen ≤ len) (hseq : seq ≠ c) (ha : Silent accept) :
    MeetsReport (ReportIn P seq e n) (missedAs n) c
      (exchangeStage P stack len flag failure accept) :=
  (meetsReport_receiveStage hlen hseq ha).sendFirst

theorem MeetsReport.clearResponse (hf : MeetsReport bad code c f) :
    MeetsReport bad code c (clearResponse f) :=
  fun _ i hl hc => hf _ i hl hc

/-- A stage that has come to the flag reads the code. -/
theorem dispatch_report (hflag : l.resp.flag = QsmpFlags.errorCondition.toByte)
    (hother : flag ≠ .errorCondition) (hcode : .ofByte (l.resp.pmessage 0) = e) :
    dispatch flag failure accept l = .done (l.fail e) := by
  have hne : l.resp.flag ≠ flag.toByte := by
    rw [hflag]
    exact fun h => hother (QsmpFlags.toByte_injective h).symm
  rw [dispatch, if_neg hne, if_pos hflag, hcode]

/-- **The establish stage of the duplex server reads the report.** -/
theorem meetsReport_duplexServerEstablishStage (hcode : QsmpErrors.ofByte e.toByte = e)
    (hstep : Sets step after) :
    MeetsReport (ReportIn P seq e n) e c (duplexServerEstablishStage (P := P) stack step) := by
  have haccept : Silent fun l => (answer step l).bind fun l =>
      if l.qerr = .none then transmit P stack l else .done (l.fail .establishFailure) := by
    intro l bad i Q
    rw [onReceipt_bind]
    refine onReceipt_mono (fun _ h => h) (fun j l' h => ?_) (silent_answer hstep l bad i _)
    split
    · rename_i hnone
      obtain ⟨rfl, hrx⟩ := h hnone
      refine onReceipt_mono (fun _ h => h) (fun k l'' h' hnone' => ?_) (silent_transmit l' bad j Q)
      obtain ⟨rfl, hrx'⟩ := h' hnone'
      exact ⟨rfl, hrx'.trans hrx⟩
    · exact fun hnone => QsmpErrors.noConfusion hnone
  refine MeetsReport.sendFirst fun l i hl hc => ?_
  cases i with
  | zero =>
    rintro bs ⟨rfl, hreport⟩
    have hlen : bs.length = estlen := hreport.length
    obtain ⟨-, hflag, hmessage⟩ := hreport.parse (Nat.le_refl _) stack l.resp
    obtain ⟨resp, hresp⟩ : ∃ p, parse P stack bs l.resp = p := ⟨_, rfl⟩
    rw [hresp] at hflag hmessage
    simp only [if_pos hlen, hresp]
    rw [dispatch_report hflag (by decide) (hmessage ▸ hcode)]
    exact ⟨trivial, rfl⟩
  | succ i =>
    simp only [OnReceipt]
    intro bs
    generalize parse P stack bs l.resp = resp
    split
    · exact onReceipt_counted (silent_dispatch haccept) hc
    · exact fun hnone => QsmpErrors.noConfusion hnone

/-! ## The rest of a driver -/

/-- **What is left of a driver**, with the code it returns for a report at
each of the receives to come: with an error set it receives nothing more
and returns the error. -/
structure Remains (bad : ℕ → Bytes → Prop) (codes : List QsmpErrors) (c : UInt64)
    (g : Locals S → Dialogue (Returned S)) : Prop where
  failed : ∀ l, l.qerr ≠ .none → Returns (g l) fun r => r.1 = l.qerr
  silent : ∀ l i Q, l.qerr ≠ .none → OnReceipt bad (g l) i Q fun _ _ => True
  reported : ∀ l i, l.qerr = .none → l.cns.rxseq = c →
    OnReceipt bad (g l) i (fun r => codes[i]? = some r.1) fun _ _ => True

variable {codes : List QsmpErrors} {r : Locals S → Dialogue (Returned S)}

theorem remains_finish {sequence : UInt64} {reset : S → S} :
    Remains bad [] c (finish P stack sequence reset) where
  failed := fun l hl => by
    rw [finish, if_neg hl]
    split
    · simp only [Returns]
      intro connected
      split
      · exact fun _ => rfl
      · exact rfl
    · exact rfl
  silent := fun l i Q hl => by
    rw [finish, if_neg hl]
    split
    · simp only [OnReceipt]
      intro connected
      split
      · exact fun _ => trivial
      · exact trivial
    · exact trivial
  reported := fun l i hl _ => by
    rw [finish, if_pos hl]
    exact trivial

/-- A stage in front. -/
theorem Remains.stage (hr : Remains bad codes (c + 1) r) (hf : MeetsReport bad code c f)
    (hcode : code ≠ .none) :
    Remains bad (code :: codes) c fun l => (ifNone f l).bind r where
  failed := fun l hl => by
    rw [ifNone_of_ne hl]
    exact hr.failed l hl
  silent := fun l i Q hl => by
    rw [ifNone_of_ne hl]
    exact hr.silent l i Q hl
  reported := fun l i hl hc => by
    rw [ifNone_of_none hl, onReceipt_bind]
    refine onReceipt_mono (fun l' h => ?_) (fun j l' h => ?_) (hf l i hl hc)
    · -- The report came in this stage, and the rest returns its code.
      obtain ⟨rfl, hl'⟩ := h
      refine returns_mono (fun x hx => ?_) (hr.failed l' (by rw [hl']; exact hcode))
      rw [hx, hl']
      rfl
    · by_cases hl' : l'.qerr = .none
      · obtain ⟨rfl, hc'⟩ := h hl'
        exact hr.reported l' j hl' hc'
      · exact hr.silent l' j _ hl'

/-- A part without a receive in front. -/
theorem Remains.silent_stage (hr : Remains bad codes c r) (hf : Silent f) :
    Remains bad codes c fun l => (ifNone f l).bind r where
  failed := fun l hl => by
    rw [ifNone_of_ne hl]
    exact hr.failed l hl
  silent := fun l i Q hl => by
    rw [ifNone_of_ne hl]
    exact hr.silent l i Q hl
  reported := fun l i hl hc => by
    rw [ifNone_of_none hl, onReceipt_bind]
    refine onReceipt_mono (fun l' h => h) (fun j l' h => ?_) (hf l bad i _)
    by_cases hl' : l'.qerr = .none
    · obtain ⟨rfl, hc'⟩ := h hl'
      exact hr.reported l' j hl' (hc'.trans hc)
    · exact hr.silent l' j _ hl'

/-- A driver from its first stage on. -/
theorem Remains.start (hf : MeetsReport bad code c f) (hcode : code ≠ .none)
    (hr : Remains bad codes (c + 1) r) (hl : l.qerr = .none → l.cns.rxseq = c) {i : ℕ} :
    OnReceipt bad ((ifNone f l).bind r) i (fun x => (code :: codes)[i]? = some x.1)
      fun _ _ => True := by
  by_cases hnone : l.qerr = .none
  · exact (hr.stage hf hcode).reported l i hnone (hl hnone)
  · exact (hr.stage hf hcode).silent l i _ hnone

end Stages

/-! ## The drivers -/

/-- The four drivers. -/
inductive KexDriver where
  | duplexClient | duplexServer | simplexClient | simplexServer
deriving DecidableEq, Repr

namespace KexDriver

/-- The sequence number of the reports the driver can get: that of
`kex_server_send_error` for a client, of `kex_client_send_error` for a
server. -/
def reportSequence : KexDriver → UInt64
  | duplexClient | simplexClient => sequenceTerminator
  | duplexServer | simplexServer => 0xFF

/-- A run of the driver, with the code it returns if it returns. -/
def Runs (K : Primitives) (A : Asymmetric P) (stack : Mem) (d : Draws A)
    (cns : QsmpConnectionState) (tr : List Event) (code : Option QsmpErrors) : KexDriver → Prop
  | duplexClient => ∃ kcs r, Dialogue.Runs (qsmpKexDuplexClientKeyExchange K A stack d kcs cns) tr r
      ∧ code = r.map Prod.fst
  | duplexServer => ∃ kss r, Dialogue.Runs (qsmpKexDuplexServerKeyExchange K A stack d kss cns) tr r
      ∧ code = r.map Prod.fst
  | simplexClient => ∃ kcs r,
      Dialogue.Runs (qsmpKexSimplexClientKeyExchange K A stack d kcs cns) tr r
      ∧ code = r.map Prod.fst
  | simplexServer => ∃ kss r,
      Dialogue.Runs (qsmpKexSimplexServerKeyExchange K A stack d kss cns) tr r
      ∧ code = r.map Prod.fst

/-- The stage of receive number `i` of the driver reads a report. -/
def ReadsReport (driver : KexDriver) (i : ℕ) : Prop := driver = duplexServer ∧ i = 2

instance (driver : KexDriver) (i : ℕ) : Decidable (driver.ReadsReport i) :=
  inferInstanceAs (Decidable (_ ∧ _))

end KexDriver

theorem missedAs_ne_none : missedAs n ≠ .none := by
  rw [missedAs]
  split
  · exact QsmpErrors.noConfusion
  · exact QsmpErrors.noConfusion

variable {cns : QsmpConnectionState} {i : ℕ}

theorem duplexClient_onReceipt {kcs : QsmpKexDuplexClientState P} (h : cns.Fresh) :
    OnReceipt (ReportIn P sequenceTerminator e n)
      (qsmpKexDuplexClientKeyExchange K A stack d kcs cns) i
      (fun r => [missedAs n, missedAs n, missedAs n][i]? = some r.1) fun _ _ => True := by
  have hcon : estlen ≤ duplexClientConlen P := by
    simp only [estlen, duplexClientConlen]
    omega
  have hexc : estlen ≤ duplexClientExclen P := by
    simp only [estlen, duplexClientExclen]
    omega
  rw [qsmpKexDuplexClientKeyExchange]
  refine Remains.start (c := 0)
    (meetsReport_exchangeStage hcon (by decide)
      (silent_answer sets_kexDuplexClientExchangeRequest)) missedAs_ne_none
    (.stage (.stage remains_finish
      (meetsReport_exchangeStage (Nat.le_refl _) (by decide)
        (silent_verify sets_kexDuplexClientEstablishVerify)).clearResponse missedAs_ne_none)
      (meetsReport_exchangeStage hexc (by decide)
        (silent_answer sets_kexDuplexClientEstablishRequest)).clearResponse missedAs_ne_none)
    fun hnone => ?_
  rw [Locals.ofStep, (kexDuplexClientConnectRequest_of_none rfl hnone).2.2]
  exact h.2.1

theorem duplexServer_onReceipt {kss : QsmpKexDuplexServerState P} (h : cns.Fresh)
    (hcode : QsmpErrors.ofByte e.toByte = e) (he : e ≠ .none) :
    OnReceipt (ReportIn P 0xFF e n) (qsmpKexDuplexServerKeyExchange K A stack d kss cns) i
      (fun r => [missedAs n, missedAs n, e][i]? = some r.1) fun _ _ => True := by
  have hcon : estlen ≤ serverConlen := by decide
  have hexc : estlen ≤ duplexServerExclen P := by
    simp only [estlen, duplexServerExclen]
    omega
  rw [qsmpKexDuplexServerKeyExchange]
  exact Remains.start (c := 0) (l := .start kss cns)
    (meetsReport_receiveStage hcon (by decide)
      (silent_answerFirst sets_kexDuplexServerConnectResponse)) missedAs_ne_none
    (.stage (.stage remains_finish
      (meetsReport_duplexServerEstablishStage hcode sets_kexDuplexServerEstablishResponse) he)
      (meetsReport_exchangeStage hexc (by decide)
        (silent_answer sets_kexDuplexServerExchangeResponse)) missedAs_ne_none)
    fun _ => h.2.1

theorem simplexClient_onReceipt {kcs : QsmpKexSimplexClientState P} (h : cns.Fresh) :
    OnReceipt (ReportIn P sequenceTerminator e n)
      (qsmpKexSimplexClientKeyExchange K A stack d kcs cns) i
      (fun r => [missedAs n, missedAs n][i]? = some r.1) fun _ _ => True := by
  have hcon : estlen ≤ simplexClientConlen P := by
    simp only [estlen, simplexClientConlen]
    omega
  rw [qsmpKexSimplexClientKeyExchange]
  refine Remains.start (c := 0)
    (meetsReport_exchangeStage hcon (by decide)
      (silent_answer sets_kexSimplexClientExchangeRequest)) missedAs_ne_none
    (.stage remains_finish
      (meetsReport_exchangeStage (Nat.le_refl _) (by decide)
        (silent_verify sets_kexSimplexClientEstablishVerify)).clearResponse missedAs_ne_none)
    fun hnone => ?_
  rw [Locals.ofStep, (kexSimplexClientConnectRequest_of_none rfl hnone).2.2]
  exact h.2.1

theorem simplexServer_onReceipt {kss : QsmpKexSimplexServerState P} (h : cns.Fresh) :
    OnReceipt (ReportIn P 0xFF e n) (qsmpKexSimplexServerKeyExchange K A stack d kss cns) i
      (fun r => [missedAs n, missedAs n][i]? = some r.1) fun _ _ => True := by
  have hcon : estlen ≤ serverConlen := by decide
  have hexc : estlen ≤ simplexServerExclen P := by
    simp only [estlen, simplexServerExclen]
    omega
  rw [qsmpKexSimplexServerKeyExchange]
  exact Remains.start (c := 0) (l := .start kss cns)
    (meetsReport_receiveStage hcon (by decide)
      (silent_answerFirst sets_kexSimplexServerConnectResponse)) missedAs_ne_none
    (.stage (.silent_stage remains_finish silent_transmit)
      (meetsReport_exchangeStage hexc (by decide)
        (silent_answer sets_kexSimplexServerExchangeResponse)) missedAs_ne_none)
    fun _ => h.2.1

/-! ## What becomes of a report -/

variable {tr : List Event} {result : Option QsmpErrors}

/-- **What a driver returns** when receive number `i`, of `n` bytes, yields
the report of its peer. -/
theorem returned_of_report {driver : KexDriver} (hfresh : cns.Fresh)
    (hrun : driver.Runs K A stack d cns tr result) (he : e ≠ .none)
    (hcode : QsmpErrors.ofByte e.toByte = e) (hreceipt : (receipts tr)[i]? = some (n, bs))
    (hreport : IsReport P driver.reportSequence e n bs) :
    result = some (if driver.ReadsReport i then e else missedAs n) := by
  have hin : ReportIn P driver.reportSequence e n n bs := ⟨rfl, hreport⟩
  have hmissed {m : ℕ} {x : QsmpErrors} (h : (List.replicate m (missedAs n))[i]? = some x) :
      x = missedAs n := by
    rw [List.getElem?_replicate] at h
    split at h
    · exact (Option.some.inj h).symm
    · exact absurd h.symm (Option.some_ne_none _)
  cases driver with
  | duplexClient =>
    obtain ⟨kcs, r, hrun, rfl⟩ := hrun
    obtain ⟨x, rfl, hx⟩ := runs_of_onReceipt hrun (duplexClient_onReceipt hfresh) hreceipt hin
    rw [if_neg (by simp [KexDriver.ReadsReport]), Option.map_some, hmissed (m := 3) hx]
  | duplexServer =>
    obtain ⟨kss, r, hrun, rfl⟩ := hrun
    obtain ⟨x, rfl, hx⟩ :=
      runs_of_onReceipt hrun (duplexServer_onReceipt hfresh hcode he) hreceipt hin
    rw [Option.map_some]
    rcases i with _ | _ | _ | i
    · exact congrArg some (Option.some.inj hx).symm
    · exact congrArg some (Option.some.inj hx).symm
    · exact congrArg some (Option.some.inj hx).symm
    · exact absurd hx.symm (Option.some_ne_none _)
  | simplexClient =>
    obtain ⟨kcs, r, hrun, rfl⟩ := hrun
    obtain ⟨x, rfl, hx⟩ := runs_of_onReceipt hrun (simplexClient_onReceipt hfresh) hreceipt hin
    rw [if_neg (by simp [KexDriver.ReadsReport]), Option.map_some, hmissed (m := 2) hx]
  | simplexServer =>
    obtain ⟨kss, r, hrun, rfl⟩ := hrun
    obtain ⟨x, rfl, hx⟩ := runs_of_onReceipt hrun (simplexServer_onReceipt hfresh) hreceipt hin
    rw [if_neg (by simp [KexDriver.ReadsReport]), Option.map_some, hmissed (m := 2) hx]

theorem ofByte_ne_none {b : UInt8} (hb : b ≠ 0) : QsmpErrors.ofByte b ≠ .none := by
  intro h
  have htoByte := QsmpErrors.toByte_ofByte b
  rw [h] at htoByte
  exact hb htoByte.symm

/-- **When a report reaches the peer.** In every run of a driver on a fresh
connection one of whose receives yields the report of the peer, the driver
returns the code reported exactly when the receive is that of the last
stage of the duplex server, or the code is the one the stage fails with in
any case. -/
theorem report_returned_iff {driver : KexDriver} (hfresh : cns.Fresh)
    (hrun : driver.Runs K A stack d cns tr result) {b : UInt8} (hb : b ≠ 0)
    (hreceipt : (receipts tr)[i]? = some (n, bs))
    (hreport : IsReport P driver.reportSequence (.ofByte b) n bs) :
    result = some (.ofByte b) ↔
      driver.ReadsReport i ∨ QsmpErrors.ofByte b = if n ≤ 15 then .packetUnsequenced
        else .receiveFailure := by
  have hcode : QsmpErrors.ofByte (QsmpErrors.ofByte b).toByte = .ofByte b := by
    rw [QsmpErrors.toByte_ofByte]
  rw [returned_of_report hfresh hrun (ofByte_ne_none hb) hcode hreceipt hreport, Option.some.injEq]
  by_cases hreads : driver.ReadsReport i
  · rw [if_pos hreads]
    exact iff_of_true rfl (.inl hreads)
  · rw [if_neg hreads]
    exact ⟨fun h => .inr h.symm, fun h => (h.resolve_left hreads).symm⟩

/-- The report of a client that finds the key of the server expired, before
it has sent its connection request. -/
def lostReport : Bytes := [0xFF, 1, 0, 0, 0, 0xFF, 0, 0, 0, 0, 0, 0, 0, 0x0E, 0]

theorem isReport_lostReport :
    IsReport .dilithiumKyber 0xFF (.ofByte 0x0E) serverConlen lostReport := ⟨.zero, rfl⟩

/-- The simplex server waits for a connection request, and gets that. -/
theorem simplexServer_lostReport :
    KexDriver.simplexServer.Runs .plain (.plain .dilithiumKyber) .zero
      ⟨0, (0 : UInt8), (0 : UInt8), (0 : UInt8), (0 : UInt8)⟩ (.initial .simplex true)
      [.received serverConlen lostReport, .polled false, .shut] (some .receiveFailure) := by
  have hplay : (play (qsmpKexSimplexServerKeyExchange .plain (.plain .dilithiumKyber) .zero
        ⟨0, (0 : UInt8), (0 : UInt8), (0 : UInt8), (0 : UInt8)⟩ (.plain .dilithiumKyber)
        (.initial .simplex true)) [.bytes lostReport, .status false]).map
      (fun x => (x.1, x.2.map Prod.fst)) =
        some ([.received serverConlen lostReport, .polled false, .shut], some .receiveFailure) := by
    decide +kernel
  obtain ⟨⟨events, r⟩, hx, hout⟩ := Option.map_eq_some_iff.1 hplay
  obtain ⟨rfl, hcode⟩ := Prod.mk.inj hout
  exact ⟨_, r, runs_of_play hx, hcode.symm⟩

theorem report_returned_iff_lost :
    some QsmpErrors.receiveFailure = some (.ofByte 0x0E) ↔
      KexDriver.simplexServer.ReadsReport 0 ∨
        QsmpErrors.ofByte 0x0E =
          if serverConlen ≤ 15 then .packetUnsequenced else .receiveFailure :=
  report_returned_iff QsmpConnectionState.fresh_initial simplexServer_lostReport (by decide) rfl
    isReport_lostReport

/-- **Error reports reach the peer**: the driver that waits returns the code
reported. -/
def ReportsReach (P : Params) : Prop :=
  ∀ (K : Primitives) (A : Asymmetric P) (stack : Mem) (d : Draws A) (cns : QsmpConnectionState)
    (driver : KexDriver) (tr : List Event) (result : Option QsmpErrors), cns.Fresh →
    driver.Runs K A stack d cns tr result → ∀ (b : UInt8) (i n : ℕ) (bs : Bytes), b ≠ 0 →
      (receipts tr)[i]? = some (n, bs) → IsReport P driver.reportSequence (.ofByte b) n bs →
      result = some (.ofByte b)

/-- A simplex server that waits for a connection request takes the report for
a short receive. -/
theorem not_reportsReach_lost : ¬ ReportsReach .dilithiumKyber := by
  intro h
  have hreached := h _ _ _ _ _ .simplexServer _ _ QsmpConnectionState.fresh_initial
    simplexServer_lostReport 0x0E 0 serverConlen lostReport (by decide) rfl isReport_lostReport
  exact absurd hreached (by decide)

end Qsmp
