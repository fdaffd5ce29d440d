import Qsmp.Common.Histories
import Qsmp.Common.Leases
import Qsmp.Server.Connections
/-!
# The server's slots, over every interleaving

`server_start` hands out a slot, waits for a client, creates a thread for
it and polls the sockets; each thread initialises the record of its slot,
runs the exchange and the receive loop, and frees the slot when it leaves.
A thread frees the slot whose number its record holds, and it is
`server_state_initialize` that overwrites that number.

The slot of a connection is what `qsmp_connections_next` handed out for it,
so a connection is a lease of a slot, counted from then on. It ends when
its thread leaves, when the accept fails, or when a poll finds its socket
down.
-/

namespace Qsmp

/-- How far the holder of a slot is. -/
inductive ReceiverStage where
  /-- The slot is handed out, and `qsc_socket_accept` waits for a client. -/
  | reserved
  /-- The client is connected and the thread is created. -/
  | created
  /-- `server_state_initialize` is done, and the exchange runs. -/
  | exchanging
  /-- The exchange has failed, and has disposed of the connection state. -/
  | failed
  /-- The loop of `server_receive_loop` runs. -/
  | receiving
  /-- The thread has returned, or there was none. -/
  | stopped
deriving DecidableEq, Repr

/-- Where `server_start` is: about to call `qsmp_connections_next`, waiting
for a client of the connection numbered `n`, or in `server_poll_sockets`,
at slot `i` of `clen`. -/
inductive AcceptLoop where
  | next
  | accepting (n : ℕ)
  | polling (i clen : ℕ)
deriving DecidableEq, Repr

/-- **The server**: the table, its accept loop and the connections so
far. -/
structure Server where
  set : QsmpConnectionSet
  loop : AcceptLoop
  conns : List (Lease ReceiverStage)

/-- A step of the accept loop, or of the thread of connection `n`. -/
inductive ServerOp where
  | next
  | accepts
  /-- The accept fails, or it does not and the receiver state cannot be
  allocated. -/
  | refuses (accepted : Bool)
  /-- One turn of the loop of `server_poll_sockets`, or its end. -/
  | polls (connected : Bool)
  | starts (n : ℕ)
  /-- The exchange state cannot be allocated: the thread returns. -/
  | startFails (n : ℕ)
  | establishes (n : ℕ)
  | fails (n : ℕ)
  /-- Whatever else the exchange and the loop write to the record. -/
  | writes (n : ℕ) (cns : QsmpConnectionState)
  | leaves (n : ℕ)

/-- `server_state_initialize`, of what it writes to the connection. -/
def serverStateInitialize (cns : QsmpConnectionState) : QsmpConnectionState :=
  { cns with
    rtcs := Octets.zero _
    rxcpr := qscRcsDispose
    txcpr := qscRcsDispose
    exflag := .none
    instanceCount := 0
    rxseq := 0
    txseq := 0 }

/-- `qsc_socket_accept(source, &cns->target)`, of what it leaves in the
record. -/
def qscSocketAccept (accepted : Bool) (cns : QsmpConnectionState) : QsmpConnectionState :=
  { cns with target := ⟨if accepted then .connected else .none⟩ }

namespace Server

/-- `qsmp_connections_reset(cns->instance)`, where `cns` points to the
record of slot `k`. -/
def resetAt (set : QsmpConnectionSet) (k : ℕ) : QsmpConnectionSet :=
  match qsmpConnectionsIndex set k with
  | some cns => qsmpConnectionsReset set cns.instanceCount
  | none => set

/-- The connection numbered `n` acts, if it is at one of the stages. -/
def act (s : Server) (n : ℕ) (stages : List ReceiverStage)
    (f : Lease ReceiverStage → Server) : Option Server :=
  match s.conns[n]? with
  | some l => if l.stage ∈ stages then some (f l) else none
  | none => none

/-- The holder of a lease writes to its record and goes on. -/
def goes (s : Server) (n : ℕ) (stage : ReceiverStage)
    (f : QsmpConnectionState → QsmpConnectionState) (loop : AcceptLoop)
    (l : Lease ReceiverStage) : Server where
  set := s.set.modify l.slot f
  loop
  conns := s.conns.set n { l with stage }

/-- The holder of a lease stops, which leaves the table `set`. -/
def stops (s : Server) (n : ℕ) (set : QsmpConnectionSet) (loop : AcceptLoop)
    (l : Lease ReceiverStage) : Server where
  set
  loop
  conns := s.conns.set n { l with stage := .stopped, ended := true }

/-- **A step of the server.** -/
def step (s : Server) : ServerOp → Option Server
  | .next =>
      match s.loop with
      | .next =>
          match qsmpConnectionsNext s.set with
          | (set, some k) =>
              some ⟨set, .accepting s.conns.length, s.conns ++ [⟨k, .reserved, false⟩]⟩
          -- No slot is left; the loop turns to the next.
          | (set, none) => some { s with set }
      | _ => none
  | .accepts =>
      match s.loop with
      | .accepting n => s.act n [.reserved] <|
          s.goes n .created (qscSocketAccept true) (.polling 0 s.set.length)
      | _ => none
  | .refuses accepted =>
      match s.loop with
      | .accepting n => s.act n [.reserved] fun l =>
          s.stops n (resetAt (s.set.modify l.slot (qscSocketAccept accepted)) l.slot) .next l
      | _ => none
  | .polls connected =>
      match s.loop with
      | .polling i clen =>
          if i < clen then
            let s := { s with loop := .polling (i + 1) clen }
            if qsmpConnectionsActive s.set i ∧ ¬ connected then
              some { s with set := resetAt s.set i, conns := Lease.revoke s.conns i }
            else some s
          else some { s with loop := .next }
      | _ => none
  | .starts n => s.act n [.created] (s.goes n .exchanging serverStateInitialize s.loop)
  | .startFails n => s.act n [.created] (s.goes n .stopped id s.loop)
  | .establishes n => s.act n [.exchanging] (s.goes n .receiving id s.loop)
  | .fails n => s.act n [.exchanging] (s.goes n .failed qsmpConnectionStateDispose s.loop)
  | .writes n cns => s.act n [.exchanging, .receiving] fun l =>
      s.goes n l.stage (fun old => { cns with instanceCount := old.instanceCount }) s.loop l
  | .leaves n => s.act n [.failed, .receiving] fun l =>
      s.stops n (resetAt s.set l.slot) s.loop l

/-- `server_start` before its loop. -/
def initial : Server where
  set := qsmpConnectionsInitialize qsmpConnectionsDispose connectionsInit connectionsMax
  loop := .next
  conns := []

/-! ## What the slots should show -/

/-- A slot is active exactly while its connection has not ended. -/
def Tracks (s : Server) : Prop :=
  ∀ i < s.set.length, qsmpConnectionsActive s.set i = true ↔ Lease.Held s.conns i

/-- A connection that held slot `k` has ended between two states. -/
def Ends (s s' : Server) (k : ℕ) : Prop :=
  ∃ (n : ℕ) (l l' : Lease ReceiverStage), s.conns[n]? = some l ∧ l.slot = k ∧ l.ended = false ∧
    s'.conns[n]? = some l' ∧ l'.ended = true

/-- **A good step**: after it the records bear the numbers of their slots
and the active slots are those held, and where the connection of a slot
ends in it, exactly that slot is freed. -/
structure Orderly (s s' : Server) : Prop where
  numbered : s'.set.Numbered
  tracks : s'.Tracks
  frees : ∀ k, s.Ends s' k → s.set.Frees s'.set k

/-- **When a step is good**: a thread that starts holds slot 0, the one
whose number `server_state_initialize` writes; and no thread leaves whose
connection a poll has ended while another connection holds its slot. -/
def Meets (s : Server) : ServerOp → Prop
  | .starts n => ∀ l, s.conns[n]? = some l → l.slot = 0
  | .leaves n => ∀ l, s.conns[n]? = some l → l.ended = true → ¬ Lease.Held s.conns l.slot
  | _ => True

/-! ## The invariant -/

/-- **What holds of the server while its steps are good.** -/
structure Sound (s : Server) : Prop where
  numbered : s.set.Numbered
  tracks : s.Tracks
  single : Lease.Single s.conns
  length_le : s.set.length ≤ s.set.maximum
  maximum_le : s.set.maximum ≤ connectionsMax
  lt_length : ∀ (n : ℕ) (l : Lease ReceiverStage), s.conns[n]? = some l → l.slot < s.set.length
  /-- A thread that has started holds slot 0. -/
  started : ∀ (n : ℕ) (l : Lease ReceiverStage), s.conns[n]? = some l →
    l.stage ∈ [ReceiverStage.exchanging, .failed, .receiving] → l.slot = 0
  /-- The connection the accept loop waits for has not ended. -/
  reserved : ∀ n, s.loop = .accepting n → ∃ l, s.conns[n]? = some l ∧ l.stage = .reserved ∧
    l.ended = false

variable {s s' : Server} {n k : ℕ} {l : Lease ReceiverStage} {stages : List ReceiverStage}
variable {stage : ReceiverStage} {f : QsmpConnectionState → QsmpConnectionState}
variable {loop : AcceptLoop}

theorem act_eq_some {f : Lease ReceiverStage → Server} (h : s.act n stages f = some s') :
    ∃ l, s.conns[n]? = some l ∧ l.stage ∈ stages ∧ s' = f l := by
  rw [act] at h
  split at h
  · rename_i l hl
    split at h
    · rename_i hstage
      exact ⟨l, hl, hstage, (Option.some.inj h).symm⟩
    · exact absurd h.symm (Option.some_ne_none s')
  · exact absurd h.symm (Option.some_ne_none s')

/-- In a numbered table the record of a slot names that slot. -/
theorem resetAt_eq {set : QsmpConnectionSet} (h : set.Numbered) (hlen : set.length ≤ connectionsMax)
    (hk : k < set.length) : resetAt set k = set.freed k := by
  have hindex : qsmpConnectionsIndex set k = some set.conset[k] := List.getElem?_eq_getElem hk
  have hmax : connectionsMax ≤ 2 ^ 32 := by decide
  rw [resetAt, hindex]
  dsimp only
  rw [h k _ hindex, h.reset (by omega) hk]

theorem sound_initial : initial.Sound where
  numbered := by
    dsimp only [initial]
    exact QsmpConnectionSet.numbered_initialized QsmpConnectionSet.numbered_dispose
  tracks i hi := by
    refine iff_of_false ?_ fun ⟨l, hl, _⟩ => absurd hl List.not_mem_nil
    rw [initial, QsmpConnectionSet.active_initialized connections_sizes]
    exact Bool.false_ne_true
  single n m l l' hn := absurd (List.mem_of_getElem? hn) List.not_mem_nil
  length_le := by
    rw [initial, QsmpConnectionSet.length_initialized connections_sizes,
      QsmpConnectionSet.maximum_initialized connections_sizes]
    exact connections_sizes.2.2
  maximum_le := by
    rw [initial, QsmpConnectionSet.maximum_initialized connections_sizes]
  lt_length n l hn := absurd (List.mem_of_getElem? hn) List.not_mem_nil
  started n l hn := absurd (List.mem_of_getElem? hn) List.not_mem_nil
  reserved n hn := absurd hn (by rw [initial]; exact AcceptLoop.noConfusion)

/-! ## A holder that goes on -/

@[simp] theorem goes_set : (s.goes n stage f loop l).set = s.set.modify l.slot f := rfl

@[simp] theorem stops_set {set : QsmpConnectionSet} : (s.stops n set loop l).set = set := rfl

theorem not_ends_goes (hn : s.conns[n]? = some l) : ¬ s.Ends (s.goes n stage f loop l) k := by
  rintro ⟨m, x, x', hx, -, hfalse, hx', htrue⟩
  rcases Lease.getElem?_set hn hx' with ⟨rfl, rfl⟩ | ⟨-, hx''⟩
  · obtain rfl := Option.some.inj (hn.symm.trans hx)
    exact absurd (hfalse.symm.trans htrue) Bool.false_ne_true
  · obtain rfl := Option.some.inj (hx.symm.trans hx'')
    exact absurd (hfalse.symm.trans htrue) Bool.false_ne_true

/-- A holder that writes its record and goes on leaves the slots as they
are, if it keeps the number. -/
theorem Sound.goes (hs : s.Sound) (hn : s.conns[n]? = some l)
    (hf : ∀ cns, qsmpConnectionsIndex s.set l.slot = some cns →
      (f cns).instanceCount = cns.instanceCount)
    (hstage : stage ∈ [ReceiverStage.exchanging, .failed, .receiving] → l.slot = 0)
    (hloop : ∀ m, loop = .accepting m → s.loop = .accepting m ∧ m ≠ n) :
    (s.goes n stage f loop l).Sound where
  numbered := hs.numbered.modify hf
  tracks i hi := by
    rw [goes_set, QsmpConnectionSet.length_modify] at hi
    rw [goes_set, QsmpConnectionSet.active_modify, hs.tracks i hi]
    exact (Lease.held_set hn (by rfl) (by rfl)).symm
  single := hs.single.set hn rfl id
  length_le := by
    rw [goes_set, QsmpConnectionSet.length_modify]
    exact hs.length_le
  maximum_le := hs.maximum_le
  lt_length m x hx := by
    rw [goes_set, QsmpConnectionSet.length_modify]
    rcases Lease.getElem?_set hn hx with ⟨-, rfl⟩ | ⟨-, hx⟩
    · exact hs.lt_length n l hn
    · exact hs.lt_length m x hx
  started m x hx hm := by
    rcases Lease.getElem?_set hn hx with ⟨-, rfl⟩ | ⟨-, hx⟩
    · exact hstage hm
    · exact hs.started m x hx hm
  reserved m hm := by
    obtain ⟨hm, hmn⟩ := hloop m hm
    obtain ⟨x, hx, hreserved⟩ := hs.reserved m hm
    exact ⟨x, (List.getElem?_set_ne hmn.symm).trans hx, hreserved⟩

theorem Sound.orderly_goes (hn : s.conns[n]? = some l) (h : (s.goes n stage f loop l).Sound) :
    s.Orderly (s.goes n stage f loop l) :=
  ⟨h.numbered, h.tracks, fun _ hk => absurd hk (not_ends_goes hn)⟩

/-! ## A holder that ends -/

/-- A holder ends and frees its slot: the slots stay as they should, if it
had not ended or no other holds the slot. -/
theorem Sound.stops (hs : s.Sound) (hn : s.conns[n]? = some l)
    (hended : l.ended = true → ¬ Lease.Held s.conns l.slot)
    (hloop : ∀ m, loop = .accepting m → s.loop = .accepting m ∧ m ≠ n) :
    (s.stops n (s.set.freed l.slot) loop l).Sound where
  numbered := hs.numbered.freed
  tracks i hi := by
    rw [stops_set, QsmpConnectionSet.length_freed] at hi
    rw [stops_set, QsmpConnectionSet.active_freed, hs.tracks i hi]
    cases hl : l.ended with
    | false => exact (Lease.held_end hs.single hn hl rfl).symm
    | true =>
      -- The slot is free already: it is cleared once more.
      refine Iff.trans (and_iff_left_of_imp fun hi' => ?_)
        (Lease.held_set hn (by rfl) (by rw [hl])).symm
      rintro rfl
      exact hended hl hi'
  single := hs.single.set hn rfl fun h => absurd h.symm Bool.false_ne_true
  length_le := by
    rw [stops_set, QsmpConnectionSet.length_freed]
    exact hs.length_le
  maximum_le := hs.maximum_le
  lt_length m x hx := by
    rw [stops_set, QsmpConnectionSet.length_freed]
    rcases Lease.getElem?_set hn hx with ⟨-, rfl⟩ | ⟨-, hx⟩
    · exact hs.lt_length n l hn
    · exact hs.lt_length m x hx
  started m x hx hm := by
    rcases Lease.getElem?_set hn hx with ⟨-, rfl⟩ | ⟨-, hx⟩
    · exact absurd hm (by simp)
    · exact hs.started m x hx hm
  reserved m hm := by
    obtain ⟨hm, hmn⟩ := hloop m hm
    obtain ⟨x, hx, hreserved⟩ := hs.reserved m hm
    exact ⟨x, (List.getElem?_set_ne hmn.symm).trans hx, hreserved⟩

theorem Sound.orderly_stops (hs : s.Sound) (hn : s.conns[n]? = some l)
    (h : (s.stops n (s.set.freed l.slot) loop l).Sound) :
    s.Orderly (s.stops n (s.set.freed l.slot) loop l) := by
  refine ⟨h.numbered, h.tracks, ?_⟩
  rintro k ⟨m, x, x', hx, rfl, hfalse, hx', htrue⟩
  rcases Lease.getElem?_set hn hx' with ⟨rfl, rfl⟩ | ⟨-, hx''⟩
  · obtain rfl := Option.some.inj (hn.symm.trans hx)
    exact QsmpConnectionSet.frees_freed (hs.lt_length m l hn)
  · obtain rfl := Option.some.inj (hx.symm.trans hx'')
    exact absurd (hfalse.symm.trans htrue) Bool.false_ne_true

/-! ## A slot handed out, and a slot polled -/

theorem Sound.active_iff (hs : s.Sound) :
    qsmpConnectionsActive s.set k = true ↔ Lease.Held s.conns k := by
  constructor
  · intro h
    exact (hs.tracks k (QsmpConnectionSet.lt_of_active h)).1 h
  · intro h
    obtain ⟨n, l, hn, rfl, -⟩ := Lease.held_iff.1 h
    exact (hs.tracks _ (hs.lt_length n l hn)).2 h

/-- A slot that was not active is handed out. -/
theorem Sound.grants (hs : s.Sound) {set : QsmpConnectionSet} (hnum : set.Numbered)
    (hactive : ∀ i, qsmpConnectionsActive set i = true ↔
      qsmpConnectionsActive s.set i = true ∨ i = k)
    (hfree : qsmpConnectionsActive s.set k = false) (hk : k < set.length)
    (hle : s.set.length ≤ set.length) (hroom : set.length ≤ set.maximum)
    (hmax : set.maximum = s.set.maximum) :
    Server.Sound ⟨set, .accepting s.conns.length, s.conns ++ [⟨k, .reserved, false⟩]⟩ where
  numbered := hnum
  tracks i _ := by
    rw [hactive, hs.active_iff]
    exact Lease.held_grant.symm
  single := by
    refine hs.single.grant fun h => ?_
    rw [← hs.active_iff, hfree] at h
    exact absurd h Bool.false_ne_true
  length_le := hroom
  maximum_le := hmax ▸ hs.maximum_le
  lt_length n l hn := by
    rcases Lease.getElem?_grant hn with ⟨-, rfl⟩ | hn
    · exact hk
    · exact Nat.lt_of_lt_of_le (hs.lt_length n l hn) hle
  started n l hn hstage := by
    rcases Lease.getElem?_grant hn with ⟨-, rfl⟩ | hn
    · exact absurd hstage (by simp)
    · exact hs.started n l hn hstage
  reserved n hn := by
    obtain rfl := AcceptLoop.accepting.inj hn
    exact ⟨_, List.getElem?_concat_length, rfl, rfl⟩

theorem not_ends_grants {set : QsmpConnectionSet} {l : Lease ReceiverStage} :
    ¬ s.Ends ⟨set, loop, s.conns ++ [l]⟩ k := by
  rintro ⟨n, x, x', hx, -, hfalse, hx', htrue⟩
  have hlt := (List.getElem?_eq_some_iff.1 hx).1
  rw [List.getElem?_append_left hlt, hx] at hx'
  obtain rfl := Option.some.inj hx'
  exact absurd (hfalse.symm.trans htrue) Bool.false_ne_true

/-- The accept loop goes elsewhere, not to wait for a client. -/
theorem Sound.turns (hs : s.Sound) (hloop : ∀ m, loop ≠ .accepting m) :
    ({ s with loop } : Server).Sound where
  numbered := hs.numbered
  tracks := hs.tracks
  single := hs.single
  length_le := hs.length_le
  maximum_le := hs.maximum_le
  lt_length := hs.lt_length
  started := hs.started
  reserved m hm := absurd hm (hloop m)

theorem not_ends_self : ¬ s.Ends ⟨s.set, loop, s.conns⟩ k := by
  rintro ⟨n, x, x', hx, -, hfalse, hx', htrue⟩
  obtain rfl := Option.some.inj (hx.symm.trans hx')
  exact absurd (hfalse.symm.trans htrue) Bool.false_ne_true

/-- A poll that finds the socket of a slot down ends its connection. -/
theorem Sound.revokes (hs : s.Sound) (hloop : ∀ m, loop ≠ .accepting m) :
    Server.Sound ⟨s.set.freed k, loop, Lease.revoke s.conns k⟩ where
  numbered := hs.numbered.freed
  tracks i _ := by
    rw [QsmpConnectionSet.active_freed, hs.active_iff]
    exact Lease.held_revoke.symm
  single := hs.single.revoke
  length_le := by
    rw [QsmpConnectionSet.length_freed]
    exact hs.length_le
  maximum_le := hs.maximum_le
  lt_length n x hx := by
    rw [QsmpConnectionSet.length_freed]
    obtain ⟨l, hl, rfl⟩ := Lease.getElem?_revoke hx
    split <;> exact hs.lt_length n l hl
  started n x hx hstage := by
    obtain ⟨l, hl, rfl⟩ := Lease.getElem?_revoke hx
    split at hstage <;> split <;> exact hs.started n l hl hstage
  reserved m hm := absurd hm (hloop m)

theorem ends_revokes {set : QsmpConnectionSet} {i : ℕ}
    (h : s.Ends ⟨set, loop, Lease.revoke s.conns i⟩ k) : k = i := by
  obtain ⟨n, x, x', hx, hk, hfalse, hx', htrue⟩ := h
  obtain ⟨l, hl, rfl⟩ := Lease.getElem?_revoke hx'
  obtain rfl := Option.some.inj (hx.symm.trans hl)
  by_contra hne
  rw [if_neg fun h => hne (hk.symm.trans h)] at htrue
  exact absurd (hfalse.symm.trans htrue) Bool.false_ne_true

/-! ## One step -/

theorem Sound.length_le_max (hs : s.Sound) : s.set.length ≤ connectionsMax :=
  hs.length_le.trans hs.maximum_le

theorem Sound.resetAt (hs : s.Sound) (hk : k < s.set.length) :
    resetAt s.set k = s.set.freed k := resetAt_eq hs.numbered hs.length_le_max hk

/-- The threads leave alone the connection that the accept loop waits
for. -/
theorem Sound.loop_ne (hs : s.Sound) (hn : s.conns[n]? = some l) (hstage : l.stage ≠ .reserved) :
    ∀ m, s.loop = .accepting m → s.loop = .accepting m ∧ m ≠ n := by
  rintro m hm
  refine ⟨hm, ?_⟩
  rintro rfl
  obtain ⟨x, hx, hreserved, -⟩ := hs.reserved m hm
  exact hstage (Option.some.inj (hn.symm.trans hx) ▸ hreserved)

/-- A thread that writes its record, keeping the number, and goes on. -/
theorem Sound.act_goes (hs : s.Sound) (hn : s.conns[n]? = some l) (hreserved : l.stage ≠ .reserved)
    (hf : ∀ cns, qsmpConnectionsIndex s.set l.slot = some cns →
      (f cns).instanceCount = cns.instanceCount)
    (hstage : stage ∈ [ReceiverStage.exchanging, .failed, .receiving] → l.slot = 0) :
    (s.goes n stage f s.loop l).Sound ∧ s.Orderly (s.goes n stage f s.loop l) := by
  have h := hs.goes hn hf hstage (hs.loop_ne hn hreserved)
  exact ⟨h, orderly_goes hn h⟩

/-- The number of slot 0 is the one that a thread writes. -/
theorem Sound.instanceCount_zero (hs : s.Sound) (h0 : l.slot = 0) {cns : QsmpConnectionState}
    (hcns : qsmpConnectionsIndex s.set l.slot = some cns) : cns.instanceCount = 0 := by
  rw [hs.numbered _ _ hcns, h0]
  rfl

theorem Sound.step_next (hs : s.Sound) (h : s.step .next = some s') :
    s'.Sound ∧ s.Orderly s' := by
  have granted : ∀ {set : QsmpConnectionSet} {l : Lease ReceiverStage} {loop : AcceptLoop},
      Server.Sound ⟨set, loop, s.conns ++ [l]⟩ →
        Server.Sound ⟨set, loop, s.conns ++ [l]⟩ ∧ s.Orderly ⟨set, loop, s.conns ++ [l]⟩ :=
    fun hsound => ⟨hsound, hsound.numbered, hsound.tracks, fun _ hk => absurd hk not_ends_grants⟩
  rw [Server.step] at h
  split at h
  · rcases QsmpConnectionSet.next_cases s.set with
      ⟨k, hk, -, hfree, hnext⟩ | ⟨-, hroom, hnext⟩ | ⟨-, -, hnext⟩
    · rw [hnext] at h
      obtain rfl := Option.some.inj h
      exact granted <| hs.grants hs.numbered (fun i => QsmpConnectionSet.active_activated hk) hfree
        hk (Nat.le_refl _) hs.length_le rfl
    · rw [hnext] at h
      obtain rfl := Option.some.inj h
      refine granted <| hs.grants hs.numbered.extended
        (fun i => QsmpConnectionSet.active_extended) QsmpConnectionSet.active_length ?_ ?_ ?_ rfl
      all_goals rw [QsmpConnectionSet.length_extended]
      · exact Nat.lt_succ_self _
      · exact Nat.le_succ _
      · exact hroom
    · rw [hnext] at h
      obtain rfl := Option.some.inj h
      exact ⟨hs, hs.numbered, hs.tracks, fun _ hk => absurd hk not_ends_self⟩
  · exact absurd h.symm (Option.some_ne_none s')

theorem Sound.step_accepts (hs : s.Sound) (h : s.step .accepts = some s') :
    s'.Sound ∧ s.Orderly s' := by
  rw [Server.step] at h
  split at h
  · obtain ⟨l, hn, hstage, rfl⟩ := act_eq_some h
    have hsound := hs.goes (f := qscSocketAccept true) hn (fun _ _ => rfl)
      (fun h => absurd h (by decide : ReceiverStage.created ∉ _))
      (fun m (h : AcceptLoop.polling 0 s.set.length = _) => absurd h AcceptLoop.noConfusion)
    exact ⟨hsound, orderly_goes hn hsound⟩
  · exact absurd h.symm (Option.some_ne_none s')

theorem Sound.step_refuses (hs : s.Sound) {accepted : Bool}
    (h : s.step (.refuses accepted) = some s') : s'.Sound ∧ s.Orderly s' := by
  rw [Server.step] at h
  split at h
  · rename_i n hloop
    obtain ⟨l, hn, -, rfl⟩ := act_eq_some h
    obtain ⟨x, hx, -, hended⟩ := hs.reserved n hloop
    obtain rfl := Option.some.inj (hn.symm.trans hx)
    have hnum := hs.numbered.modify (f := qscSocketAccept accepted) (i := l.slot) fun _ _ => rfl
    -- What the accept wrote goes when the slot is freed.
    rw [resetAt_eq hnum (QsmpConnectionSet.length_modify.trans_le hs.length_le_max)
      ((hs.lt_length n l hn).trans_eq QsmpConnectionSet.length_modify.symm),
      QsmpConnectionSet.freed_modify]
    have hsound := hs.stops hn (fun h => absurd (hended.symm.trans h) Bool.false_ne_true)
      (fun m (h : AcceptLoop.next = _) => absurd h AcceptLoop.noConfusion)
    exact ⟨hsound, hs.orderly_stops hn hsound⟩
  · exact absurd h.symm (Option.some_ne_none s')

theorem Sound.step_polls (hs : s.Sound) {connected : Bool}
    (h : s.step (.polls connected) = some s') : s'.Sound ∧ s.Orderly s' := by
  have turned : ∀ {loop : AcceptLoop}, (∀ m, loop ≠ .accepting m) →
      Server.Sound ⟨s.set, loop, s.conns⟩ ∧ s.Orderly ⟨s.set, loop, s.conns⟩ := fun hloop =>
    ⟨hs.turns hloop, hs.numbered, hs.tracks, fun _ hk => absurd hk not_ends_self⟩
  rw [Server.step] at h
  split at h
  · rename_i i clen hloop
    dsimp only at h
    split at h
    · split at h
      · rename_i hdown
        obtain rfl := Option.some.inj h
        have hi := QsmpConnectionSet.lt_of_active hdown.1
        rw [hs.resetAt hi]
        have hsound := hs.revokes (k := i) fun m (h : AcceptLoop.polling (i + 1) clen = _) =>
          absurd h AcceptLoop.noConfusion
        refine ⟨hsound, hsound.numbered, hsound.tracks, fun k hk => ?_⟩
        rw [ends_revokes hk]
        exact QsmpConnectionSet.frees_freed hi
      · obtain rfl := Option.some.inj h
        exact turned fun m => AcceptLoop.noConfusion
    · obtain rfl := Option.some.inj h
      exact turned fun m => AcceptLoop.noConfusion
  · exact absurd h.symm (Option.some_ne_none s')

/-- **A step that meets the condition** is orderly, and keeps the
invariant. -/
theorem Sound.step (hs : s.Sound) {op : ServerOp} (h : s.step op = some s') (hm : s.Meets op) :
    s'.Sound ∧ s.Orderly s' := by
  cases op with
  | next => exact hs.step_next h
  | accepts => exact hs.step_accepts h
  | refuses accepted => exact hs.step_refuses h
  | polls connected => exact hs.step_polls h
  | starts n =>
    obtain ⟨l, hn, hstage, rfl⟩ := act_eq_some h
    have h0 : l.slot = 0 := hm l hn
    refine hs.act_goes hn (by simp_all) (fun cns hcns => ?_) fun _ => h0
    exact (hs.instanceCount_zero h0 hcns).symm
  | startFails n =>
    obtain ⟨l, hn, hstage, rfl⟩ := act_eq_some h
    exact hs.act_goes hn (by simp_all) (fun _ _ => rfl) (by simp)
  | establishes n =>
    obtain ⟨l, hn, hstage, rfl⟩ := act_eq_some h
    exact hs.act_goes hn (by simp_all) (fun _ _ => rfl) fun _ => hs.started n l hn (by simp_all)
  | fails n =>
    obtain ⟨l, hn, hstage, rfl⟩ := act_eq_some h
    have h0 : l.slot = 0 := hs.started n l hn (by simp_all)
    refine hs.act_goes hn (by simp_all) (fun cns hcns => ?_) fun _ => h0
    exact (hs.instanceCount_zero h0 hcns).symm
  | writes n cns =>
    obtain ⟨l, hn, hstage, rfl⟩ := act_eq_some h
    refine hs.act_goes hn (fun hres => ?_) (fun _ _ => rfl) (hs.started n l hn)
    rw [hres] at hstage
    exact absurd hstage (by simp)
  | leaves n =>
    obtain ⟨l, hn, hstage, rfl⟩ := act_eq_some h
    have hreserved : l.stage ≠ .reserved := by
      intro hres
      rw [hres] at hstage
      exact absurd hstage (by simp)
    rw [hs.resetAt (hs.lt_length n l hn)]
    have hsound := hs.stops hn (hm l hn) (hs.loop_ne hn hreserved)
    exact ⟨hsound, hs.orderly_stops hn hsound⟩

/-- **Only such a step is orderly.** -/
theorem Sound.meets (hs : s.Sound) {op : ServerOp} (h : s.step op = some s')
    (ho : s.Orderly s') : s.Meets op := by
  cases op with
  | starts n =>
    obtain ⟨l, hn, -, rfl⟩ := act_eq_some h
    intro x hx
    obtain rfl := Option.some.inj (hn.symm.trans hx)
    have hlt := hs.lt_length n l hn
    -- The record holds the number 0 now, which must be that of its slot.
    have hzero : (0 : UInt32) = UInt32.ofNat l.slot :=
      ho.numbered l.slot (serverStateInitialize s.set.conset[l.slot])
        ((List.getElem?_modify_eq _ _ _).trans (by rw [List.getElem?_eq_getElem hlt]; rfl))
    have hmax : connectionsMax < 2 ^ 32 := by simp [connectionsMax]
    have hle := hs.length_le_max
    have := congrArg UInt32.toNat hzero
    rw [UInt32.toNat_ofNat', Nat.mod_eq_of_lt (by omega)] at this
    exact this.symm
  | leaves n =>
    obtain ⟨l, hn, -, rfl⟩ := act_eq_some h
    intro x hx hended hheld
    obtain rfl := Option.some.inj (hn.symm.trans hx)
    have hlt := hs.lt_length n l hn
    have htracks := ho.tracks
    rw [hs.resetAt hlt] at htracks
    -- The slot is free now, and the other connection still holds it.
    have hactive := (htracks l.slot (hlt.trans_eq QsmpConnectionSet.length_freed.symm)).2
      ((Lease.held_set hn (by rfl) (by rw [hended])).2 hheld)
    rw [stops_set, QsmpConnectionSet.active_freed] at hactive
    exact hactive.2 rfl
  | _ => trivial

end Server

/-- **The life of the slots**, over one history: in every state it passes
through the record of each slot bears its number and the active slots are
those held, and in every step exactly the slots are freed whose connections
end in it. -/
def Server.SlotsKept (ops : List ServerOp) : Prop :=
  (∀ s, Visits Server.step .initial ops s → s.set.Numbered ∧ s.Tracks) ∧
    Along Server.step (fun s _ s' => ∀ k, s.Ends s' k → s.set.Frees s'.set k) .initial ops

namespace Server

/-- A client is accepted, and every socket polled is connected. -/
def accepted : List ServerOp :=
  [.next, .accepts] ++ List.replicate (connectionsInit + 1) (.polls true)

/-- Two clients are accepted. The exchange with the second fails. -/
def teardown : List ServerOp := accepted ++ accepted ++ [.starts 1, .fails 1, .leaves 1]

/-- A poll that finds every socket connected changes nothing. -/
theorem polls_connected (set : QsmpConnectionSet) (conns : List (Lease ReceiverStage)) (d : ℕ) :
    ∀ i, (List.replicate (d + 1) (ServerOp.polls true)).foldlM step
        ⟨set, .polling i (i + d), conns⟩ = some ⟨set, .next, conns⟩ := by
  induction d with
  | zero =>
    intro i
    rw [List.replicate_one, List.foldlM_cons, step]
    simp only [Nat.add_zero, Nat.lt_irrefl, if_false]
    rfl
  | succ d ih =>
    intro i
    have hstep : step ⟨set, .polling i (i + (d + 1)), conns⟩ (.polls true) =
        some ⟨set, .polling (i + 1) (i + 1 + d), conns⟩ := by
      have hlt : i < i + 1 + d := by omega
      have hsum : i + (d + 1) = i + 1 + d := by omega
      simp only [step, hsum, if_pos hlt, not_true_eq_false, and_false, if_false]
    rw [List.replicate_succ, List.foldlM_cons, hstep]
    exact ih (i + 1)

/-- Accepting a client, in a table whose first free slot is `k`. -/
theorem run_accepted (set : QsmpConnectionSet) (conns : List (Lease ReceiverStage))
    (hlen : set.length = connectionsInit) (hk : k < connectionsInit)
    (hfree : qsmpConnectionsActive set k = false)
    (hlt : ∀ j < k, qsmpConnectionsActive set j = true) :
    accepted.foldlM step ⟨set, .next, conns⟩ =
      some ⟨(set.activated k).modify k (qscSocketAccept true), .next,
        conns ++ [⟨k, .created, false⟩]⟩ := by
  have hnext : step ⟨set, .next, conns⟩ .next =
      some ⟨set.activated k, .accepting conns.length, conns ++ [⟨k, .reserved, false⟩]⟩ := by
    simp only [step, QsmpConnectionSet.next_eq (hlen ▸ hk) hfree hlt]
  have haccepts : step ⟨set.activated k, .accepting conns.length, conns ++ [⟨k, .reserved, false⟩]⟩
      .accepts = some ⟨(set.activated k).modify k (qscSocketAccept true),
        .polling 0 connectionsInit, conns ++ [⟨k, .created, false⟩]⟩ := by
    simp only [step, act, List.getElem?_concat_length, List.mem_singleton, if_true, goes,
      QsmpConnectionSet.length_activated, hlen, List.set_append_right _ _ (Nat.le_refl _),
      Nat.sub_self, List.set_cons_zero]
  have hpolls := polls_connected ((set.activated k).modify k (qscSocketAccept true))
    (conns ++ [⟨k, .created, false⟩]) connectionsInit 0
  rw [Nat.zero_add] at hpolls
  rw [accepted, List.foldlM_append, List.foldlM_cons, hnext, Option.bind_eq_bind, Option.bind_some,
    List.foldlM_cons, haccepts]
  exact hpolls

/-- The table once two clients are accepted and the exchange with the
second has failed. -/
def torn (set : QsmpConnectionSet) : QsmpConnectionSet :=
  ((((((set.activated 0).modify 0 (qscSocketAccept true)).activated 1).modify 1
    (qscSocketAccept true)).modify 1 serverStateInitialize).modify 1 qsmpConnectionStateDispose)

variable {set : QsmpConnectionSet}

/-- The thread of the second client frees the slot of the first. -/
theorem resetAt_torn (hindex : ∀ i < 2, qsmpConnectionsIndex set i = some (.cleared i)) :
    resetAt (torn set) 1 = (torn set).freed 0 := by
  have hone : qsmpConnectionsIndex (torn set) 1 = some (qsmpConnectionStateDispose
      (serverStateInitialize (qscSocketAccept true (.cleared 1)))) := by
    simp only [torn, qsmpConnectionsIndex, QsmpConnectionSet.modify, QsmpConnectionSet.activated,
      List.getElem?_modify_eq]
    rw [List.getElem?_modify_ne _ _ Nat.zero_ne_one]
    exact congrArg (Option.map _ <| Option.map _ <| Option.map _ ·) (hindex 1 Nat.one_lt_two)
  have hzero : qsmpConnectionsIndex (torn set) 0 = some (qscSocketAccept true (.cleared 0)) := by
    simp only [torn, qsmpConnectionsIndex, QsmpConnectionSet.modify, QsmpConnectionSet.activated]
    rw [List.getElem?_modify_ne _ _ Nat.one_ne_zero, List.getElem?_modify_ne _ _ Nat.one_ne_zero,
      List.getElem?_modify_ne _ _ Nat.one_ne_zero, List.getElem?_modify_eq]
    exact congrArg (Option.map _ ·) (hindex 0 Nat.two_pos)
  rw [resetAt, hone]
  exact QsmpConnectionSet.reset_eq hzero rfl fun j hj => absurd hj (Nat.not_lt_zero j)

theorem run_teardown (set : QsmpConnectionSet) (hlen : set.length = connectionsInit)
    (hfree : ∀ i, qsmpConnectionsActive set i = false)
    (hindex : ∀ i < 2, qsmpConnectionsIndex set i = some (.cleared i)) :
    teardown.foldlM step ⟨set, .next, []⟩ =
      some ⟨(torn set).freed 0, .next, [⟨0, .created, false⟩, ⟨1, .stopped, true⟩]⟩ := by
  have hfirst := run_accepted set [] hlen (by simp [connectionsInit]) (hfree 0)
    (fun j hj => absurd hj (Nat.not_lt_zero j))
  have hactive : ∀ j, qsmpConnectionsActive
      ((set.activated 0).modify 0 (qscSocketAccept true)) j = true ↔ j = 0 := by
    intro j
    rw [QsmpConnectionSet.active_modify,
      QsmpConnectionSet.active_activated (by rw [hlen]; simp [connectionsInit]), hfree j]
    exact or_iff_right Bool.false_ne_true
  have hsecond := run_accepted ((set.activated 0).modify 0 (qscSocketAccept true))
    ([] ++ [⟨0, .created, false⟩]) (QsmpConnectionSet.length_modify.trans hlen)
    (by simp [connectionsInit]) (Bool.not_eq_true _ ▸ mt (hactive 1).1 Nat.one_ne_zero)
    (fun j hj => (hactive j).2 (Nat.lt_one_iff.1 hj))
  rw [teardown, List.foldlM_append, List.foldlM_append, hfirst, Option.bind_eq_bind,
    Option.bind_some, hsecond, Option.bind_some]
  exact congrArg (fun set => some (⟨set, .next, _⟩ : Server)) (resetAt_torn hindex)

end Server

end Qsmp
