import Qsmp.Common.Transcripts
import Qsmp.Qsc.Rcs
/-!
# The blocks the MAC absorbs

For each function that feeds the sponge, the rate-sized blocks it adds
into the state, in order. A block shorter than the rate is listed with
the zeros that adding it leaves untouched. The state after a function is
the one after absorbing its blocks, and the blocks of a run of updates
are the stream of their inputs, cut.
-/

namespace Qsmp

variable (permute : KeccakArray → KeccakArray)

/-- The state after blocks are added into it, each followed by the
permutation. -/
def keccakAbsorbed (state : KeccakArray) (blocks : List Bytes) : KeccakArray :=
  blocks.foldl (fun state block => permute (keccakFastAbsorb state block)) state

/-! ## The blocks of each function -/

/-- The blocks of `keccakAbsorbBlocks`. -/
def keccakAbsorbBlocksTrace (rate : ℕ) : ℕ → Bytes → List Bytes
  | 0, _ => []
  | fuel + 1, message =>
    if rate ≤ message.length then
      message.take rate :: keccakAbsorbBlocksTrace rate fuel (message.drop rate)
    else []

/-- The blocks of `qscKeccakUpdate`: the buffer filled up, then the whole
blocks of the rest of the message. -/
def qscKeccakUpdateTrace (ctx : QscKeccakState) (rate : QscKeccakRate) (message : Bytes) :
    List Bytes :=
  if message.length ≠ 0 then
    let full : Bool := ctx.position ≠ 0 ∧ rate.toNat ≤ ctx.position + message.length
    let rmdlen := rate.toNat - ctx.position
    let first := if full then [ctx.buffer ++ message.take rmdlen] else []
    let message := if full then message.drop rmdlen else message
    first ++ keccakAbsorbBlocksTrace rate.toNat (message.length + 1) message
  else []

/-- The blocks of `qscKeccakFinalize`: the pending bytes on their own
when the length encoding does not fit behind them, then the pad. -/
def qscKeccakFinalizeTrace (ctx : QscKeccakState) (rate : QscKeccakRate) (otplen : ℕ)
    (domain : UInt8) : List Bytes :=
  let pad := Mem.zero.write 0 ctx.buffer
  let buf := keccakRightEncode (otplen * 8)
  let flush : Bool := rate.toNat ≤ ctx.position + buf.length
  let first := if flush then [pad.read 0 rate.toNat] else []
  let position := if flush then 0 else ctx.position
  let pad := (pad.write position buf).write (position + buf.length) [domain]
  let pad := pad.write (rate.toNat - 1) [pad (rate.toNat - 1) ||| 128]
  first ++ [pad.read 0 rate.toNat]

variable (K : Primitives)

/-- The blocks of `rcsMacUpdate`. -/
def rcsMacUpdateTrace (ctx : RcsState) (input : Bytes) : List Bytes :=
  qscKeccakUpdateTrace ctx.kstate ctx.ctype.rate input

/-- The blocks of `rcsMacFinalize`. -/
def rcsMacFinalizeTrace (ctx : RcsState) : List Bytes :=
  let mctr : UInt64 := 32 + ctx.counter + 8
  let kstate := qscKmacUpdate K.permute ctx.kstate ctx.ctype.rate (qscIntutilsLe64to8 mctr)
  qscKeccakUpdateTrace ctx.kstate ctx.ctype.rate (qscIntutilsLe64to8 mctr) ++
    qscKeccakFinalizeTrace kstate ctx.ctype.rate ctx.ctype.macSize keccakKmacDomainId

/-- The blocks of `qscRcsSetAssociated`. -/
def qscRcsSetAssociatedTrace (ctx : RcsState) (data : Bytes) : List Bytes :=
  if data.length ≠ 0 then
    rcsMacUpdateTrace ctx data ++
      rcsMacUpdateTrace (rcsMacUpdate K ctx data)
        (qscIntutilsLe32to8 (UInt32.ofNat data.length))
  else []

/-- The blocks of `qscRcsTransform`. -/
def qscRcsTransformTrace (ctx : RcsState) (output input : Mem) (length : ℕ) : List Bytes :=
  let ctx := { ctx with counter := ctx.counter + UInt64.ofNat length }
  let nonce := rcsMacUpdateTrace ctx ctx.nonce.val
  let ctx := rcsMacUpdate K ctx ctx.nonce.val
  if ctx.encrypt then
    let (ctx, cpt) := rcsCtrTransform K ctx (input.read 0 length)
    let output := output.write 0 cpt
    nonce ++ rcsMacUpdateTrace ctx (output.read 0 length) ++
      rcsMacFinalizeTrace K (rcsMacUpdate K ctx (output.read 0 length))
  else
    nonce ++ rcsMacUpdateTrace ctx (input.read 0 length) ++
      rcsMacFinalizeTrace K (rcsMacUpdate K ctx (input.read 0 length))

variable {permute K}
variable {state : KeccakArray} {kctx : QscKeccakState} {rate : QscKeccakRate} {message : Bytes}

/-! ## Absorbing -/

@[simp] theorem keccakAbsorbed_nil : keccakAbsorbed permute state [] = state := rfl

@[simp] theorem keccakAbsorbed_cons {block : Bytes} {blocks : List Bytes} :
    keccakAbsorbed permute state (block :: blocks) =
      keccakAbsorbed permute (permute (keccakFastAbsorb state block)) blocks := rfl

@[simp] theorem keccakAbsorbed_append {b c : List Bytes} :
    keccakAbsorbed permute state (b ++ c) =
      keccakAbsorbed permute (keccakAbsorbed permute state b) c :=
  List.foldl_append

/-- Adding zeros keeps a string. -/
theorem zipWith_xor_zeros : ∀ {n : ℕ} {l : Bytes}, n ≤ l.length →
    List.zipWith (· ^^^ ·) l (List.replicate n 0) ++ l.drop n = l
  | 0, l, _ => by simp
  | n + 1, [], h => absurd h (by simp)
  | n + 1, x :: l, h => by
      rw [List.replicate_succ, List.zipWith_cons_cons, List.cons_append, List.drop_succ_cons,
        zipWith_xor_zeros (by simpa using h), UInt8.xor_zero]

/-- So zeros behind a block change nothing. -/
theorem zipWith_xor_append_zeros {n : ℕ} : ∀ {block l : Bytes}, block.length + n ≤ l.length →
    List.zipWith (· ^^^ ·) l (block ++ List.replicate n 0) ++ l.drop (block.length + n) =
      List.zipWith (· ^^^ ·) l block ++ l.drop block.length
  | [], l, h => by
      rw [List.length_nil, Nat.zero_add] at h ⊢
      rw [List.nil_append, zipWith_xor_zeros h]
      simp
  | b :: block, [], h => absurd h (by simp)
  | b :: block, x :: l, h => by
      have ih := @zipWith_xor_append_zeros n block l (by
        simp only [List.length_cons] at h
        omega)
      simp only [List.cons_append, List.zipWith_cons_cons, List.length_cons, Nat.succ_add,
        List.drop_succ_cons, ih]

/-- Zeros behind a block change nothing. -/
theorem keccakFastAbsorb_append_zeros {block : Bytes} {n : ℕ}
    (h : block.length + n ≤ keccakStateByteSize) :
    keccakFastAbsorb state (block ++ List.replicate n 0) = keccakFastAbsorb state block := by
  apply Subtype.ext
  rw [← state.property] at h
  simp only [keccakFastAbsorb, List.length_append, List.length_replicate,
    zipWith_xor_append_zeros h]

/-- **Absorbing whole blocks** cuts the message. -/
theorem keccakAbsorbBlocks_trace (permute) {n : ℕ} (hn : 0 < n) :
    ∀ {fuel : ℕ} (state : KeccakArray) (message : Bytes), message.length < fuel →
      (keccakAbsorbBlocks permute n fuel state message).1 =
          keccakAbsorbed permute state (keccakAbsorbBlocksTrace n fuel message) ∧
        Chunked n message (keccakAbsorbBlocksTrace n fuel message)
          (keccakAbsorbBlocks permute n fuel state message).2 := by
  intro fuel
  induction fuel with
  | zero => intro _ _ h; exact absurd h (Nat.not_lt_zero _)
  | succ fuel ih =>
    intro state message h
    rw [keccakAbsorbBlocks, keccakAbsorbBlocksTrace]
    split
    · rename_i hle
      have hlen : (message.take n).length = n := by rw [List.length_take]; omega
      obtain ⟨hstate, hcut⟩ := ih (permute (keccakFastAbsorb state (message.take n)))
        (message.drop n) (by rw [List.length_drop]; omega)
      refine ⟨hstate, ?_⟩
      have hcons := Chunked.cons hlen hcut
      rwa [List.take_append_drop] at hcons
    · rename_i hlt
      exact ⟨rfl, .of_short (Nat.lt_of_not_le hlt)⟩

/-- **An update** absorbs the blocks of the pending bytes and the message,
and leaves pending what they leave over. -/
theorem qscKeccakUpdate_trace (h : kctx.position < rate.toNat) (permute) (message : Bytes) :
    (qscKeccakUpdate permute kctx rate message).state =
        keccakAbsorbed permute kctx.state (qscKeccakUpdateTrace kctx rate message) ∧
      Chunked rate.toNat (kctx.buffer ++ message) (qscKeccakUpdateTrace kctx rate message)
        (qscKeccakUpdate permute kctx rate message).buffer := by
  have hpos := rate.toNat_pos
  have hbuf : kctx.buffer.length < rate.toNat := h
  rw [qscKeccakUpdate, qscKeccakUpdateTrace]
  by_cases hne : message.length ≠ 0
  · rw [if_pos hne, if_pos hne]
    by_cases hfull : kctx.position ≠ 0 ∧ rate.toNat ≤ kctx.position + message.length
    · -- The buffer is filled up from the message and absorbed.
      have hfill : (kctx.buffer ++ message.take (rate.toNat - kctx.position)).length
          = rate.toNat := by
        rw [List.length_append, List.length_take]
        have : kctx.position = kctx.buffer.length := rfl
        omega
      obtain ⟨hstate, hcut⟩ := keccakAbsorbBlocks_trace permute hpos
        (permute (keccakFastAbsorb kctx.state
          (kctx.buffer ++ message.take (rate.toNat - kctx.position))))
        (message.drop (rate.toNat - kctx.position)) (Nat.lt_succ_self _)
      simp only [hfull, decide_true, if_true, ne_eq, not_false_eq_true, and_self,
        List.nil_append, keccakAbsorbed_append]
      refine ⟨hstate, ?_⟩
      have hcons := Chunked.cons hfill hcut
      rwa [List.append_assoc, List.take_append_drop] at hcons
    · obtain ⟨hstate, hcut⟩ := keccakAbsorbBlocks_trace permute hpos kctx.state
        message (Nat.lt_succ_self _)
      simp only [hfull, decide_false, Bool.false_eq_true, if_false, List.nil_append]
      refine ⟨hstate, ?_⟩
      by_cases hempty : kctx.buffer = []
      · rw [hempty, List.nil_append, List.nil_append]
        exact hcut
      · -- The message does not fill the buffer up, so it has no block of its own.
        have hshort : kctx.buffer.length + message.length < rate.toNat := by
          have hlen : kctx.buffer.length ≠ 0 := fun h0 =>
            hempty (List.eq_nil_of_length_eq_zero h0)
          have hposition : kctx.position = kctx.buffer.length := rfl
          omega
        have hblocks := hcut.length_eq.1
        rw [Nat.div_eq_of_lt (by omega)] at hblocks
        have hnone := List.eq_nil_of_length_eq_zero hblocks
        have hrest := hcut.flatten
        rw [hnone, List.flatten_nil, List.nil_append] at hrest
        rw [hnone, hrest]
        exact .of_short (by rw [List.length_append]; exact hshort)
  · have hnil : message = [] := List.eq_nil_of_length_eq_zero (by simpa using hne)
    rw [if_neg hne, if_neg hne, hnil, List.append_nil]
    exact ⟨rfl, .of_short hbuf⟩

/-- A pad of `n` bytes that is written behind the pending bytes starts
with them. -/
theorem prefix_read {n : ℕ} {buffer : Bytes} {p : Mem} (hle : buffer.length ≤ n)
    (h : p.read 0 buffer.length = buffer) : buffer <+: p.read 0 n := by
  obtain ⟨m, rfl⟩ : ∃ m, n = buffer.length + m := ⟨n - buffer.length, by omega⟩
  rw [Mem.read_add, h]
  exact List.prefix_append _ _

/-- The blocks `qscKeccakFinalize` adds to those the stream fills. -/
def finalizeCount (rate : QscKeccakRate) (otplen position : ℕ) : ℕ :=
  if rate.toNat ≤ position + (keccakRightEncode (otplen * 8)).length then 2 else 1

/-- **Finalizing** pads the pending bytes: on their own if the length
encoding does not fit behind them. -/
theorem qscKeccakFinalizeTrace_padded (h : kctx.position < rate.toNat) (otplen : ℕ)
    (domain : UInt8) :
    Padded rate.toNat (finalizeCount rate otplen kctx.position) kctx.buffer
      (qscKeccakFinalizeTrace kctx rate otplen domain) := by
  have hbuf : kctx.buffer.length < rate.toNat := h
  have hzero : kctx.buffer.length / rate.toNat = 0 := Nat.div_eq_of_lt hbuf
  rw [qscKeccakFinalizeTrace, finalizeCount]
  by_cases hflush : rate.toNat ≤ kctx.position + (keccakRightEncode (otplen * 8)).length
  · simp only [hflush, decide_true, if_true]
    refine ⟨?_, ?_, ?_⟩
    · have hpad := prefix_read (p := Mem.zero.write 0 kctx.buffer) (Nat.le_of_lt hbuf)
        Mem.read_write_self
      rw [List.flatten_append, List.flatten_singleton]
      exact hpad.trans (List.prefix_append _ _)
    · intro b hb
      rcases List.mem_append.mp hb with hb | hb
      · rw [List.mem_singleton.mp hb, Mem.length_read]
      · rw [List.mem_singleton.mp hb, Mem.length_read]
    · rw [hzero]
      rfl
  · simp only [hflush, decide_false, Bool.false_eq_true, if_false, List.nil_append]
    refine ⟨?_, ?_, ?_⟩
    · rw [List.flatten_singleton]
      refine prefix_read (Nat.le_of_lt hbuf) ?_
      have hposition : kctx.position = kctx.buffer.length := rfl
      rw [Mem.read_write_below (by omega), Mem.read_write_below (by omega),
        Mem.read_write_below (by omega), Mem.read_write_self]
    · intro b hb
      rw [List.mem_singleton.mp hb, Mem.length_read]
    · rw [hzero]
      rfl

/-- A cleared pad holds zeros behind what is written. -/
theorem read_write_zero {n : ℕ} {bs : Bytes} (h : bs.length ≤ n) :
    (Mem.zero.write 0 bs).read 0 n = bs ++ List.replicate (n - bs.length) 0 := by
  obtain ⟨m, rfl⟩ : ∃ m, n = bs.length + m := ⟨n - bs.length, by omega⟩
  have hzero : ∀ m off, Mem.zero.read off m = List.replicate m 0 := fun m off => by
    refine List.ext_getElem (by simp) fun i h₁ h₂ => ?_
    rw [Mem.getElem_read, List.getElem_replicate]
    rfl
  rw [Mem.read_add, Mem.read_write_self, Mem.read_write_above (by omega), hzero,
    Nat.add_sub_cancel_left]

/-- **The state after finalizing**, of an output of one block. -/
theorem qscKeccakFinalize_trace {otplen : ℕ} (h : kctx.position < rate.toNat)
    (hpos : 0 < otplen) (hle : otplen ≤ rate.toNat) (permute) (domain : UInt8) :
    (qscKeccakFinalize permute kctx rate otplen domain).1 =
      ⟨keccakAbsorbed permute kctx.state (qscKeccakFinalizeTrace kctx rate otplen domain), []⟩ := by
  have hbuf : kctx.buffer.length < rate.toNat := h
  have hrate := rate.toNat_le
  have hone : (otplen + rate.toNat - 1) / rate.toNat = 1 := by
    rw [show otplen + rate.toNat - 1 = otplen - 1 + rate.toNat by omega,
      Nat.add_div_right _ rate.toNat_pos, Nat.div_eq_of_lt (by omega)]
  have hflush : keccakFastAbsorb kctx.state ((Mem.zero.write 0 kctx.buffer).read 0 rate.toNat)
      = keccakFastAbsorb kctx.state kctx.buffer := by
    rw [read_write_zero (Nat.le_of_lt hbuf), keccakFastAbsorb_append_zeros (by omega)]
  rw [qscKeccakFinalize, qscKeccakFinalizeTrace]
  by_cases hfl : rate.toNat ≤ kctx.position + (keccakRightEncode (otplen * 8)).length
  · simp only [hfl, decide_true, if_true, keccakOutput, hone, qscKeccakSqueezeblocks,
      keccakAbsorbed_append, keccakAbsorbed_cons, keccakAbsorbed_nil, hflush]
  · simp only [hfl, decide_false, Bool.false_eq_true, if_false, keccakOutput, hone,
      qscKeccakSqueezeblocks, List.nil_append, keccakAbsorbed_cons, keccakAbsorbed_nil]

/-! ## What the cipher absorbs -/

variable {ctx : RcsState}

/-- The MAC buffer of a cipher holds less than a block. -/
def RcsState.Pending (ctx : RcsState) : Prop := ctx.kstate.position < ctx.ctype.rate.toNat

/-- The blocks of `rcsAuthenticate`, the part both directions share. -/
def rcsAuthenticateTrace (K : Primitives) (ctx : RcsState) (cpt : Bytes) : List Bytes :=
  let kstate := qscKmacUpdate K.permute ctx.kstate ctx.ctype.rate ctx.nonce.val
  let ctr := qscIntutilsLe64to8 (32 + (ctx.counter + UInt64.ofNat cpt.length) + 8)
  let kstate' := qscKmacUpdate K.permute kstate ctx.ctype.rate cpt
  qscKeccakUpdateTrace ctx.kstate ctx.ctype.rate ctx.nonce.val ++
    qscKeccakUpdateTrace kstate ctx.ctype.rate cpt ++
    qscKeccakUpdateTrace kstate' ctx.ctype.rate ctr ++
    qscKeccakFinalizeTrace (qscKmacUpdate K.permute kstate' ctx.ctype.rate ctr) ctx.ctype.rate
      ctx.ctype.macSize keccakKmacDomainId

/-- Decryption absorbs the cipher-text as it came. -/
theorem qscRcsTransformTrace_decrypt {output input : Mem} {length : ℕ}
    (h : ctx.encrypt = false) :
    qscRcsTransformTrace K ctx output input length =
      rcsAuthenticateTrace K ctx (input.read 0 length) := by
  simp only [qscRcsTransformTrace, rcsMacUpdateTrace, rcsMacFinalizeTrace, rcsMacUpdate, h,
    Bool.false_eq_true, if_false, rcsAuthenticateTrace, Mem.length_read, List.append_assoc]

/-- Encryption absorbs the cipher-text it made. -/
theorem qscRcsTransformTrace_encrypt {output input : Mem} {length : ℕ}
    (h : ctx.encrypt = true) :
    qscRcsTransformTrace K ctx output input length =
      rcsAuthenticateTrace K ctx (rcsCtrTransform K ctx (input.read 0 length)).2 := by
  have hlen : (rcsCtrTransform K ctx (input.read 0 length)).2.length = length := by simp
  have hread : (output.write 0 (rcsCtrTransform K ctx (input.read 0 length)).2).read 0 length
      = (rcsCtrTransform K ctx (input.read 0 length)).2 :=
    Mem.read_write_of_length hlen
  simp only [rcsCtrTransform] at hlen hread
  simp only [qscRcsTransformTrace, rcsMacUpdateTrace, rcsMacFinalizeTrace, rcsMacUpdate,
    rcsCtrTransform, h, if_true, hread]
  simp only [rcsAuthenticateTrace, hlen, List.append_assoc]

/-- The stream a transform presents: the pending bytes, the nonce, the
cipher-text and the byte counter. -/
def rcsAuthenticateStream (ctx : RcsState) (cpt : Bytes) : Bytes :=
  ctx.kstate.buffer ++ ctx.nonce.val ++ cpt ++
    qscIntutilsLe64to8 (32 + (ctx.counter + UInt64.ofNat cpt.length) + 8)

/-- The tag fits one block. -/
theorem macSize_le (c : RcsCipherType) : c.macSize ≤ c.rate.toNat := by cases c <;> decide

/-- **Authenticating** absorbs its blocks, which are its stream behind
padding, and leaves nothing pending. -/
theorem rcsAuthenticate_trace (h : ctx.Pending) (K : Primitives) (cpt : Bytes) :
    (rcsAuthenticate K ctx cpt).1 =
        ⟨keccakAbsorbed K.permute ctx.kstate.state (rcsAuthenticateTrace K ctx cpt), []⟩ ∧
      Padded ctx.ctype.rate.toNat
        (finalizeCount ctx.ctype.rate ctx.ctype.macSize
          ((rcsAuthenticateStream ctx cpt).length % ctx.ctype.rate.toNat))
        (rcsAuthenticateStream ctx cpt) (rcsAuthenticateTrace K ctx cpt) := by
  obtain ⟨hs₁, hcut₁⟩ := qscKeccakUpdate_trace h K.permute ctx.nonce.val
  obtain ⟨hs₂, hcut₂⟩ := qscKeccakUpdate_trace hcut₁.short K.permute cpt
  obtain ⟨hs₃, hcut₃⟩ := qscKeccakUpdate_trace hcut₂.short K.permute
    (qscIntutilsLe64to8 (32 + (ctx.counter + UInt64.ofNat cpt.length) + 8))
  have hfin := qscKeccakFinalize_trace hcut₃.short (macSize_pos ctx.ctype) (macSize_le ctx.ctype)
    K.permute keccakKmacDomainId
  -- The three cuts are one cut of the whole stream, and what it leaves over is padded.
  have hcut := (hcut₁.append hcut₂).append hcut₃
  have hpad := qscKeccakFinalizeTrace_padded hcut₃.short ctx.ctype.macSize keccakKmacDomainId
  refine ⟨?_, ?_⟩
  · rw [rcsAuthenticate, rcsAuthenticateTrace]
    simp only [qscKmacFinalize, qscKmacUpdate]
    rw [hfin, hs₃, hs₂, hs₁]
    simp only [keccakAbsorbed_append]
  · have hposition := hcut.length_mod []
    rw [List.append_nil, List.append_nil, Nat.mod_eq_of_lt hcut.short] at hposition
    rw [QscKeccakState.position, hposition, ← List.append_nil (qscKeccakUpdate _ _ _ _).buffer]
      at hpad
    have hpadded := hcut.pad hpad
    rw [List.append_nil] at hpadded
    exact hpadded

/-- **Associated data** is absorbed with its length. -/
theorem qscRcsSetAssociated_trace {data : Bytes} (h : ctx.Pending) (hne : data ≠ []) :
    (qscRcsSetAssociated K ctx data).kstate.state =
        keccakAbsorbed K.permute ctx.kstate.state (qscRcsSetAssociatedTrace K ctx data) ∧
      Chunked ctx.ctype.rate.toNat
        (ctx.kstate.buffer ++ data ++ qscIntutilsLe32to8 (UInt32.ofNat data.length))
        (qscRcsSetAssociatedTrace K ctx data) (qscRcsSetAssociated K ctx data).kstate.buffer := by
  have hlen : data.length ≠ 0 := fun h0 => hne (List.eq_nil_of_length_eq_zero h0)
  obtain ⟨hs₁, hcut₁⟩ := qscKeccakUpdate_trace h K.permute data
  obtain ⟨hs₂, hcut₂⟩ := qscKeccakUpdate_trace hcut₁.short K.permute
    (qscIntutilsLe32to8 (UInt32.ofNat data.length))
  rw [qscRcsSetAssociated, qscRcsSetAssociatedTrace, if_pos hlen, if_pos hlen]
  simp only [rcsMacUpdate, rcsMacUpdateTrace, qscKmacUpdate]
  refine ⟨?_, hcut₁.append hcut₂⟩
  rw [hs₂, hs₁, keccakAbsorbed_append]

/-- Associated data leaves less than a block pending. -/
theorem RcsState.Pending.setAssociated {data : Bytes} (h : ctx.Pending) (hne : data ≠ []) :
    (qscRcsSetAssociated K ctx data).Pending := by
  have hcut := (qscRcsSetAssociated_trace (K := K) h hne).2
  rw [RcsState.Pending, qscRcsSetAssociated_ctype]
  exact hcut.short

end Qsmp
