import Qsmp.Common.Sponge
import Qsmp.Qsc.Blocks
/-!
# The MAC of the channel and KMAC

The blocks `qsc_kmac_initialize`, any updates and `qsc_kmac_finalize` add
into the state are compared with the blocks KMAC gives its sponge. Key and
customization are given as they should be, and the message however it was
cut; the end is, unless the length of the tag runs over the last block:
then the pending bytes are added on their own, without their padding.
-/

namespace Qsmp

/-! ## Lengths -/

/-- The loop counts the bytes of a number. -/
theorem keccakEncodeSize_eq : ∀ {fuel v : ℕ}, v < 256 ^ fuel →
    keccakEncodeSize fuel v = (Nat.digits 256 v).length
  | 0, v, h => by
      obtain rfl : v = 0 := by simpa using h
      rfl
  | fuel + 1, v, h => by
      rw [keccakEncodeSize]
      split
      · rename_i hv
        have hdiv : v / 256 < 256 ^ fuel := by
          rw [Nat.div_lt_iff_lt_mul (by decide), ← Nat.pow_succ]
          exact h
        rw [keccakEncodeSize_eq hdiv, Nat.digits_def' (by decide) (Nat.pos_of_ne_zero hv),
          List.length_cons]
      · rename_i hv
        obtain rfl : v = 0 := by simpa using hv
        rfl

/-- The bytes of a number are its digits. -/
theorem leBytes_digits (v : ℕ) :
    leBytes (Nat.digits 256 v).length v = (Nat.digits 256 v).map UInt8.ofNat := by
  induction v using Nat.strongRecOn with
  | ind v ih =>
    rcases Nat.eq_zero_or_pos v with rfl | hpos
    · rfl
    · have hbyte : UInt8.ofNat v = UInt8.ofNat (v % 256) := by
        apply UInt8.toNat_inj.1
        simp
      rw [Nat.digits_def' (by decide) hpos, List.length_cons, List.map_cons, leBytes,
        ih (v / 256) (Nat.div_lt_self hpos (by decide)), hbyte]

/-- **A length is encoded as it should be**, if it is a `size_t`. -/
theorem keccakEncode_eq {v : ℕ} (hlt : v < 2 ^ 64) : keccakEncode v = bigEndian v := by
  have hsize : keccakEncodeSize 8 v = (Nat.digits 256 v).length :=
    keccakEncodeSize_eq (Nat.lt_of_lt_of_eq hlt (by decide))
  rw [keccakEncode, hsize, bigEndian]
  split
  · rename_i hv
    rw [hv]
    rfl
  · rename_i hv
    have hpos : 0 < (Nat.digits 256 v).length :=
      List.length_pos_iff.2 (Nat.digits_ne_nil_iff_ne_zero.2 hv)
    rw [Nat.max_eq_left hpos, leBytes_digits]

theorem keccakLeftEncode_eq {v : ℕ} (hlt : v < 2 ^ 64) : keccakLeftEncode v = leftEncode v := by
  rw [keccakLeftEncode, leftEncode, keccakEncode_eq hlt]

theorem keccakRightEncode_eq {v : ℕ} (hlt : v < 2 ^ 64) :
    keccakRightEncode v = rightEncode v := by
  rw [keccakRightEncode, rightEncode, keccakEncode_eq hlt]

/-! ## The blocks of the key -/

/-- The blocks of `keccakAbsorbPad`, and the pad it leaves. -/
def keccakAbsorbPadTrace (rate : ℕ) : Bytes → Bytes → List Bytes × Bytes
  | pad, [] => ([], pad)
  | pad, b :: bs =>
    if pad.length = rate then
      (pad :: (keccakAbsorbPadTrace rate [b] bs).1, (keccakAbsorbPadTrace rate [b] bs).2)
    else keccakAbsorbPadTrace rate (pad ++ [b]) bs

/-- The block of `keccakAbsorbCleared`. -/
def keccakAbsorbClearedTrace (rate : ℕ) (pad : Bytes) : List Bytes :=
  [pad ++ List.replicate (rate - pad.length) 0]

/-- The blocks of `qscKeccakAbsorbKeyCustom`. -/
def qscKeccakAbsorbKeyCustomTrace (rate : QscKeccakRate) (key custom name : Bytes) :
    List Bytes :=
  let pad := keccakLeftEncode rate.toNat ++ keccakLeftEncode (name.length * 8) ++ name
    ++ keccakLeftEncode (custom.length * 8)
  let (blocks, pad) := keccakAbsorbPadTrace rate.toNat pad custom
  let first := blocks ++ keccakAbsorbClearedTrace rate.toNat pad
  let pad := keccakLeftEncode rate.toNat ++ keccakLeftEncode (key.length * 8)
  let (blocks, pad) := keccakAbsorbPadTrace rate.toNat pad key
  first ++ (blocks ++ keccakAbsorbClearedTrace rate.toNat pad)

variable {permute : KeccakArray → KeccakArray} {rate : QscKeccakRate} {n otplen : ℕ}
variable {key custom name pad bs message : Bytes} {state : KeccakArray} {kctx : QscKeccakState}

theorem keccakAbsorbPad_trace : ∀ (bs pad : Bytes) (state : KeccakArray),
    keccakAbsorbPad permute n state pad bs =
      (keccakAbsorbed permute state (keccakAbsorbPadTrace n pad bs).1,
        (keccakAbsorbPadTrace n pad bs).2)
  | [], _, _ => rfl
  | b :: bs, pad, state => by
      rw [keccakAbsorbPad, keccakAbsorbPadTrace]
      split
      · rw [keccakAbsorbPad_trace bs]
        rfl
      · rw [keccakAbsorbPad_trace bs]

/-- **The pad is filled from the input** and absorbed when it is full; it
is never left empty. -/
theorem keccakAbsorbPadTrace_cut : ∀ (bs pad : Bytes), 0 < pad.length → pad.length ≤ n →
    (keccakAbsorbPadTrace n pad bs).1.flatten ++ (keccakAbsorbPadTrace n pad bs).2 = pad ++ bs ∧
      (∀ block ∈ (keccakAbsorbPadTrace n pad bs).1, block.length = n) ∧
      0 < (keccakAbsorbPadTrace n pad bs).2.length ∧ (keccakAbsorbPadTrace n pad bs).2.length ≤ n
  | [], pad, hpos, hle =>
    ⟨(List.append_nil pad).symm, fun _ h => absurd h List.not_mem_nil, hpos, hle⟩
  | b :: bs, pad, hpos, hle => by
      rw [keccakAbsorbPadTrace]
      split
      · rename_i hfull
        obtain ⟨hflat, hblocks, hrest, hrest'⟩ := keccakAbsorbPadTrace_cut bs [b] Nat.one_pos
          (show 1 ≤ n by omega)
        refine ⟨?_, ?_, hrest, hrest'⟩
        · rw [List.flatten_cons, List.append_assoc, hflat]
          rfl
        · intro block hblock
          obtain rfl | hblock := List.mem_cons.1 hblock
          · exact hfull
          · exact hblocks block hblock
      · rename_i hfull
        have hnext : (pad ++ [b]).length = pad.length + 1 := List.length_append
        obtain ⟨hflat, hrest⟩ := keccakAbsorbPadTrace_cut bs (pad ++ [b]) (by omega) (by omega)
        refine ⟨?_, hrest⟩
        rw [hflat, List.append_assoc]
        rfl

/-- **An input behind a pad** is absorbed filled up to whole blocks. -/
theorem keccakAbsorbPadTrace_fillUp (hpos : 0 < pad.length) (hle : pad.length ≤ n) (bs : Bytes) :
    ((keccakAbsorbPadTrace n pad bs).1 ++
        keccakAbsorbClearedTrace n (keccakAbsorbPadTrace n pad bs).2).flatten =
      fillUp n (pad ++ bs) ∧
    ∀ block ∈ (keccakAbsorbPadTrace n pad bs).1 ++
        keccakAbsorbClearedTrace n (keccakAbsorbPadTrace n pad bs).2, block.length = n := by
  obtain ⟨hflat, hblocks, hrest, hrest'⟩ := keccakAbsorbPadTrace_cut bs pad hpos hle
  constructor
  · rw [← hflat, fillUp_append hblocks, fillUp_of_le hrest hrest', keccakAbsorbClearedTrace,
      List.flatten_append, List.flatten_singleton]
  · intro block hblock
    obtain hblock | hblock := List.mem_append.1 hblock
    · exact hblocks block hblock
    · rw [List.mem_singleton.1 hblock, List.length_append, List.length_replicate]
      omega

/-- **The state after the key** is the one after its blocks. -/
theorem qscKeccakAbsorbKeyCustom_trace :
    qscKeccakAbsorbKeyCustom permute rate key custom name =
      ⟨keccakAbsorbed permute (Octets.zero _)
        (qscKeccakAbsorbKeyCustomTrace rate key custom name), []⟩ := by
  simp only [qscKeccakAbsorbKeyCustom, qscKeccakAbsorbKeyCustomTrace, keccakAbsorbPad_trace,
    keccakAbsorbed_append, keccakAbsorbClearedTrace, keccakAbsorbed_cons, keccakAbsorbed_nil,
    keccakAbsorbCleared]

theorem keccakEncodeSize_le : ∀ {fuel v : ℕ}, keccakEncodeSize fuel v ≤ fuel
  | 0, _ => Nat.le_refl 0
  | fuel + 1, v => by
      rw [keccakEncodeSize]
      split
      · exact Nat.succ_le_succ keccakEncodeSize_le
      · exact Nat.zero_le _

/-- A length takes nine bytes at most, and two at least. -/
theorem length_keccakLeftEncode {v : ℕ} :
    1 < (keccakLeftEncode v).length ∧ (keccakLeftEncode v).length ≤ 9 := by
  have hsize : keccakEncodeSize 8 v ≤ 8 := keccakEncodeSize_le
  rw [keccakLeftEncode, List.length_cons, keccakEncode, List.length_reverse, length_leBytes]
  omega

/-- The name of the function. -/
def kmacName : Bytes := [0x4B, 0x4D, 0x41, 0x43]

/-- **Customization and key** are absorbed as KMAC gives them. -/
theorem qscKeccakAbsorbKeyCustomTrace_eq (hkey : key.length * 8 < 2 ^ 64)
    (hcustom : custom.length * 8 < 2 ^ 64) :
    (qscKeccakAbsorbKeyCustomTrace rate key custom kmacName).flatten =
      bytepad (encodeString kmacName ++ encodeString custom) rate.toNat ++
        bytepad (encodeString key) rate.toNat ∧
    ∀ block ∈ qscKeccakAbsorbKeyCustomTrace rate key custom kmacName,
      block.length = rate.toNat := by
  have hrate : 72 ≤ rate.toNat := by cases rate <;> decide
  have hratelt : rate.toNat < 2 ^ 64 := Nat.lt_of_le_of_lt rate.toNat_le (by decide)
  have hname : kmacName.length * 8 = 32 := rfl
  have hfour : kmacName.length = 4 := rfl
  have hlen := fun v => length_keccakLeftEncode (v := v)
  have h₁ := hlen rate.toNat
  have h₂ := hlen 32
  have h₃ := hlen (custom.length * 8)
  have h₄ := hlen (key.length * 8)
  obtain ⟨hflat, hfull⟩ := keccakAbsorbPadTrace_fillUp (n := rate.toNat)
    (show 0 < (keccakLeftEncode rate.toNat ++ keccakLeftEncode 32 ++ kmacName ++
      keccakLeftEncode (custom.length * 8)).length by
        simp only [List.length_append]
        omega)
    (by
      simp only [List.length_append]
      omega) custom
  obtain ⟨hflat', hfull'⟩ := keccakAbsorbPadTrace_fillUp (n := rate.toNat)
    (show 0 < (keccakLeftEncode rate.toNat ++ keccakLeftEncode (key.length * 8)).length by
      simp only [List.length_append]
      omega)
    (by
      simp only [List.length_append]
      omega) key
  constructor
  · simp only [qscKeccakAbsorbKeyCustomTrace, hname]
    rw [List.flatten_append, hflat, hflat', bytepad, bytepad, encodeString, encodeString,
      encodeString, hname, keccakLeftEncode_eq hratelt, keccakLeftEncode_eq (by decide),
      keccakLeftEncode_eq hcustom, keccakLeftEncode_eq hkey]
    simp only [List.append_assoc]
  · intro block hblock
    simp only [qscKeccakAbsorbKeyCustomTrace, hname] at hblock
    obtain hblock | hblock := List.mem_append.1 hblock
    · exact hfull block hblock
    · exact hfull' block hblock

/-! ## The blocks of the message -/

/-- The state after updates with the parts of a message. -/
def kmacUpdates (permute : KeccakArray → KeccakArray) (rate : QscKeccakRate)
    (ctx : QscKeccakState) (chunks : List Bytes) : QscKeccakState :=
  chunks.foldl (fun ctx chunk => qscKmacUpdate permute ctx rate chunk) ctx

/-- Their blocks. -/
def kmacUpdatesTrace (permute : KeccakArray → KeccakArray) (rate : QscKeccakRate)
    (ctx : QscKeccakState) (chunks : List Bytes) : List Bytes :=
  transcript (fun ctx chunk => qscKeccakUpdateTrace ctx rate chunk)
    (fun ctx chunk => qscKmacUpdate permute ctx rate chunk) ctx chunks

/-- **However a message is cut**, its updates absorb the blocks of the
whole. -/
theorem kmacUpdates_trace : ∀ (chunks : List Bytes) {kctx : QscKeccakState},
    kctx.position < rate.toNat →
      (kmacUpdates permute rate kctx chunks).state =
          keccakAbsorbed permute kctx.state (kmacUpdatesTrace permute rate kctx chunks) ∧
        Chunked rate.toNat (kctx.buffer ++ chunks.flatten)
          (kmacUpdatesTrace permute rate kctx chunks) (kmacUpdates permute rate kctx chunks).buffer
  | [], kctx, h => by
      rw [List.flatten_nil, List.append_nil]
      exact ⟨rfl, .of_short h⟩
  | chunk :: chunks, kctx, h => by
      obtain ⟨hstate, hcut⟩ := qscKeccakUpdate_trace h permute chunk
      obtain ⟨hstate', hcut'⟩ := kmacUpdates_trace chunks hcut.short
      constructor
      · rw [kmacUpdatesTrace, transcript, keccakAbsorbed_append, ← hstate]
        exact hstate'
      · rw [List.flatten_cons, ← List.append_assoc]
        exact hcut.append hcut'

/-! ## The last blocks -/

theorem prefix_padSuffix (rate : ℕ) (suffix : UInt8) (s : Bytes) :
    s <+: padSuffix rate suffix s := by
  rw [padSuffix]
  split
  · exact List.prefix_append _ _
  · exact List.prefix_append _ _

/-- **The pad** that ends in the suffix and has its last bit set is the
padded string. -/
theorem read_pad {r : ℕ} {s : Bytes} {suffix : UInt8} (h : s.length < r) :
    ((Mem.zero.write 0 (s ++ [suffix])).write (r - 1)
      [Mem.zero.write 0 (s ++ [suffix]) (r - 1) ||| 128]).read 0 r = padSuffix r suffix s := by
  have hlen : (s ++ [suffix]).length = s.length + 1 := List.length_append
  obtain ⟨m, rfl⟩ : ∃ m, r = s.length + (m + 1) := ⟨r - s.length - 1, by omega⟩
  have hlast : s.length + (m + 1) - 1 = s.length + m := by omega
  have hread : ∀ (p : Mem) (off : ℕ) (b : UInt8), (p.write off [b]).read off 1 = [b] :=
    fun _ _ _ => Mem.read_write_of_length rfl
  rw [padSuffix, Nat.mod_eq_of_lt h, Nat.add_sub_cancel_left, hlast, Mem.read_add]
  rcases m with _ | m
  · -- suffix and last bit share the last byte
    have hbyte : Mem.zero.write 0 (s ++ [suffix]) (0 + s.length) = suffix := by
      rw [Mem.write_add (by omega)]
      simp
    rw [Nat.zero_add] at hbyte
    rw [if_pos rfl, Nat.add_zero, Mem.read_write_below (by omega), hbyte, Nat.zero_add,
      Nat.zero_add, hread, Mem.read_write_start (by omega), List.take_left' rfl]
  · have hbyte : Mem.zero.write 0 (s ++ [suffix]) (s.length + (m + 1)) = 0 :=
      Mem.write_of_ge (by omega)
    rw [if_neg (by omega), hbyte, ← Mem.read_add, Nat.add_succ s.length (m + 1),
      ← Nat.add_one, Mem.read_add, Nat.zero_add, Mem.read_write_below (by omega),
      hread, read_write_zero (by omega), hlen]
    have hzeros : s.length + (m + 1) - (s.length + 1) = m + 1 + 1 - 2 := by omega
    rw [hzeros]
    simp

/-- **When the end is KMAC's.** The last blocks are the pending bytes with
the length of the tag behind them, padded, exactly if these fit one
block. -/
theorem qscKeccakFinalizeTrace_iff (h : kctx.position < rate.toNat) (hout : otplen ≠ 0)
    (hlt : otplen * 8 < 2 ^ 64) (domain : UInt8) :
    (qscKeccakFinalizeTrace kctx rate otplen domain).flatten =
        padSuffix rate.toNat domain (kctx.buffer ++ rightEncode (otplen * 8)) ↔
      kctx.position + (rightEncode (otplen * 8)).length < rate.toNat := by
  have hbuf : kctx.buffer.length < rate.toNat := h
  have hposition : kctx.position = kctx.buffer.length := rfl
  rw [qscKeccakFinalizeTrace, keccakRightEncode_eq hlt]
  by_cases hflush : rate.toNat ≤ kctx.position + (rightEncode (otplen * 8)).length
  · -- the pending bytes are absorbed with a zero where the length begins
    refine iff_of_false (fun heq => ?_) (by omega)
    obtain ⟨b, t, hencode, hb⟩ := rightEncode_eq_cons (n := otplen * 8) (by omega)
    obtain ⟨tail, htail⟩ := prefix_padSuffix rate.toNat domain
      (kctx.buffer ++ rightEncode (otplen * 8))
    obtain ⟨m, hm⟩ : ∃ m, rate.toNat - kctx.buffer.length = m + 1 :=
      ⟨rate.toNat - kctx.buffer.length - 1, by omega⟩
    simp only [hflush, decide_true, if_true] at heq
    rw [List.flatten_append, List.flatten_singleton, read_write_zero (Nat.le_of_lt hbuf), hm,
      ← htail, hencode, List.append_assoc, List.append_assoc] at heq
    have htails := List.append_cancel_left heq
    rw [List.replicate_succ, List.cons_append, List.cons_append] at htails
    exact hb (List.cons.inj htails).1.symm
  · refine iff_of_true ?_ (by omega)
    have hlen : (kctx.buffer ++ rightEncode (otplen * 8)).length =
        kctx.position + (rightEncode (otplen * 8)).length := List.length_append
    simp only [hflush, decide_false, Bool.false_eq_true, if_false, List.nil_append,
      List.flatten_singleton]
    rw [Mem.write_behind hposition.symm, Mem.write_behind hlen, read_pad (by omega)]

/-- The last blocks are whole. -/
theorem qscKeccakFinalizeTrace_full {domain : UInt8} {block : Bytes}
    (hblock : block ∈ qscKeccakFinalizeTrace kctx rate otplen domain) :
    block.length = rate.toNat := by
  rw [qscKeccakFinalizeTrace] at hblock
  obtain hblock | hblock := List.mem_append.1 hblock
  · split at hblock
    · rw [List.mem_singleton.1 hblock, Mem.length_read]
    · exact absurd hblock List.not_mem_nil
  · rw [List.mem_singleton.1 hblock, Mem.length_read]

/-! ## The tag -/

/-- The bytes the sponge gives out between two permutations. -/
def keccakOut (rate : QscKeccakRate) (state : KeccakArray) : Bytes := state.val.take rate.toNat

theorem qscKeccakSqueezeblocks_squeeze : ∀ (n : ℕ) (state : KeccakArray),
    (qscKeccakSqueezeblocks permute rate n state).2 =
      spongeSqueeze permute (keccakOut rate) n (permute state)
  | 0, _ => rfl
  | n + 1, state => by
      rw [qscKeccakSqueezeblocks, spongeSqueeze, ← qscKeccakSqueezeblocks_squeeze n]
      rfl

/-- The blocks the tag is taken from. -/
def tagBlocks (rate : QscKeccakRate) (otplen : ℕ) : ℕ := (otplen + rate.toNat - 1) / rate.toNat

/-- **The tag** is squeezed out of the state after the last blocks. -/
theorem qscKeccakFinalize_tag (h : kctx.position < rate.toNat) (domain : UInt8) :
    (qscKeccakFinalize permute kctx rate otplen domain).2 =
      (spongeSqueeze permute (keccakOut rate) (tagBlocks rate otplen)
        (keccakAbsorbed permute kctx.state
          (qscKeccakFinalizeTrace kctx rate otplen domain))).take otplen := by
  have hbuf : kctx.buffer.length < rate.toNat := h
  have hrate := rate.toNat_le
  have hflush : keccakFastAbsorb kctx.state ((Mem.zero.write 0 kctx.buffer).read 0 rate.toNat)
      = keccakFastAbsorb kctx.state kctx.buffer := by
    rw [read_write_zero (Nat.le_of_lt hbuf), keccakFastAbsorb_append_zeros (by omega)]
  rw [qscKeccakFinalize, qscKeccakFinalizeTrace, tagBlocks]
  by_cases hfl : rate.toNat ≤ kctx.position + (keccakRightEncode (otplen * 8)).length
  · simp only [hfl, decide_true, if_true, keccakOutput, qscKeccakSqueezeblocks_squeeze,
      keccakAbsorbed_append, keccakAbsorbed_cons, keccakAbsorbed_nil, hflush]
  · simp only [hfl, decide_false, Bool.false_eq_true, if_false, keccakOutput,
      qscKeccakSqueezeblocks_squeeze, List.nil_append, keccakAbsorbed_cons, keccakAbsorbed_nil]

/-! ## The whole -/

/-- `qsc_kmac_initialize`, updates with the parts of a message, and
`qsc_kmac_finalize`. -/
def qscKmac (permute : KeccakArray → KeccakArray) (rate : QscKeccakRate) (key custom : Bytes)
    (chunks : List Bytes) (otplen : ℕ) : Bytes :=
  (qscKmacFinalize permute
    (kmacUpdates permute rate (qscKmacInitialize permute rate key custom) chunks) rate otplen).2

/-- Its blocks. -/
def qscKmacTrace (permute : KeccakArray → KeccakArray) (rate : QscKeccakRate)
    (key custom : Bytes) (chunks : List Bytes) (otplen : ℕ) : List Bytes :=
  qscKeccakAbsorbKeyCustomTrace rate key custom kmacName ++
    (kmacUpdatesTrace permute rate (qscKmacInitialize permute rate key custom) chunks ++
      qscKeccakFinalizeTrace
        (kmacUpdates permute rate (qscKmacInitialize permute rate key custom) chunks) rate otplen
        keccakKmacDomainId)

/-- **The MAC is KMAC** for a key, a customization, a cut message and a
tag: the blocks are those KMAC gives its sponge, the tag is what the sponge
gives out, and it does not depend on how the message was cut. -/
structure IsKmac (rate : QscKeccakRate) (key custom : Bytes) (chunks : List Bytes)
    (otplen : ℕ) : Prop where
  blocks : ∀ permute, Chunked rate.toNat
    (kmacData rate.toNat key custom chunks.flatten (otplen * 8))
    (qscKmacTrace permute rate key custom chunks otplen) []
  tag : ∀ permute, qscKmac permute rate key custom chunks otplen =
    (spongeSqueeze permute (keccakOut rate) (tagBlocks rate otplen)
      (spongeAbsorb keccakFastAbsorb permute (Octets.zero _)
        (qscKmacTrace permute rate key custom chunks otplen))).take otplen
  uncut : ∀ permute, ∀ chunks' : List Bytes, chunks'.flatten = chunks.flatten →
    qscKmac permute rate key custom chunks' otplen = qscKmac permute rate key custom chunks otplen

variable {chunks chunks' : List Bytes}

/-- After the key nothing is pending. -/
theorem qscKmacInitialize_trace : qscKmacInitialize permute rate key custom =
    ⟨keccakAbsorbed permute (Octets.zero _)
      (qscKeccakAbsorbKeyCustomTrace rate key custom kmacName), []⟩ :=
  qscKeccakAbsorbKeyCustom_trace

/-- **After the key and the parts of a message** the blocks of both are
absorbed, and what the message leaves over is pending. -/
theorem kmacUpdates_initialize (permute : KeccakArray → KeccakArray) (rate : QscKeccakRate)
    (key custom : Bytes) (chunks : List Bytes) :
    (kmacUpdates permute rate (qscKmacInitialize permute rate key custom) chunks).state =
        keccakAbsorbed permute (Octets.zero _)
          (qscKeccakAbsorbKeyCustomTrace rate key custom kmacName ++
            kmacUpdatesTrace permute rate (qscKmacInitialize permute rate key custom) chunks) ∧
      Chunked rate.toNat chunks.flatten
        (kmacUpdatesTrace permute rate (qscKmacInitialize permute rate key custom) chunks)
        (kmacUpdates permute rate (qscKmacInitialize permute rate key custom) chunks).buffer := by
  have hinit : qscKmacInitialize permute rate key custom = _ := qscKmacInitialize_trace
  have hposition : (qscKmacInitialize permute rate key custom).position < rate.toNat := by
    rw [hinit]
    exact rate.toNat_pos
  obtain ⟨hstate, hcut⟩ : (kmacUpdates permute rate (qscKmacInitialize permute rate key custom)
      chunks).state = _ ∧ _ := kmacUpdates_trace chunks hposition
  have hbuffer : (qscKmacInitialize permute rate key custom).buffer = [] := by rw [hinit]
  rw [hbuffer, List.nil_append] at hcut
  refine ⟨?_, hcut⟩
  rw [hstate, keccakAbsorbed_append]
  congr 1
  rw [hinit]

/-- **The blocks absorbed are KMAC's** exactly if the length of the tag
fits behind the pending bytes. -/
theorem qscKmacTrace_iff (permute : KeccakArray → KeccakArray) (hkey : key.length * 8 < 2 ^ 64)
    (hcustom : custom.length * 8 < 2 ^ 64) (hout : otplen ≠ 0) (hlt : otplen * 8 < 2 ^ 64) :
    Chunked rate.toNat (kmacData rate.toNat key custom chunks.flatten (otplen * 8))
        (qscKmacTrace permute rate key custom chunks otplen) [] ↔
      chunks.flatten.length % rate.toNat + (rightEncode (otplen * 8)).length < rate.toNat := by
  obtain ⟨-, hcut⟩ := kmacUpdates_initialize permute rate key custom chunks
  obtain ⟨hkeyflat, hkeyfull⟩ : (qscKeccakAbsorbKeyCustomTrace rate key custom kmacName).flatten =
      _ ∧ _ := qscKeccakAbsorbKeyCustomTrace_eq hkey hcustom
  have hend := qscKeccakFinalizeTrace_iff hcut.short hout hlt keccakKmacDomainId
  have hposition : (kmacUpdates permute rate (qscKmacInitialize permute rate key custom)
      chunks).position = chunks.flatten.length % rate.toNat := hcut.length_eq.2
  rw [hposition] at hend
  rw [← hend]
  have hdata : kmacData rate.toNat key custom chunks.flatten (otplen * 8) =
      (qscKeccakAbsorbKeyCustomTrace rate key custom kmacName).flatten ++
        ((kmacUpdatesTrace permute rate (qscKmacInitialize permute rate key custom)
          chunks).flatten ++ padSuffix rate.toNat keccakKmacDomainId
          ((kmacUpdates permute rate (qscKmacInitialize permute rate key custom) chunks).buffer ++
            rightEncode (otplen * 8))) := by
    rw [← padSuffix_append hcut.full, ← List.append_assoc _ _ (rightEncode _), hcut.flatten,
      hkeyflat]
    rfl
  constructor
  · intro h
    have hflat := h.flatten
    rw [qscKmacTrace, List.append_nil, List.flatten_append, List.flatten_append, hdata] at hflat
    exact List.append_cancel_left (List.append_cancel_left hflat)
  · intro h
    refine ⟨?_, ?_, rate.toNat_pos⟩
    · rw [qscKmacTrace, List.append_nil, List.flatten_append, List.flatten_append, h, hdata]
    · intro block hblock
      rw [qscKmacTrace, List.mem_append, List.mem_append] at hblock
      obtain hblock | hblock | hblock := hblock
      · exact hkeyfull block hblock
      · exact hcut.full block hblock
      · exact qscKeccakFinalizeTrace_full hblock

/-- The tag comes out of the sponge that took in the blocks. -/
theorem qscKmac_squeeze (permute : KeccakArray → KeccakArray) (rate : QscKeccakRate)
    (key custom : Bytes) (chunks : List Bytes) (otplen : ℕ) :
    qscKmac permute rate key custom chunks otplen =
      (spongeSqueeze permute (keccakOut rate) (tagBlocks rate otplen)
        (spongeAbsorb keccakFastAbsorb permute (Octets.zero _)
          (qscKmacTrace permute rate key custom chunks otplen))).take otplen := by
  obtain ⟨hstate, hcut⟩ := kmacUpdates_initialize permute rate key custom chunks
  have htag : (qscKeccakFinalize permute _ rate otplen keccakKmacDomainId).2 = _ :=
    qscKeccakFinalize_tag hcut.short keccakKmacDomainId
  rw [qscKmac, qscKmacFinalize, htag, hstate, ← keccakAbsorbed_append, List.append_assoc]
  rfl

/-- **A message is one message however it is cut.** -/
theorem kmacUpdates_uncut (permute : KeccakArray → KeccakArray)
    (h : chunks'.flatten = chunks.flatten) :
    kmacUpdates permute rate (qscKmacInitialize permute rate key custom) chunks' =
      kmacUpdates permute rate (qscKmacInitialize permute rate key custom) chunks := by
  obtain ⟨hstate, hcut⟩ := kmacUpdates_initialize permute rate key custom chunks
  obtain ⟨hstate', hcut'⟩ := kmacUpdates_initialize permute rate key custom chunks'
  rw [h] at hcut'
  obtain ⟨hblocks, hbuffer⟩ := hcut'.unique hcut
  refine QscKeccakState.ext ?_ hbuffer
  rw [hstate, hstate', hblocks]

/-- Where the length of the tag has room, everything is as it should be. -/
theorem isKmac_of_room (hkey : key.length * 8 < 2 ^ 64) (hcustom : custom.length * 8 < 2 ^ 64)
    (hout : otplen ≠ 0) (hlt : otplen * 8 < 2 ^ 64)
    (h : chunks.flatten.length % rate.toNat + (rightEncode (otplen * 8)).length < rate.toNat) :
    IsKmac rate key custom chunks otplen := by
  refine ⟨fun permute => (qscKmacTrace_iff permute hkey hcustom hout hlt).2 h,
    fun permute => qscKmac_squeeze permute rate key custom chunks otplen,
    fun permute chunks' hflat => ?_⟩
  rw [qscKmac, qscKmac, kmacUpdates_uncut permute hflat]

/-- **When the MAC is KMAC**: exactly for messages behind whose last block
the length of the tag has room. -/
theorem qscKmac_isKmac_iff (rate : QscKeccakRate) (key custom : Bytes) (chunks : List Bytes)
    (otplen : ℕ) (hkey : key.length * 8 < 2 ^ 64) (hcustom : custom.length * 8 < 2 ^ 64)
    (hout : otplen ≠ 0) (hlt : otplen * 8 < 2 ^ 64) :
    IsKmac rate key custom chunks otplen ↔
      chunks.flatten.length % rate.toNat + (rightEncode (otplen * 8)).length < rate.toNat :=
  ⟨fun h => (qscKmacTrace_iff id hkey hcustom hout hlt).1 (h.blocks id),
    isKmac_of_room hkey hcustom hout hlt⟩

/-- A message in two pieces under a key and a customization, for the shorter
tag. -/
theorem qscKmac_isKmac_pieces : IsKmac .rate256 [1, 2, 3] [82, 67, 83] [[5, 6], [7]] 32 :=
  (qscKmac_isKmac_iff .rate256 [1, 2, 3] [82, 67, 83] [[5, 6], [7]] 32 (by decide) (by decide)
    (by decide) (by decide)).2 (by decide)

/-- **A message three bytes short of a block** is the first whose MAC is not
KMAC. -/
theorem not_isKmac_short :
    ¬ ∀ (key custom : Bytes) (chunks : List Bytes), IsKmac .rate256 key custom chunks 32 := by
  intro h
  have hshort : ∀ n : ℕ, n % 136 + 3 < 136 := fun n => by
    have hblocks := (h [] [] [List.replicate n 0]).blocks id
    have hlen := (qscKmacTrace_iff id (by decide) (by decide) (by decide) (by decide)).1 hblocks
    have hthree : (rightEncode (32 * 8)).length = 3 := by decide
    rwa [List.flatten_singleton, List.length_replicate, hthree] at hlen
  exact absurd (hshort 133) (by decide)

end Qsmp
