import Qsmp.Qsc.KeccakPermute
import Qsmp.Qsc.Kmac
/-!
# The hashes are the standard's

SHA3 in one call and in parts, cSHAKE in one call and block by block, and
the generator that runs on it. Each is compared with a sponge that takes
in the string the standard writes for it and gives its bytes out. cSHAKE
writes the length of its customization behind the name, wherever in a
block the name ends, and looks for the end of the block only between the
bytes of a text: the length has to fit.
-/

namespace Qsmp

/-! ## The code -/

section Code

variable (permute : KeccakArray → KeccakArray) (rate : QscKeccakRate)

/-- `qsc_sha3_update`, part after part, behind `qsc_sha3_initialize`. -/
def sha3Updates (parts : List Bytes) : QscKeccakState :=
  parts.foldl (fun ctx part => qscSha3Update permute ctx rate part) .init

/-- `QSC_KECCAK_SHAKE_DOMAIN_ID` -/
def keccakShakeDomainId : UInt8 := 0x1F

/-- `qsc_shake_initialize` -/
def qscShakeInitialize (key : Bytes) : QscKeccakState :=
  qscKeccakAbsorb permute .init rate key keccakShakeDomainId

/-- Blocks asked of `qsc_cshake_squeezeblocks` call after call. -/
def cshakeCalls : QscKeccakState → List ℕ → Bytes
  | _, [] => []
  | ctx, nblocks :: calls =>
    (qscCshakeSqueezeblocks permute ctx rate nblocks).2 ++
      cshakeCalls (qscCshakeSqueezeblocks permute ctx rate nblocks).1 calls

/-- How the one-call functions end: whole blocks, and one more for the
rest. -/
def shakeOutput (ctx : QscKeccakState) (otplen : ℕ) : Bytes :=
  let nblocks := otplen / rate.toNat
  let (ctx, output) := qscCshakeSqueezeblocks permute ctx rate nblocks
  let otplen := otplen - nblocks * rate.toNat
  if otplen ≠ 0 then output ++ (qscCshakeSqueezeblocks permute ctx rate 1).2.take otplen
  else output

/-- `qsc_shake128_compute`, `qsc_shake256_compute` and
`qsc_shake512_compute`, by rate. -/
def qscShakeCompute (otplen : ℕ) (key : Bytes) : Bytes :=
  shakeOutput permute rate (qscShakeInitialize permute rate key) otplen

/-- `qsc_cshake128_compute`, `qsc_cshake256_compute` and
`qsc_cshake512_compute`. -/
def qscCshakeCompute (otplen : ℕ) (key name custom : Bytes) : Bytes :=
  if custom.length + name.length ≠ 0 then
    shakeOutput permute rate (qscCshakeInitialize permute rate key name custom) otplen
  else shakeOutput permute rate (qscShakeInitialize permute rate key) otplen

end Code

/-- The values `acp_collect_statistics` asks the system for, in the order
of its calls, as the bytes it copies. -/
structure AcpStatistics where
  (timestamp computerName processId userName uptime : Bytes)
  (driveTimestamp driveSpace memoryTimestamp memoryStatistics : Bytes)

/-- The buffer they are copied into, one behind the other. -/
def AcpStatistics.buffer (s : AcpStatistics) : Bytes :=
  s.timestamp ++ s.computerName ++ s.processId ++ s.userName ++ s.uptime ++ s.driveTimestamp ++
    s.driveSpace ++ s.memoryTimestamp ++ s.memoryStatistics

/-- `acp_collect_statistics` -/
def acpCollectStatistics (permute : KeccakArray → KeccakArray) (s : AcpStatistics) : Octets 64 :=
  qscSha3Compute512 permute s.buffer

/-- What the processor and the system answer: `rdp` is the answer of
`qsc_rdp_generate`, `csp` those of `qsc_csp_generate`, by call. -/
structure AcpSources where
  statistics : AcpStatistics
  rdp : Option (Octets 64)
  csp : ℕ → Option (Octets 64)

/-- `qsc_acp_generate`. The output is there if it returns true. -/
def qscAcpGenerate (permute : KeccakArray → KeccakArray) (src : AcpSources) (length : ℕ) :
    Option Bytes :=
  let stat := acpCollectStatistics permute src.statistics
  let (cust, calls) := if src.rdp.isSome then (src.rdp, 0) else (src.csp 0, 1)
  cust.bind fun cust => (src.csp calls).map fun key =>
    qscCshakeCompute permute .rate512 length key.val stat.val cust.val

/-! ## The standard -/

variable (permute : KeccakArray → KeccakArray) (rate : QscKeccakRate)

/-- **The first bytes of a sponge** that took in a string. -/
def spongeOf (data : Bytes) (otplen : ℕ) : Bytes :=
  (spongeSqueeze permute (keccakOut rate) (tagBlocks rate otplen)
    (spongeAbsorb keccakFastAbsorb permute (Octets.zero _) (wholeBlocks rate.toNat data))).take
    otplen

variable {permute rate}
variable {ctx : QscKeccakState} {message key name custom : Bytes} {otplen : ℕ}

/-! ## Absorbing a whole message -/

/-- A text has its whole blocks and less than one more. -/
theorem chunked_wholeBlocks (rate : QscKeccakRate) (message : Bytes) :
    ∃ rest, Chunked rate.toNat message (wholeBlocks rate.toNat message) rest := by
  obtain ⟨-, hcut⟩ := keccakAbsorbBlocks_trace (fun state => state) rate.toNat_pos (Octets.zero _)
    message (Nat.lt_succ_self _)
  exact ⟨_, hcut.blocks_eq ▸ hcut⟩

/-- A padded text is whole blocks. -/
theorem chunked_padSuffix (rate : QscKeccakRate) (message : Bytes) (domain : UInt8) :
    Chunked rate.toNat (padSuffix rate.toNat domain message)
      (wholeBlocks rate.toNat (padSuffix rate.toNat domain message)) [] := by
  obtain ⟨rest, hcut⟩ := chunked_wholeBlocks rate message
  exact (hcut.padSuffix domain).blocks_eq ▸ hcut.padSuffix domain

/-- **A message is absorbed padded.** The last permutation is left to
whoever squeezes. -/
theorem permute_qscKeccakAbsorb (permute : KeccakArray → KeccakArray) (domain : UInt8) :
    permute (qscKeccakAbsorb permute ctx rate message domain).state =
      spongeAbsorb keccakFastAbsorb permute ctx.state
        (wholeBlocks rate.toNat (padSuffix rate.toNat domain message)) := by
  obtain ⟨hstate, hcut⟩ := keccakAbsorbBlocks_trace permute rate.toNat_pos ctx.state message
    (Nat.lt_succ_self _)
  unfold qscKeccakAbsorb
  generalize keccakAbsorbBlocks permute rate.toNat (message.length + 1) ctx.state message = after
    at hstate hcut
  obtain ⟨state, rest⟩ := after
  dsimp only at hstate hcut ⊢
  rw [← (hcut.padSuffix domain).blocks_eq, Mem.write_behind rfl, read_pad hcut.short, hstate,
    spongeAbsorb_concat]
  rfl

theorem length_keccakOut (state : KeccakArray) : (keccakOut rate state).length = rate.toNat := by
  rw [keccakOut, List.length_take, state.property, Nat.min_eq_left rate.toNat_le]

theorem length_spongeSqueeze : ∀ {n : ℕ} {state : KeccakArray},
    (spongeSqueeze permute (keccakOut rate) n state).length = n * rate.toNat
  | 0, _ => (Nat.zero_mul _).symm
  | n + 1, state => by
    rw [spongeSqueeze, List.length_append, length_keccakOut, length_spongeSqueeze, Nat.succ_mul,
      Nat.add_comm]

/-! ## SHA3 -/

/-- The hash is shorter than a block. -/
theorem length_sha3_le (rate : QscKeccakRate) : 0 < (keccakStateByteSize - rate.toNat) / 2 ∧
    (keccakStateByteSize - rate.toNat) / 2 ≤ rate.toNat := by
  cases rate <;> decide

/-- An output of a block at most takes one. -/
theorem spongeOf_of_le {data : Bytes} (hpos : 0 < otplen) (hle : otplen ≤ rate.toNat) :
    spongeOf permute rate data otplen =
      (spongeAbsorb keccakFastAbsorb permute (Octets.zero _)
        (wholeBlocks rate.toNat data)).val.take otplen := by
  have hone : tagBlocks rate otplen = 1 := by
    rw [tagBlocks, show otplen + rate.toNat - 1 = otplen - 1 + rate.toNat by omega,
      Nat.add_div_right _ rate.toNat_pos, Nat.div_eq_of_lt (by omega)]
  rw [spongeOf, hone, spongeSqueeze, spongeSqueeze, List.append_nil, keccakOut, List.take_take,
    Nat.min_eq_left hle]

/-- In one call. -/
theorem qscSha3Compute_spongeOf (permute : KeccakArray → KeccakArray) (rate : QscKeccakRate)
    (message : Bytes) :
    qscSha3Compute permute rate ((keccakStateByteSize - rate.toNat) / 2) message =
      spongeOf permute rate (sha3Data rate.toNat message)
        ((keccakStateByteSize - rate.toNat) / 2) := by
  obtain ⟨hpos, hle⟩ := length_sha3_le rate
  rw [spongeOf_of_le hpos hle, qscSha3Compute, qscKeccakSqueezeblocks_squeeze,
    permute_qscKeccakAbsorb permute, spongeSqueeze, spongeSqueeze, List.append_nil, keccakOut,
    List.take_take, Nat.min_eq_left hle]
  rfl

/-- And in parts: they leave the blocks of the whole behind, and the rest
of it pending. -/
theorem qscSha3Finalize_spongeOf (permute : KeccakArray → KeccakArray) (rate : QscKeccakRate)
    (parts : List Bytes) :
    qscSha3Finalize permute (sha3Updates permute rate parts) rate =
      spongeOf permute rate (sha3Data rate.toNat parts.flatten)
        ((keccakStateByteSize - rate.toNat) / 2) := by
  obtain ⟨hpos, hle⟩ := length_sha3_le rate
  obtain ⟨hstate, hcut⟩ : (sha3Updates permute rate parts).state = spongeAbsorb keccakFastAbsorb
        permute (Octets.zero _) (kmacUpdatesTrace permute rate .init parts) ∧
      Chunked rate.toNat parts.flatten (kmacUpdatesTrace permute rate .init parts)
        (sha3Updates permute rate parts).buffer :=
    kmacUpdates_trace parts rate.toNat_pos
  have hbuffer : ∀ ctx : QscKeccakState, (Mem.zero.write 0 ctx.buffer).write ctx.position
      [keccakSha3DomainId] = Mem.zero.write 0 (ctx.buffer ++ [keccakSha3DomainId]) := fun _ =>
    Mem.write_behind rfl
  rw [spongeOf_of_le hpos hle, sha3Data, ← (hcut.padSuffix _).blocks_eq, spongeAbsorb_concat,
    ← hstate]
  unfold qscSha3Finalize
  dsimp only
  rw [hbuffer, read_pad hcut.short]
  rfl

/-- **SHA3 is SHA3**, in any parts and in one call. -/
theorem sha3_standard (permute : KeccakArray → KeccakArray) (rate : QscKeccakRate)
    (parts : List Bytes) :
    qscSha3Finalize permute (sha3Updates permute rate parts) rate =
        spongeOf permute rate (sha3Data rate.toNat parts.flatten)
          ((keccakStateByteSize - rate.toNat) / 2) ∧
      qscSha3Compute permute rate ((keccakStateByteSize - rate.toNat) / 2) parts.flatten =
        spongeOf permute rate (sha3Data rate.toNat parts.flatten)
          ((keccakStateByteSize - rate.toNat) / 2) :=
  ⟨qscSha3Finalize_spongeOf permute rate parts, qscSha3Compute_spongeOf permute rate parts.flatten⟩

/-! ## cSHAKE -/

/-- **The length of the customization fits** into the block the name ends
in. -/
def CustomFits (rate : QscKeccakRate) (name custom : Bytes) : Prop :=
  ((leftEncode rate.toNat ++ encodeString name).length - 1) % rate.toNat + 1 +
    (leftEncode (custom.length * 8)).length ≤ rate.toNat

instance : Decidable (CustomFits rate name custom) := by
  unfold CustomFits
  infer_instance

/-- What an input leaves in the pad: the rest of a block, or a whole one. -/
theorem length_keccakAbsorbPadTrace {n : ℕ} {pad : Bytes} (bs : Bytes) (hpos : 0 < pad.length)
    (hle : pad.length ≤ n) :
    (keccakAbsorbPadTrace n pad bs).2.length = ((pad ++ bs).length - 1) % n + 1 := by
  obtain ⟨hflat, hfull, hpos', hle'⟩ := keccakAbsorbPadTrace_cut bs pad hpos hle
  have hlength := congrArg List.length hflat
  rw [List.length_append, Chunked.length_flatten hfull] at hlength
  obtain ⟨m, hm⟩ : ∃ m, (keccakAbsorbPadTrace n pad bs).2.length = m + 1 :=
    Nat.exists_eq_succ_of_ne_zero (by omega)
  rw [← hlength, hm, ← Nat.add_assoc, Nat.add_sub_cancel, Nat.add_comm _ m,
    Nat.add_mul_mod_self_right, Nat.mod_eq_of_lt (by omega)]

/-- **Name and customization are absorbed as cSHAKE gives them.** -/
theorem qscKeccakAbsorbCustom_trace (permute : KeccakArray → KeccakArray)
    (hname : name.length * 8 < 2 ^ 64) (hcustom : custom.length * 8 < 2 ^ 64)
    (hfits : CustomFits rate name custom) (ctx : QscKeccakState) :
    ∃ blocks, (qscKeccakAbsorbCustom permute ctx rate custom name).state =
        spongeAbsorb keccakFastAbsorb permute ctx.state blocks ∧
      Chunked rate.toNat (bytepad (encodeString name ++ encodeString custom) rate.toNat)
        blocks [] := by
  have hrate : 72 ≤ rate.toNat := by cases rate <;> decide
  have hratelt : rate.toNat < 2 ^ 64 := Nat.lt_of_le_of_lt rate.toNat_le (by decide)
  have hfirst := @length_keccakLeftEncode rate.toNat
  have hsecond := @length_keccakLeftEncode (name.length * 8)
  -- the pad in front of the name, and what the name leaves in it
  obtain ⟨pad, hpad⟩ : ∃ pad,
      keccakLeftEncode rate.toNat ++ keccakLeftEncode (name.length * 8) = pad := ⟨_, rfl⟩
  have hlen : 0 < pad.length ∧ pad.length ≤ rate.toNat := by
    rw [← hpad, List.length_append]
    omega
  have hstring : pad ++ name = leftEncode rate.toNat ++ encodeString name := by
    rw [← hpad, encodeString, keccakLeftEncode_eq hratelt, keccakLeftEncode_eq hname,
      List.append_assoc]
  obtain ⟨hflat, hfull, hpos, -⟩ := keccakAbsorbPadTrace_cut name pad hlen.1 hlen.2
  have hrest := length_keccakAbsorbPadTrace name hlen.1 hlen.2
  obtain ⟨blocks, rest, htrace⟩ : ∃ blocks rest,
      keccakAbsorbPadTrace rate.toNat pad name = (blocks, rest) := ⟨_, _, rfl⟩
  rw [htrace] at hflat hfull hpos hrest
  dsimp only at hflat hfull hpos hrest
  -- the customization behind it
  obtain ⟨pad', hpad'⟩ : ∃ pad', rest ++ keccakLeftEncode (custom.length * 8) = pad' := ⟨_, rfl⟩
  have hlen' : 0 < pad'.length ∧ pad'.length ≤ rate.toNat := by
    unfold CustomFits at hfits
    rw [← hstring, ← hrest, ← keccakLeftEncode_eq hcustom, ← List.length_append, hpad'] at hfits
    refine ⟨?_, hfits⟩
    rw [← hpad', List.length_append]
    omega
  obtain ⟨hflat', hfull'⟩ := keccakAbsorbPadTrace_fillUp hlen'.1 hlen'.2 custom
  refine ⟨blocks ++ ((keccakAbsorbPadTrace rate.toNat pad' custom).1 ++
    keccakAbsorbClearedTrace rate.toNat (keccakAbsorbPadTrace rate.toNat pad' custom).2),
    ?_, ?_, ?_, rate.toNat_pos⟩
  · simp only [qscKeccakAbsorbCustom, keccakAbsorbPad_trace, spongeAbsorb_append, hpad, htrace,
      hpad']
    rfl
  · rw [List.append_nil, List.flatten_append, hflat', ← fillUp_append hfull, ← hpad',
      ← List.append_assoc, ← List.append_assoc, hflat, hstring, keccakLeftEncode_eq hcustom,
      bytepad]
    simp only [encodeString, List.append_assoc]
  · intro block hblock
    obtain hblock | hblock := List.mem_append.1 hblock
    · exact hfull block hblock
    · exact hfull' block hblock

/-- **A generator keyed with cSHAKE** has taken in the standard's string. -/
theorem permute_qscCshakeInitialize (permute : KeccakArray → KeccakArray)
    (hname : name.length * 8 < 2 ^ 64) (hcustom : custom.length * 8 < 2 ^ 64)
    (hfits : CustomFits rate name custom) (hne : ¬ (name = [] ∧ custom = [])) :
    permute (qscCshakeInitialize permute rate key name custom).state =
      spongeAbsorb keccakFastAbsorb permute (Octets.zero _) (wholeBlocks rate.toNat
        (cshakeData rate.toNat key name custom)) := by
  obtain ⟨blocks, hstate, hcut⟩ := qscKeccakAbsorbCustom_trace permute hname hcustom hfits .init
  rw [qscCshakeInitialize, permute_qscKeccakAbsorb permute, hstate, cshakeData,
    if_neg hne, hcut.wholeBlocks_append (chunked_padSuffix rate key _), spongeAbsorb_append]
  rfl

/-- And without name and customization it is SHAKE. -/
theorem permute_qscShakeInitialize (permute : KeccakArray → KeccakArray) :
    permute (qscShakeInitialize permute rate key).state =
      spongeAbsorb keccakFastAbsorb permute (Octets.zero _) (wholeBlocks rate.toNat
        (cshakeData rate.toNat key [] [])) := by
  rw [qscShakeInitialize, permute_qscKeccakAbsorb permute, cshakeData,
    if_pos ⟨rfl, rfl⟩]
  rfl

/-- The state after squeezing is as many permutations on. -/
theorem qscKeccakSqueezeblocks_state (permute : KeccakArray → KeccakArray) :
    ∀ {n : ℕ} {state : KeccakArray},
      permute (qscKeccakSqueezeblocks permute rate n state).1 = permute^[n] (permute state)
  | 0, _ => rfl
  | n + 1, state => by
    rw [qscKeccakSqueezeblocks, qscKeccakSqueezeblocks_state permute,
      Function.iterate_succ_apply]

/-- **Call after call** gives out one output. -/
theorem cshakeCalls_squeeze : ∀ {calls : List ℕ} {ctx : QscKeccakState},
    cshakeCalls permute rate ctx calls =
      spongeSqueeze permute (keccakOut rate) calls.sum (permute ctx.state)
  | [], _ => rfl
  | nblocks :: calls, ctx => by
    rw [cshakeCalls, cshakeCalls_squeeze, List.sum_cons, spongeSqueeze_add, qscCshakeSqueezeblocks]
    dsimp only
    rw [qscKeccakSqueezeblocks_squeeze, qscKeccakSqueezeblocks_state permute]

/-- The blocks of an output of `n` blocks and a rest. -/
theorem tagBlocks_add {n m : ℕ} (hm : m < rate.toNat) :
    tagBlocks rate (n * rate.toNat + m) = if m = 0 then n else n + 1 := by
  have hpos := rate.toNat_pos
  rw [tagBlocks, Nat.mul_comm]
  split
  · rw [show rate.toNat * n + m + rate.toNat - 1 = rate.toNat * n + (rate.toNat - 1) by omega,
      Nat.mul_add_div hpos, Nat.div_eq_of_lt (by omega), Nat.add_zero]
  · rw [show rate.toNat * n + m + rate.toNat - 1 = rate.toNat * (n + 1) + (m - 1) by
        rw [Nat.mul_succ]
        omega, Nat.mul_add_div hpos, Nat.div_eq_of_lt (by omega), Nat.add_zero]

/-- **The end of a call** is as many bytes as it is asked for. -/
theorem shakeOutput_squeeze (permute : KeccakArray → KeccakArray) (ctx : QscKeccakState) :
    shakeOutput permute rate ctx otplen =
      (spongeSqueeze permute (keccakOut rate) (tagBlocks rate otplen)
        (permute ctx.state)).take otplen := by
  obtain ⟨n, m, hm, rfl⟩ : ∃ n m, m < rate.toNat ∧ otplen = n * rate.toNat + m :=
    ⟨_, _, Nat.mod_lt otplen rate.toNat_pos, by rw [Nat.mul_comm, Nat.div_add_mod]⟩
  have hdiv : (n * rate.toNat + m) / rate.toNat = n := by
    rw [Nat.mul_comm, Nat.mul_add_div rate.toNat_pos, Nat.div_eq_of_lt hm, Nat.add_zero]
  unfold shakeOutput qscCshakeSqueezeblocks
  dsimp only
  rw [qscKeccakSqueezeblocks_squeeze, qscKeccakSqueezeblocks_squeeze,
    qscKeccakSqueezeblocks_state permute, hdiv, Nat.add_sub_cancel_left, tagBlocks_add hm]
  by_cases h0 : m = 0
  · rw [if_neg (by omega), if_pos h0, List.take_of_length_le (by rw [length_spongeSqueeze]; omega)]
  · rw [if_pos h0, if_neg h0, spongeSqueeze_add, List.take_append, length_spongeSqueeze,
      Nat.add_sub_cancel_left, List.take_of_length_le (i := n * rate.toNat + m) (by
        rw [length_spongeSqueeze]
        omega)]

/-- In one call. -/
theorem qscCshakeCompute_spongeOf (permute : KeccakArray → KeccakArray)
    (hname : name.length * 8 < 2 ^ 64) (hcustom : custom.length * 8 < 2 ^ 64)
    (hfits : CustomFits rate name custom) :
    qscCshakeCompute permute rate otplen key name custom =
      spongeOf permute rate (cshakeData rate.toNat key name custom) otplen := by
  rw [qscCshakeCompute, spongeOf]
  split
  · rename_i hlen
    have hne : ¬ (name = [] ∧ custom = []) := fun h => hlen (by rw [h.1, h.2]; rfl)
    rw [shakeOutput_squeeze permute, permute_qscCshakeInitialize permute hname hcustom hfits hne]
  · rename_i hlen
    have hnil : name = [] ∧ custom = [] :=
      ⟨List.eq_nil_of_length_eq_zero (by omega), List.eq_nil_of_length_eq_zero (by omega)⟩
    rw [shakeOutput_squeeze permute, hnil.1, hnil.2, permute_qscShakeInitialize permute]

/-- **cSHAKE is cSHAKE** wherever the length of the customization fits:
in one call, for any number of bytes, and block by block, in any number of
calls. -/
theorem cshake_standard (permute : KeccakArray → KeccakArray) (rate : QscKeccakRate)
    (key name custom : Bytes) (hname : name.length * 8 < 2 ^ 64)
    (hcustom : custom.length * 8 < 2 ^ 64) (hfits : CustomFits rate name custom) :
    (∀ otplen, qscCshakeCompute permute rate otplen key name custom =
        spongeOf permute rate (cshakeData rate.toNat key name custom) otplen) ∧
      (¬ (name = [] ∧ custom = []) → ∀ calls : List ℕ,
        cshakeCalls permute rate (qscCshakeInitialize permute rate key name custom) calls =
          spongeOf permute rate (cshakeData rate.toNat key name custom)
            (calls.sum * rate.toNat)) := by
  refine ⟨fun otplen => qscCshakeCompute_spongeOf permute hname hcustom hfits, ?_⟩
  intro hne calls
  have hblocks : tagBlocks rate (calls.sum * rate.toNat) = calls.sum :=
    tagBlocks_add (m := 0) rate.toNat_pos
  rw [cshakeCalls_squeeze, spongeOf, hblocks,
    permute_qscCshakeInitialize permute hname hcustom hfits hne,
    List.take_of_length_le (Nat.le_of_eq length_spongeSqueeze)]

/-- The generator's name and customization fit to the byte. -/
theorem cshake_standard_generator :
    (∀ otplen, qscCshakeCompute qscKeccakPermute .rate512 otplen [] (List.replicate 64 0)
        (List.replicate 64 0) = spongeOf qscKeccakPermute .rate512
          (cshakeData 72 [] (List.replicate 64 0) (List.replicate 64 0)) otplen) ∧
      (¬ (List.replicate 64 (0 : UInt8) = [] ∧ List.replicate 64 (0 : UInt8) = []) →
        ∀ calls : List ℕ, cshakeCalls qscKeccakPermute .rate512
          (qscCshakeInitialize qscKeccakPermute .rate512 [] (List.replicate 64 0)
            (List.replicate 64 0)) calls = spongeOf qscKeccakPermute .rate512
              (cshakeData 72 [] (List.replicate 64 0) (List.replicate 64 0)) (calls.sum * 72)) :=
  cshake_standard qscKeccakPermute .rate512 [] (List.replicate 64 0) (List.replicate 64 0)
    (by decide) (by decide) (by decide)

/-! ## The generator -/

/-- **The generator puts out cSHAKE** under a key of the system provider,
whatever length it is asked for: under the hash of the statistics as name
and a seed of the processor as customization, or one of the provider where
the processor has none. It fails exactly where the provider does. -/
theorem acp_standard (permute : KeccakArray → KeccakArray) (src : AcpSources) (length : ℕ)
    (output : Bytes) :
    qscAcpGenerate permute src length = some output ↔
      ∃ cust key : Octets 64,
        (src.rdp = some cust ∧ src.csp 0 = some key ∨
          src.rdp = none ∧ src.csp 0 = some cust ∧ src.csp 1 = some key) ∧
        output = spongeOf permute .rate512 (cshakeData 72 key.val
          (spongeOf permute .rate512 (sha3Data 72 src.statistics.buffer) 64) cust.val) length := by
  have hstat : (acpCollectStatistics permute src.statistics).val =
      spongeOf permute .rate512 (sha3Data 72 src.statistics.buffer) 64 :=
    qscSha3Compute_spongeOf permute .rate512 _
  have hcompute : ∀ key cust : Octets 64, qscCshakeCompute permute .rate512 length key.val
      (acpCollectStatistics permute src.statistics).val cust.val =
        spongeOf permute .rate512 (cshakeData 72 key.val
          (acpCollectStatistics permute src.statistics).val cust.val) length := by
    intro key cust
    have hname := (acpCollectStatistics permute src.statistics).property
    have hcust := cust.property
    refine qscCshakeCompute_spongeOf permute (by omega) (by omega) ?_
    unfold CustomFits encodeString
    rw [List.length_append, List.length_append, hname, hcust]
    decide
  rw [← hstat]
  simp only [← hcompute]
  unfold qscAcpGenerate
  rcases hrdp : src.rdp with _ | seed
  · simp only [Option.isSome_none, Bool.false_eq_true, if_false, Option.bind_eq_some_iff,
      Option.map_eq_some_iff]
    constructor
    · rintro ⟨cust, hcust, key, hkey, rfl⟩
      exact ⟨cust, key, .inr ⟨trivial, hcust, hkey⟩, rfl⟩
    · rintro ⟨cust, key, ⟨h, -⟩ | ⟨-, hcust, hkey⟩, rfl⟩
      · cases h
      · exact ⟨cust, hcust, key, hkey, rfl⟩
  · simp only [Option.isSome_some, if_true, Option.bind_some, Option.map_eq_some_iff]
    constructor
    · rintro ⟨key, hkey, rfl⟩
      exact ⟨seed, key, .inl ⟨rfl, hkey⟩, rfl⟩
    · rintro ⟨cust, key, ⟨hcust, hkey⟩ | ⟨h, -⟩, rfl⟩
      · obtain rfl : seed = cust := Option.some.inj hcust
        exact ⟨key, hkey, rfl⟩
      · cases h

end Qsmp
