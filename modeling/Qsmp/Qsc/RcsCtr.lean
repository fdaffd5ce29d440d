import Qsmp.Qsc.RcsSimd
/-!
# Counter mode with the cipher instructions of the processor

`rcs_ctr_transform` with AVX-512 takes two blocks at a time, from a
register that holds the counter and the counter after it. It adds to the
low 64-bit word of both and carries nothing over, where the plain code
steps a counter of 256 bits. What is left of the input after the pairs
goes through the 16-byte code.
-/

namespace Qsmp

open Rijndael

/-- The cipher of a build without the instructions, over a permutation. -/
def rcsPrimitives (permute : KeccakArray → KeccakArray) : Primitives := ⟨permute, rcsTransform256⟩

/-- And of the build with the AES instructions, whose row shift is another. -/
def rcsNiPrimitives (permute : KeccakArray → KeccakArray) : Primitives :=
  ⟨permute, rcsNetwork (rcsRow ∘ rcsFlip)⟩

/-! ## The code -/

/-- `RCS_AVX512_BLOCK` -/
def rcsAvx512Block : ℕ := 64

/-- `_mm512_loadu_si512` -/
def mm512LoaduSi512 (p : Bytes) : M512i := .ofFn fun i => p.getD i 0

/-- Two blocks in one register: `ctrblk`. -/
def rcsCtrblk (first second : RcsBuf) : M512i :=
  ⟨first.val ++ second.val, by rw [List.length_append, first.property, second.property]⟩

/-- The counter and the one after it: `ctrw` before the loop. -/
def rcsCtrw (nonce : RcsBuf) : M512i :=
  mm512AddEpi64 (rcsCtrblk nonce nonce) (mm512SetEpi64 ![0, 0, 0, 1, 0, 0, 0, 0])

/-- The loop over pairs of blocks; `fuel` bounds its turns. -/
def rcsCtrWideLoop (ctx : RcsNiRoundkeys) : ℕ → M512i → Bytes → M512i × Bytes
  | 0, ctrw, _ => (ctrw, [])
  | fuel + 1, ctrw, input =>
    if rcsAvx512Block ≤ input.length then
      let otpw := (rcsTransform512 ctx ctrw).xor (mm512LoaduSi512 input)
      let rest := rcsCtrWideLoop ctx fuel
        (mm512AddEpi64 ctrw (mm512SetEpi64 ![0, 0, 0, 2, 0, 0, 0, 2]))
        (input.drop rcsAvx512Block)
      (rest.1, otpw.val ++ rest.2)
    else (ctrw, [])

/-- The part of `rcs_ctr_transform` that `QSC_SYSTEM_HAS_AVX512` adds: the
nonce and the output after the pairs. -/
def rcsCtrPairs (ctx : RcsNiRoundkeys) (nonce : RcsBlock) (input : Bytes) : RcsBlock × Bytes :=
  if rcsAvx512Block ≤ input.length then
    let (ctrw, output) := rcsCtrWideLoop ctx (input.length / rcsAvx512Block) (rcsCtrw nonce) input
    (⟨ctrw.val.take rcsBlockSize, by rw [List.length_take, ctrw.property]; rfl⟩, output)
  else (nonce, [])

/-- The key-stream block of the 16-byte code. -/
def rcsNiKeystream (ctx : RcsNiRoundkeys) (nonce : RcsBlock) : Bytes :=
  let (tmpo0, tmpo1) := rcsNiTransform256 ctx (mmLoaduSi128 nonce.val)
    (mmLoaduSi128 (nonce.val.drop 16))
  tmpo0.val ++ tmpo1.val

/-- `rcs_ctr_transform` with the AES instructions, and with AVX-512 if the
processor has it. -/
def rcsNiCtrTransform (avx512 : Bool) (ctx : RcsNiRoundkeys) (nonce : RcsBlock) (input : Bytes) :
    RcsBlock × Bytes :=
  let pairs := if avx512 then rcsCtrPairs ctx nonce input else (nonce, [])
  let rest := CounterMode.transform (rcsNiKeystream ctx) rcsNextNonce rcsBlockSize pairs.1
    (input.drop pairs.2.length)
  (rest.1, pairs.2 ++ rest.2)

/-! ## The counter of the pairs -/

/-- The low word of a counter stepped on by `i`, and no carry. -/
def rcsLowAdd (nonce : RcsBuf) (i : UInt64) : RcsBuf :=
  ⟨qscIntutilsLe64to8 (UInt64.ofNat (leNat (nonce.val.take 8)) + i) ++ nonce.val.drop 8, by
    rw [List.length_append, length_qscIntutilsLe64to8, List.length_drop, nonce.property]⟩

/-- A counter whose low word steps on alone. -/
def rcsLowNonce (nonce : RcsBuf) : RcsBuf := rcsLowAdd nonce 1

/-- A 64-bit word of a block. -/
def rcsWord (nonce : RcsBuf) (word : ℕ) : UInt64 :=
  UInt64.ofNat (leNat ((nonce.val.drop (8 * word)).take 8))

/-- The other words stay. -/
theorem rcsWord_rcsLowAdd (nonce : RcsBuf) (i : UInt64) (word : ℕ) :
    rcsWord (rcsLowAdd nonce i) word = rcsWord nonce word + if word = 0 then i else 0 := by
  rw [rcsWord, rcsWord, rcsLowAdd]
  cases word with
  | zero =>
    rw [Nat.mul_zero, List.drop_zero, List.take_left' length_qscIntutilsLe64to8, le64_le64to8,
      if_pos rfl, List.drop_zero]
  | succ word =>
    rw [Nat.mul_succ, Nat.add_comm, ← List.drop_drop, ← List.drop_drop,
      List.drop_left' length_qscIntutilsLe64to8, if_neg (Nat.succ_ne_zero _), UInt64.add_zero]

theorem rcsLowAdd_rcsLowAdd (nonce : RcsBuf) (i j : UInt64) :
    rcsLowAdd (rcsLowAdd nonce i) j = rcsLowAdd nonce (i + j) := by
  refine Subtype.ext ?_
  simp only [rcsLowAdd]
  rw [List.take_left' length_qscIntutilsLe64to8, List.drop_left' length_qscIntutilsLe64to8,
    le64_le64to8, UInt64.add_assoc]

/-- A word of a register that holds two blocks. -/
theorem epi64_rcsCtrblk (first second : RcsBuf) (word : Fin 8) :
    epi64 (rcsCtrblk first second) word =
      if (word : ℕ) < 4 then rcsWord first word else rcsWord second (word - 4) := by
  have hfirst := first.property
  rw [epi64_eq, rcsCtrblk, rcsWord, rcsWord]
  split
  · rw [List.drop_append_of_le_length (by omega),
      List.take_append_of_le_length (by rw [List.length_drop]; omega)]
  · have hsplit : 8 * (word : ℕ) = first.val.length + 8 * (word - 4) := by omega
    rw [hsplit, List.drop_length_add_append]

/-- **One addition of the register** steps the low word of each block. -/
theorem mm512AddEpi64_rcsCtrblk (first second : RcsBuf) (i j : UInt64) :
    mm512AddEpi64 (rcsCtrblk first second) (mm512SetEpi64 ![0, 0, 0, j, 0, 0, 0, i]) =
      rcsCtrblk (rcsLowAdd first i) (rcsLowAdd second j) := by
  refine ext_epi64 fun word => ?_
  rw [mm512AddEpi64, mm512SetEpi64, epi64_ofEpi64, epi64_ofEpi64]
  simp only [epi64_rcsCtrblk, rcsWord_rcsLowAdd]
  fin_cases word <;> rfl

/-! ## The pairs are counter mode over that counter -/

theorem rcsLowAdd_zero (nonce : RcsBuf) : rcsLowAdd nonce 0 = nonce := by
  have hlen : (nonce.val.take 8).length = 8 := by
    rw [List.length_take, nonce.property]
    decide
  have hlt := leNat_lt (nonce.val.take 8)
  have hbytes := leBytes_leNat (nonce.val.take 8)
  rw [hlen] at hlt hbytes
  refine Subtype.ext ?_
  rw [rcsLowAdd]
  dsimp only
  rw [UInt64.add_zero, qscIntutilsLe64to8, UInt64.toNat_ofNat_of_lt' hlt, hbytes,
    List.take_append_drop]

/-- A counter and the one after it. -/
def rcsCtrPair (nonce : RcsBuf) : M512i := rcsCtrblk nonce (rcsLowNonce nonce)

theorem rcsCtrw_eq (nonce : RcsBuf) : rcsCtrw nonce = rcsCtrPair nonce := by
  rw [rcsCtrw, mm512AddEpi64_rcsCtrblk, rcsLowAdd_zero]
  rfl

theorem rcsCtrPair_next (nonce : RcsBuf) :
    mm512AddEpi64 (rcsCtrPair nonce) (mm512SetEpi64 ![0, 0, 0, 2, 0, 0, 0, 2]) =
      rcsCtrPair (rcsLowNonce (rcsLowNonce nonce)) := by
  rw [rcsCtrPair, mm512AddEpi64_rcsCtrblk, rcsCtrPair]
  simp only [rcsLowNonce, rcsLowAdd_rcsLowAdd]
  rfl

/-- A register of two blocks, block by block. -/
theorem val_eq_blocks (x : M512i) :
    x.val = (x.reindex (blockPlace 0)).val ++ (x.reindex (blockPlace 1)).val := by
  have hlen := x.property
  have hfirst : (x.reindex (blockPlace 0)).val = (x.val.drop 0).take 32 :=
    Octets.val_reindex (fun _ => rfl) x
  have hsecond : (x.reindex (blockPlace 1)).val = (x.val.drop 32).take 32 :=
    Octets.val_reindex (fun _ => rfl) x
  have hrest : (x.val.drop 32).take 32 = x.val.drop 32 :=
    List.take_of_length_le (by rw [List.length_drop, hlen])
  rw [hfirst, hsecond, hrest, List.drop_zero, List.take_append_drop]

theorem reindex_rcsCtrblk (first second : RcsBuf) :
    (rcsCtrblk first second).reindex (blockPlace 0) = first ∧
      (rcsCtrblk first second).reindex (blockPlace 1) = second := by
  have hsplit : first.val ++ second.val = _ := val_eq_blocks (rcsCtrblk first second)
  have hlen : first.val.length = ((rcsCtrblk first second).reindex (blockPlace 0)).val.length :=
    first.property.trans ((rcsCtrblk first second).reindex (blockPlace 0)).property.symm
  obtain ⟨hfirst, hsecond⟩ := List.append_inj hsplit hlen
  exact ⟨Subtype.ext hfirst.symm, Subtype.ext hsecond.symm⟩

section

variable {ctype : RcsCipherType} {tmpr : Bytes}

/-- The key stream of the plain code, block by block. -/
def rcsPlainKeystream (ctx : RcsRoundkeys) (nonce : RcsBuf) : Bytes :=
  (rcsTransform256 ctx nonce).val

theorem length_rcsPlainKeystream {ctx : RcsRoundkeys} (nonce : RcsBuf) :
    (rcsPlainKeystream ctx nonce).length = rcsBlockSize := (rcsTransform256 ctx nonce).property

theorem Octets.val_xor {n : ℕ} (a b : Octets n) : (a.xor b).val = xorBytes a.val b.val := by
  have ha := a.property
  have hb := b.property
  refine List.ext_getElem ?_ fun i hi _ => ?_
  · rw [(a.xor b).property, length_xorBytes, ha, hb, Nat.min_self]
  · simp [Octets.xor, Octets.ofFn, Octets.get, xorBytes]

theorem val_mm512LoaduSi512 {input : Bytes} (h : rcsAvx512Block ≤ input.length) :
    (mm512LoaduSi512 input).val = input.take rcsAvx512Block := by
  have hroom : 64 ≤ input.length := h
  refine List.ext_getElem ?_ fun i hi _ => ?_
  · rw [(mm512LoaduSi512 input).property, List.length_take, Nat.min_eq_left h]
    rfl
  · rw [(mm512LoaduSi512 input).property] at hi
    rw [List.getElem_take]
    simp only [mm512LoaduSi512, Octets.ofFn, List.getElem_ofFn]
    exact List.getD_eq_getElem _ _ (by omega)

/-- **A turn of the loop** is two turns of counter mode. -/
theorem rcsTransform512_pair (hlen : tmpr.length = ctype.roundkeySize * 4) (nonce : RcsBuf)
    {input : Bytes} (h : rcsAvx512Block ≤ input.length) :
    ((rcsTransform512 (rcsNiRoundkeys ctype tmpr) (rcsCtrPair nonce)).xor
        (mm512LoaduSi512 input)).val =
      xorBytes (rcsPlainKeystream (rcsRoundkeys ctype tmpr) nonce) (input.take rcsBlockSize) ++
        xorBytes (rcsPlainKeystream (rcsRoundkeys ctype tmpr) (rcsLowNonce nonce))
          ((input.drop rcsBlockSize).take rcsBlockSize) := by
  have hroom : 64 ≤ input.length := h
  have hsplit : input.take (rcsBlockSize + rcsBlockSize) =
      input.take rcsBlockSize ++ (input.drop rcsBlockSize).take rcsBlockSize := List.take_add
  have hpair : rcsAvx512Block = rcsBlockSize + rcsBlockSize := rfl
  obtain ⟨hfirst, hsecond⟩ := reindex_rcsCtrblk nonce (rcsLowNonce nonce)
  have hstream : (rcsTransform512 (rcsNiRoundkeys ctype tmpr) (rcsCtrPair nonce)).val =
      rcsPlainKeystream (rcsRoundkeys ctype tmpr) nonce ++
        rcsPlainKeystream (rcsRoundkeys ctype tmpr) (rcsLowNonce nonce) := by
    rw [val_eq_blocks, rcsTransform512_block hlen, rcsTransform512_block hlen, rcsCtrPair, hfirst,
      hsecond]
    rfl
  rw [Octets.val_xor, val_mm512LoaduSi512 h, hstream, hpair, hsplit, xorBytes_append]
  rw [length_rcsPlainKeystream, List.length_take, Nat.min_eq_left (Nat.le_trans (by decide) hroom)]

/-- The input the pairs cover. -/
def rcsPaired (input : Bytes) : Bytes :=
  input.take (rcsAvx512Block * (input.length / rcsAvx512Block))

theorem length_rcsPaired {input : Bytes} :
    (rcsPaired input).length = rcsAvx512Block * (input.length / rcsAvx512Block) :=
  List.length_take_of_le (Nat.mul_div_le _ _)

theorem rcsPaired_of_lt {input : Bytes} (h : input.length < rcsAvx512Block) :
    rcsPaired input = [] := by
  rw [rcsPaired, Nat.div_eq_of_lt h, Nat.mul_zero, List.take_zero]

/-- A pair more. -/
theorem rcsPaired_of_le {input : Bytes} (h : rcsAvx512Block ≤ input.length) :
    rcsPaired input = input.take rcsBlockSize ++ ((input.drop rcsBlockSize).take rcsBlockSize ++
      rcsPaired (input.drop rcsAvx512Block)) := by
  have hcount : input.length / rcsAvx512Block =
      (input.length - rcsAvx512Block) / rcsAvx512Block + 1 :=
    Nat.div_eq_sub_div (by decide) h
  have hpair : rcsAvx512Block = rcsBlockSize + rcsBlockSize := rfl
  rw [rcsPaired, rcsPaired, List.length_drop, hcount, Nat.mul_succ, Nat.add_comm, List.take_add]
  nth_rewrite 1 [hpair]
  rw [List.take_add, List.append_assoc]

/-- **The loop is counter mode over the counter without carry**, on the
part of the input that makes pairs. -/
theorem rcsCtrWideLoop_eq (hlen : tmpr.length = ctype.roundkeySize * 4) :
    ∀ (fuel : ℕ) (nonce : RcsBuf) (input : Bytes), input.length / rcsAvx512Block ≤ fuel →
      rcsCtrWideLoop (rcsNiRoundkeys ctype tmpr) fuel (rcsCtrPair nonce) input =
        (rcsCtrPair (CounterMode.transform (rcsPlainKeystream (rcsRoundkeys ctype tmpr))
            rcsLowNonce rcsBlockSize nonce (rcsPaired input)).1,
          (CounterMode.transform (rcsPlainKeystream (rcsRoundkeys ctype tmpr))
            rcsLowNonce rcsBlockSize nonce (rcsPaired input)).2) := by
  intro fuel
  induction fuel with
  | zero =>
    intro nonce input hfuel
    have hnone : rcsPaired input = [] := by
      rw [rcsPaired, Nat.le_zero.1 hfuel, Nat.mul_zero, List.take_zero]
    rw [rcsCtrWideLoop, hnone, CounterMode.transform_nil (by decide)]
  | succ fuel ih =>
    intro nonce input hfuel
    rw [rcsCtrWideLoop]
    split
    · rename_i hle
      have hroom : 64 ≤ input.length := hle
      have hfirst : (input.take rcsBlockSize).length = rcsBlockSize :=
        List.length_take_of_le (Nat.le_trans (by decide) hroom)
      have hsecond : ((input.drop rcsBlockSize).take rcsBlockSize).length = rcsBlockSize := by
        refine List.length_take_of_le ?_
        rw [List.length_drop]
        exact Nat.le_sub_of_add_le hle
      have hrest : (input.drop rcsAvx512Block).length / rcsAvx512Block ≤ fuel := by
        rw [Nat.div_eq_sub_div (by decide) hle] at hfuel
        rw [List.length_drop]
        omega
      dsimp only
      rw [rcsTransform512_pair hlen nonce hle, rcsCtrPair_next, ih _ _ hrest,
        rcsPaired_of_le hle, CounterMode.transform_block (by decide) hfirst,
        CounterMode.transform_block (by decide) hsecond, List.append_assoc]
    · rename_i hlt
      rw [rcsPaired_of_lt (Nat.not_le.1 hlt), CounterMode.transform_nil (by decide)]

/-- **The pairs of an input**, from any counter. -/
theorem rcsCtrPairs_eq (hlen : tmpr.length = ctype.roundkeySize * 4) (nonce : RcsBuf)
    (input : Bytes) :
    rcsCtrPairs (rcsNiRoundkeys ctype tmpr) nonce input =
      CounterMode.transform (rcsPlainKeystream (rcsRoundkeys ctype tmpr)) rcsLowNonce
        rcsBlockSize nonce (rcsPaired input) := by
  unfold rcsCtrPairs
  split
  · rename_i hle
    rw [rcsCtrw_eq]
    dsimp only
    rw [rcsCtrWideLoop_eq hlen _ _ _ (Nat.le_refl _)]
    obtain ⟨result, hresult⟩ : ∃ r, CounterMode.transform (rcsPlainKeystream
      (rcsRoundkeys ctype tmpr)) rcsLowNonce rcsBlockSize nonce (rcsPaired input) = r := ⟨_, rfl⟩
    rw [hresult]
    exact Prod.ext (Subtype.ext (List.take_left' result.1.property)) rfl
  · rename_i hlt
    rw [rcsPaired_of_lt (Nat.not_le.1 hlt), CounterMode.transform_nil (by decide)]
    rfl

end

/-! ## Where the two counters part -/

theorem leNat_append (a b : Bytes) : leNat (a ++ b) = leNat a + 256 ^ a.length * leNat b := by
  rw [leNat, List.map_append, Nat.ofDigits_append, List.length_map]
  rfl

theorem eq_of_leNat {a b : RcsBuf} (h : leNat a.val = leNat b.val) : a = b := by
  have ha := leBytes_leNat a.val
  have hb := leBytes_leNat b.val
  rw [a.property] at ha
  rw [b.property, ← h] at hb
  exact Subtype.ext (ha.symm.trans hb)

/-- The low word of a counter, and the rest of it. -/
theorem leNat_eq_low (nonce : RcsBuf) :
    leNat nonce.val = leNat (nonce.val.take 8) + 2 ^ 64 * leNat (nonce.val.drop 8) := by
  have hlen : (nonce.val.take 8).length = 8 := by
    rw [List.length_take, nonce.property]
    decide
  have happend := leNat_append (nonce.val.take 8) (nonce.val.drop 8)
  rwa [List.take_append_drop, hlen] at happend

theorem leNat_low_lt (nonce : RcsBuf) : leNat (nonce.val.take 8) < 2 ^ 64 := by
  have hlt := leNat_lt (nonce.val.take 8)
  rwa [List.length_take, nonce.property] at hlt

/-- A counter whose low word steps on `i` times. -/
theorem leNat_iterate_rcsLowNonce (nonce : RcsBuf) (i : ℕ) :
    leNat (rcsLowNonce^[i] nonce).val =
      (leNat (nonce.val.take 8) + i) % 2 ^ 64 + 2 ^ 64 * leNat (nonce.val.drop 8) := by
  induction i with
  | zero =>
    rw [Nat.add_zero, Nat.mod_eq_of_lt (leNat_low_lt nonce)]
    exact leNat_eq_low nonce
  | succ i ih =>
    -- The low word adds one of its own, and the rest is what it was.
    have hstep : ∀ x : RcsBuf, leNat (rcsLowNonce x).val =
        (leNat (x.val.take 8) + 1) % 2 ^ 64 + 2 ^ 64 * leNat (x.val.drop 8) := by
      intro x
      have hword : (UInt64.ofNat (leNat (x.val.take 8)) + 1).toNat =
          (leNat (x.val.take 8) + 1) % 2 ^ 64 := by
        rw [UInt64.toNat_add, UInt64.toNat_ofNat_of_lt' (leNat_low_lt x)]
        rfl
      have hwidth : (256 : ℕ) ^ 8 = 2 ^ 64 := by decide
      rw [rcsLowNonce, rcsLowAdd, leNat_append, length_qscIntutilsLe64to8, qscIntutilsLe64to8,
        leNat_leBytes, hword, hwidth, Nat.mod_mod]
    have hlow := leNat_low_lt (rcsLowNonce^[i] nonce)
    rw [leNat_eq_low] at ih
    rw [Function.iterate_succ_apply', hstep]
    omega

/-- **The counters agree until the low word wraps.** -/
theorem iterate_rcsLowNonce_eq_iff (nonce : RcsBuf) {n : ℕ} (hn : n < 2 ^ 64) :
    rcsLowNonce^[n] nonce = rcsNextNonce^[n] nonce ↔ leNat (nonce.val.take 8) + n < 2 ^ 64 := by
  have hlow := leNat_iterate_rcsLowNonce nonce n
  have hnext : leNat (rcsNextNonce^[n] nonce).val = (leNat nonce.val + n) % 2 ^ 256 :=
    leNat_iterate_rcsNextNonce nonce n
  have hsplit := leNat_eq_low nonce
  have hword := leNat_low_lt nonce
  have hlt := leNat_lt nonce.val
  rw [nonce.property] at hlt
  constructor
  · intro heq
    rw [heq] at hlow
    omega
  · intro hfits
    refine eq_of_leNat ?_
    rw [hlow, hnext]
    omega

/-- So none on the way has parted from its twin. -/
theorem list_iterate_rcsLowNonce {nonce : RcsBuf} {n : ℕ} (hn : n < 2 ^ 64)
    (hfits : leNat (nonce.val.take 8) + n < 2 ^ 64) :
    List.iterate rcsLowNonce nonce n =
      List.iterate (rcsNextNonce : RcsBuf → RcsBuf) nonce n := by
  refine (List.range_map_iterate n rcsLowNonce nonce).symm.trans
    (Eq.trans (List.map_congr_left fun i hi => ?_) (List.range_map_iterate n rcsNextNonce nonce))
  rw [List.mem_range] at hi
  exact (iterate_rcsLowNonce_eq_iff nonce (Nat.lt_trans hi hn)).2 (by omega)

section

variable {ctype : RcsCipherType}

theorem startedBlocks_rcsPaired {input : Bytes} :
    CounterMode.startedBlocks rcsBlockSize (rcsPaired input).length =
      2 * (input.length / rcsAvx512Block) := by
  have hsize : rcsBlockSize = 32 := rfl
  have hpair : rcsAvx512Block = 64 := rfl
  rw [CounterMode.startedBlocks, length_rcsPaired, hsize, hpair]
  omega

/-- The pairs in one equation. -/
theorem rcsCtrPairs_counters {tmpr : Bytes} (hlen : tmpr.length = ctype.roundkeySize * 4)
    (nonce : RcsBuf) (input : Bytes) :
    rcsCtrPairs (rcsNiRoundkeys ctype tmpr) nonce input =
      (rcsLowNonce^[2 * (input.length / rcsAvx512Block)] nonce,
        xorBytes ((List.iterate rcsLowNonce nonce (2 * (input.length / rcsAvx512Block))).flatMap
          (rcsPlainKeystream (rcsRoundkeys ctype tmpr))) (rcsPaired input)) := by
  rw [rcsCtrPairs_eq hlen, CounterMode.transform_eq length_rcsPlainKeystream (by decide),
    CounterMode.counters_eq (by decide), startedBlocks_rcsPaired]

/-- **When two blocks at a time are one block twice**: the pairs of an
input are enciphered as the plain code does it, and leave the counter it
leaves, exactly when the low word of the counter does not wrap. -/
theorem rcsCtrPairs_eq_iff (permute : KeccakArray → KeccakArray)
    (tmpr : Octets (ctype.roundkeySize * 4)) (nonce : RcsBlock) {input : Bytes}
    (hsize : input.length < 2 ^ 64) :
    rcsCtrPairs (rcsNiRoundkeys ctype tmpr.val) nonce input =
        CounterMode.transform (rcsKeystream (rcsPrimitives permute) (rcsRoundkeys ctype tmpr.val))
          rcsNextNonce rcsBlockSize nonce (rcsPaired input) ↔
      leNat (nonce.val.take 8) + 2 * (input.length / rcsAvx512Block) < 2 ^ 64 := by
  have hpair : rcsAvx512Block = 64 := rfl
  have hblocks : 2 * (input.length / rcsAvx512Block) < 2 ^ 64 := by
    rw [hpair]
    omega
  have hwide : rcsCtrPairs (rcsNiRoundkeys ctype tmpr.val) nonce input = _ :=
    rcsCtrPairs_counters tmpr.property nonce input
  rw [hwide, CounterMode.transform_eq length_rcsKeystream (by decide),
    CounterMode.counters_eq (by decide), startedBlocks_rcsPaired]
  constructor
  · intro heq
    exact (iterate_rcsLowNonce_eq_iff nonce hblocks).1 (congrArg Prod.fst heq)
  · intro hfits
    refine Prod.ext ((iterate_rcsLowNonce_eq_iff nonce hblocks).2 hfits) ?_
    exact congrArg (fun l => xorBytes (l.flatMap (rcsPlainKeystream (rcsRoundkeys ctype tmpr.val)))
      (rcsPaired input)) (list_iterate_rcsLowNonce hblocks hfits)

/-- Two pairs, eight blocks before the low word wraps. -/
theorem rcsCtrPairs_eq_iff_two :
    rcsCtrPairs (rcsNiRoundkeys .cipher256
          (Octets.zero (RcsCipherType.cipher256.roundkeySize * 4)).val)
        ⟨leBytes 32 (2 ^ 64 - 8), length_leBytes⟩ (List.replicate 128 0) =
      CounterMode.transform
        (rcsKeystream (rcsPrimitives id) (rcsRoundkeys .cipher256
          (Octets.zero (RcsCipherType.cipher256.roundkeySize * 4)).val)) rcsNextNonce
        rcsBlockSize ⟨leBytes 32 (2 ^ 64 - 8), length_leBytes⟩ (rcsPaired (List.replicate 128 0)) :=
  (rcsCtrPairs_eq_iff id (Octets.zero _) _ (by rw [List.length_replicate]; decide)).2
    (by rw [List.length_replicate]; decide +kernel)

/-! ## Sixteen bytes at a time -/

theorem rcsNiKeystream_eq {tmpr : Bytes} (hlen : tmpr.length = ctype.roundkeySize * 4)
    (nonce : RcsBuf) :
    rcsNiKeystream (rcsNiRoundkeys ctype tmpr) nonce =
      (rcsNetwork (rcsRow ∘ rcsFlip) (rcsRoundkeys ctype tmpr) nonce).val := by
  have hhalves : ∀ x : RcsBuf,
      (x.reindex (halfPlace 0)).val ++ (x.reindex (halfPlace 1)).val = x.val := by
    intro x
    have hfirst : (x.reindex (halfPlace 0)).val = (x.val.drop 0).take 16 :=
      Octets.val_reindex (fun _ => rfl) x
    have hsecond : (x.reindex (halfPlace 1)).val = (x.val.drop 16).take 16 :=
      Octets.val_reindex (fun _ => rfl) x
    have hrest : (x.val.drop 16).take 16 = x.val.drop 16 :=
      List.take_of_length_le (by rw [List.length_drop, x.property])
    rw [hfirst, hsecond, hrest, List.drop_zero, List.take_append_drop]
  have hload : ∀ h : Fin 2, mmLoaduSi128 (nonce.val.drop (16 * h)) =
      nonce.reindex (halfPlace h) := by
    intro h
    refine Octets.ext_get fun i => ?_
    rw [mmLoaduSi128, Octets.get_ofFn, Octets.get_reindex, Function.comp_apply, Octets.get_eq_getD,
      List.getD_eq_getElem?_getD, List.getElem?_drop, List.getD_eq_getElem?_getD]
    rfl
  have hfirst : mmLoaduSi128 nonce.val = nonce.reindex (halfPlace 0) := hload 0
  have hsecond : mmLoaduSi128 (nonce.val.drop 16) = nonce.reindex (halfPlace 1) := hload 1
  unfold rcsNiKeystream
  rw [hfirst, hsecond, rcsNiTransform256_eq hlen]
  exact hhalves _

/-- **Neither build repeats a block**: the plain block function is a
permutation under every key schedule, and the key stream of the AES
instructions has another block for every counter, whatever the key
material. -/
theorem rcs_blocks_distinct :
    (∀ ctx : RcsRoundkeys, Function.Bijective (rcsTransform256 ctx)) ∧
      ∀ (ctype : RcsCipherType) (tmpr : Octets (ctype.roundkeySize * 4)),
        Function.Injective (rcsNiKeystream (rcsNiRoundkeys ctype tmpr.val)) := by
  refine ⟨bijective_rcsTransform256, fun ctype tmpr a b heq => ?_⟩
  have ha := rcsNiKeystream_eq tmpr.property a
  have hb := rcsNiKeystream_eq tmpr.property b
  rw [heq] at ha
  exact (rcsNetwork_bijective bijective_rcsRow_flip _).1 (Subtype.ext (ha.symm.trans hb))

/-- One block of zeros shows the key stream. -/
theorem transform_zeros {K : Primitives} {schedule : RcsRoundkeys} (nonce : RcsBlock) :
    (CounterMode.transform (rcsKeystream K schedule) rcsNextNonce rcsBlockSize nonce
      (List.replicate rcsBlockSize 0)).2 = rcsKeystream K schedule nonce := by
  have hlen : (rcsKeystream K schedule nonce).length = rcsBlockSize := length_rcsKeystream nonce
  have hblock : CounterMode.transform (rcsKeystream K schedule) rcsNextNonce rcsBlockSize nonce
      (List.replicate rcsBlockSize 0 ++ []) = _ :=
    CounterMode.transform_block (by decide) List.length_replicate
  rw [List.append_nil, CounterMode.transform_nil (by decide), List.append_nil] at hblock
  rw [hblock]
  refine List.ext_getElem (by rw [length_xorBytes, hlen, List.length_replicate, Nat.min_self])
    fun i _ _ => ?_
  simp [xorBytes]

/-- **The 16-byte build is another cipher**: it is counter mode over the
network of the flipped rows, for every key material, counter and input, and
for both cipher types there is an input the plain build enciphers
differently. -/
theorem rcsNiCtrTransform_flipped (permute : KeccakArray → KeccakArray) (ctype : RcsCipherType) :
    (∀ (tmpr : Octets (ctype.roundkeySize * 4)) (nonce : RcsBlock) (input : Bytes),
      rcsNiCtrTransform false (rcsNiRoundkeys ctype tmpr.val) nonce input =
        CounterMode.transform (rcsKeystream (rcsNiPrimitives permute)
          (rcsRoundkeys ctype tmpr.val)) rcsNextNonce rcsBlockSize nonce input) ∧
      ∃ (tmpr : Octets (ctype.roundkeySize * 4)) (nonce : RcsBlock) (input : Bytes),
        rcsNiCtrTransform false (rcsNiRoundkeys ctype tmpr.val) nonce input ≠
          CounterMode.transform (rcsKeystream (rcsPrimitives permute)
            (rcsRoundkeys ctype tmpr.val)) rcsNextNonce rcsBlockSize nonce input := by
  have hflipped : ∀ (tmpr : Octets (ctype.roundkeySize * 4)) (nonce : RcsBlock) (input : Bytes),
      rcsNiCtrTransform false (rcsNiRoundkeys ctype tmpr.val) nonce input =
        CounterMode.transform (rcsKeystream (rcsNiPrimitives permute)
          (rcsRoundkeys ctype tmpr.val)) rcsNextNonce rcsBlockSize nonce input := by
    intro tmpr nonce input
    have hstream : rcsNiKeystream (rcsNiRoundkeys ctype tmpr.val) =
        rcsKeystream (rcsNiPrimitives permute) (rcsRoundkeys ctype tmpr.val) :=
      funext fun nonce => rcsNiKeystream_eq tmpr.property nonce
    rw [rcsNiCtrTransform, hstream]
    rfl
  refine ⟨hflipped, ?_⟩
  obtain ⟨block, hblock⟩ := Function.ne_iff.1 (rcsNetwork_flip_ne ctype)
  refine ⟨Octets.zero _, block, List.replicate rcsBlockSize 0, fun heq => hblock ?_⟩
  have htext := congrArg Prod.snd ((hflipped (Octets.zero _) block _).symm.trans heq)
  exact Subtype.ext ((transform_zeros block).symm.trans (htext.trans (transform_zeros block)))

end

end Qsmp
