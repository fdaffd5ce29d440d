import Qsmp.Common.Intrinsics
import Qsmp.Qsc.RcsBlock
/-!
# RCS with the cipher instructions of the processor

With `QSC_RCS_AESNI_ENABLED` the block function works on two 16-byte
halves with the AES instructions, and with AVX-512 on two whole blocks
at once. Both are compared with the plain code through one network: the
rounds of the cipher over an arbitrary movement of the bytes. The plain
code and the AVX-512 code are the network of the same movement. The
16-byte code is not: its shuffle constant is written from the low byte
up and handed to `_mm_set_epi8`, which takes it from the high byte down.
-/

namespace Qsmp

open Rijndael

/-! ## The network -/

/-- Round key `i` of the schedule, as bytes. -/
def RcsRoundkeys.key (ctx : RcsRoundkeys) (i : ℕ) : RcsBuf :=
  Octets.ofFn fun place =>
    wordBytes (ctx.skeys i (finProdFinEquiv.symm place).1) (finProdFinEquiv.symm place).2

/-- Bytes substituted, then read from the places `place`. -/
def rcsMoved (place : Fin (8 * 4) → Fin (8 * 4)) (buf : RcsBuf) : RcsBuf :=
  (buf.reindex place).substitute (lookup rcsSbox)

/-- A round over the movement `place`. -/
def rcsNetworkRound (place : Fin (8 * 4) → Fin (8 * 4)) (ctx : RcsRoundkeys) (buf : RcsBuf)
    (i : ℕ) : RcsBuf :=
  (Octets.lift (byColumns (mixColumn xtime)) (rcsMoved place buf)).xor (ctx.key i)

/-- **The cipher over an arbitrary movement of the bytes.** -/
def rcsNetwork (place : Fin (8 * 4) → Fin (8 * 4)) (ctx : RcsRoundkeys) (input : RcsBuf) : RcsBuf :=
  let buf := (List.range' 1 (ctx.rounds - 1)).foldl (rcsNetworkRound place ctx)
    (input.xor (ctx.key 0))
  (rcsMoved place buf).xor (ctx.key ctx.rounds)

/-- The places `rcs_shift_rows` reads: rows 1, 2 and 3 move by one, three
and four columns. -/
def rcsRow (i : Fin (8 * 4)) : Fin (8 * 4) :=
  let (column, row) := finProdFinEquiv.symm i
  finProdFinEquiv (column + ![0, 1, 3, 4] row, row)

theorem rcsShiftRows_eq (buf : RcsBuf) : rcsShiftRows buf = buf.reindex rcsRow := by
  unfold rcsShiftRows Octets.reindex Octets.lift
  congr 1
  funext i
  fin_cases i <;> rfl

theorem rcsMoved_eq (buf : RcsBuf) :
    rcsShiftRows (rcsSubBytes rcsSbox buf) = rcsMoved rcsRow buf := by
  rw [rcsShiftRows_eq, rcsMoved, ← Octets.reindex_substitute]
  rfl

theorem rcsAddRoundkey_eq (ctx : RcsRoundkeys) (i : ℕ) (buf : RcsBuf) :
    rcsAddRoundkey (ctx.skeys i) buf = buf.xor (ctx.key i) := by
  simp only [RcsRoundkeys.key, Octets.xor, Octets.get_ofFn]
  rfl

/-- **The plain code is the network of its row shift.** -/
theorem rcsTransform256_eq (ctx : RcsRoundkeys) : rcsTransform256 ctx = rcsNetwork rcsRow ctx := by
  have hround : rcsRound ctx = rcsNetworkRound rcsRow ctx := by
    funext buf i
    rw [rcsRound, rcsMixColumns, rcsMixColumn_eq, rcsMoved_eq, rcsAddRoundkey_eq]
    rfl
  funext input
  rw [rcsTransform256, rcsNetwork, hround, rcsAddRoundkey_eq, rcsAddRoundkey_eq, rcsMoved_eq]

/-! ## The round keys of both builds -/

/-- The words `rcs_secure_expand` makes of its key material without the
instructions. -/
def rcsRoundkeys (ctype : RcsCipherType) (tmpr : Bytes) : RcsRoundkeys :=
  let words := (List.range ctype.roundkeySize).map fun i =>
    qscIntutilsBe8to32 ((tmpr.drop (4 * i)).take 4)
  ⟨words ++ List.replicate (rcsRoundkeysMax - words.length) 0, ctype.roundkeySize, ctype.rounds⟩

/-- `_mm_loadu_si128` -/
def mmLoaduSi128 (p : Bytes) : M128i := .ofFn fun i => p.getD i 0

/-- `_mm512_inserti32x4` -/
def mm512InsertI32x4 (a : M512i) (b : M128i) (lane : Fin 4) : M512i :=
  .ofFn (n := 4 * 16) fun i =>
    let (k, place) := finProdFinEquiv.symm i
    if k = lane then b.get place else a.get i

/-- `rcs_load2x128to512` -/
def rcsLoad2x128to512 (k1 k2 : M128i) : M512i :=
  let output := Octets.zero 64
  let output := mm512InsertI32x4 output k1 0
  let output := mm512InsertI32x4 output k2 1
  let output := mm512InsertI32x4 output k1 2
  mm512InsertI32x4 output k2 3

/-- The key schedule with the instructions: `roundkeys`, `roundkeysw` and
`roundkeylen` of `qsc_rcs_state`. -/
structure RcsNiRoundkeys where
  roundkeys : List M128i
  roundkeysw : List M512i
  roundkeylen : ℕ

/-- What `rcs_secure_expand` makes of the same key material with them. -/
def rcsNiRoundkeys (ctype : RcsCipherType) (tmpr : Bytes) : RcsNiRoundkeys :=
  let rnklen := 2 * (ctype.rounds + 1)
  let roundkeys := (List.range rnklen).map fun i => mmLoaduSi128 (tmpr.drop (16 * i))
  let roundkeysw := (List.range (rnklen / 2)).map fun i =>
    rcsLoad2x128to512 (roundkeys.getD (2 * i) (Octets.zero 16))
      (roundkeys.getD (2 * i + 1) (Octets.zero 16))
  ⟨roundkeys, roundkeysw, rnklen⟩

/-- Round key `i` of `ctx->roundkeys`. -/
def RcsNiRoundkeys.key (ctx : RcsNiRoundkeys) (i : ℕ) : M128i :=
  ctx.roundkeys.getD i (Octets.zero 16)

/-- Round key `i` of `ctx->roundkeysw`. -/
def RcsNiRoundkeys.keyw (ctx : RcsNiRoundkeys) (i : ℕ) : M512i :=
  ctx.roundkeysw.getD i (Octets.zero 64)

/-! ## Sixteen bytes at a time -/

/-- `BLEND_MASK` -/
def rcsBlendMask : M128i := mmSetEpi32 ![0x80000000, 0x80800000, 0x80800000, 0x80808000]

/-- `SHIFT_MASK` -/
def rcsShiftMask : M128i :=
  mmSetEpi8 ⟨[0, 1, 6, 7, 4, 5, 10, 11, 8, 9, 14, 15, 12, 13, 2, 3], rfl⟩

/-- The halves mixed and shuffled: `tmp1` and `tmp2`. -/
def rcsNiShuffle (blk1 blk2 : M128i) : M128i × M128i :=
  let tmp1 := mmBlendvEpi8 blk1 blk2 rcsBlendMask
  let tmp2 := mmBlendvEpi8 blk2 blk1 rcsBlendMask
  (shuffleEpi8 (m := 1) tmp1 rcsShiftMask, shuffleEpi8 (m := 1) tmp2 rcsShiftMask)

/-- The loop `while (kctr != RNDCNT)`; `fuel` bounds its turns. -/
def rcsNiLoop (ctx : RcsNiRoundkeys) (rndcnt : ℕ) : ℕ → ℕ → M128i → M128i → ℕ × M128i × M128i
  | 0, kctr, blk1, blk2 => (kctr, blk1, blk2)
  | fuel + 1, kctr, blk1, blk2 =>
    if kctr ≠ rndcnt then
      let (tmp1, tmp2) := rcsNiShuffle blk1 blk2
      rcsNiLoop ctx rndcnt fuel (kctr + 2)
        (aesenc (m := 1) (lookup rcsSbox) tmp1 (ctx.key (kctr + 1)))
        (aesenc (m := 1) (lookup rcsSbox) tmp2 (ctx.key (kctr + 2)))
    else (kctr, blk1, blk2)

/-- `rcs_transform_256` with the AES instructions, of the two halves of a
block. -/
def rcsNiTransform256 (ctx : RcsNiRoundkeys) (input0 input1 : M128i) : M128i × M128i :=
  let rndcnt := ctx.roundkeylen - 3
  let blk1 := input0.xor (ctx.key 0)
  let blk2 := input1.xor (ctx.key 1)
  let (kctr, blk1, blk2) := rcsNiLoop ctx rndcnt ctx.roundkeylen 1 blk1 blk2
  let (tmp1, tmp2) := rcsNiShuffle blk1 blk2
  (aesenclast (m := 1) (lookup rcsSbox) tmp1 (ctx.key (kctr + 1)),
    aesenclast (m := 1) (lookup rcsSbox) tmp2 (ctx.key (kctr + 2)))

/-! ## Sixty-four bytes at a time -/

/-- `NI512K0` -/
def rcsNi512k0 : M512i :=
  mm512SetEpi64 ![17361641481138401520, 17361641481138401520, 8102099357864587376,
    8102099357864587376, 17361641481138401520, 17361641481138401520, 8102099357864587376,
    8102099357864587376]

/-- `NI512K1` -/
def rcsNi512k1 : M512i :=
  mm512SetEpi64 ![8102099357864587376, 8102099357864587376, 17361641481138401520,
    17361641481138401520, 8102099357864587376, 8102099357864587376, 17361641481138401520,
    17361641481138401520]

/-- `SWMASKL` -/
def rcsSwmaskl : M512i :=
  mm512SetrEpi8 ⟨[0, 17, 22, 23, 4, 5, 26, 27, 8, 9, 14, 31, 12, 13, 18, 19,
    16, 1, 6, 7, 20, 21, 10, 11, 24, 25, 30, 15, 28, 29, 2, 3,
    0, 17, 22, 23, 4, 5, 26, 27, 8, 9, 14, 31, 12, 13, 18, 19,
    16, 1, 6, 7, 20, 21, 10, 11, 24, 25, 30, 15, 28, 29, 2, 3], rfl⟩

/-- `rcs_shuffle512` -/
def rcsShuffle512 (value k0 k1 mask : M512i) : M512i :=
  mm512OrSi512 (shuffleEpi8 (m := 4) value (mm512AddEpi8 mask k0))
    (shuffleEpi8 (m := 4) (mm512PermutexEpi64 value 0x4E) (mm512AddEpi8 mask k1))

/-- The shuffle of a round. -/
def rcsSwap (x : M512i) : M512i := rcsShuffle512 x rcsNi512k0 rcsNi512k1 rcsSwmaskl

/-- The loop `while (kctr < RNDCNT)`; `fuel` bounds its turns. -/
def rcsWideLoop (ctx : RcsNiRoundkeys) (rndcnt : ℕ) : ℕ → ℕ → M512i → ℕ × M512i
  | 0, kctr, x => (kctr, x)
  | fuel + 1, kctr, x =>
    if kctr < rndcnt then
      rcsWideLoop ctx rndcnt fuel (kctr + 1)
        (aesenc (m := 4) (lookup rcsSbox) (rcsSwap x) (ctx.keyw (kctr + 1)))
    else (kctr, x)

/-- `rcs_transform_512`, of two blocks. -/
def rcsTransform512 (ctx : RcsNiRoundkeys) (input : M512i) : M512i :=
  let rndcnt := ctx.roundkeylen / 2 - 2
  let x := input.xor (ctx.keyw 0)
  let (kctr, x) := rcsWideLoop ctx rndcnt rndcnt 0 x
  aesenclast (m := 4) (lookup rcsSbox) (rcsSwap x) (ctx.keyw (kctr + 1))

/-! ## The shuffles as movements -/

/-- The bytes of each half in the order `_mm_set_epi8` gives them. -/
def rcsFlip (i : Fin (8 * 4)) : Fin (8 * 4) := ⟨16 * (i / 16) + (19 - i % 16) % 16, by omega⟩

/-- Half `h` of a block. -/
def halfPlace (h : Fin 2) (i : Fin (1 * 4 * 4)) : Fin (8 * 4) := ⟨16 * h + i, by omega⟩

/-- Block `k` of a wide register. -/
def blockPlace (k : Fin 2) (i : Fin (8 * 4)) : Fin (4 * 4 * 4) := ⟨32 * k + i, by omega⟩

theorem halfPlace_column (h : Fin 2) (c : Fin (1 * 4)) (r : Fin 4) :
    halfPlace h (finProdFinEquiv (c, r)) =
      finProdFinEquiv ((⟨4 * h + c, by omega⟩ : Fin 8), r) :=
  Fin.ext (by simp only [halfPlace, finProdFinEquiv_apply_val]; omega)

theorem blockPlace_column (k : Fin 2) (c : Fin 8) (r : Fin 4) :
    blockPlace k (finProdFinEquiv (c, r)) =
      finProdFinEquiv ((⟨8 * k + c, by omega⟩ : Fin (4 * 4)), r) :=
  Fin.ext (by simp only [blockPlace, finProdFinEquiv_apply_val]; omega)

/-- The two halves after the shuffle, when the rows are shifted. -/
theorem rcsNiShuffle_fst (s : RcsBuf) :
    (rcsNiShuffle (s.reindex (halfPlace 0)) (s.reindex (halfPlace 1))).1.reindex
      (aesRow (m := 1)) = s.reindex (rcsRow ∘ rcsFlip ∘ halfPlace 0) := by
  refine Octets.ext_get fun i => ?_
  simp only [rcsNiShuffle, shuffleEpi8, mmBlendvEpi8, Octets.get_reindex, Octets.get_ofFn]
  fin_cases i <;> rfl

theorem rcsNiShuffle_snd (s : RcsBuf) :
    (rcsNiShuffle (s.reindex (halfPlace 0)) (s.reindex (halfPlace 1))).2.reindex
      (aesRow (m := 1)) = s.reindex (rcsRow ∘ rcsFlip ∘ halfPlace 1) := by
  refine Octets.ext_get fun i => ?_
  simp only [rcsNiShuffle, shuffleEpi8, mmBlendvEpi8, Octets.get_reindex, Octets.get_ofFn]
  fin_cases i <;> rfl

/-- The two blocks after the shuffle, when the rows are shifted. -/
theorem rcsSwap_block (x : M512i) (k : Fin 2) :
    ((rcsSwap x).reindex (aesRow (m := 4))).reindex (blockPlace k) =
      (x.reindex (blockPlace k)).reindex rcsRow := by
  refine Octets.ext_get fun i => ?_
  simp only [rcsSwap, rcsShuffle512, mm512OrSi512, shuffleEpi8, mm512AddEpi8,
    mm512PermutexEpi64, Octets.get_reindex, Octets.get_ofFn]
  -- One of the two masks clears the byte, the other finds it.
  fin_cases k <;> fin_cases i <;> first | exact UInt8.or_zero | exact UInt8.zero_or

/-! ## The round keys agree -/

/-- The bytes of a word read in big-endian order. -/
theorem wordBytes_be8to32 {bs : Bytes} (h : bs.length = 4) (r : Fin 4) :
    wordBytes (qscIntutilsBe8to32 bs) r = bs.getD r 0 := by
  obtain ⟨b0, bs, rfl⟩ := List.exists_cons_of_length_eq_add_one h
  obtain ⟨b1, bs, rfl⟩ := List.exists_cons_of_length_eq_add_one (Nat.succ.inj h)
  obtain ⟨b2, bs, rfl⟩ := List.exists_cons_of_length_eq_add_one (Nat.succ.inj (Nat.succ.inj h))
  obtain ⟨b3, rfl⟩ := List.length_eq_one_iff.1 (Nat.succ.inj (Nat.succ.inj (Nat.succ.inj h)))
  have hrev : [b0, b1, b2, b3].reverse = [b3, b2, b1, b0] := rfl
  have hlt : leNat [b3, b2, b1, b0] < 2 ^ 32 := by simpa using leNat_lt [b3, b2, b1, b0]
  have hbytes := leBytes_leNat [b3, b2, b1, b0]
  have hword : qscIntutilsLe32to8 (qscIntutilsBe8to32 [b0, b1, b2, b3]) = [b3, b2, b1, b0] := by
    rwa [qscIntutilsLe32to8, qscIntutilsBe8to32, hrev, UInt32.toNat_ofNat_of_lt' hlt]
  rw [qscIntutilsLe32to8_eq] at hword
  simp only [List.cons.injEq, and_true] at hword
  obtain ⟨h3, h2, h1, h0⟩ := hword
  fin_cases r
  · exact h0
  · exact h1
  · exact h2
  · exact h3

variable {ctype : RcsCipherType} {tmpr : Bytes}

/-- The schedule is the one of `rcs_secure_expand`, of the bytes it draws. -/
theorem rcsSecureExpand_schedule (K : Primitives) (ctype : RcsCipherType)
    (keyparams : RcsKeyparams) :
    (rcsSecureExpand K ctype keyparams).1 = rcsRoundkeys ctype
      (keccakOutput K.permute ctype.rate
        (qscCshakeInitialize K.permute ctype.rate keyparams.key ctype.name keyparams.info).state
        (ctype.roundkeySize * 4)).2 := rfl

/-- Word `w` of the schedule. -/
theorem rcsRoundkeys_getD {w : ℕ} (h : w < ctype.roundkeySize) :
    (rcsRoundkeys ctype tmpr).roundkeys.getD w 0 =
      qscIntutilsBe8to32 ((tmpr.drop (4 * w)).take 4) := by
  rw [rcsRoundkeys, List.getD_append _ _ _ _ (by simpa using h),
    List.getD_eq_getElem _ _ (by simpa using h)]
  simp

/-- **A round key is its stretch of the key material**, in the words of the
plain code. -/
theorem key_rcsRoundkeys (hlen : tmpr.length = ctype.roundkeySize * 4) {i : ℕ}
    (hi : i ≤ ctype.rounds) (place : Fin (8 * 4)) :
    ((rcsRoundkeys ctype tmpr).key i).get place = tmpr.getD (32 * i + place) 0 := by
  obtain ⟨⟨c, r⟩, rfl⟩ := finProdFinEquiv.surjective place
  have hsize : ctype.roundkeySize = (ctype.rounds + 1) * 8 := rfl
  have hw : 8 * i + c < ctype.roundkeySize := by omega
  have hstretch : ((tmpr.drop (4 * (8 * i + c))).take 4).length = 4 := by
    rw [List.length_take, List.length_drop]
    omega
  simp only [RcsRoundkeys.key, RcsRoundkeys.skeys, Octets.get_ofFn, Equiv.symm_apply_apply,
    rcsRoundkeys_getD hw, wordBytes_be8to32 hstretch, finProdFinEquiv_apply_val]
  rw [List.getD_eq_getElem?_getD, List.getD_eq_getElem?_getD, List.getElem?_take_of_lt r.isLt,
    List.getElem?_drop]
  congr 2
  omega

/-- The same in the halves of the instructions. -/
theorem key_rcsNiRoundkeys {j : ℕ} (hj : j < 2 * (ctype.rounds + 1)) (place : Fin 16) :
    ((rcsNiRoundkeys ctype tmpr).key j).get place = tmpr.getD (16 * j + place) 0 := by
  rw [RcsNiRoundkeys.key, rcsNiRoundkeys, List.getD_eq_getElem _ _ (by simpa using hj)]
  simp only [List.getElem_map, List.getElem_range, mmLoaduSi128, Octets.get_ofFn]
  rw [List.getD_eq_getElem?_getD, List.getD_eq_getElem?_getD, List.getElem?_drop]

theorem key_half (hlen : tmpr.length = ctype.roundkeySize * 4) {i : ℕ} (hi : i ≤ ctype.rounds)
    (h : Fin 2) : (rcsNiRoundkeys ctype tmpr).key (2 * i + h) =
      ((rcsRoundkeys ctype tmpr).key i).reindex (halfPlace h) := by
  refine Octets.ext_get fun place => ?_
  rw [key_rcsNiRoundkeys (by omega), Octets.get_reindex, Function.comp_apply,
    key_rcsRoundkeys hlen hi]
  congr 1
  simp only [halfPlace]
  omega

/-- A wide round key is the round key of both blocks. -/
theorem keyw_block (hlen : tmpr.length = ctype.roundkeySize * 4) {i : ℕ} (hi : i ≤ ctype.rounds)
    (k : Fin 2) : ((rcsNiRoundkeys ctype tmpr).keyw i).reindex (blockPlace k) =
      (rcsRoundkeys ctype tmpr).key i := by
  have hhalf : 2 * (ctype.rounds + 1) / 2 = ctype.rounds + 1 := by omega
  have hkeyw : (rcsNiRoundkeys ctype tmpr).keyw i =
      rcsLoad2x128to512 ((rcsNiRoundkeys ctype tmpr).key (2 * i))
        ((rcsNiRoundkeys ctype tmpr).key (2 * i + 1)) := by
    rw [RcsNiRoundkeys.keyw, rcsNiRoundkeys, List.getD_eq_getElem _ _ (by simp; omega)]
    simp only [List.getElem_map, List.getElem_range]
    rfl
  have hfst : (rcsNiRoundkeys ctype tmpr).key (2 * i) = _ := key_half hlen hi 0
  have hsnd : (rcsNiRoundkeys ctype tmpr).key (2 * i + 1) = _ := key_half hlen hi 1
  refine Octets.ext_get fun place => ?_
  rw [hkeyw, hfst, hsnd]
  simp only [rcsLoad2x128to512, mm512InsertI32x4, Octets.get_reindex, Octets.get_ofFn]
  fin_cases k <;> fin_cases place <;> rfl

/-! ## The halves run the network of the flipped rows -/

/-- Half `h` of a round of the network. -/
theorem rcsNetworkRound_half (place : Fin (8 * 4) → Fin (8 * 4)) (ctx : RcsRoundkeys)
    (s : RcsBuf) (i : ℕ) (h : Fin 2) :
    (rcsNetworkRound place ctx s i).reindex (halfPlace h) =
      (Octets.lift (byColumns (mixColumn xtime))
        ((s.reindex (place ∘ halfPlace h)).substitute (lookup rcsSbox))).xor
        ((ctx.key i).reindex (halfPlace h)) := by
  rw [rcsNetworkRound, rcsMoved, Octets.reindex_xor,
    Octets.reindex_byColumns _ _ _ (halfPlace_column h), Octets.reindex_substitute,
    Octets.reindex_reindex]

/-- **A turn of the loop** is a round of the network on the halves. -/
theorem rcsNiShuffle_round (hlen : tmpr.length = ctype.roundkeySize * 4) (s : RcsBuf) {i : ℕ}
    (hi : i ≤ ctype.rounds) :
    let tmp := rcsNiShuffle (s.reindex (halfPlace 0)) (s.reindex (halfPlace 1))
    let s' := rcsNetworkRound (rcsRow ∘ rcsFlip) (rcsRoundkeys ctype tmpr) s i
    aesenc (m := 1) (lookup rcsSbox) tmp.1 ((rcsNiRoundkeys ctype tmpr).key (2 * i)) =
        s'.reindex (halfPlace 0) ∧
      aesenc (m := 1) (lookup rcsSbox) tmp.2 ((rcsNiRoundkeys ctype tmpr).key (2 * i + 1)) =
        s'.reindex (halfPlace 1) := by
  have hfst : (rcsNiRoundkeys ctype tmpr).key (2 * i) = _ := key_half hlen hi 0
  have hsnd : (rcsNiRoundkeys ctype tmpr).key (2 * i + 1) = _ := key_half hlen hi 1
  dsimp only
  rw [aesenc, aesenc, rcsNiShuffle_fst, rcsNiShuffle_snd, rcsNetworkRound_half,
    rcsNetworkRound_half, hfst, hsnd]
  exact ⟨rfl, rfl⟩

/-- The loop, from round `a` for `n` rounds. -/
theorem rcsNiLoop_eq (hlen : tmpr.length = ctype.roundkeySize * 4) :
    ∀ (n a fuel : ℕ) (s : RcsBuf), 0 < a → a + n ≤ ctype.rounds → n ≤ fuel →
      rcsNiLoop (rcsNiRoundkeys ctype tmpr) (2 * (a + n) - 1) fuel (2 * a - 1)
          (s.reindex (halfPlace 0)) (s.reindex (halfPlace 1)) =
        (2 * (a + n) - 1,
          ((List.range' a n).foldl (rcsNetworkRound (rcsRow ∘ rcsFlip)
            (rcsRoundkeys ctype tmpr)) s).reindex (halfPlace 0),
          ((List.range' a n).foldl (rcsNetworkRound (rcsRow ∘ rcsFlip)
            (rcsRoundkeys ctype tmpr)) s).reindex (halfPlace 1)) := by
  intro n
  induction n with
  | zero =>
      intro a fuel s _ _ _
      cases fuel with
      | zero => rfl
      | succ fuel => rw [rcsNiLoop, if_neg (by omega)]; rfl
  | succ n ih =>
      intro a fuel s ha hn hfuel
      obtain ⟨fuel, rfl⟩ : ∃ f, fuel = f + 1 := ⟨fuel - 1, by omega⟩
      obtain ⟨hfst, hsnd⟩ := rcsNiShuffle_round hlen s (i := a) (by omega)
      have hnext := ih (a + 1) fuel (rcsNetworkRound (rcsRow ∘ rcsFlip) (rcsRoundkeys ctype tmpr)
        s a) (by omega) (by omega) (by omega)
      rw [rcsNiLoop, if_pos (by omega)]
      have h1 : 2 * a - 1 + 1 = 2 * a := by omega
      have h2 : 2 * a - 1 + 2 = 2 * a + 1 := by omega
      have h3 : 2 * (a + 1) - 1 = 2 * a + 1 := by omega
      have h4 : a + 1 + n = a + (n + 1) := by omega
      rw [h3, h4] at hnext
      simp only [h1, h2, hfst, hsnd, hnext, List.range'_succ, List.foldl_cons]

/-- **The 16-byte code is the network of the flipped rows**, not that of
the row shift: every half of a block has its bytes in another order after
each shuffle. -/
theorem rcsNiTransform256_eq (hlen : tmpr.length = ctype.roundkeySize * 4) (input : RcsBuf) :
    rcsNiTransform256 (rcsNiRoundkeys ctype tmpr) (input.reindex (halfPlace 0))
        (input.reindex (halfPlace 1)) =
      ((rcsNetwork (rcsRow ∘ rcsFlip) (rcsRoundkeys ctype tmpr) input).reindex (halfPlace 0),
        (rcsNetwork (rcsRow ∘ rcsFlip) (rcsRoundkeys ctype tmpr) input).reindex
          (halfPlace 1)) := by
  have hrounds : 0 < ctype.rounds := by cases ctype <;> decide
  have hfst : (rcsNiRoundkeys ctype tmpr).key 0 = _ := key_half hlen (Nat.zero_le _) 0
  have hsnd : (rcsNiRoundkeys ctype tmpr).key 1 = _ := key_half hlen (Nat.zero_le _) 1
  have hlast : (rcsNiRoundkeys ctype tmpr).key (2 * ctype.rounds) = _ :=
    key_half hlen (Nat.le_refl _) 0
  have hlast' : (rcsNiRoundkeys ctype tmpr).key (2 * ctype.rounds + 1) = _ :=
    key_half hlen (Nat.le_refl _) 1
  have hloop := rcsNiLoop_eq hlen (ctype.rounds - 1) 1 (2 * (ctype.rounds + 1))
    (input.xor ((rcsRoundkeys ctype tmpr).key 0)) (by omega) (by omega) (by omega)
  have hkctr : 2 * (1 + (ctype.rounds - 1)) - 1 = 2 * (ctype.rounds + 1) - 3 := by omega
  have h1 : 2 * (ctype.rounds + 1) - 3 + 1 = 2 * ctype.rounds := by omega
  have h2 : 2 * (ctype.rounds + 1) - 3 + 2 = 2 * ctype.rounds + 1 := by omega
  have hlength : (rcsNiRoundkeys ctype tmpr).roundkeylen = 2 * (ctype.rounds + 1) := rfl
  rw [hkctr, Octets.reindex_xor, Octets.reindex_xor, ← hfst, ← hsnd] at hloop
  unfold rcsNiTransform256
  dsimp only
  rw [hlength, hloop]
  dsimp only
  rw [h1, h2, hlast, hlast', aesenclast, aesenclast, rcsNiShuffle_fst, rcsNiShuffle_snd]
  simp only [rcsNetwork, rcsMoved, Octets.reindex_xor, Octets.reindex_substitute,
    Octets.reindex_reindex]
  rfl

/-! ## The wide register runs the plain code -/

/-- A turn of the loop is a round of the plain code on both blocks. -/
theorem rcsSwap_round (hlen : tmpr.length = ctype.roundkeySize * 4) (x : M512i) {i : ℕ}
    (hi : i ≤ ctype.rounds) (k : Fin 2) :
    (aesenc (m := 4) (lookup rcsSbox) (rcsSwap x)
        ((rcsNiRoundkeys ctype tmpr).keyw i)).reindex (blockPlace k) =
      rcsNetworkRound rcsRow (rcsRoundkeys ctype tmpr) (x.reindex (blockPlace k)) i := by
  rw [aesenc, Octets.reindex_xor, keyw_block hlen hi,
    Octets.reindex_byColumns _ _ _ (blockPlace_column k), Octets.reindex_substitute,
    rcsSwap_block, rcsNetworkRound, rcsMoved]

/-- The loop, from round `a + 1` for `n` rounds. -/
theorem rcsWideLoop_eq (hlen : tmpr.length = ctype.roundkeySize * 4) :
    ∀ (n a fuel : ℕ) (x : M512i), a + n < ctype.rounds → n ≤ fuel →
      (rcsWideLoop (rcsNiRoundkeys ctype tmpr) (a + n) fuel a x).1 = a + n ∧
        ∀ k, (rcsWideLoop (rcsNiRoundkeys ctype tmpr) (a + n) fuel a x).2.reindex (blockPlace k) =
          (List.range' (a + 1) n).foldl (rcsNetworkRound rcsRow (rcsRoundkeys ctype tmpr))
            (x.reindex (blockPlace k)) := by
  intro n
  induction n with
  | zero =>
      intro a fuel x _ _
      cases fuel with
      | zero => exact ⟨rfl, fun _ => rfl⟩
      | succ fuel =>
          rw [rcsWideLoop, if_neg (by omega)]
          exact ⟨rfl, fun _ => rfl⟩
  | succ n ih =>
      intro a fuel x hn hfuel
      obtain ⟨fuel, rfl⟩ : ∃ f, fuel = f + 1 := ⟨fuel - 1, by omega⟩
      have hnext : a + 1 + n = a + (n + 1) := by omega
      obtain ⟨hkctr, hblocks⟩ := ih (a + 1) fuel (aesenc (m := 4) (lookup rcsSbox) (rcsSwap x)
        ((rcsNiRoundkeys ctype tmpr).keyw (a + 1))) (by omega) (by omega)
      rw [hnext] at hkctr hblocks
      rw [rcsWideLoop, if_pos (by omega)]
      refine ⟨hkctr, fun k => ?_⟩
      rw [hblocks, rcsSwap_round hlen _ (by omega), List.range'_succ, List.foldl_cons]

/-- **The AVX-512 code is the plain code** on both of its blocks, for
every key material. -/
theorem rcsTransform512_block (hlen : tmpr.length = ctype.roundkeySize * 4) (x : M512i)
    (k : Fin 2) :
    (rcsTransform512 (rcsNiRoundkeys ctype tmpr) x).reindex (blockPlace k) =
      rcsTransform256 (rcsRoundkeys ctype tmpr) (x.reindex (blockPlace k)) := by
  have hrounds : 0 < ctype.rounds := by cases ctype <;> decide
  have hlength : (rcsNiRoundkeys ctype tmpr).roundkeylen / 2 - 2 = 0 + (ctype.rounds - 1) := by
    have hrnklen : (rcsNiRoundkeys ctype tmpr).roundkeylen = 2 * (ctype.rounds + 1) := rfl
    omega
  obtain ⟨hkctr, hblocks⟩ := rcsWideLoop_eq hlen (ctype.rounds - 1) 0 (0 + (ctype.rounds - 1))
    (x.xor ((rcsNiRoundkeys ctype tmpr).keyw 0)) (by omega) (by omega)
  have hlast : 0 + (ctype.rounds - 1) + 1 = ctype.rounds := by omega
  unfold rcsTransform512
  dsimp only
  rw [hlength, hkctr, hlast, aesenclast, Octets.reindex_xor, keyw_block hlen (Nat.le_refl _),
    Octets.reindex_substitute, rcsSwap_block, hblocks, Octets.reindex_xor,
    keyw_block hlen (Nat.zero_le _), rcsTransform256_eq]
  rfl

/-! ## Two permutations of the blocks, not one

Over key material of zeros a block of eight equal columns stays one: the
row shift does nothing to it, and the flip reverses its columns. -/

theorem bijective_reindex {n : ℕ} {place : Fin n → Fin n} (h : Function.Bijective place) :
    Function.Bijective (Octets.reindex place) :=
  Octets.bijective_lift (((Equiv.ofBijective place h).arrowCongr (Equiv.refl UInt8)).symm.bijective)

theorem bijective_rcsMoved {place : Fin (8 * 4) → Fin (8 * 4)} (h : Function.Bijective place) :
    Function.Bijective (rcsMoved place) :=
  (Octets.bijective_lift (Function.Bijective.piMap fun _ => bijective_rcsSbox)).comp
    (bijective_reindex h)

/-- **Over any movement that is a permutation** the network is one of the
blocks. -/
theorem rcsNetwork_bijective {place : Fin (8 * 4) → Fin (8 * 4)} (h : Function.Bijective place)
    (ctx : RcsRoundkeys) : Function.Bijective (rcsNetwork place ctx) := by
  have hkey : ∀ i, Function.Bijective fun buf : RcsBuf => buf.xor (ctx.key i) := fun i =>
    Octets.bijective_lift (bijective_addKey (ctx.key i).get)
  have hround : ∀ i, Function.Bijective fun buf => rcsNetworkRound place ctx buf i := fun i =>
    (hkey i).comp ((Octets.bijective_lift (bijective_byColumns
      (bijective_mixColumn xtime_xor))).comp (bijective_rcsMoved h))
  exact (hkey _).comp ((bijective_rcsMoved h).comp ((bijective_foldl hround _).comp (hkey 0)))

theorem bijective_rcsRow_flip : Function.Bijective (rcsRow ∘ rcsFlip) := by
  have hinj : Function.Injective (rcsRow ∘ rcsFlip) := by decide +kernel
  exact Finite.injective_iff_bijective.1 hinj

/-- The block of eight equal columns. -/
def repeated (c : Octets 4) : RcsBuf := .ofFn fun i => c.get (finProdFinEquiv.symm i).2

/-- A column substituted, its rows permuted by `row`. -/
def columnMoved (row : Fin 4 → Fin 4) (c : Octets 4) : Octets 4 :=
  .ofFn fun r => lookup rcsSbox (c.get (row r))

/-- A round on one column. -/
def columnRound (row : Fin 4 → Fin 4) (c : Octets 4) (_ : ℕ) : Octets 4 :=
  .lift (mixColumn xtime) (columnMoved row c)

/-- What the network makes of the column. -/
def columnNetwork (row : Fin 4 → Fin 4) (rounds : ℕ) (c : Octets 4) : Octets 4 :=
  columnMoved row ((List.range' 1 (rounds - 1)).foldl (columnRound row) c)

theorem rcsMoved_repeated {place : Fin (8 * 4) → Fin (8 * 4)} {row : Fin 4 → Fin 4}
    (h : ∀ i, (finProdFinEquiv.symm (place i)).2 = row (finProdFinEquiv.symm i).2)
    (c : Octets 4) : rcsMoved place (repeated c) = repeated (columnMoved row c) := by
  refine Octets.ext_get fun i => ?_
  simp [rcsMoved, repeated, columnMoved, Octets.substitute, h]

theorem mixed_repeated (c : Octets 4) :
    Octets.lift (byColumns (mixColumn xtime)) (repeated c) =
      repeated (.lift (mixColumn xtime) c) := by
  have hcolumn : ∀ k : Fin 8, column (repeated c).get k = c.get := fun k => funext fun r => by
    simp [column, repeated]
  refine Octets.ext_get fun i => ?_
  rw [Octets.get_lift, byColumns, hcolumn, repeated, Octets.get_ofFn, Octets.get_lift]

theorem xor_key_zero {i n : ℕ} (hi : i ≤ ctype.rounds) (hn : n = ctype.roundkeySize * 4)
    (s : RcsBuf) : s.xor ((rcsRoundkeys ctype (List.replicate n 0)).key i) = s := by
  refine Octets.ext_get fun place => ?_
  rw [Octets.xor, Octets.get_ofFn, key_rcsRoundkeys (by rw [List.length_replicate, hn]) hi]
  have hzero : (List.replicate n (0 : UInt8)).getD (32 * i + place) 0 = 0 := by
    rw [List.getD_eq_getElem?_getD, List.getElem?_replicate]
    split <;> rfl
  rw [hzero, UInt8.xor_zero]

/-- **The network on equal columns** is the network of one. -/
theorem rcsNetwork_repeated {place : Fin (8 * 4) → Fin (8 * 4)} {row : Fin 4 → Fin 4}
    (h : ∀ i, (finProdFinEquiv.symm (place i)).2 = row (finProdFinEquiv.symm i).2)
    (c : Octets 4) {n : ℕ} (hn : n = ctype.roundkeySize * 4) :
    rcsNetwork place (rcsRoundkeys ctype (List.replicate n 0)) (repeated c) =
      repeated (columnNetwork row ctype.rounds c) := by
  have hrounds : ∀ (l : List ℕ) (c : Octets 4), (∀ i ∈ l, i ≤ ctype.rounds) →
      l.foldl (rcsNetworkRound place (rcsRoundkeys ctype (List.replicate n 0))) (repeated c) =
        repeated (l.foldl (columnRound row) c) := by
    intro l
    induction l with
    | nil => exact fun c _ => rfl
    | cons i l ih =>
        intro c hl
        rw [List.forall_mem_cons] at hl
        rw [List.foldl_cons, List.foldl_cons, rcsNetworkRound, rcsMoved_repeated h,
          mixed_repeated, xor_key_zero hl.1 hn, ih _ hl.2]
        rfl
  have hrange : ∀ i ∈ List.range' 1 (ctype.rounds - 1), i ≤ ctype.rounds := by
    intro i hi
    rw [List.mem_range'_1] at hi
    omega
  have hcount : (rcsRoundkeys ctype (List.replicate n 0)).rounds = ctype.rounds := rfl
  rw [rcsNetwork, xor_key_zero (Nat.zero_le _) hn, hcount, hrounds _ _ hrange,
    rcsMoved_repeated h, xor_key_zero (Nat.le_refl _) hn]
  rfl

/-- **The two block functions differ** for both cipher types. -/
theorem rcsNetwork_flip_ne (ctype : RcsCipherType) :
    rcsNetwork (rcsRow ∘ rcsFlip)
        (rcsRoundkeys ctype (List.replicate (ctype.roundkeySize * 4) 0)) ≠
      rcsTransform256 (rcsRoundkeys ctype (List.replicate (ctype.roundkeySize * 4) 0)) := by
  intro heq
  have hrow : ∀ i, (finProdFinEquiv.symm (rcsRow i)).2 = id (finProdFinEquiv.symm i).2 := by
    decide +kernel
  have hflip : ∀ i, (finProdFinEquiv.symm ((rcsRow ∘ rcsFlip) i)).2 =
      Fin.rev (finProdFinEquiv.symm i).2 := by decide +kernel
  have hne : ∀ ctype : RcsCipherType,
      (columnNetwork Fin.rev ctype.rounds ⟨[0, 1, 2, 3], rfl⟩).get 0 ≠
        (columnNetwork id ctype.rounds ⟨[0, 1, 2, 3], rfl⟩).get 0 := by
    intro ctype
    cases ctype with
    | cipher256 => decide +kernel
    | cipher512 => decide +kernel
  have happly := congrFun heq (repeated ⟨[0, 1, 2, 3], rfl⟩)
  rw [rcsTransform256_eq, rcsNetwork_repeated hrow _ rfl, rcsNetwork_repeated hflip _ rfl] at happly
  have hget := congrArg (fun s : RcsBuf => s.get (finProdFinEquiv ((0 : Fin 8), (0 : Fin 4))))
    happly
  simp only [repeated, Octets.get_ofFn, Equiv.symm_apply_apply] at hget
  exact hne ctype hget

end Qsmp
