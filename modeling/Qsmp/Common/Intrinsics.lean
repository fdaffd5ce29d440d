import Qsmp.Common.LittleEndian
import Qsmp.Common.Rijndael
/-!
# Vector registers of the x86 processors

A register is the bytes it stores, the least significant first, and an
instruction is what its documentation says it does to them. The byte
shuffles and the cipher instructions work on each 16-byte lane of a
wider register alone. Only what moves, adds or ciphers bytes is here;
the S-box of the cipher instructions is a parameter.

What the instructions have in common is stated once: a shuffle, a blend
or a row shift reads each byte of the result from a fixed place, so any
chain of them is one `reindex`, and two chains agree when their places
do.
-/

namespace Qsmp

open Rijndael

namespace Octets

variable {k m n : ℕ}

/-- The block that reads each byte from a fixed place of another. -/
def reindex (place : Fin k → Fin n) (s : Octets n) : Octets k := ofFn (s.get ∘ place)

/-- The same function applied to every byte. -/
def substitute (f : UInt8 → UInt8) : Octets n → Octets n := lift fun s i => f (s i)

/-- Bytewise exclusive or. -/
def xor (a b : Octets n) : Octets n := ofFn fun i => a.get i ^^^ b.get i

@[simp] theorem get_reindex (place : Fin k → Fin n) (s : Octets n) :
    (s.reindex place).get = s.get ∘ place := get_ofFn _

theorem ext_get {a b : Octets n} (h : ∀ i, a.get i = b.get i) : a = b :=
  get_bijective.1 (funext h)

/-- Two reads in a row are one. -/
theorem reindex_reindex (p : Fin m → Fin k) (q : Fin k → Fin n) (s : Octets n) :
    (s.reindex q).reindex p = s.reindex (q ∘ p) := by
  simp only [reindex, get_ofFn]
  rfl

/-- Places in a row are a stretch of the bytes. -/
theorem val_reindex {place : Fin k → Fin n} {offset : ℕ}
    (h : ∀ i, (place i : ℕ) = offset + i) (s : Octets n) :
    (s.reindex place).val = (s.val.drop offset).take k := by
  have hlen := s.property
  have hroom : k = 0 ∨ offset + k ≤ n := by
    cases k with
    | zero => exact .inl rfl
    | succ k =>
      have hlast := h (Fin.last k)
      have hlt := (place (Fin.last k)).isLt
      rw [hlast, Fin.val_last] at hlt
      exact .inr hlt
  refine List.ext_getElem ?_ fun i hi _ => ?_
  · rw [(s.reindex place).property, List.length_take, List.length_drop, hlen]
    omega
  · rw [(s.reindex place).property] at hi
    rw [List.getElem_take, List.getElem_drop]
    simp only [reindex, ofFn, List.getElem_ofFn, Function.comp_apply, get, List.get_eq_getElem,
      Fin.val_cast, h]

/-- A substitution does not mind where its bytes are. -/
theorem reindex_substitute (p : Fin k → Fin n) (f : UInt8 → UInt8) (s : Octets n) :
    (s.substitute f).reindex p = (s.reindex p).substitute f :=
  ext_get fun i => by simp [substitute]

theorem reindex_xor (p : Fin k → Fin n) (a b : Octets n) :
    (a.xor b).reindex p = (a.reindex p).xor (b.reindex p) :=
  ext_get fun i => by simp [xor]

/-- Places that keep columns together may be read before or after the
columns are mixed. -/
theorem reindex_byColumns {j l : ℕ} (f : (Fin 4 → UInt8) → Fin 4 → UInt8) (c : Fin j → Fin l)
    (s : Octets (l * 4)) {p : Fin (j * 4) → Fin (l * 4)}
    (hp : ∀ i r, p (finProdFinEquiv (i, r)) = finProdFinEquiv (c i, r)) :
    (lift (byColumns f) s).reindex p = lift (byColumns f) (s.reindex p) := by
  refine ext_get fun i => ?_
  obtain ⟨⟨i, r⟩, rfl⟩ := finProdFinEquiv.surjective i
  have hcolumn : column (s.get ∘ p) i = column s.get (c i) := by
    funext r'
    simp only [column, Function.comp_apply, hp]
  simp [hp, byColumns, hcolumn]

end Octets

/-! ## The instructions -/

/-- `__m128i` -/
abbrev M128i := Octets 16

/-- `__m512i` -/
abbrev M512i := Octets 64

/-- `_mm_set_epi8`: the byte of the highest place first. -/
def mmSetEpi8 (e : Octets 16) : M128i := ⟨e.val.reverse, by simp [e.property]⟩

/-- `_mm_set_epi32`: the word of the highest places first. -/
def mmSetEpi32 (e : Fin 4 → UInt32) : M128i := .ofFn (n := 4 * 4) fun i =>
  let (word, byte) := finProdFinEquiv.symm i
  (e word.rev >>> UInt32.ofNat (8 * byte)).toUInt8

/-- `_mm512_setr_epi8`: the byte of the lowest place first. -/
def mm512SetrEpi8 (e : Octets 64) : M512i := e

/-- The register with a 64-bit word at every place. -/
def ofEpi64 (e : Fin 8 → UInt64) : M512i := .ofFn (n := 8 * 8) fun i =>
  let (word, byte) := finProdFinEquiv.symm i
  (e word >>> UInt64.ofNat (8 * byte)).toUInt8

/-- `_mm512_set_epi64`: the word of the highest places first. -/
def mm512SetEpi64 (e : Fin 8 → UInt64) : M512i := ofEpi64 fun word => e word.rev

/-- `_mm_blendv_epi8`: the high bit of each mask byte chooses. -/
def mmBlendvEpi8 (a b mask : M128i) : M128i :=
  .ofFn fun i => if 0x80 ≤ mask.get i then b.get i else a.get i

/-- `_mm512_or_si512` -/
def mm512OrSi512 (a b : M512i) : M512i := .ofFn fun i => a.get i ||| b.get i

/-- `_mm512_add_epi8` -/
def mm512AddEpi8 (a b : M512i) : M512i := .ofFn fun i => a.get i + b.get i

/-- The 64-bit word of a register at a place. -/
def epi64 (a : M512i) (word : Fin 8) : UInt64 :=
  UInt64.ofNat (leNat (List.ofFn fun byte : Fin 8 => a.get (finProdFinEquiv (word, byte))))

/-- `_mm512_add_epi64`: no carry leaves a word. -/
def mm512AddEpi64 (a b : M512i) : M512i := ofEpi64 fun word => epi64 a word + epi64 b word

/-- `_mm512_permutex_epi64`: in each half of the register, two bits of `imm`
choose the word for each place. -/
def mm512PermutexEpi64 (a : M512i) (imm : ℕ) : M512i := .ofFn (n := 8 * 8) fun i =>
  let (word, byte) := finProdFinEquiv.symm i
  let (half, place) := (finProdFinEquiv (m := 2) (n := 4)).symm word
  a.get (finProdFinEquiv (finProdFinEquiv (half, Fin.ofNat 4 (imm / 4 ^ (place : ℕ))), byte))

/-- A byte of a word, by the little-endian bytes of the word. -/
theorem toUInt8_shiftRight (v : UInt64) (byte : Fin 8) :
    (v >>> UInt64.ofNat (8 * byte)).toUInt8 = (leBytes 8 v.toNat).getD byte 0 := by
  have hshift : (UInt64.ofNat (8 * byte)).toNat = 8 * byte := UInt64.toNat_ofNat_of_lt' (by
    have hsize : UInt64.size = 2 ^ 64 := rfl
    omega)
  rw [← UInt8.toNat_inj, getD_leBytes byte.isLt, UInt64.toNat_toUInt8, UInt64.toNat_shiftRight,
    hshift, Nat.mod_eq_of_lt (a := 8 * (byte : ℕ)) (by omega), Nat.shiftRight_eq_div_pow,
    Nat.pow_mul]
  rfl

/-- A register has the words it is made of. -/
@[simp] theorem epi64_ofEpi64 (e : Fin 8 → UInt64) : epi64 (ofEpi64 e) = e := by
  funext word
  have hbytes : (List.ofFn fun byte : Fin 8 => (ofEpi64 e).get (finProdFinEquiv (word, byte))) =
      leBytes 8 (e word).toNat := by
    refine List.ext_getElem (by simp) fun i h _ => ?_
    rw [List.length_ofFn] at h
    rw [List.getElem_ofFn, ofEpi64, Octets.get_ofFn]
    dsimp only
    rw [Equiv.symm_apply_apply, toUInt8_shiftRight, List.getD_eq_getElem _ _ (by simpa using h)]
  have hlt : (e word).toNat < 256 ^ 8 := (e word).toNat_lt
  rw [epi64, hbytes, leNat_leBytes, Nat.mod_eq_of_lt hlt, UInt64.ofNat_toNat]

/-- And is told by its words. -/
theorem ext_epi64 {a b : M512i} (h : ∀ word, epi64 a word = epi64 b word) : a = b := by
  refine Octets.ext_get fun i => ?_
  obtain ⟨⟨word, byte⟩, rfl⟩ := (finProdFinEquiv (m := 8) (n := 8)).surjective i
  have hlist : ∀ c : M512i, (leBytes 8 (epi64 c word).toNat).getD byte 0 =
      c.get (finProdFinEquiv (word, byte)) := by
    intro c
    have hbytes := leBytes_leNat (List.ofFn fun byte : Fin 8 =>
      c.get (finProdFinEquiv (word, byte)))
    have hlt := leNat_lt (List.ofFn fun byte : Fin 8 => c.get (finProdFinEquiv (word, byte)))
    rw [List.length_ofFn] at hbytes hlt
    rw [epi64, UInt64.toNat_ofNat_of_lt' hlt, hbytes, List.getD_eq_getElem _ _ (by simp),
      List.getElem_ofFn]
  rw [← hlist a, ← hlist b, h word]

/-- A word of a register, by the bytes the register stores. -/
theorem epi64_eq (a : M512i) (word : Fin 8) :
    epi64 a word = UInt64.ofNat (leNat ((a.val.drop (8 * word)).take 8)) := by
  have hlen := a.property
  rw [epi64]
  congr 2
  refine List.ext_getElem (by simp [hlen]; omega) fun i h _ => ?_
  rw [List.getElem_ofFn, List.getElem_take, List.getElem_drop]
  simp only [Nat.add_comm (8 * (word : ℕ)) i]
  rfl

section Lanes

variable {m : ℕ}

/-- Place `place` of lane `lane`, in a register of `m` lanes of four
columns each. -/
def lanePlace (lane : Fin m) (place : Fin (4 * 4)) : Fin (m * 4 * 4) :=
  let (column, row) := finProdFinEquiv.symm place
  finProdFinEquiv (finProdFinEquiv (lane, column), row)

/-- The lane of a place. -/
def laneOf (i : Fin (m * 4 * 4)) : Fin m :=
  (finProdFinEquiv.symm (finProdFinEquiv.symm i).1).1

/-- `_mm_shuffle_epi8`, on every lane: the low four bits of a mask byte
name a place of the lane, the high bit clears. -/
def shuffleEpi8 (a mask : Octets (m * 4 * 4)) : Octets (m * 4 * 4) := .ofFn fun i =>
  if 0x80 ≤ mask.get i then 0
  else a.get (lanePlace (laneOf i) (Fin.ofNat 16 (mask.get i).toNat))

/-- The place that the row shift of the cipher instructions reads: row `r`
moves `r` columns on, inside its lane. -/
def aesRow (i : Fin (m * 4 * 4)) : Fin (m * 4 * 4) :=
  let (column, row) := finProdFinEquiv.symm i
  let (lane, place) := finProdFinEquiv.symm column
  finProdFinEquiv (finProdFinEquiv (lane, place + row), row)

variable (sbox : UInt8 → UInt8)

/-- `_mm_aesenc_si128`, on every lane: a round of the cipher. -/
def aesenc (a roundKey : Octets (m * 4 * 4)) : Octets (m * 4 * 4) :=
  (Octets.lift (byColumns (mixColumn xtime)) ((a.reindex aesRow).substitute sbox)).xor roundKey

/-- `_mm_aesenclast_si128`, on every lane: the round that does not mix. -/
def aesenclast (a roundKey : Octets (m * 4 * 4)) : Octets (m * 4 * 4) :=
  ((a.reindex aesRow).substitute sbox).xor roundKey

end Lanes

end Qsmp
