import Mathlib.Data.Fin.VecNotation
import Qsmp.Common.KeccakF
import Qsmp.Qsc.Keccak
/-!
# The permutation of the library

Two rounds a turn, on named words: the second writes back what the first
has read. The table has constants for twice as many rounds as the standard
function takes. Read bit by bit a turn is two rounds of Keccak with lanes
of 64 bits, each with the constant the shift register gives.
-/

namespace Qsmp

/-- `qsc_intutils_rotl64` -/
def qscIntutilsRotl64 (value shift : UInt64) : UInt64 :=
  (value <<< shift) ||| (value >>> (64 - shift))

/-- `KECCAK_ROUND_CONSTANTS` -/
def keccakRoundConstants : List UInt64 :=
  [0x0000000000000001, 0x0000000000008082, 0x800000000000808A, 0x8000000080008000,
    0x000000000000808B, 0x0000000080000001, 0x8000000080008081, 0x8000000000008009,
    0x000000000000008A, 0x0000000000000088, 0x0000000080008009, 0x000000008000000A,
    0x000000008000808B, 0x800000000000008B, 0x8000000000008089, 0x8000000000008003,
    0x8000000000008002, 0x8000000000000080, 0x000000000000800A, 0x800000008000000A,
    0x8000000080008081, 0x8000000000008080, 0x0000000080000001, 0x8000000080008008,
    0x8000000080008082, 0x800000008000800A, 0x8000000000000003, 0x8000000080000009,
    0x8000000000008082, 0x0000000000008009, 0x8000000000000080, 0x0000000000008083,
    0x8000000000000081, 0x0000000000000001, 0x000000000000800B, 0x8000000080008001,
    0x0000000000000080, 0x8000000000008000, 0x8000000080008001, 0x0000000000000009,
    0x800000008000808B, 0x0000000000000081, 0x8000000000000082, 0x000000008000008B,
    0x8000000080008009, 0x8000000080000000, 0x0000000080000080, 0x0000000080008003]

/-- The words of the state, in the order of the array: `Aba`, `Abe` and so
on. -/
structure KeccakWords where
  (ba be bi bo bu : UInt64)
  (ga ge gi go gu : UInt64)
  (ka ke ki ko ku : UInt64)
  (ma me mi mo mu : UInt64)
  (sa se si so su : UInt64)

/-- A turn of the loop of `qsc_keccak_permute_p1600c`, two rounds. -/
def keccakTurn (i : ℕ) (A : KeccakWords) : KeccakWords :=
  let ⟨Aba, Abe, Abi, Abo, Abu,
    Aga, Age, Agi, Ago, Agu,
    Aka, Ake, Aki, Ako, Aku,
    Ama, Ame, Ami, Amo, Amu,
    Asa, Ase, Asi, Aso, Asu⟩ := A
  -- prepareTheta
  let BCa := Aba ^^^ Aga ^^^ Aka ^^^ Ama ^^^ Asa
  let BCe := Abe ^^^ Age ^^^ Ake ^^^ Ame ^^^ Ase
  let BCi := Abi ^^^ Agi ^^^ Aki ^^^ Ami ^^^ Asi
  let BCo := Abo ^^^ Ago ^^^ Ako ^^^ Amo ^^^ Aso
  let BCu := Abu ^^^ Agu ^^^ Aku ^^^ Amu ^^^ Asu
  -- thetaRhoPiChiIotaPrepareTheta
  let Da := BCu ^^^ qscIntutilsRotl64 BCe 1
  let De := BCa ^^^ qscIntutilsRotl64 BCi 1
  let Di := BCe ^^^ qscIntutilsRotl64 BCo 1
  let Do := BCi ^^^ qscIntutilsRotl64 BCu 1
  let Du := BCo ^^^ qscIntutilsRotl64 BCa 1
  let Aba := Aba ^^^ Da
  let BCa := Aba
  let Age := Age ^^^ De
  let BCe := qscIntutilsRotl64 Age 44
  let Aki := Aki ^^^ Di
  let BCi := qscIntutilsRotl64 Aki 43
  let Amo := Amo ^^^ Do
  let BCo := qscIntutilsRotl64 Amo 21
  let Asu := Asu ^^^ Du
  let BCu := qscIntutilsRotl64 Asu 14
  let Eba := BCa ^^^ ((~~~BCe) &&& BCi)
  let Eba := Eba ^^^ keccakRoundConstants.getD i 0
  let Ebe := BCe ^^^ ((~~~BCi) &&& BCo)
  let Ebi := BCi ^^^ ((~~~BCo) &&& BCu)
  let Ebo := BCo ^^^ ((~~~BCu) &&& BCa)
  let Ebu := BCu ^^^ ((~~~BCa) &&& BCe)
  let Abo := Abo ^^^ Do
  let BCa := qscIntutilsRotl64 Abo 28
  let Agu := Agu ^^^ Du
  let BCe := qscIntutilsRotl64 Agu 20
  let Aka := Aka ^^^ Da
  let BCi := qscIntutilsRotl64 Aka 3
  let Ame := Ame ^^^ De
  let BCo := qscIntutilsRotl64 Ame 45
  let Asi := Asi ^^^ Di
  let BCu := qscIntutilsRotl64 Asi 61
  let Ega := BCa ^^^ ((~~~BCe) &&& BCi)
  let Ege := BCe ^^^ ((~~~BCi) &&& BCo)
  let Egi := BCi ^^^ ((~~~BCo) &&& BCu)
  let Ego := BCo ^^^ ((~~~BCu) &&& BCa)
  let Egu := BCu ^^^ ((~~~BCa) &&& BCe)
  let Abe := Abe ^^^ De
  let BCa := qscIntutilsRotl64 Abe 1
  let Agi := Agi ^^^ Di
  let BCe := qscIntutilsRotl64 Agi 6
  let Ako := Ako ^^^ Do
  let BCi := qscIntutilsRotl64 Ako 25
  let Amu := Amu ^^^ Du
  let BCo := qscIntutilsRotl64 Amu 8
  let Asa := Asa ^^^ Da
  let BCu := qscIntutilsRotl64 Asa 18
  let Eka := BCa ^^^ ((~~~BCe) &&& BCi)
  let Eke := BCe ^^^ ((~~~BCi) &&& BCo)
  let Eki := BCi ^^^ ((~~~BCo) &&& BCu)
  let Eko := BCo ^^^ ((~~~BCu) &&& BCa)
  let Eku := BCu ^^^ ((~~~BCa) &&& BCe)
  let Abu := Abu ^^^ Du
  let BCa := qscIntutilsRotl64 Abu 27
  let Aga := Aga ^^^ Da
  let BCe := qscIntutilsRotl64 Aga 36
  let Ake := Ake ^^^ De
  let BCi := qscIntutilsRotl64 Ake 10
  let Ami := Ami ^^^ Di
  let BCo := qscIntutilsRotl64 Ami 15
  let Aso := Aso ^^^ Do
  let BCu := qscIntutilsRotl64 Aso 56
  let Ema := BCa ^^^ ((~~~BCe) &&& BCi)
  let Eme := BCe ^^^ ((~~~BCi) &&& BCo)
  let Emi := BCi ^^^ ((~~~BCo) &&& BCu)
  let Emo := BCo ^^^ ((~~~BCu) &&& BCa)
  let Emu := BCu ^^^ ((~~~BCa) &&& BCe)
  let Abi := Abi ^^^ Di
  let BCa := qscIntutilsRotl64 Abi 62
  let Ago := Ago ^^^ Do
  let BCe := qscIntutilsRotl64 Ago 55
  let Aku := Aku ^^^ Du
  let BCi := qscIntutilsRotl64 Aku 39
  let Ama := Ama ^^^ Da
  let BCo := qscIntutilsRotl64 Ama 41
  let Ase := Ase ^^^ De
  let BCu := qscIntutilsRotl64 Ase 2
  let Esa := BCa ^^^ ((~~~BCe) &&& BCi)
  let Ese := BCe ^^^ ((~~~BCi) &&& BCo)
  let Esi := BCi ^^^ ((~~~BCo) &&& BCu)
  let Eso := BCo ^^^ ((~~~BCu) &&& BCa)
  let Esu := BCu ^^^ ((~~~BCa) &&& BCe)
  -- prepareTheta
  let BCa := Eba ^^^ Ega ^^^ Eka ^^^ Ema ^^^ Esa
  let BCe := Ebe ^^^ Ege ^^^ Eke ^^^ Eme ^^^ Ese
  let BCi := Ebi ^^^ Egi ^^^ Eki ^^^ Emi ^^^ Esi
  let BCo := Ebo ^^^ Ego ^^^ Eko ^^^ Emo ^^^ Eso
  let BCu := Ebu ^^^ Egu ^^^ Eku ^^^ Emu ^^^ Esu
  -- thetaRhoPiChiIotaPrepareTheta
  let Da := BCu ^^^ qscIntutilsRotl64 BCe 1
  let De := BCa ^^^ qscIntutilsRotl64 BCi 1
  let Di := BCe ^^^ qscIntutilsRotl64 BCo 1
  let Do := BCi ^^^ qscIntutilsRotl64 BCu 1
  let Du := BCo ^^^ qscIntutilsRotl64 BCa 1
  let Eba := Eba ^^^ Da
  let BCa := Eba
  let Ege := Ege ^^^ De
  let BCe := qscIntutilsRotl64 Ege 44
  let Eki := Eki ^^^ Di
  let BCi := qscIntutilsRotl64 Eki 43
  let Emo := Emo ^^^ Do
  let BCo := qscIntutilsRotl64 Emo 21
  let Esu := Esu ^^^ Du
  let BCu := qscIntutilsRotl64 Esu 14
  let Aba := BCa ^^^ ((~~~BCe) &&& BCi)
  let Aba := Aba ^^^ keccakRoundConstants.getD (i + 1) 0
  let Abe := BCe ^^^ ((~~~BCi) &&& BCo)
  let Abi := BCi ^^^ ((~~~BCo) &&& BCu)
  let Abo := BCo ^^^ ((~~~BCu) &&& BCa)
  let Abu := BCu ^^^ ((~~~BCa) &&& BCe)
  let Ebo := Ebo ^^^ Do
  let BCa := qscIntutilsRotl64 Ebo 28
  let Egu := Egu ^^^ Du
  let BCe := qscIntutilsRotl64 Egu 20
  let Eka := Eka ^^^ Da
  let BCi := qscIntutilsRotl64 Eka 3
  let Eme := Eme ^^^ De
  let BCo := qscIntutilsRotl64 Eme 45
  let Esi := Esi ^^^ Di
  let BCu := qscIntutilsRotl64 Esi 61
  let Aga := BCa ^^^ ((~~~BCe) &&& BCi)
  let Age := BCe ^^^ ((~~~BCi) &&& BCo)
  let Agi := BCi ^^^ ((~~~BCo) &&& BCu)
  let Ago := BCo ^^^ ((~~~BCu) &&& BCa)
  let Agu := BCu ^^^ ((~~~BCa) &&& BCe)
  let Ebe := Ebe ^^^ De
  let BCa := qscIntutilsRotl64 Ebe 1
  let Egi := Egi ^^^ Di
  let BCe := qscIntutilsRotl64 Egi 6
  let Eko := Eko ^^^ Do
  let BCi := qscIntutilsRotl64 Eko 25
  let Emu := Emu ^^^ Du
  let BCo := qscIntutilsRotl64 Emu 8
  let Esa := Esa ^^^ Da
  let BCu := qscIntutilsRotl64 Esa 18
  let Aka := BCa ^^^ ((~~~BCe) &&& BCi)
  let Ake := BCe ^^^ ((~~~BCi) &&& BCo)
  let Aki := BCi ^^^ ((~~~BCo) &&& BCu)
  let Ako := BCo ^^^ ((~~~BCu) &&& BCa)
  let Aku := BCu ^^^ ((~~~BCa) &&& BCe)
  let Ebu := Ebu ^^^ Du
  let BCa := qscIntutilsRotl64 Ebu 27
  let Ega := Ega ^^^ Da
  let BCe := qscIntutilsRotl64 Ega 36
  let Eke := Eke ^^^ De
  let BCi := qscIntutilsRotl64 Eke 10
  let Emi := Emi ^^^ Di
  let BCo := qscIntutilsRotl64 Emi 15
  let Eso := Eso ^^^ Do
  let BCu := qscIntutilsRotl64 Eso 56
  let Ama := BCa ^^^ ((~~~BCe) &&& BCi)
  let Ame := BCe ^^^ ((~~~BCi) &&& BCo)
  let Ami := BCi ^^^ ((~~~BCo) &&& BCu)
  let Amo := BCo ^^^ ((~~~BCu) &&& BCa)
  let Amu := BCu ^^^ ((~~~BCa) &&& BCe)
  let Ebi := Ebi ^^^ Di
  let BCa := qscIntutilsRotl64 Ebi 62
  let Ego := Ego ^^^ Do
  let BCe := qscIntutilsRotl64 Ego 55
  let Eku := Eku ^^^ Du
  let BCi := qscIntutilsRotl64 Eku 39
  let Ema := Ema ^^^ Da
  let BCo := qscIntutilsRotl64 Ema 41
  let Ese := Ese ^^^ De
  let BCu := qscIntutilsRotl64 Ese 2
  let Asa := BCa ^^^ ((~~~BCe) &&& BCi)
  let Ase := BCe ^^^ ((~~~BCi) &&& BCo)
  let Asi := BCi ^^^ ((~~~BCo) &&& BCu)
  let Aso := BCo ^^^ ((~~~BCu) &&& BCa)
  let Asu := BCu ^^^ ((~~~BCa) &&& BCe)
  ⟨Aba, Abe, Abi, Abo, Abu,
    Aga, Age, Agi, Ago, Agu,
    Aka, Ake, Aki, Ako, Aku,
    Ama, Ame, Ami, Amo, Amu,
    Asa, Ase, Asi, Aso, Asu⟩

/-- The loop, for so many turns from index `i` on. -/
def keccakTurns : ℕ → ℕ → KeccakWords → KeccakWords
  | 0, _, A => A
  | turns + 1, i, A => keccakTurns turns (i + 2) (keccakTurn i A)

/-- A word of the array, which on a little-endian host is eight of its
bytes. -/
def keccakWord (state : KeccakArray) (i : ℕ) : UInt64 :=
  UInt64.ofNat (leNat ((state.val.drop (8 * i)).take 8))

/-- `copyFromState` -/
def copyFromState (state : KeccakArray) : KeccakWords :=
  ⟨keccakWord state 0, keccakWord state 1, keccakWord state 2, keccakWord state 3,
    keccakWord state 4, keccakWord state 5, keccakWord state 6, keccakWord state 7,
    keccakWord state 8, keccakWord state 9, keccakWord state 10, keccakWord state 11,
    keccakWord state 12, keccakWord state 13, keccakWord state 14, keccakWord state 15,
    keccakWord state 16, keccakWord state 17, keccakWord state 18, keccakWord state 19,
    keccakWord state 20, keccakWord state 21, keccakWord state 22, keccakWord state 23,
    keccakWord state 24⟩

/-- The words in the order of the array. -/
def KeccakWords.words (A : KeccakWords) : List UInt64 :=
  [A.ba, A.be, A.bi, A.bo, A.bu, A.ga, A.ge, A.gi, A.go, A.gu, A.ka, A.ke, A.ki, A.ko, A.ku,
    A.ma, A.me, A.mi, A.mo, A.mu, A.sa, A.se, A.si, A.so, A.su]

/-- `copyToState` -/
def copyToState (A : KeccakWords) : KeccakArray :=
  ⟨A.words.flatMap qscIntutilsLe64to8, by
    simp [KeccakWords.words, keccakStateByteSize]⟩

/-- `qsc_keccak_permute_p1600c`. The loop counts by two, so that an odd
number of rounds is rounded up. -/
def qscKeccakPermuteP1600c (state : KeccakArray) (rounds : ℕ) : KeccakArray :=
  copyToState (keccakTurns ((rounds + 1) / 2) 0 (copyFromState state))

/-- `QSC_KECCAK_PERMUTATION_ROUNDS` -/
def keccakPermutationRounds : ℕ := 24

/-- `qsc_keccak_permute` with the rounds the hashes pass. -/
def qscKeccakPermute (state : KeccakArray) : KeccakArray :=
  qscKeccakPermuteP1600c state keccakPermutationRounds

/-! ## Words -/

/-- Half a turn: a round, from the words of the state to those of the next. -/
def keccakHalf (rc : UInt64) (A : KeccakWords) : KeccakWords :=
  let ⟨Aba, Abe, Abi, Abo, Abu,
    Aga, Age, Agi, Ago, Agu,
    Aka, Ake, Aki, Ako, Aku,
    Ama, Ame, Ami, Amo, Amu,
    Asa, Ase, Asi, Aso, Asu⟩ := A
  -- prepareTheta
  let BCa := Aba ^^^ Aga ^^^ Aka ^^^ Ama ^^^ Asa
  let BCe := Abe ^^^ Age ^^^ Ake ^^^ Ame ^^^ Ase
  let BCi := Abi ^^^ Agi ^^^ Aki ^^^ Ami ^^^ Asi
  let BCo := Abo ^^^ Ago ^^^ Ako ^^^ Amo ^^^ Aso
  let BCu := Abu ^^^ Agu ^^^ Aku ^^^ Amu ^^^ Asu
  -- thetaRhoPiChiIotaPrepareTheta
  let Da := BCu ^^^ qscIntutilsRotl64 BCe 1
  let De := BCa ^^^ qscIntutilsRotl64 BCi 1
  let Di := BCe ^^^ qscIntutilsRotl64 BCo 1
  let Do := BCi ^^^ qscIntutilsRotl64 BCu 1
  let Du := BCo ^^^ qscIntutilsRotl64 BCa 1
  let Aba := Aba ^^^ Da
  let BCa := Aba
  let Age := Age ^^^ De
  let BCe := qscIntutilsRotl64 Age 44
  let Aki := Aki ^^^ Di
  let BCi := qscIntutilsRotl64 Aki 43
  let Amo := Amo ^^^ Do
  let BCo := qscIntutilsRotl64 Amo 21
  let Asu := Asu ^^^ Du
  let BCu := qscIntutilsRotl64 Asu 14
  let Eba := BCa ^^^ ((~~~BCe) &&& BCi)
  let Eba := Eba ^^^ rc
  let Ebe := BCe ^^^ ((~~~BCi) &&& BCo)
  let Ebi := BCi ^^^ ((~~~BCo) &&& BCu)
  let Ebo := BCo ^^^ ((~~~BCu) &&& BCa)
  let Ebu := BCu ^^^ ((~~~BCa) &&& BCe)
  let Abo := Abo ^^^ Do
  let BCa := qscIntutilsRotl64 Abo 28
  let Agu := Agu ^^^ Du
  let BCe := qscIntutilsRotl64 Agu 20
  let Aka := Aka ^^^ Da
  let BCi := qscIntutilsRotl64 Aka 3
  let Ame := Ame ^^^ De
  let BCo := qscIntutilsRotl64 Ame 45
  let Asi := Asi ^^^ Di
  let BCu := qscIntutilsRotl64 Asi 61
  let Ega := BCa ^^^ ((~~~BCe) &&& BCi)
  let Ege := BCe ^^^ ((~~~BCi) &&& BCo)
  let Egi := BCi ^^^ ((~~~BCo) &&& BCu)
  let Ego := BCo ^^^ ((~~~BCu) &&& BCa)
  let Egu := BCu ^^^ ((~~~BCa) &&& BCe)
  let Abe := Abe ^^^ De
  let BCa := qscIntutilsRotl64 Abe 1
  let Agi := Agi ^^^ Di
  let BCe := qscIntutilsRotl64 Agi 6
  let Ako := Ako ^^^ Do
  let BCi := qscIntutilsRotl64 Ako 25
  let Amu := Amu ^^^ Du
  let BCo := qscIntutilsRotl64 Amu 8
  let Asa := Asa ^^^ Da
  let BCu := qscIntutilsRotl64 Asa 18
  let Eka := BCa ^^^ ((~~~BCe) &&& BCi)
  let Eke := BCe ^^^ ((~~~BCi) &&& BCo)
  let Eki := BCi ^^^ ((~~~BCo) &&& BCu)
  let Eko := BCo ^^^ ((~~~BCu) &&& BCa)
  let Eku := BCu ^^^ ((~~~BCa) &&& BCe)
  let Abu := Abu ^^^ Du
  let BCa := qscIntutilsRotl64 Abu 27
  let Aga := Aga ^^^ Da
  let BCe := qscIntutilsRotl64 Aga 36
  let Ake := Ake ^^^ De
  let BCi := qscIntutilsRotl64 Ake 10
  let Ami := Ami ^^^ Di
  let BCo := qscIntutilsRotl64 Ami 15
  let Aso := Aso ^^^ Do
  let BCu := qscIntutilsRotl64 Aso 56
  let Ema := BCa ^^^ ((~~~BCe) &&& BCi)
  let Eme := BCe ^^^ ((~~~BCi) &&& BCo)
  let Emi := BCi ^^^ ((~~~BCo) &&& BCu)
  let Emo := BCo ^^^ ((~~~BCu) &&& BCa)
  let Emu := BCu ^^^ ((~~~BCa) &&& BCe)
  let Abi := Abi ^^^ Di
  let BCa := qscIntutilsRotl64 Abi 62
  let Ago := Ago ^^^ Do
  let BCe := qscIntutilsRotl64 Ago 55
  let Aku := Aku ^^^ Du
  let BCi := qscIntutilsRotl64 Aku 39
  let Ama := Ama ^^^ Da
  let BCo := qscIntutilsRotl64 Ama 41
  let Ase := Ase ^^^ De
  let BCu := qscIntutilsRotl64 Ase 2
  let Esa := BCa ^^^ ((~~~BCe) &&& BCi)
  let Ese := BCe ^^^ ((~~~BCi) &&& BCo)
  let Esi := BCi ^^^ ((~~~BCo) &&& BCu)
  let Eso := BCo ^^^ ((~~~BCu) &&& BCa)
  let Esu := BCu ^^^ ((~~~BCa) &&& BCe)
  ⟨Eba, Ebe, Ebi, Ebo, Ebu,
    Ega, Ege, Egi, Ego, Egu,
    Eka, Eke, Eki, Eko, Eku,
    Ema, Eme, Emi, Emo, Emu,
    Esa, Ese, Esi, Eso, Esu⟩

theorem keccakTurn_eq (i : ℕ) (A : KeccakWords) :
    keccakTurn i A = keccakHalf (keccakRoundConstants.getD (i + 1) 0)
      (keccakHalf (keccakRoundConstants.getD i 0) A) := rfl

/-- By how much the code rotates the lane of a column and a row. -/
def keccakOffsets : Fin 5 → Fin 5 → UInt64 :=
  ![![0, 36, 3, 41, 18], ![1, 44, 10, 45, 2], ![62, 6, 43, 15, 61], ![28, 55, 25, 21, 56],
    ![27, 20, 39, 8, 14]]

theorem toNat_keccakOffsets :
    ∀ x y, (keccakOffsets x y).toNat = KeccakF.offset x y % 64 := by
  decide

namespace KeccakWords

/-- The word in column `x` of row `y`. -/
def lane (A : KeccakWords) : Fin 5 → Fin 5 → UInt64 :=
  ![![A.ba, A.ga, A.ka, A.ma, A.sa], ![A.be, A.ge, A.ke, A.me, A.se],
    ![A.bi, A.gi, A.ki, A.mi, A.si], ![A.bo, A.go, A.ko, A.mo, A.so],
    ![A.bu, A.gu, A.ku, A.mu, A.su]]

/-- The parities of a column: `BCa` to `BCu`. -/
def sum (A : KeccakWords) (x : Fin 5) : UInt64 :=
  A.lane x 0 ^^^ A.lane x 1 ^^^ A.lane x 2 ^^^ A.lane x 3 ^^^ A.lane x 4

/-- A word with the parities of two columns, before it is rotated. -/
def mixed (A : KeccakWords) (x y : Fin 5) : UInt64 :=
  A.lane x y ^^^ (A.sum (x - 1) ^^^ qscIntutilsRotl64 (A.sum (x + 1)) 1)

/-- And after, but the first is never rotated. -/
def turned (A : KeccakWords) (x y : Fin 5) : UInt64 :=
  if x = 0 ∧ y = 0 then A.mixed x y else qscIntutilsRotl64 (A.mixed x y) (keccakOffsets x y)

/-- Three words of a row, before the constant. -/
def folded (A : KeccakWords) (x y : Fin 5) : UInt64 :=
  A.turned (x + 3 * y) x ^^^
    ((~~~A.turned (x + 1 + 3 * y) (x + 1)) &&& A.turned (x + 2 + 3 * y) (x + 2))

/-- **What half a turn writes**, word by word. -/
theorem lane_keccakHalf (rc : UInt64) (A : KeccakWords) (x y : Fin 5) :
    (keccakHalf rc A).lane x y =
      if x = 0 ∧ y = 0 then A.folded x y ^^^ rc else A.folded x y := by
  fin_cases x <;> fin_cases y <;> rfl

end KeccakWords

/-! ## Bits -/

/-- Bit `z` of a word. -/
def wordBit (v : UInt64) (z : Fin 64) : Bool := v.toBitVec.getLsbD z

/-- The bits of the words. -/
def KeccakWords.bits (A : KeccakWords) : KeccakF.Lanes 64 := fun x y => wordBit (A.lane x y)

@[simp] theorem wordBit_xor (v w : UInt64) (z : Fin 64) :
    wordBit (v ^^^ w) z = (wordBit v z ^^ wordBit w z) := by
  simp [wordBit]

@[simp] theorem wordBit_and (v w : UInt64) (z : Fin 64) :
    wordBit (v &&& w) z = (wordBit v z && wordBit w z) := by
  simp [wordBit]

@[simp] theorem wordBit_not (v : UInt64) (z : Fin 64) : wordBit (~~~v) z = !wordBit v z := by
  simp [wordBit]

/-- **A rotation moves the bits up.** -/
theorem wordBit_rotl64 {v n : UInt64} (hn : n.toNat < 64) (z : Fin 64) :
    wordBit (qscIntutilsRotl64 v n) z = wordBit v (z - Fin.ofNat 64 n.toNat) := by
  have hz := z.isLt
  have hsub : (64 - n).toNat % 64 = (64 - n.toNat) % 64 := by
    rw [UInt64.toNat_sub]
    have h64 : (64 : UInt64).toNat = 64 := rfl
    omega
  have hplace : ((z - Fin.ofNat 64 n.toNat : Fin 64) : ℕ) = (64 - n.toNat + z) % 64 := by
    rw [Fin.val_sub, Fin.val_ofNat, Nat.mod_eq_of_lt hn]
  have hbits : wordBit (qscIntutilsRotl64 v n) z =
      ((!decide ((z : ℕ) < n.toNat) && v.toBitVec.getLsbD (z - n.toNat)) ||
        v.toBitVec.getLsbD ((64 - n.toNat) % 64 + z)) := by
    have hleft : (v <<< n).toBitVec.getLsbD z =
        (!decide ((z : ℕ) < n.toNat) && v.toBitVec.getLsbD (z - n.toNat)) := by
      rw [UInt64.toBitVec_shiftLeft, BitVec.shiftLeft_eq', BitVec.getLsbD_shiftLeft,
        BitVec.toNat_umod, decide_eq_true hz, Bool.true_and, UInt64.toNat_toBitVec,
        show BitVec.toNat 64 = 64 from rfl, Nat.mod_eq_of_lt hn]
    have hright : (v >>> (64 - n)).toBitVec.getLsbD z =
        v.toBitVec.getLsbD ((64 - n.toNat) % 64 + z) := by
      rw [UInt64.toBitVec_shiftRight, BitVec.ushiftRight_eq', BitVec.getLsbD_ushiftRight,
        BitVec.toNat_umod, UInt64.toNat_toBitVec, ← hsub]
      rfl
    rw [wordBit, qscIntutilsRotl64, UInt64.toBitVec_or, BitVec.getLsbD_or, hleft, hright]
  rw [hbits, wordBit, hplace]
  -- one of the two shifts has left the bit out, or both have put it in one place
  rcases Nat.eq_zero_or_pos n.toNat with h0 | hpos
  · rw [h0, Nat.sub_zero, Nat.mod_self, Nat.zero_add, Nat.add_mod_left, Nat.mod_eq_of_lt hz]
    simp
  · rw [Nat.mod_eq_of_lt (by omega : 64 - n.toNat < 64)]
    by_cases hlt : (z : ℕ) < n.toNat
    · rw [Nat.mod_eq_of_lt (by omega), decide_eq_true hlt]
      rfl
    · rw [Nat.mod_eq_sub_mod (by omega), Nat.mod_eq_of_lt (by omega), decide_eq_false hlt,
        BitVec.getLsbD_of_ge _ (64 - n.toNat + z) (by omega),
        show 64 - n.toNat + z - 64 = z - n.toNat by omega]
      simp

/-! ## A turn is two rounds -/

theorem wordBit_sum (A : KeccakWords) (x : Fin 5) (z : Fin 64) :
    wordBit (A.sum x) z = KeccakF.parity A.bits x z := by
  simp [KeccakWords.sum, KeccakF.parity, KeccakWords.bits]

theorem wordBit_mixed (A : KeccakWords) (x y : Fin 5) (z : Fin 64) :
    wordBit (A.mixed x y) z = KeccakF.theta A.bits x y z := by
  rw [KeccakWords.mixed, wordBit_xor, wordBit_xor, wordBit_rotl64 (by decide), wordBit_sum,
    wordBit_sum, KeccakF.theta]
  rfl

theorem wordBit_turned (A : KeccakWords) (x y : Fin 5) (z : Fin 64) :
    wordBit (A.turned x y) z = KeccakF.rho (KeccakF.theta A.bits) x y z := by
  rw [KeccakF.rho, KeccakWords.turned]
  split
  · rename_i h
    rw [h.1, h.2, wordBit_mixed, show KeccakF.offset 0 0 = 0 by decide]
    simp
  · rw [wordBit_rotl64 (by rw [toNat_keccakOffsets]; omega), wordBit_mixed, toNat_keccakOffsets]
    congr 2
    exact Fin.ext (Nat.mod_mod _ _)

theorem wordBit_folded (A : KeccakWords) (x y : Fin 5) (z : Fin 64) :
    wordBit (A.folded x y) z =
      KeccakF.chi (KeccakF.pi (KeccakF.rho (KeccakF.theta A.bits))) x y z := by
  simp only [KeccakWords.folded, wordBit_xor, wordBit_and, wordBit_not, wordBit_turned,
    KeccakF.chi, KeccakF.chiRow, KeccakF.pi]

/-- **Half a turn is a round.** -/
theorem bits_keccakHalf (rc : UInt64) (A : KeccakWords) :
    (keccakHalf rc A).bits = KeccakF.round (wordBit rc) A.bits := by
  funext x y z
  rw [KeccakWords.bits, KeccakWords.lane_keccakHalf, KeccakF.round, KeccakF.iota]
  split
  · rw [wordBit_xor, wordBit_folded]
  · rw [wordBit_folded]

/-- **The table holds what the shift register puts out.** -/
theorem wordBit_keccakRoundConstants : ∀ (i : Fin 48) (z : Fin 64),
    wordBit (keccakRoundConstants.getD i 0) z = KeccakF.constant i z := by
  decide +kernel

theorem bits_keccakTurns : ∀ (turns i : ℕ) (A : KeccakWords), i + 2 * turns ≤ 48 →
    (keccakTurns turns i A).bits =
      KeccakF.rounds ((List.range' i (2 * turns)).map KeccakF.constant) A.bits
  | 0, _, _, _ => rfl
  | turns + 1, i, A, h => by
    have hconstant : ∀ k, k < 48 →
        wordBit (keccakRoundConstants.getD k 0) = KeccakF.constant (w := 64) k := fun k hk =>
      funext (wordBit_keccakRoundConstants ⟨k, hk⟩)
    rw [keccakTurns, bits_keccakTurns turns (i + 2) _ (by omega), keccakTurn_eq, bits_keccakHalf,
      bits_keccakHalf, hconstant i (by omega), hconstant (i + 1) (by omega),
      show 2 * (turns + 1) = 2 * turns + 1 + 1 by omega, List.range'_succ, List.range'_succ]
    rfl

/-! ## The array -/

/-- The bits of the array: bit `z` of the lane in column `x` of row `y` is
bit `64 (5 y + x) + z` of the string, each byte from its lowest bit on. -/
def keccakBits (state : KeccakArray) : KeccakF.Lanes 64 := fun x y z =>
  (state.val.getD (8 * (5 * y + x) + z / 8) 0).toNat.testBit (z % 8)

theorem wordBit_keccakWord (state : KeccakArray) {i : ℕ} (hi : i < 25) (z : Fin 64) :
    wordBit (keccakWord state i) z = (state.val.getD (8 * i + z / 8) 0).toNat.testBit (z % 8) := by
  have hz := z.isLt
  have hlen := state.property
  unfold keccakStateByteSize at hlen
  have hbytes : ((state.val.drop (8 * i)).take 8).length = 8 := by
    rw [List.length_take, List.length_drop]
    omega
  have hlt : leNat ((state.val.drop (8 * i)).take 8) < 2 ^ 64 := by
    have hlt := leNat_lt ((state.val.drop (8 * i)).take 8)
    rwa [hbytes] at hlt
  have hbit : wordBit (keccakWord state i) z = (keccakWord state i).toNat.testBit z := rfl
  rw [hbit, keccakWord, UInt64.toNat_ofNat_of_lt' hlt, testBit_leNat, List.getD_eq_getElem?_getD,
    List.getElem?_take_of_lt (by omega), List.getElem?_drop, ← List.getD_eq_getElem?_getD]

/-- **The words have the bits of the array.** -/
theorem bits_copyFromState (state : KeccakArray) :
    (copyFromState state).bits = keccakBits state := by
  funext x y z
  have hlane : (copyFromState state).lane x y = keccakWord state (5 * y + x) := by
    fin_cases x <;> fin_cases y <;> rfl
  rw [KeccakWords.bits, hlane, wordBit_keccakWord state (by omega), keccakBits]

theorem take_drop_flatMap_le64to8 : ∀ (words : List UInt64) (i : ℕ), i < words.length →
    ((words.flatMap qscIntutilsLe64to8).drop (8 * i)).take 8 =
      qscIntutilsLe64to8 (words.getD i 0)
  | word :: words, 0, _ => by
    rw [Nat.mul_zero, List.drop_zero, List.flatMap_cons,
      List.take_left' length_qscIntutilsLe64to8, List.getD_cons_zero]
  | word :: words, i + 1, h => by
    rw [Nat.mul_succ, Nat.add_comm, ← List.drop_drop, List.flatMap_cons,
      List.drop_left' length_qscIntutilsLe64to8, List.getD_cons_succ,
      take_drop_flatMap_le64to8 words i (Nat.lt_of_succ_lt_succ h)]

/-- **What is written back is read again.** -/
theorem copyFromState_copyToState (A : KeccakWords) : copyFromState (copyToState A) = A := by
  have hword : ∀ i, i < 25 → keccakWord (copyToState A) i = A.words.getD i 0 := by
    intro i hi
    have hlen : i < A.words.length := hi
    rw [keccakWord, copyToState, take_drop_flatMap_le64to8 _ i hlen, le64_le64to8]
  simp only [copyFromState, hword, Nat.reduceLT]
  rfl

/-- **The array is its bits.** -/
theorem keccakBits_injective : Function.Injective keccakBits := by
  intro state state' h
  have hlen := state.property
  have hlen' := state'.property
  unfold keccakStateByteSize at hlen hlen'
  refine Subtype.ext (List.ext_getElem (by omega) fun i hi hi' => ?_)
  refine UInt8.toNat_inj.1 (Nat.eq_of_testBit_eq fun k => ?_)
  rcases Nat.lt_or_ge k 8 with hk | hk
  · have hbit := congrFun (congrFun (congrFun h ⟨i / 8 % 5, by omega⟩) ⟨i / 40, by omega⟩)
      ⟨8 * (i % 8) + k, by omega⟩
    have hplace : 8 * (5 * (i / 40) + i / 8 % 5) + (8 * (i % 8) + k) / 8 = i := by omega
    have hrest : (8 * (i % 8) + k) % 8 = k := by omega
    simp only [keccakBits, hplace, hrest] at hbit
    rwa [List.getD_eq_getElem _ _ hi, List.getD_eq_getElem _ _ hi'] at hbit
  · have hbyte : ∀ b : UInt8, b.toNat.testBit k = false := fun b =>
      Nat.testBit_lt_two_pow (b.toNat_lt.trans_le (Nat.pow_le_pow_right (by omega) hk))
    rw [hbyte, hbyte]

/-- **The permutation of the library is Keccak's**, with lanes of 64 bits:
for the 24 rounds the hashes ask for it is Keccak-f[1600], and a smaller
number takes the first constants, not the last. It loses nothing, so that
no two states of a sponge run together. -/
theorem qscKeccakPermuteP1600c_rounds (rounds : ℕ) (hrounds : rounds ≤ 48) :
    (∀ state, keccakBits (qscKeccakPermuteP1600c state rounds) =
      KeccakF.rounds ((List.range (2 * ((rounds + 1) / 2))).map KeccakF.constant)
        (keccakBits state)) ∧
    Function.Bijective fun state => qscKeccakPermuteP1600c state rounds := by
  have hbits : ∀ state, keccakBits (qscKeccakPermuteP1600c state rounds) =
      KeccakF.rounds ((List.range (2 * ((rounds + 1) / 2))).map KeccakF.constant)
        (keccakBits state) := by
    intro state
    rw [qscKeccakPermuteP1600c, ← bits_copyFromState, copyFromState_copyToState,
      bits_keccakTurns _ _ _ (by omega), bits_copyFromState, List.range_eq_range']
  have hfinite : Finite KeccakArray := Finite.of_injective _ keccakBits_injective
  refine ⟨hbits, Finite.injective_iff_bijective.1 fun state state' h => ?_⟩
  have hrounds := (KeccakF.rounds_bijective (w := 64) (l := 6) rfl
    ((List.range (2 * ((rounds + 1) / 2))).map KeccakF.constant)).injective
  refine keccakBits_injective (hrounds ?_)
  rw [← hbits, ← hbits]
  exact congrArg keccakBits h

/-- What the hashes run. -/
theorem qscKeccakPermuteP1600c_rounds_hashes :
    (∀ state, keccakBits (qscKeccakPermute state) =
      KeccakF.rounds ((List.range 24).map KeccakF.constant) (keccakBits state)) ∧
    Function.Bijective qscKeccakPermute :=
  qscKeccakPermuteP1600c_rounds keccakPermutationRounds (by decide)

end Qsmp
