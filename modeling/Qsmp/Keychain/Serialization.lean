import Qsmp.Keychain.Functions
/-!
# A keychain as bytes

A keychain is written as its count and its three arrays. The room asked for
has a term of two symmetric keys where the tags should be, so it runs out
behind eight entries; the reader asks for the size of ten entries, whatever
the count, and takes the count over before it has asked. Both reckon the
lengths of the keys in 32 bits.
-/

namespace Qsmp

open Access

/-- `QSMP_ASYMMETRIC_KEYCHAIN_COUNT` -/
def asymmetricKeychainCount : ℕ := 10

/-- `sizeof(uint32_t)`, the size of the count. -/
def keychainCountSize : ℕ := 4

/-- `QSMP_KEYCHAIN_SIZE` -/
def keychainSize (P : Params) : ℕ :=
  (P.publicKeySize + P.privateKeySize) * asymmetricKeychainCount +
    2 * simplexSymmetricKeySize + keychainCountSize

/-- `datalen`, the room `qsmp_keychain_serialize` asks for: 32 bits but for
the last term. -/
def keychainDatalen (P : Params) (count : UInt32) : ℕ :=
  ((.ofNat P.publicKeySize + .ofNat P.privateKeySize) * count +
    .ofNat (2 * simplexSymmetricKeySize) : UInt32).toNat + keychainCountSize

/-- `qsmp_keychain_serialize`, with its writes to the output. -/
def qsmpKeychainSerialize (P : Params) (output : Mem) (otplen : ℕ)
    (keychain : QsmpAsymmetricKeychain) : Mem × List Access :=
  if keychainDatalen P keychain.count ≤ otplen then
    let tlen := keychain.count.toNat * keytagSize
    let ulen := keyOffset keychain.count P.publicKeySize
    let plen := keyOffset keychain.count P.privateKeySize
    let output := output.write 0 (qscIntutilsLe32to8 keychain.count)
    let pos := keychainCountSize
    let output := output.write pos ((pointee keychain.ktags).mem.read 0 tlen)
    let upos := pos + tlen
    let output := output.write upos ((pointee keychain.pubkeys).mem.read 0 ulen)
    let ppos := upos + ulen
    (output.write ppos ((pointee keychain.prikeys).mem.read 0 plen),
      [⟨otplen, 0, keychainCountSize⟩, ⟨otplen, pos, tlen⟩, ⟨otplen, upos, ulen⟩,
        ⟨otplen, ppos, plen⟩])
  else (output, [])

/-- What `qsmp_keychain_deserialize` leaves: the keychain, its reads of the
input and its writes to the arrays. -/
structure KeychainInput where
  keychain : QsmpAsymmetricKeychain
  reads : List Access
  writes : List Access

/-- An array after `bs` is copied to its start. -/
def copyTo (array : Option Block) (bs : Bytes) : Option Block := array.map (·.store bs)

/-- `qsmp_keychain_deserialize` -/
def qsmpKeychainDeserialize (P : Params) (keychain : QsmpAsymmetricKeychain) (input : Mem)
    (inplen : ℕ) : KeychainInput :=
  let count := qscIntutilsLe8to32 input
  let header : Access := ⟨inplen, 0, keychainCountSize⟩
  if keychainSize P ≤ inplen then
    let tlen := count.toNat * keytagSize
    let ulen := keyOffset count P.publicKeySize
    let plen := keyOffset count P.privateKeySize
    let pos := keychainCountSize
    let upos := pos + tlen
    let ppos := upos + ulen
    { keychain :=
        { ktags := copyTo keychain.ktags (input.read pos tlen)
          pubkeys := copyTo keychain.pubkeys (input.read upos ulen)
          prikeys := copyTo keychain.prikeys (input.read ppos plen)
          count }
      reads := [header, ⟨inplen, pos, tlen⟩, ⟨inplen, upos, ulen⟩, ⟨inplen, ppos, plen⟩]
      writes := [⟨(pointee keychain.ktags).size, 0, tlen⟩,
        ⟨(pointee keychain.pubkeys).size, 0, ulen⟩, ⟨(pointee keychain.prikeys).size, 0, plen⟩] }
  else ⟨{ keychain with count }, [header], []⟩

variable {P : Params} {s t : QsmpAsymmetricKeychain} {output input : Mem} {otplen inplen : ℕ}
variable {count : UInt32}

/-! ## The bytes written -/

/-- How many bytes the two functions count on. -/
def serializedSize (P : Params) (count : UInt32) : ℕ :=
  keychainCountSize + count.toNat * keytagSize + keyOffset count P.publicKeySize +
    keyOffset count P.privateKeySize

/-- **The bytes of a keychain.** -/
def keychainBytes (P : Params) (s : QsmpAsymmetricKeychain) : Bytes :=
  qscIntutilsLe32to8 s.count ++ (pointee s.ktags).mem.read 0 (s.count.toNat * keytagSize) ++
    (pointee s.pubkeys).mem.read 0 (keyOffset s.count P.publicKeySize) ++
    (pointee s.prikeys).mem.read 0 (keyOffset s.count P.privateKeySize)

@[simp] theorem length_keychainBytes : (keychainBytes P s).length = serializedSize P s.count := by
  simp only [keychainBytes, List.length_append, length_qscIntutilsLe32to8, Mem.length_read,
    serializedSize, keychainCountSize]

/-- **What is accepted is written**, one part behind the other. -/
theorem qsmpKeychainSerialize_eq (h : keychainDatalen P s.count ≤ otplen) :
    (qsmpKeychainSerialize P output otplen s).1 = output.write 0 (keychainBytes P s) := by
  rw [qsmpKeychainSerialize, if_pos h]
  simp only [keychainBytes, Mem.write_append, List.length_append, length_qscIntutilsLe32to8,
    Mem.length_read, Nat.zero_add, keychainCountSize]

/-- The writes are inside exactly if their end is. -/
theorem qsmpKeychainSerialize_inside (h : keychainDatalen P s.count ≤ otplen) :
    AllInside (qsmpKeychainSerialize P output otplen s).2 ↔ serializedSize P s.count ≤ otplen := by
  rw [qsmpKeychainSerialize, if_pos h]
  simp only [allInside_cons, allInside_nil, and_true, inside_iff, serializedSize,
    keychainCountSize]
  omega

/-! ## The bytes read -/

/-- The reads of what is accepted are inside exactly if their end is. -/
theorem qsmpKeychainDeserialize_inside (h : keychainSize P ≤ inplen) :
    AllInside (qsmpKeychainDeserialize P t input inplen).reads ↔
      serializedSize P (qscIntutilsLe8to32 input) ≤ inplen := by
  rw [qsmpKeychainDeserialize, if_pos h]
  simp only [allInside_cons, allInside_nil, and_true, inside_iff, serializedSize,
    keychainCountSize]
  omega

/-- What is rejected has its count taken over. -/
theorem qsmpKeychainDeserialize_rejected (h : inplen < keychainSize P) :
    qsmpKeychainDeserialize P t input inplen =
      ⟨{ t with count := qscIntutilsLe8to32 input }, [⟨inplen, 0, keychainCountSize⟩], []⟩ := by
  rw [qsmpKeychainDeserialize, if_neg (by omega)]

/-- The whole keychain is left as it is exactly if the count was the
same. -/
theorem setCount_eq_iff : { t with count } = t ↔ count = t.count :=
  ⟨fun h => congrArg QsmpAsymmetricKeychain.count h, fun h => by rw [h]⟩

/-! ## An array that is copied to -/

theorem read_copyTo {array : Option Block} {bs : Bytes} {n : ℕ} (h : n ≤ (pointee array).size)
    (hle : n ≤ bs.length) : (pointee (copyTo array bs)).mem.read 0 n = bs.take n := by
  cases array with
  | none =>
    obtain rfl : n = 0 := Nat.le_zero.1 h
    rfl
  | some b => exact Mem.read_write_start hle

/-- Behind what is copied the array keeps its bytes. -/
theorem copyTo_of_ge {array : Option Block} {bs : Bytes} {i : ℕ} (h : bs.length ≤ i) :
    (pointee (copyTo array bs)).mem i = (pointee array).mem i := by
  cases array with
  | none => rfl
  | some b => exact Mem.write_of_ge (by omega)

/-! ## What serialisation is to do -/

/-- The arrays have room for `count` entries. -/
structure HoldsEntries (P : Params) (count : UInt32) (t : QsmpAsymmetricKeychain) : Prop where
  ktags : count.toNat * keytagSize ≤ (pointee t.ktags).size
  pubkeys : count.toNat * P.publicKeySize ≤ (pointee t.pubkeys).size
  prikeys : count.toNat * P.privateKeySize ≤ (pointee t.prikeys).size

/-- **A keychain restored**: the count, the tags and the keys of `s`. -/
structure Restores (P : Params) (s r : QsmpAsymmetricKeychain) : Prop where
  count : r.count = s.count
  ktags : (pointee r.ktags).mem.read 0 (s.count.toNat * keytagSize) =
    (pointee s.ktags).mem.read 0 (s.count.toNat * keytagSize)
  pubkeys : (pointee r.pubkeys).mem.read 0 (s.count.toNat * P.publicKeySize) =
    (pointee s.pubkeys).mem.read 0 (s.count.toNat * P.publicKeySize)
  prikeys : (pointee r.prikeys).mem.read 0 (s.count.toNat * P.privateKeySize) =
    (pointee s.prikeys).mem.read 0 (s.count.toNat * P.privateKeySize)

/-- **Serialising a keychain**, where it is accepted: the output is not left,
and the bytes written restore the keychain, into any arrays that have room
for its entries. -/
structure SerializesKeychain (P : Params) (s : QsmpAsymmetricKeychain) (otplen : ℕ) : Prop where
  inside : keychainDatalen P s.count ≤ otplen → ∀ output,
    AllInside (qsmpKeychainSerialize P output otplen s).2
  restored : keychainDatalen P s.count ≤ otplen → ∀ output t, HoldsEntries P s.count t →
    AllInside (qsmpKeychainDeserialize P t (qsmpKeychainSerialize P output otplen s).1
        (serializedSize P s.count)).writes ∧
      Restores P s (qsmpKeychainDeserialize P t (qsmpKeychainSerialize P output otplen s).1
        (serializedSize P s.count)).keychain

/-- **Reading a keychain**: only the input is read, and an input that is
rejected leaves the keychain as it is. -/
structure DeserializesKeychain (P : Params) (t : QsmpAsymmetricKeychain) (input : Mem)
    (inplen : ℕ) : Prop where
  inside : AllInside (qsmpKeychainDeserialize P t input inplen).reads
  unchanged : inplen < keychainSize P → (qsmpKeychainDeserialize P t input inplen).keychain = t

/-! ## What is written is read -/

theorem keyOffset_le (count : UInt32) (size : ℕ) : keyOffset count size ≤ count.toNat * size := by
  rw [keyOffset, UInt32.toNat_mul, UInt32.toNat_ofNat']
  exact Nat.le_trans (Nat.mod_le _ _) (Nat.mul_le_mul_left _ (Nat.mod_le _ _))

/-- Below 32 bits nothing is lost. -/
theorem keyOffset_eq_iff {size : ℕ} (h : count ≠ 0) :
    keyOffset count size = count.toNat * size ↔ count.toNat * size < 2 ^ 32 := by
  have hpos : 0 < count.toNat := by
    rw [Nat.pos_iff_ne_zero]
    exact fun hzero => h (UInt32.toNat_inj.1 hzero)
  constructor
  · intro heq
    rw [← heq]
    exact UInt32.toNat_lt _
  · intro hlt
    have hsize : size < 2 ^ 32 := Nat.lt_of_le_of_lt (Nat.le_mul_of_pos_left size hpos) hlt
    rw [keyOffset, UInt32.toNat_mul, UInt32.toNat_ofNat_of_lt' hsize, Nat.mod_eq_of_lt hlt]

/-- The count is read back. -/
theorem count_of_read (h : input.read 0 (serializedSize P s.count) = keychainBytes P s) :
    qscIntutilsLe8to32 input = s.count := by
  have hfour : input.read 0 4 = ((keychainBytes P s).drop 0).take 4 :=
    Mem.read_of_read h (by simp only [serializedSize, keychainCountSize]; omega)
  refine qscIntutilsLe8to32_of_read ?_
  rw [hfour, List.drop_zero, keychainBytes, List.append_assoc, List.append_assoc,
    List.take_left' length_qscIntutilsLe32to8]

/-- **The three arrays are read back**, as far as their lengths go in 32
bits. -/
theorem qsmpKeychainDeserialize_keychain
    (h : input.read 0 (serializedSize P s.count) = keychainBytes P s)
    (hsize : keychainSize P ≤ inplen) :
    (qsmpKeychainDeserialize P t input inplen).keychain =
      { ktags := copyTo t.ktags ((pointee s.ktags).mem.read 0 (s.count.toNat * keytagSize))
        pubkeys := copyTo t.pubkeys
          ((pointee s.pubkeys).mem.read 0 (keyOffset s.count P.publicKeySize))
        prikeys := copyTo t.prikeys
          ((pointee s.prikeys).mem.read 0 (keyOffset s.count P.privateKeySize))
        count := s.count } := by
  have hcount := count_of_read h
  simp only [serializedSize, keychainBytes, List.append_assoc] at h
  have htags := Mem.read_middle h length_qscIntutilsLe32to8 Mem.length_read
  have hpub := Mem.read_middle (k := keychainCountSize + s.count.toNat * keytagSize)
    (h.trans (List.append_assoc _ _ _).symm) (by
      rw [List.length_append, length_qscIntutilsLe32to8, Mem.length_read, keychainCountSize])
    Mem.length_read
  have hend : input.read 0 _ = (qscIntutilsLe32to8 s.count ++
      (pointee s.ktags).mem.read 0 (s.count.toNat * keytagSize) ++
      (pointee s.pubkeys).mem.read 0 (keyOffset s.count P.publicKeySize)) ++
      ((pointee s.prikeys).mem.read 0 (keyOffset s.count P.privateKeySize) ++ []) :=
    h.trans (by rw [List.append_nil, List.append_assoc, List.append_assoc])
  have hpri := Mem.read_middle
    (k := keychainCountSize + s.count.toNat * keytagSize + keyOffset s.count P.publicKeySize)
    hend (by
      rw [List.length_append, List.length_append, length_qscIntutilsLe32to8, Mem.length_read,
        Mem.length_read, keychainCountSize])
    Mem.length_read
  rw [qsmpKeychainDeserialize, if_pos hsize]
  simp only [hcount]
  rw [hpub, hpri]
  exact congrArg (fun bs => QsmpAsymmetricKeychain.mk _ _ (copyTo t.ktags bs) _) htags

/-- **A keychain of ten entries and more is restored**, if its keys are
reckoned right. -/
theorem restores_of_size (h : input.read 0 (serializedSize P s.count) = keychainBytes P s)
    (hsize : keychainSize P ≤ inplen) (ht : HoldsEntries P s.count t)
    (hpub : keyOffset s.count P.publicKeySize = s.count.toNat * P.publicKeySize)
    (hpri : keyOffset s.count P.privateKeySize = s.count.toNat * P.privateKeySize) :
    AllInside (qsmpKeychainDeserialize P t input inplen).writes ∧
      Restores P s (qsmpKeychainDeserialize P t input inplen).keychain := by
  obtain ⟨hktags, hpubkeys, hprikeys⟩ := ht
  constructor
  · rw [qsmpKeychainDeserialize, if_pos hsize]
    simp only [count_of_read h, hpub, hpri, allInside_cons, allInside_nil, and_true, inside_iff]
    omega
  · rw [qsmpKeychainDeserialize_keychain h hsize, hpub, hpri]
    have hwhole : ∀ {p : Mem} {n : ℕ}, (p.read 0 n).take n = p.read 0 n := fun {p n} =>
      List.take_of_length_le Mem.length_read.le
    refine ⟨rfl, ?_, ?_, ?_⟩
    · rw [read_copyTo hktags Mem.length_read.ge, hwhole]
    · rw [read_copyTo hpubkeys Mem.length_read.ge, hwhole]
    · rw [read_copyTo hprikeys Mem.length_read.ge, hwhole]

/-- A keychain with room for the entries of `s` in which no byte is that of
`s`. -/
def otherwise (P : Params) (s : QsmpAsymmetricKeychain) : QsmpAsymmetricKeychain where
  ktags := some ⟨s.count.toNat * keytagSize, fun i => (pointee s.ktags).mem i + 1⟩
  pubkeys := some ⟨s.count.toNat * P.publicKeySize, fun i => (pointee s.pubkeys).mem i + 1⟩
  prikeys := some ⟨s.count.toNat * P.privateKeySize, fun i => (pointee s.prikeys).mem i + 1⟩
  count := s.count

theorem holdsEntries_otherwise : HoldsEntries P s.count (otherwise P s) :=
  ⟨Nat.le_refl _, Nat.le_refl _, Nat.le_refl _⟩

theorem add_one_ne (b : UInt8) : b + 1 ≠ b := by
  have hall : ∀ n : Fin 256, UInt8.ofFin n + 1 ≠ UInt8.ofFin n := by decide +kernel
  exact hall b.toFin

/-- **Into it a keychain is restored only whole**: if it is not too small
for the reader, and none of its keys is left out. -/
theorem restores_otherwise (h : input.read 0 (serializedSize P s.count) = keychainBytes P s)
    (hcount : s.count ≠ 0)
    (hr : Restores P s (qsmpKeychainDeserialize P (otherwise P s) input inplen).keychain) :
    keychainSize P ≤ inplen ∧
      keyOffset s.count P.publicKeySize = s.count.toNat * P.publicKeySize ∧
      keyOffset s.count P.privateKeySize = s.count.toNat * P.privateKeySize := by
  have hpos : 0 < s.count.toNat := by
    rw [Nat.pos_iff_ne_zero]
    exact fun hzero => hcount (UInt32.toNat_inj.1 hzero)
  by_cases hsize : keychainSize P ≤ inplen
  · refine ⟨hsize, ?_⟩
    rw [qsmpKeychainDeserialize_keychain h hsize] at hr
    have hwhole : ∀ (array other : Option Block) {n k : ℕ}, k ≤ n →
        (∀ i, (pointee other).mem i = (pointee array).mem i + 1) →
        (pointee (copyTo other ((pointee array).mem.read 0 k))).mem.read 0 n =
          (pointee array).mem.read 0 n → k = n := by
      intro array other n k hle hother hread
      by_contra hne
      -- the byte behind what is copied is not that of the keychain
      have hbyte := Mem.eq_of_read hread (show k < n by omega)
      rw [Nat.zero_add, copyTo_of_ge Mem.length_read.le, hother] at hbyte
      exact add_one_ne _ hbyte
    exact ⟨hwhole s.pubkeys (otherwise P s).pubkeys (keyOffset_le _ _) (fun _ => rfl) hr.pubkeys,
      hwhole s.prikeys (otherwise P s).prikeys (keyOffset_le _ _) (fun _ => rfl) hr.prikeys⟩
  · -- the tags are left as they were
    rw [qsmpKeychainDeserialize_rejected (by omega)] at hr
    have hbyte := Mem.eq_of_read hr.ktags (show 0 < s.count.toNat * keytagSize by
      simp only [keytagSize]
      omega)
    exact absurd hbyte (add_one_ne _)

/-- An empty keychain is restored whatever the reader does. -/
theorem restores_empty (h : input.read 0 (serializedSize P s.count) = keychainBytes P s)
    (hcount : s.count = 0) (hsize : inplen < keychainSize P) :
    AllInside (qsmpKeychainDeserialize P t input inplen).writes ∧
      Restores P s (qsmpKeychainDeserialize P t input inplen).keychain := by
  have hread := count_of_read h
  have hzero : s.count.toNat = 0 := by rw [hcount]; rfl
  rw [qsmpKeychainDeserialize_rejected hsize]
  refine ⟨allInside_nil, hread, ?_, ?_, ?_⟩
  all_goals rw [hzero, Nat.zero_mul, Mem.read_zero_len, Mem.read_zero_len]

/-! ## When it does -/

/-- **Serialising does its work** exactly for a keychain that is rejected,
or empty, or has as many entries as the reader asks for, whose keys are
reckoned right and whose bytes, the tags among them, fit the output. -/
theorem serializesKeychain_iff : SerializesKeychain P s otplen ↔
    otplen < keychainDatalen P s.count ∨ s.count = 0 ∨
      (keychainSize P ≤ serializedSize P s.count ∧
        s.count.toNat * P.publicKeySize < 2 ^ 32 ∧ s.count.toNat * P.privateKeySize < 2 ^ 32 ∧
        serializedSize P s.count ≤ otplen) := by
  by_cases haccept : keychainDatalen P s.count ≤ otplen
  · have hbytes : ∀ output : Mem, (qsmpKeychainSerialize P output otplen s).1.read 0
        (serializedSize P s.count) = keychainBytes P s := fun output => by
      rw [qsmpKeychainSerialize_eq haccept]
      exact Mem.read_write_of_length length_keychainBytes
    rw [or_iff_right (by omega)]
    by_cases hcount : s.count = 0
    · -- nothing but the count
      have hsmall : serializedSize P s.count = 4 := by
        rw [hcount]
        simp only [serializedSize, keyOffset, UInt32.zero_mul, keychainCountSize]
        rfl
      have hsize : serializedSize P s.count < keychainSize P := by
        rw [hsmall, keychainSize, simplexSymmetricKeySize, keychainCountSize]
        omega
      refine iff_of_true ⟨fun _ output => ?_, fun _ output t _ =>
        restores_empty (hbytes output) hcount hsize⟩ (.inl hcount)
      rw [qsmpKeychainSerialize_inside haccept, hsmall]
      rw [keychainDatalen, keychainCountSize] at haccept
      omega
    · rw [or_iff_right hcount, ← keyOffset_eq_iff hcount, ← keyOffset_eq_iff hcount]
      constructor
      · intro h
        have hinside := (qsmpKeychainSerialize_inside haccept).1 (h.inside haccept Mem.zero)
        have hrestored := h.restored haccept Mem.zero _ holdsEntries_otherwise
        obtain ⟨hsize, hpub, hpri⟩ := restores_otherwise (hbytes Mem.zero) hcount hrestored.2
        exact ⟨hsize, hpub, hpri, hinside⟩
      · rintro ⟨hsize, hpub, hpri, hfit⟩
        exact ⟨fun _ output => (qsmpKeychainSerialize_inside haccept).2 hfit,
          fun _ output t ht => restores_of_size (hbytes output) hsize ht hpub hpri⟩
  · exact iff_of_true ⟨fun h => absurd h haccept, fun h => absurd h haccept⟩ (.inl (by omega))

/-- **Reading does its work** exactly for an input that has a count, which
is the old one if the input is rejected, and whose end is not beyond it. -/
theorem deserializesKeychain_iff : DeserializesKeychain P t input inplen ↔
    keychainCountSize ≤ inplen ∧
      (inplen < keychainSize P → qscIntutilsLe8to32 input = t.count) ∧
      (keychainSize P ≤ inplen → serializedSize P (qscIntutilsLe8to32 input) ≤ inplen) := by
  by_cases hsize : keychainSize P ≤ inplen
  · have hfour : keychainCountSize ≤ inplen := by
      rw [keychainSize] at hsize
      omega
    have hnot : ¬ inplen < keychainSize P := by omega
    constructor
    · intro h
      exact ⟨hfour, fun hlt => absurd hlt hnot,
        fun _ => (qsmpKeychainDeserialize_inside hsize).1 h.inside⟩
    · rintro ⟨-, -, hend⟩
      exact ⟨(qsmpKeychainDeserialize_inside hsize).2 (hend hsize), fun hlt => absurd hlt hnot⟩
  · have hlt : inplen < keychainSize P := by omega
    have hleft : qsmpKeychainDeserialize P t input inplen =
        ⟨{ t with count := qscIntutilsLe8to32 input }, [⟨inplen, 0, keychainCountSize⟩], []⟩ :=
      qsmpKeychainDeserialize_rejected hlt
    have hheader : AllInside (qsmpKeychainDeserialize P t input inplen).reads ↔
        keychainCountSize ≤ inplen := by
      rw [hleft, allInside_cons, and_iff_left allInside_nil]
      exact inside_iff_of_off rfl
    constructor
    · intro h
      have hsame := h.unchanged hlt
      rw [hleft] at hsame
      exact ⟨hheader.1 h.inside, fun _ => setCount_eq_iff.1 hsame, fun hge => absurd hge hsize⟩
    · rintro ⟨hfour, hsame, -⟩
      refine ⟨hheader.2 hfour, fun _ => ?_⟩
      rw [hleft]
      exact setCount_eq_iff.2 (hsame hlt)

/-- **Serialisation does its work** exactly so: of the keychains that are
accepted the empty one is restored, and those of ten entries and more whose
keys are reckoned right and whose tags fit the output; of the inputs only
those are read to their end, or left alone, whose count says so. -/
theorem keychain_serialization_iff (P : Params) (s : QsmpAsymmetricKeychain) (otplen : ℕ)
    (t : QsmpAsymmetricKeychain) (input : Mem) (inplen : ℕ) :
    (SerializesKeychain P s otplen ∧ DeserializesKeychain P t input inplen) ↔
      (otplen < keychainDatalen P s.count ∨ s.count = 0 ∨
        (keychainSize P ≤ serializedSize P s.count ∧
          s.count.toNat * P.publicKeySize < 2 ^ 32 ∧ s.count.toNat * P.privateKeySize < 2 ^ 32 ∧
          serializedSize P s.count ≤ otplen)) ∧
      keychainCountSize ≤ inplen ∧
      (inplen < keychainSize P → qscIntutilsLe8to32 input = t.count) ∧
      (keychainSize P ≤ inplen → serializedSize P (qscIntutilsLe8to32 input) ≤ inplen) :=
  and_congr serializesKeychain_iff deserializesKeychain_iff

/-- Ten entries of cleared keys, in the default build, and an output of the
length `qsmp_keychain_serialize` asks for: the last sixteen bytes of the
private keys are written behind it. -/
theorem not_serializesKeychain_ten :
    ¬ SerializesKeychain .dilithiumKyber
      ⟨some ⟨8000, Mem.zero⟩, some ⟨16320, Mem.zero⟩, some ⟨80, Mem.zero⟩, 10⟩ 24388 := by
  rw [serializesKeychain_iff]
  decide +kernel

/-- **The reader asks for ten entries**: where keys are reckoned right, and
are longer than a tag, what is written for fewer is rejected. -/
theorem keychainSize_le_serializedSize_iff (hcount : count ≠ 0)
    (hpub : count.toNat * P.publicKeySize < 2 ^ 32)
    (hpri : count.toNat * P.privateKeySize < 2 ^ 32)
    (hkeys : keytagSize < P.publicKeySize + P.privateKeySize) :
    keychainSize P ≤ serializedSize P count ↔ asymmetricKeychainCount ≤ count.toNat := by
  rw [serializedSize, (keyOffset_eq_iff hcount).2 hpub, (keyOffset_eq_iff hcount).2 hpri,
    keychainSize, Nat.add_assoc _ (count.toNat * P.publicKeySize), ← Nat.mul_add]
  simp only [keytagSize, asymmetricKeychainCount, simplexSymmetricKeySize,
    keychainCountSize] at hkeys ⊢
  generalize P.publicKeySize + P.privateKeySize = size at hkeys ⊢
  constructor
  · intro hle
    by_contra hlt
    have hnine : count.toNat * size ≤ 9 * size := Nat.mul_le_mul_right _ (by omega)
    omega
  · intro hge
    have hten : 10 * size ≤ count.toNat * size := Nat.mul_le_mul_right _ hge
    omega

end Qsmp
