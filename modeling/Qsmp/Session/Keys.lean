import Qsmp.PublicKey
import Qsmp.Kex.Messages
/-!
# The key files of a party

A party that starts for the first time makes a signature key pair, writes
the public part as a text and the private part as bytes, and hands the pair
to the exchange. Later starts load it. The server and the listener do not
look at what became of the private file.
-/

namespace Qsmp

/-- `QSMP_TIMESTAMP_SIZE` -/
def timestampSize : ℕ := 8
/-- `QSMP_PUBKEY_DURATION_DAYS` -/
def pubkeyDurationDays : ℕ := 365
/-- `QSMP_PUBKEY_DURATION_SECONDS` -/
def pubkeyDurationSeconds : ℕ := pubkeyDurationDays * 24 * 60 * 60
/-- `QSMP_SIGKEY_ENCODED_SIZE` -/
def sigkeyEncodedSize (P : Params) : ℕ :=
  keyidSize + timestampSize + configSize + P.signingKeySize + P.verifyKeySize

/-! ## The private key as bytes -/

section Serialize

variable (P : Params)

/-- `qsmp_serialize_signature_key` -/
def qsmpSerializeSignatureKey (serk : Mem) (kset : QsmpServerSignatureKey P) : Mem :=
  let serk := serk.write 0 kset.config.val
  let pos := configSize
  let serk := serk.write pos (qscIntutilsLe64to8 kset.expiration)
  let pos := pos + timestampSize
  let serk := serk.write pos kset.keyid.val
  let pos := pos + keyidSize
  let serk := serk.write pos kset.sigkey.val
  let pos := pos + P.signingKeySize
  serk.write pos kset.verkey.val

/-- `qsmp_deserialize_signature_key`, which sets every field. -/
def qsmpDeserializeSignatureKey (serk : Mem) : QsmpServerSignatureKey P :=
  let config := serk.octets 0 configSize
  let pos := configSize
  let expiration := qscIntutilsLe8to64 (serk.shift pos)
  let pos := pos + timestampSize
  let keyid := serk.octets pos keyidSize
  let pos := pos + keyidSize
  let sigkey := serk.octets pos P.signingKeySize
  let pos := pos + P.signingKeySize
  ⟨expiration, config, keyid, sigkey, serk.octets pos P.verifyKeySize⟩

variable {P}

/-- The bytes of a key, in the order of the fields. -/
def QsmpServerSignatureKey.serialized (kset : QsmpServerSignatureKey P) : Bytes :=
  kset.config.val ++ qscIntutilsLe64to8 kset.expiration ++ kset.keyid.val ++ kset.sigkey.val ++
    kset.verkey.val

variable {kset kset' : QsmpServerSignatureKey P} {serk : Mem}

theorem length_serialized (kset : QsmpServerSignatureKey P) :
    kset.serialized.length = sigkeyEncodedSize P := by
  have htime : timestampSize = 8 := rfl
  rw [QsmpServerSignatureKey.serialized]
  simp only [List.length_append, kset.config.property, kset.keyid.property, kset.sigkey.property,
    kset.verkey.property, length_qscIntutilsLe64to8, sigkeyEncodedSize]
  omega

/-- **The five stores are one.** -/
theorem qsmpSerializeSignatureKey_eq :
    qsmpSerializeSignatureKey P serk kset = serk.write 0 kset.serialized := by
  have htime : timestampSize = 8 := rfl
  unfold qsmpSerializeSignatureKey
  dsimp only
  rw [Mem.write_behind (kset.config.property), Mem.write_behind (by
      rw [List.length_append, kset.config.property, length_qscIntutilsLe64to8, htime]),
    Mem.write_behind (by
      rw [List.length_append, List.length_append, kset.config.property, kset.keyid.property,
        length_qscIntutilsLe64to8, htime]),
    Mem.write_behind (by
      rw [List.length_append, List.length_append, List.length_append, kset.config.property,
        kset.keyid.property, kset.sigkey.property, length_qscIntutilsLe64to8, htime])]
  rfl

/-- The fields of a key, one behind the other in the bytes it is read from. -/
theorem serialized_qsmpDeserializeSignatureKey (serk : Mem) :
    (qsmpDeserializeSignatureKey P serk).serialized = serk.read 0 (sigkeyEncodedSize P) := by
  have hsize : sigkeyEncodedSize P =
      configSize + timestampSize + keyidSize + P.signingKeySize + P.verifyKeySize := by
    rw [sigkeyEncodedSize]
    omega
  have htime : (serk.shift configSize).read 0 8 = serk.read configSize timestampSize := by
    rw [Mem.shift_read]
    rfl
  unfold QsmpServerSignatureKey.serialized qsmpDeserializeSignatureKey
  rw [hsize, Mem.read_add, Mem.read_add, Mem.read_add, Mem.read_add]
  simp only [Mem.octets_val, Nat.zero_add, qscIntutilsLe64to8_le8to64, htime]

/-- Keys with the same bytes are the same. -/
theorem serialized_injective (h : kset.serialized = kset'.serialized) : kset = kset' := by
  obtain ⟨e, c, i, s, v⟩ := kset
  obtain ⟨e', c', i', s', v'⟩ := kset'
  unfold QsmpServerSignatureKey.serialized at h
  dsimp only at h
  obtain ⟨h, hv⟩ := List.append_inj' h (v.property.trans v'.property.symm)
  obtain ⟨h, hs⟩ := List.append_inj' h (s.property.trans s'.property.symm)
  obtain ⟨h, hi⟩ := List.append_inj' h (i.property.trans i'.property.symm)
  obtain ⟨hc, he⟩ := List.append_inj' h (by simp)
  have hexp : e = e' := by
    rw [← qscIntutilsLe8to64_of_read (p := Mem.zero.write 0 (qscIntutilsLe64to8 e)) (v := e)
        (Mem.read_write_of_length length_qscIntutilsLe64to8), he,
      qscIntutilsLe8to64_of_read (v := e') (Mem.read_write_of_length length_qscIntutilsLe64to8)]
  rw [hexp, Subtype.ext hc, Subtype.ext hi, Subtype.ext hs, Subtype.ext hv]

/-- **A key is read back from any memory that holds its bytes.** -/
theorem qsmpDeserializeSignatureKey_eq_iff :
    qsmpDeserializeSignatureKey P serk = kset ↔
      serk.read 0 (sigkeyEncodedSize P) = kset.serialized := by
  rw [← serialized_qsmpDeserializeSignatureKey]
  exact ⟨fun h => congrArg _ h, serialized_injective⟩

end Serialize

/-! ## Making a pair -/

section Generate

variable {P : Params}

/-- `qsmp_signature_generate_keypair`, which draws a seed. -/
def Asymmetric.Keygen (A : Asymmetric P) : Type :=
  A.Seed → Octets P.verifyKeySize × Octets P.signingKeySize

/-- A signature scheme that makes pairs it signs with. -/
def Asymmetric.Keygen.Correct {A : Asymmetric P} (G : A.Keygen) : Prop :=
  ∀ seed, A.SignsFor (G seed).2 (G seed).1

/-- The copies that make a public key structure of a private one. -/
def QsmpClientSignatureKey.copyOf (pubkey : QsmpClientSignatureKey)
    (prikey : QsmpServerSignatureKey P) : QsmpClientSignatureKey where
  expiration := prikey.expiration
  arrays := ((pubkey.arrays.write 0 prikey.config.val).write configSize prikey.keyid.val).write
    (configSize + keyidSize) prikey.verkey.val

/-- `qsmp_generate_keypair`, at the time `now`. -/
def qsmpGenerateKeypair {A : Asymmetric P} (G : A.Keygen) (now : UInt64) (seed : A.Seed)
    (pubkey : QsmpClientSignatureKey) (keyid : Octets keyidSize) :
    QsmpClientSignatureKey × QsmpServerSignatureKey P :=
  let (verkey, sigkey) := G seed
  let prikey : QsmpServerSignatureKey P :=
    ⟨now + UInt64.ofNat pubkeyDurationSeconds, P.configString, keyid, sigkey, verkey⟩
  (pubkey.copyOf prikey, prikey)

end Generate

/-! ## Files -/

/-- `qsc_fileutils_exists`, which opens the file for reading. -/
def qscFileutilsExists (opens : Bool) (file : Option Bytes) : Bool := opens && file.isSome

/-- `qsc_fileutils_copy_file_to_stream`: the bytes read, and the array. The
file may fail to open, and `fread` may read less than is there. -/
def qscFileutilsCopyFileToStream (answer : Option ℕ) (file : Option Bytes) (stream : Mem)
    (length : ℕ) : ℕ × Mem :=
  match answer, file with
  | some n, some fp => ((fp.take (min n length)).length, stream.write 0 (fp.take (min n length)))
  | _, _ => (0, stream)

/-- `qsc_fileutils_copy_stream_to_file`: true if anything was written. The
file is emptied when it is opened, and `fwrite` may write less than it is
given. -/
def qscFileutilsCopyStreamToFile (answer : Option ℕ) (file : Option Bytes) (stream : Bytes) :
    Bool × Option Bytes :=
  match answer with
  | some n => (decide ((stream.take n).length ≠ 0), some (stream.take n))
  | none => (false, file)

/-- The two files of a party's directory, either of which may be missing. -/
structure KeyFiles where
  pubkey : Option Bytes
  prikey : Option Bytes

end Qsmp
