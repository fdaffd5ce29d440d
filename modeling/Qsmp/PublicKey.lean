import Qsmp.Config
import Qsmp.Qsc.Timestamp
/-!
# The text of a public key

A key is given to clients as a text block: the configuration, the key
identity in hexadecimal, the expiration as a date, and the verification
key in base64 with line breaks. Encoder and decoder add up the places of
the fields each in its own way.
-/

namespace Qsmp

/-- `QSMP_PUBKEY_HEADER` -/
def pubkeyHeader : Bytes := ascii "------BEGIN QSMP PUBLIC KEY BLOCK------"
/-- `QSMP_PUBKEY_VERSION` -/
def pubkeyVersion : Bytes := ascii "Version: QSMP v1.2"
/-- `QSMP_PUBKEY_CONFIG_PREFIX` -/
def pubkeyConfigPrefix : Bytes := ascii "Configuration: "
/-- `QSMP_PUBKEY_KEYID_PREFIX` -/
def pubkeyKeyidPrefix : Bytes := ascii "Host ID: "
/-- `QSMP_PUBKEY_EXPIRATION_PREFIX` -/
def pubkeyExpirationPrefix : Bytes := ascii "Expiration: "
/-- `QSMP_PUBKEY_FOOTER` -/
def pubkeyFooter : Bytes := ascii "------END QSMP PUBLIC KEY BLOCK------"
/-- `QSMP_PUBKEY_LINE_LENGTH` -/
def pubkeyLineLength : ℕ := 64

/-- `sizeof` of a string constant, its terminator included. -/
def sizeofString (s : Bytes) : ℕ := s.length + 1

/-- The sizes that go with a verification key. -/
structure PubkeySizes where
  verifyKeySize : ℕ
  /-- `QSMP_PUBKEY_ENCODING_SIZE` -/
  encodingSize : ℕ
  /-- `QSMP_PUBKEY_STRING_SIZE` -/
  stringSize : ℕ
deriving DecidableEq

/-- The sizes of every parameter set: Dilithium, Falcon and Sphincs+. -/
def pubkeySizes : List PubkeySizes :=
  [⟨1312, 1752, 2014⟩, ⟨1952, 2604, 2879⟩, ⟨2592, 3456, 3745⟩, ⟨897, 1196, 2014⟩,
    ⟨1793, 2392, 2664⟩, ⟨48, 64, 300⟩, ⟨64, 88, 324⟩, ⟨128, 172, 409⟩]

/-- A build with the sizes of its public-key text. The configuration
string is a C string in an array of its own size. -/
structure PubkeyParams extends Params where
  pubkey : PubkeySizes
  pubkey_mem : pubkey ∈ pubkeySizes
  pubkey_verifyKeySize : pubkey.verifyKeySize = verifyKeySize
  terminated : configString.val.drop (configSize - 1) = [0]

/-- The default build. -/
def PubkeyParams.dilithiumKyber : PubkeyParams where
  toParams := .dilithiumKyber
  pubkey := ⟨1312, 1752, 2014⟩
  pubkey_mem := by decide
  pubkey_verifyKeySize := rfl
  terminated := rfl

/-- `qsmp_server_signature_key` -/
structure QsmpServerSignatureKey (P : Params) where
  expiration : UInt64
  config : Octets configSize
  keyid : Octets keyidSize
  sigkey : Octets P.signingKeySize
  verkey : Octets P.verifyKeySize

/-- `qsmp_client_signature_key`: the expiration, and the arrays behind it,
which lie next to each other. -/
structure QsmpClientSignatureKey where
  expiration : UInt64
  arrays : Mem

namespace QsmpClientSignatureKey

/-- A zeroed structure. -/
def zero : QsmpClientSignatureKey := ⟨0, Mem.zero⟩

def config (pubk : QsmpClientSignatureKey) : Octets configSize := pubk.arrays.octets 0 configSize

def keyid (pubk : QsmpClientSignatureKey) : Octets keyidSize :=
  pubk.arrays.octets configSize keyidSize

def verkey (P : Params) (pubk : QsmpClientSignatureKey) : Octets P.verifyKeySize :=
  pubk.arrays.octets (configSize + keyidSize) P.verifyKeySize

end QsmpClientSignatureKey

variable (B : PubkeyParams) (C : Clock)

/-- A copy to `enck + spos` that moves `spos` behind it. -/
def store (out : Mem × ℕ) (bs : Bytes) : Mem × ℕ := (out.1.write out.2 bs, out.2 + bs.length)

/-- `qsmp_encode_public_key` -/
def qsmpEncodePublicKey (enck : Mem) (kset : QsmpServerSignatureKey B.toParams) : Mem :=
  let out := store (enck, 0) (pubkeyHeader.take (sizeofString pubkeyHeader - 1))
  let out := store out [newline]
  let out := store out (pubkeyVersion.take (sizeofString pubkeyVersion - 1))
  let out := store out [newline]
  let out := store out (pubkeyConfigPrefix.take (sizeofString pubkeyConfigPrefix - 1))
  let out := store out (B.configString.val.take (configSize - 1))
  let out := store out [newline]
  let out := store out (pubkeyKeyidPrefix.take (sizeofString pubkeyKeyidPrefix - 1))
  let hexid := qscIntutilsBinToHex kset.keyid.val
  let out := store out (hexid.take (keyidSize * 2))
  let out := store out [newline]
  let out := store out (pubkeyExpirationPrefix.take (sizeofString pubkeyExpirationPrefix - 1))
  let dtm := qscTimestampSecondsToDatetime C kset.expiration Mem.zero
  let out := store out (dtm.read 0 (timestampStringSize - 1))
  let (enck, spos) := store out [newline]
  let tmpvk := qscEncodingBase64Encode Mem.zero B.pubkey.encodingSize kset.verkey.val
  let (lines, count) := qscStringutilsAddLineBreaks (enck.shift spos)
    (sizeT ((B.pubkey.stringSize : ℤ) - spos)) pubkeyLineLength
    (tmpvk.read 0 B.pubkey.encodingSize)
  let enck := enck.unshift spos lines
  let spos := sizeT (spos + count)
  let out := store (enck, spos) [newline]
  let (enck, spos) := store out (pubkeyFooter.take (sizeofString pubkeyFooter - 1))
  enck.write spos [newline]

/-- `qsmp_decode_public_key`. What lies behind the array for the broken
text is not initialised; twice as many digits of the identity are read,
and written over the start of the verification key, as it has. -/
def qsmpDecodePublicKey (stack : Mem) (pubk : QsmpClientSignatureKey) (enck : Mem) :
    Bool × QsmpClientSignatureKey :=
  let spos := sizeofString pubkeyHeader + sizeofString pubkeyVersion
    + sizeofString pubkeyConfigPrefix - 1
  let slen := configSize - 1
  let arrays := pubk.arrays.write 0 (enck.read spos slen)
  let spos := spos + (slen + sizeofString pubkeyExpirationPrefix - 3)
  let arrays := arrays.unshift configSize
    (qscIntutilsHexToBin (enck.shift spos) (arrays.shift configSize) (keyidSize * 2))
  let spos := spos + (keyidSize * 2 + sizeofString pubkeyExpirationPrefix)
  let slen := timestampStringSize - 1
  let dtm := Mem.zero.write 0 (enck.read spos slen)
  let expiration := qscTimestampDatetimeToSeconds C dtm
  let spos := spos + timestampStringSize
  let (tmpvk, _) := qscStringutilsRemoveLineBreaks (stack.clear 0 B.pubkey.encodingSize)
    B.pubkey.encodingSize (enck.shift spos)
    (sizeT ((B.pubkey.stringSize : ℤ) - (spos + sizeofString pubkeyFooter : ℕ)))
  let (res, verkey) := qscEncodingBase64Decode (arrays.shift (configSize + keyidSize))
    B.verifyKeySize tmpvk B.pubkey.encodingSize
  (res, ⟨expiration, arrays.unshift (configSize + keyidSize) verkey⟩)

variable {B C}
variable {enck stack : Mem} {kset : QsmpServerSignatureKey B.toParams}

/-! ## The sizes -/

/-- **The sizes of every parameter set fit**: the base64 text fills its
array, and the string has room for the whole block. -/
theorem PubkeyParams.sizes (B : PubkeyParams) :
    B.pubkey.encodingSize = qscEncodingBase64EncodedSize B.verifyKeySize ∧
      235 + B.pubkey.encodingSize + B.pubkey.encodingSize / 64 ≤ B.pubkey.stringSize ∧
      keyidSize ≤ B.verifyKeySize ∧ B.verifyKeySize < 2 ^ 12 ∧ B.pubkey.stringSize < 2 ^ 12 := by
  have hall : ∀ p ∈ pubkeySizes,
      p.encodingSize = qscEncodingBase64EncodedSize p.verifyKeySize ∧
        235 + p.encodingSize + p.encodingSize / 64 ≤ p.stringSize ∧
        keyidSize ≤ p.verifyKeySize ∧ p.verifyKeySize < 2 ^ 12 ∧ p.stringSize < 2 ^ 12 := by
    decide
  rw [← B.pubkey_verifyKeySize]
  exact hall _ B.pubkey_mem

/-! ## What the encoder writes -/

/-- The date of a key. -/
def pubkeyDate (C : Clock) (expiration : UInt64) : Bytes :=
  (qscTimestampSecondsToDatetime C expiration Mem.zero).read 0 (timestampStringSize - 1)

/-- The block up to the verification key. -/
def pubkeyHead (B : PubkeyParams) (keyid : Octets keyidSize) (date : Bytes) : Bytes :=
  pubkeyHeader ++ [newline] ++ pubkeyVersion ++ [newline] ++ pubkeyConfigPrefix ++
    B.configString.val.take (configSize - 1) ++ [newline] ++ pubkeyKeyidPrefix ++
    qscIntutilsBinToHex keyid.val ++ [newline] ++ pubkeyExpirationPrefix ++ date ++ [newline]

/-- The verification key in its lines. -/
def pubkeyLines (verkey : Bytes) : Bytes :=
  brokenLines pubkeyLineLength 0 (base64EncodeLoop verkey)

theorem length_pubkeyHead {keyid : Octets keyidSize} {date : Bytes} (h : date.length = 19) :
    (pubkeyHead B keyid date).length = 196 := by
  have hconfig : (B.configString.val.take (configSize - 1)).length = 47 := by
    rw [List.length_take, B.configString.property]
    rfl
  have hkeyid : (qscIntutilsBinToHex keyid.val).length = 32 := by
    rw [length_qscIntutilsBinToHex, keyid.property]
    rfl
  simp only [pubkeyHead, List.length_append, hconfig, hkeyid, h]
  rfl

@[simp] theorem length_pubkeyDate {expiration : UInt64} :
    (pubkeyDate C expiration).length = 19 := by
  rw [pubkeyDate, Mem.length_read]
  rfl

theorem store_store {out : Mem × ℕ} {bs cs : Bytes} :
    store (store out bs) cs = store out (bs ++ cs) := by
  simp only [store, Mem.write_append, List.length_append, Nat.add_assoc]

/-- The base64 text of the verification key. -/
theorem read_encode_verkey :
    (qscEncodingBase64Encode Mem.zero B.pubkey.encodingSize kset.verkey.val).read 0
      B.pubkey.encodingSize = base64EncodeLoop kset.verkey.val := by
  obtain ⟨henc, -, hkeyid, -, -⟩ := B.sizes
  have hlen : kset.verkey.val.length = B.verifyKeySize := kset.verkey.property
  have hpos : kset.verkey.val.length ≠ 0 := by
    simp only [keyidSize] at hkeyid
    omega
  rw [qscEncodingBase64Encode, if_pos ⟨hpos, by rw [hlen, henc]⟩]
  exact Mem.read_write_of_length (by rw [length_base64EncodeLoop, hlen, henc])

/-- The lines are as long as the text and its breaks. -/
theorem length_pubkeyLines (kset : QsmpServerSignatureKey B.toParams) :
    (pubkeyLines kset.verkey.val).length =
    B.pubkey.encodingSize + B.pubkey.encodingSize / 64 := by
  have hlen : (base64EncodeLoop kset.verkey.val).length = B.pubkey.encodingSize := by
    rw [length_base64EncodeLoop, kset.verkey.property, ← B.sizes.1]
  have hbroken := length_brokenLines (show 1 < pubkeyLineLength by decide)
    (base64EncodeLoop kset.verkey.val) 0
  rw [Nat.zero_div, Nat.zero_add, Nat.zero_add, hlen] at hbroken
  exact hbroken

/-- The stores up to the verification key are one. -/
theorem store_pubkeyHead :
    store (store (store (store (store (store (store (store (store (store (store (store (store
      (enck, 0) (pubkeyHeader.take (sizeofString pubkeyHeader - 1))) [newline])
      (pubkeyVersion.take (sizeofString pubkeyVersion - 1))) [newline])
      (pubkeyConfigPrefix.take (sizeofString pubkeyConfigPrefix - 1)))
      (B.configString.val.take (configSize - 1))) [newline])
      (pubkeyKeyidPrefix.take (sizeofString pubkeyKeyidPrefix - 1)))
      ((qscIntutilsBinToHex kset.keyid.val).take (keyidSize * 2))) [newline])
      (pubkeyExpirationPrefix.take (sizeofString pubkeyExpirationPrefix - 1)))
      ((qscTimestampSecondsToDatetime C kset.expiration Mem.zero).read 0
        (timestampStringSize - 1))) [newline] =
      (enck.write 0 (pubkeyHead B kset.keyid (pubkeyDate C kset.expiration)), 196) := by
  have hkeyid : (qscIntutilsBinToHex kset.keyid.val).take (keyidSize * 2) =
      qscIntutilsBinToHex kset.keyid.val := by
    rw [List.take_of_length_le]
    rw [length_qscIntutilsBinToHex, kset.keyid.property, Nat.mul_comm]
  have hsize : ∀ s : Bytes, s.take (sizeofString s - 1) = s := fun s => by
    rw [sizeofString, Nat.add_sub_cancel, List.take_length]
  simp only [store_store, hsize, hkeyid]
  have hlen : 0 + (pubkeyHead B kset.keyid (pubkeyDate C kset.expiration)).length = 196 := by
    rw [length_pubkeyHead length_pubkeyDate]
  refine Prod.ext rfl hlen

/-- **The encoder in one equation**: the head, the lines, a break that the
footer then covers, the break before the footer, the footer. -/
theorem qsmpEncodePublicKey_eq :
    qsmpEncodePublicKey B C enck kset =
      let n := 196 + (pubkeyLines kset.verkey.val).length
      (((((enck.write 0 (pubkeyHead B kset.keyid (pubkeyDate C kset.expiration))).write 196
        (pubkeyLines kset.verkey.val)).write (n + 1) [newline]).write n [newline]).write (n + 1)
          pubkeyFooter).write (n + 1 + 37) [newline] := by
  obtain ⟨henc, hstr, -, -, hlt⟩ := B.sizes
  have hlines := length_pubkeyLines kset
  have hsource : (base64EncodeLoop kset.verkey.val).length = B.pubkey.encodingSize := by
    rw [length_base64EncodeLoop, kset.verkey.property, ← henc]
  have hroom : sizeT ((B.pubkey.stringSize : ℤ) - (196 : ℕ)) = B.pubkey.stringSize - 196 :=
    sizeT_sub (by omega) (by omega)
  have hbreaks : ∀ dest : Mem, qscStringutilsAddLineBreaks dest (B.pubkey.stringSize - 196)
      pubkeyLineLength (base64EncodeLoop kset.verkey.val) =
      ((dest.write 0 (pubkeyLines kset.verkey.val)).write
        ((pubkeyLines kset.verkey.val).length + 1) [newline],
        (pubkeyLines kset.verkey.val).length) := fun dest =>
    qscStringutilsAddLineBreaks_eq (by decide) (by
      rw [hsource, pubkeyLineLength]
      omega) (by omega)
  have hpos : sizeT (((196 : ℕ) : ℤ) + ((pubkeyLines kset.verkey.val).length : ℤ)) =
      196 + (pubkeyLines kset.verkey.val).length := by
    rw [← Nat.cast_add, sizeT_of_lt (by omega)]
  simp only [qsmpEncodePublicKey, store_pubkeyHead, read_encode_verkey, hroom, hbreaks, hpos]
  rw [Mem.shift_write, Mem.shift_write, Mem.unshift_shift]
  · rfl
  · intro i hi
    exact ((Mem.write_of_lt (by omega)).trans (Mem.write_of_lt (by omega))).symm

/-- **The encoder stays inside the string.** -/
theorem qsmpEncodePublicKey_above {i : ℕ} (hi : B.pubkey.stringSize ≤ i) :
    qsmpEncodePublicKey B C enck kset i = enck i := by
  obtain ⟨-, hstr, -, -, -⟩ := B.sizes
  have hlines := length_pubkeyLines kset
  have hhead : (pubkeyHead B kset.keyid (pubkeyDate C kset.expiration)).length = 196 :=
    length_pubkeyHead length_pubkeyDate
  have hfooter : pubkeyFooter.length = 37 := rfl
  have hone : [newline].length = 1 := rfl
  rw [qsmpEncodePublicKey_eq]
  simp only
  rw [Mem.write_of_ge (by omega), Mem.write_of_ge (by omega), Mem.write_of_ge (by omega),
    Mem.write_of_ge (by omega), Mem.write_of_ge (by omega), Mem.write_of_ge (by omega)]

/-- The text a reader needs: the head, then the lines. -/
theorem read_encodePublicKey :
    (qsmpEncodePublicKey B C enck kset).read 0 (196 + (pubkeyLines kset.verkey.val).length) =
      pubkeyHead B kset.keyid (pubkeyDate C kset.expiration) ++ pubkeyLines kset.verkey.val := by
  have hhead : (pubkeyHead B kset.keyid (pubkeyDate C kset.expiration)).length = 196 :=
    length_pubkeyHead length_pubkeyDate
  rw [qsmpEncodePublicKey_eq]
  simp only
  rw [Mem.read_write_below (by omega), Mem.read_write_below (by omega),
    Mem.read_write_below (by omega), Mem.read_write_below (by omega)]
  exact Mem.read_write_next (Mem.read_write_of_length hhead)

/-! ## What the decoder reads -/

section Decode

variable {text : Mem} {keyid : Octets keyidSize} {date : Bytes} {pubk : QsmpClientSignatureKey}

/-- **The columns of the head** are where the decoder looks for them. -/
theorem columns_pubkeyHead (hdate : date.length = 19)
    (h : text.read 0 196 = pubkeyHead B keyid date) :
    text.read 74 47 = B.configString.val.take (configSize - 1) ∧
      text.read 131 32 = qscIntutilsBinToHex keyid.val ∧ text.read 176 19 = date := by
  have hconfig : (B.configString.val.take (configSize - 1)).length = 47 := by
    rw [List.length_take, B.configString.property]
    rfl
  have hkeyid : (qscIntutilsBinToHex keyid.val).length = 32 := by
    rw [length_qscIntutilsBinToHex, keyid.property]
    rfl
  obtain ⟨front, hfront⟩ : ∃ front, front = pubkeyHeader ++ [newline] ++ pubkeyVersion ++
    [newline] ++ pubkeyConfigPrefix := ⟨_, rfl⟩
  obtain ⟨config, hconfig'⟩ : ∃ config, config = B.configString.val.take (configSize - 1) :=
    ⟨_, rfl⟩
  have h₇₄ : front.length = 74 := by
    rw [hfront]
    rfl
  rw [pubkeyHead, ← hfront, ← hconfig'] at h
  rw [← hconfig'] at hconfig ⊢
  -- What stands before each column, and what behind it.
  have hcolumn₁ : text.read 0 196 = front ++ (config ++ ([newline] ++ pubkeyKeyidPrefix ++
      qscIntutilsBinToHex keyid.val ++ [newline] ++ pubkeyExpirationPrefix ++ date ++
      [newline])) := by
    rw [h]
    simp only [List.append_assoc]
  have hcolumn₂ : text.read 0 196 = (front ++ config ++ [newline] ++ pubkeyKeyidPrefix) ++
      (qscIntutilsBinToHex keyid.val ++ ([newline] ++ pubkeyExpirationPrefix ++ date ++
      [newline])) := by
    rw [h]
    simp only [List.append_assoc]
  have hcolumn₃ : text.read 0 196 = (front ++ config ++ [newline] ++ pubkeyKeyidPrefix ++
      qscIntutilsBinToHex keyid.val ++ [newline] ++ pubkeyExpirationPrefix) ++
      (date ++ [newline]) := by
    rw [h]
    simp only [List.append_assoc]
  refine ⟨Mem.read_middle hcolumn₁ h₇₄ hconfig, Mem.read_middle hcolumn₂ ?_ hkeyid,
    Mem.read_middle hcolumn₃ ?_ hdate⟩
  · simp only [List.length_append, h₇₄, hconfig]
    rfl
  · simp only [List.length_append, h₇₄, hconfig, hkeyid]
    rfl

/-- Zero digits and all, the key identity's bytes come first. -/
theorem hexToBin_keyid (h : text.read 0 32 = qscIntutilsBinToHex keyid.val) (output : Mem) :
    (qscIntutilsHexToBin text output (keyidSize * 2)).read 0 keyidSize = keyid.val := by
  have hlen : keyid.val.length = keyidSize := keyid.property
  have hbytes := hexBytes_binToHex keyid.val text (by rw [hlen]; exact h)
  rw [hlen] at hbytes
  rw [qscIntutilsHexToBin, Mem.read_write_start (by simp [keyidSize]), ← List.map_take,
    List.take_range]
  exact hbytes

/-- **The lines are read back as the text**, from anywhere they start. -/
theorem removeLineBreaks_pubkeyLines {verkey tail : Bytes} {n : ℕ}
    (hlt : (base64EncodeLoop verkey).length < 2 ^ 64) (hpos : 0 < (base64EncodeLoop verkey).length)
    (h : text.read 0 n = pubkeyLines verkey ++ tail) (dest : Mem) :
    (qscStringutilsRemoveLineBreaks dest (base64EncodeLoop verkey).length text n).1.read 0
      (base64EncodeLoop verkey).length = base64EncodeLoop verkey := by
  have hnl : newline ∉ base64EncodeLoop verkey := fun hmem => by
    have hvalid := List.all_eq_true.mp (isValidChar_encodeLoop verkey) _ hmem
    exact absurd hvalid (by decide)
  have hfilter := filter_brokenLines pubkeyLineLength (base64EncodeLoop verkey) 0 hnl
  rw [qscStringutilsRemoveLineBreaks, removeLineBreaksLoop_eq hpos hlt _ 0 dest (Nat.zero_le _), h,
    List.filter_append, pubkeyLines, hfilter, Nat.sub_zero, List.take_left' rfl]
  exact Mem.read_write_self

end Decode

/-- The arrays of the structure, after the configuration, the identity with
what is written behind it, and the verification key. -/
theorem read_arrays (kset : QsmpServerSignatureKey B.toParams) {hexid : Mem}
    (hhexid : hexid.read 0 keyidSize = kset.keyid.val) :
    let arrays := ((Mem.zero.write 0 (B.configString.val.take (configSize - 1))).unshift configSize
      hexid).write (configSize + keyidSize) kset.verkey.val
    arrays.octets 0 configSize = B.configString ∧ arrays.octets configSize keyidSize = kset.keyid ∧
      arrays.octets (configSize + keyidSize) B.verifyKeySize = kset.verkey := by
  have hconfig : (B.configString.val.take (configSize - 1)).length = 47 := by
    rw [List.length_take, B.configString.property]
    rfl
  refine ⟨Subtype.ext ?_, Subtype.ext ?_, Subtype.ext ?_⟩
  · have hend : (Mem.zero.write 0 (B.configString.val.take (configSize - 1))).read 47 1 = [0] := by
      rw [Mem.read_write_above (by omega)]
      rfl
    have hread : (Mem.zero.write 0 (B.configString.val.take (configSize - 1))).read 0 (47 + 1) =
        B.configString.val.take (configSize - 1) ++ B.configString.val.drop (configSize - 1) := by
      rw [Mem.read_add, Nat.zero_add, hend, Mem.read_write_of_length hconfig, B.terminated]
    rw [List.take_append_drop] at hread
    rw [Mem.octets_val, Mem.read_write_below (by decide), Mem.read_unshift_below (by decide)]
    exact hread
  · rw [Mem.octets_val, Mem.read_write_below (by decide), Mem.read_unshift, hhexid]
  · rw [Mem.octets_val, Mem.read_write_of_length kset.verkey.property]

/-- **A decoded key is the key that was encoded**, for any text that starts
as the encoder's does. -/
theorem qsmpDecodePublicKey_eq {text : Mem} {date : Bytes} (hdate : date.length = 19)
    (h : text.read 0 (196 + (pubkeyLines kset.verkey.val).length) =
      pubkeyHead B kset.keyid date ++ pubkeyLines kset.verkey.val) :
    ∃ pubk, qsmpDecodePublicKey B C stack .zero text = (true, pubk) ∧
      pubk.config = B.configString ∧ pubk.keyid = kset.keyid ∧
      pubk.verkey B.toParams = kset.verkey ∧
      pubk.expiration = qscTimestampDatetimeToSeconds C (Mem.zero.write 0 date) := by
  obtain ⟨henc, hstr, hkeyid, hvk, hlt⟩ := B.sizes
  have hlines := length_pubkeyLines kset
  have hsource : (base64EncodeLoop kset.verkey.val).length = B.pubkey.encodingSize := by
    rw [length_base64EncodeLoop, kset.verkey.property, ← henc]
  have hverkey : kset.verkey.val.length = B.verifyKeySize := kset.verkey.property
  simp only [keyidSize] at hkeyid
  -- The head, and the lines behind it.
  rw [Mem.read_add, Nat.zero_add] at h
  obtain ⟨hhead, hbehind⟩ := List.append_inj h (by rw [Mem.length_read, length_pubkeyHead hdate])
  obtain ⟨hcolumn₁, hcolumn₂, hcolumn₃⟩ := columns_pubkeyHead hdate hhead
  have hroom : sizeT ((B.pubkey.stringSize : ℤ) - ((196 + 38 : ℕ) : ℤ)) =
      B.pubkey.stringSize - (196 + 38) := sizeT_sub (by omega) (by omega)
  obtain ⟨more, hmore⟩ : ∃ more, B.pubkey.stringSize - (196 + 38) =
      (pubkeyLines kset.verkey.val).length + more := ⟨_, (Nat.add_sub_of_le (by omega)).symm⟩
  have htext : (text.shift 196).read 0 (B.pubkey.stringSize - (196 + 38)) =
      pubkeyLines kset.verkey.val ++
        text.read (196 + (pubkeyLines kset.verkey.val).length) more := by
    rw [hmore, Mem.read_add, Mem.shift_read, Mem.shift_read, Nat.add_zero, Nat.zero_add, hbehind]
  have hfull : 0 < (base64EncodeLoop kset.verkey.val).length := by
    rw [length_base64EncodeLoop, hverkey, qscEncodingBase64EncodedSize]
    split <;> omega
  have hremove := removeLineBreaks_pubkeyLines (by rw [hsource]; omega) hfull htext
    (stack.clear 0 B.pubkey.encodingSize)
  rw [hsource] at hremove
  have hne : kset.verkey.val ≠ [] := fun hnil => by
    rw [hnil, List.length_nil] at hverkey
    omega
  have hdecode := qscEncodingBase64Decode_encodeLoop hne (by omega) hverkey.le
    (by rw [hverkey, henc]) hremove
  have h₇₄ : sizeofString pubkeyHeader + sizeofString pubkeyVersion +
    sizeofString pubkeyConfigPrefix - 1 = 74 := rfl
  have h₁₃₁ : 74 + (configSize - 1 + sizeofString pubkeyExpirationPrefix - 3) = 131 := rfl
  have h₁₇₆ : 131 + (keyidSize * 2 + sizeofString pubkeyExpirationPrefix) = 176 := rfl
  have h₁₉₆ : 176 + timestampStringSize = 196 := rfl
  have h₃₈ : sizeofString pubkeyFooter = 38 := rfl
  have hconfig : text.read 74 (configSize - 1) = B.configString.val.take (configSize - 1) :=
    hcolumn₁
  have hexpiration : text.read 176 (timestampStringSize - 1) = date := hcolumn₃
  simp only [qsmpDecodePublicKey, h₇₄, h₁₃₁, h₁₇₆, h₁₉₆, h₃₈, hroom, hdecode, hconfig,
    hexpiration, Mem.unshift_write]
  have hhexid : (text.shift 131).read 0 32 = qscIntutilsBinToHex kset.keyid.val := by
    rw [Mem.shift_read]
    exact hcolumn₂
  obtain ⟨hfirst, hsecond, hthird⟩ := read_arrays kset (hexToBin_keyid hhexid _)
  exact ⟨_, rfl, hfirst, hsecond, hthird, rfl⟩

/-! ## The round trip -/

/-- A memory that starts with an encoded key decodes to it. -/
theorem qsmpDecodePublicKey_encode (stack : Mem) {text : Mem}
    (h : text.read 0 B.pubkey.stringSize =
      (qsmpEncodePublicKey B C enck kset).read 0 B.pubkey.stringSize) :
    ∃ pubk, qsmpDecodePublicKey B C stack .zero text = (true, pubk) ∧
      pubk.config = B.configString ∧ pubk.keyid = kset.keyid ∧
      pubk.verkey B.toParams = kset.verkey ∧
      pubk.expiration = qscTimestampDatetimeToSeconds C
        (Mem.zero.write 0 (pubkeyDate C kset.expiration)) := by
  obtain ⟨-, hstr, -, -, -⟩ := B.sizes
  have hlines := length_pubkeyLines kset
  have hle : 0 + (196 + (pubkeyLines kset.verkey.val).length) ≤ B.pubkey.stringSize := by omega
  refine qsmpDecodePublicKey_eq length_pubkeyDate ?_
  rw [Mem.read_of_read h hle, ← Mem.read_of_read rfl hle, read_encodePublicKey]

/-- **The public-key text round trip.** For every build, every key whose
configuration is the build's, and every expiration, the encoder changes
nothing outside the string, and the decoder returns true and restores the
configuration, the identity and the verification key, from any memory that
holds the string. -/
theorem public_key_round_trip (B : PubkeyParams) (C : Clock)
    (kset : QsmpServerSignatureKey B.toParams) (hconfig : kset.config = B.configString) :
    (∀ (enck : Mem) (i : ℕ), B.pubkey.stringSize ≤ i →
      qsmpEncodePublicKey B C enck kset i = enck i) ∧
    ∀ enck stack text : Mem,
      text.read 0 B.pubkey.stringSize =
        (qsmpEncodePublicKey B C enck kset).read 0 B.pubkey.stringSize →
      let decoded := qsmpDecodePublicKey B C stack .zero text
      decoded.1 = true ∧ decoded.2.config = kset.config ∧ decoded.2.keyid = kset.keyid ∧
        decoded.2.verkey B.toParams = kset.verkey := by
  refine ⟨fun enck i hi => qsmpEncodePublicKey_above hi, fun enck stack text htext => ?_⟩
  obtain ⟨pubk, hdecode, hfirst, hsecond, hthird, -⟩ :=
    qsmpDecodePublicKey_encode stack htext
  simp only [hdecode, hconfig]
  exact ⟨trivial, hfirst, hsecond, hthird⟩

/-- A clock that knows one time: the sixth of May 2024, 07:08:09 UTC. -/
def Clock.may : Clock where
  localtime _ := ⟨9, 8, 7, 6, 4, 124, 1, 126, 0⟩
  mktime u :=
    if u.tmYear = 124 ∧ u.tmMon = 4 ∧ u.tmMday = 6 ∧ u.tmHour = 7 ∧ u.tmMin = 8 ∧ u.tmSec = 9 then
      1714979289
    else -1

/-- A key of the default build that expires then. -/
def QsmpServerSignatureKey.may : QsmpServerSignatureKey PubkeyParams.dilithiumKyber.toParams where
  expiration := 1714979289
  config := PubkeyParams.dilithiumKyber.configString
  keyid := Octets.repeated _ 7
  sigkey := Octets.zero _
  verkey := Octets.repeated _ 3

/-- Its text decodes to it. -/
theorem public_key_round_trip_may :
    let decoded := qsmpDecodePublicKey .dilithiumKyber .may .zero .zero
      (qsmpEncodePublicKey .dilithiumKyber .may .zero .may)
    decoded.1 = true ∧ decoded.2.config = QsmpServerSignatureKey.may.config ∧
      decoded.2.keyid = QsmpServerSignatureKey.may.keyid ∧
      decoded.2.verkey _ = QsmpServerSignatureKey.may.verkey :=
  (public_key_round_trip .dilithiumKyber .may .may rfl).2 .zero .zero _ rfl

/-- **An expiration survives exactly outside October.** The text restores
all fields of a calendar time, and the decoder reads the expiration back
that was encoded, if and only if the month stored is not nine. -/
theorem expiration_survives_iff (B : PubkeyParams) (C : Clock) :
    (∀ (t : Tm) (output : Mem), t.Calendar →
      (((qscTimestampTimeStructToString output t).HoldsString 19 ∧
        (qscTimestampStringToTimeStruct (qscTimestampTimeStructToString output t)).SameTime t) ↔
        t.tmMon ≠ 9)) ∧
    ∀ (kset : QsmpServerSignatureKey B.toParams) (enck stack text : Mem),
      (C.localtime kset.expiration.toInt64).Date → C.InverseAt kset.expiration.toInt64 →
      text.read 0 B.pubkey.stringSize =
        (qsmpEncodePublicKey B C enck kset).read 0 B.pubkey.stringSize →
      ((qsmpDecodePublicKey B C stack .zero text).2.expiration = kset.expiration ↔
        (C.localtime kset.expiration.toInt64).tmMon ≠ 9) := by
  refine ⟨fun t output h => timeStruct_survives_iff h output, ?_⟩
  intro kset enck stack text hdate hinv htext
  obtain ⟨pubk, hdecode, -, -, -, hexpiration⟩ :=
    qsmpDecodePublicKey_encode stack htext
  rw [hdecode]
  simp only [hexpiration]
  exact datetimeToSeconds_iff hdate hinv (Mem.read_write_of_length length_pubkeyDate)

/-- The clock of a library that knows one time. -/
theorem Clock.may_inverseAt : Clock.may.InverseAt 1714979289 := by
  constructor
  · rintro u ⟨hyear, hmon, hmday, hhour, hmin, hsec⟩ -
    exact if_pos ⟨hyear, hmon, hmday, hhour, hmin, hsec⟩
  · intro u _ _ hu
    by_cases hsame : u.tmYear = 124 ∧ u.tmMon = 4 ∧ u.tmMday = 6 ∧ u.tmHour = 7 ∧
        u.tmMin = 8 ∧ u.tmSec = 9
    · obtain ⟨hyear, hmon, hmday, hhour, hmin, hsec⟩ := hsame
      exact ⟨hyear, hmon, hmday, hhour, hmin, hsec⟩
    · have hno : Clock.may.mktime u = -1 := if_neg hsame
      rw [hno] at hu
      exact absurd hu (by decide)

/-- So the key that expires in May keeps its expiration. -/
theorem expiration_survives_may :
    (qsmpDecodePublicKey .dilithiumKyber .may .zero .zero
      (qsmpEncodePublicKey .dilithiumKyber .may .zero .may)).2.expiration = 1714979289 := by
  refine ((expiration_survives_iff .dilithiumKyber .may).2 .may .zero .zero _ ?_
    Clock.may_inverseAt rfl).mpr (by decide)
  refine ⟨⟨?_, ?_, ?_, ?_, ?_, ?_⟩, ?_, ?_⟩ <;> decide

end Qsmp
