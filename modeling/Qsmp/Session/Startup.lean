import Qsmp.Session.Keys
/-!
# Starting a party, and starting it again

The dialogue of the server, of the listener and of the sender with their
key files. What the system answers to each call is an argument: a directory
that cannot be made, a file that does not open, a short read, a short
write, no randomness.
-/

namespace Qsmp

/-- What the system answers during one start. -/
structure Startup {P : Params} (A : Asymmetric P) where
  /-- Of the storage path, when the private key is looked for. -/
  storage : Bool
  /-- Of opening the private key to see if it exists. -/
  opens : Bool
  /-- Of the storage path, when it is asked for again. -/
  again : Bool
  /-- Of reading the private key. -/
  read : Option ℕ
  /-- Of `qsc_acp_generate`. -/
  keyid : Option (Octets keyidSize)
  now : UInt64
  seed : A.Seed
  /-- Of writing the public key, and the private key. -/
  writePubkey : Option ℕ
  writePrikey : Option ℕ

/-- What a dialogue leaves: its result, the keys it was given to fill, and
the files. -/
structure KeyDialogue (P : Params) where
  res : Bool
  prik : QsmpServerSignatureKey P
  pubk : QsmpClientSignatureKey
  keyid : Octets keyidSize
  files : KeyFiles

section Dialogues

variable (B : PubkeyParams) (C : Clock) {A : Asymmetric B.toParams} (G : A.Keygen)

/-- The branch that loads a private key, once the file's path is known. -/
def loadPrikey (s : Startup A) (d : KeyDialogue B.toParams) : KeyDialogue B.toParams :=
  let (len, spri) := qscFileutilsCopyFileToStream s.read d.files.prikey .zero
    (sigkeyEncodedSize B.toParams)
  if len ≠ 0 then
    let prik := qsmpDeserializeSignatureKey B.toParams spri
    { d with res := true, prik, pubk := d.pubk.copyOf prik, keyid := prik.keyid }
  else { d with res := false }

/-- The branch that makes a pair: the public key is written first. With it,
whether anything of the private key has been written. -/
def createPrikey (s : Startup A) (d : KeyDialogue B.toParams) : KeyDialogue B.toParams × Bool :=
  match s.again, s.keyid with
  | true, some keyid =>
    let (pubk, prik) := qsmpGenerateKeypair G s.now s.seed d.pubk keyid
    let spub := qsmpEncodePublicKey B C .zero prik
    let (res, pubkey) := qscFileutilsCopyStreamToFile s.writePubkey d.files.pubkey
      (spub.read 0 B.pubkey.stringSize)
    if res then
      let spri := qsmpSerializeSignatureKey B.toParams .zero prik
      let (stored, prikey) := qscFileutilsCopyStreamToFile s.writePrikey d.files.prikey
        (spri.read 0 (sigkeyEncodedSize B.toParams))
      (⟨true, prik, pubk, keyid, ⟨pubkey, prikey⟩⟩, stored)
    else (⟨false, prik, pubk, keyid, { d.files with pubkey }⟩, false)
  | _, _ => ({ d with res := false }, false)

/-- `server_key_dialogue` -/
def serverKeyDialogue (s : Startup A) (d : KeyDialogue B.toParams) : KeyDialogue B.toParams :=
  if s.storage && qscFileutilsExists s.opens d.files.prikey then
    if s.again then loadPrikey B s d else { d with res := false }
  else (createPrikey B C G s d).1

/-- `listener_key_dialogue`, which has the path already. -/
def listenerKeyDialogue (s : Startup A) (d : KeyDialogue B.toParams) : KeyDialogue B.toParams :=
  if s.storage && qscFileutilsExists s.opens d.files.prikey then loadPrikey B s d
  else (createPrikey B C G s d).1

/-- The part of `sender_ipv4_dialogue` that is about the sender's own key:
it fails if nothing of the private key has been written. -/
def senderKeyDialogue (s : Startup A) (d : KeyDialogue B.toParams) : KeyDialogue B.toParams :=
  if s.storage && qscFileutilsExists s.opens d.files.prikey then
    { loadPrikey B s d with pubk := d.pubk, keyid := d.keyid }
  else
    let (created, stored) := createPrikey B C G s d
    { created with res := created.res && stored, pubk := d.pubk, keyid := d.keyid }

/-- The arrays of `main`, all zero, and the files as the last start left
them. -/
def KeyDialogue.zero (P : Params) (files : KeyFiles) : KeyDialogue P :=
  ⟨false, ⟨0, .zero _, .zero _, .zero _, .zero _⟩, .zero, .zero _, files⟩

/-- The starts of a party whose dialogue is `dialogue`, one after the
other. -/
def starts (dialogue : Startup A → KeyDialogue B.toParams → KeyDialogue B.toParams) :
    List (Startup A) → KeyFiles → List (KeyDialogue B.toParams)
  | [], _ => []
  | s :: rest, files =>
    let d := dialogue s (.zero _ files)
    d :: starts dialogue rest d.files

variable {s : Startup A} {d : KeyDialogue B.toParams} {files : KeyFiles}

/-- The three programs that keep a key pair. -/
inductive KeyKeeper where
  | server | listener | sender
deriving DecidableEq

/-- The dialogue of each. -/
def KeyKeeper.dialogue : KeyKeeper → Startup A → KeyDialogue B.toParams → KeyDialogue B.toParams
  | .server => serverKeyDialogue B C G
  | .listener => listenerKeyDialogue B C G
  | .sender => senderKeyDialogue B C G

end Dialogues

variable {B : PubkeyParams} {C : Clock} {A : Asymmetric B.toParams} {G : A.Keygen}
variable {s : Startup A} {d : KeyDialogue B.toParams} {files : KeyFiles} {content : Bytes}

/-! ## A private key read back -/

/-- The bytes a start makes of a file's: what is missing stays zero. -/
def paddedKey (P : Params) (content : Bytes) : Bytes :=
  (Mem.zero.write 0 (content.take (sigkeyEncodedSize P))).read 0 (sigkeyEncodedSize P)

/-- **A private key whose file has been cut** is the key again if only
zeros are gone. -/
theorem paddedKey_take_iff {P : Params} {bytes : Bytes} {n : ℕ}
    (h : bytes.length = sigkeyEncodedSize P) :
    paddedKey P (bytes.take n) = bytes ↔ ∀ b ∈ bytes.drop n, b = 0 := by
  have hlen : (bytes.take n).length ≤ sigkeyEncodedSize P := by
    rw [List.length_take, h]
    omega
  have hdrop : (bytes.drop n).length = sigkeyEncodedSize P - (bytes.take n).length := by
    rw [List.length_drop, List.length_take, h]
    omega
  obtain ⟨rest, hrest⟩ : ∃ rest, rest = sigkeyEncodedSize P - (bytes.take n).length := ⟨_, rfl⟩
  have hsize : sigkeyEncodedSize P = (bytes.take n).length + rest := by omega
  have hzero : (Mem.zero.write 0 (bytes.take n)).read (bytes.take n).length rest =
      List.replicate rest 0 := by
    rw [Mem.read_write_above (by omega), Mem.read]
    exact List.eq_replicate_iff.2 ⟨by simp, fun b hb => by
      obtain ⟨i, -, hi⟩ := List.mem_map.1 hb
      exact hi.symm⟩
  have hpadded : paddedKey P (bytes.take n) = bytes.take n ++ List.replicate rest 0 := by
    rw [paddedKey, List.take_of_length_le hlen, hsize, Mem.read_add, Mem.read_write_self,
      Nat.zero_add, hzero]
  have hsplit : bytes.take n ++ List.replicate rest 0 = bytes ↔
      bytes.drop n = List.replicate rest 0 := by
    obtain ⟨front, hfront⟩ : ∃ front, front = bytes.take n := ⟨_, rfl⟩
    obtain ⟨back, hback⟩ : ∃ back, back = bytes.drop n := ⟨_, rfl⟩
    have hall : bytes = front ++ back := by rw [hfront, hback, List.take_append_drop]
    rw [← hfront, ← hback, hall, List.append_cancel_left_eq, eq_comm]
  rw [hpadded, hsplit, List.eq_replicate_iff, hdrop, ← hrest]
  exact ⟨And.right, fun hz => ⟨rfl, hz⟩⟩

theorem sigkeyEncodedSize_pos {P : Params} : 0 < sigkeyEncodedSize P := by
  have hkeyid : keyidSize = 16 := rfl
  rw [sigkeyEncodedSize]
  omega

/-! ## One start -/

/-- **A start where everything works**: the key file is found if it is
there, reads and writes are whole, and there is randomness. -/
structure Startup.Healthy (s : Startup A) : Prop where
  storage : s.storage = true
  opens : s.opens = true
  again : s.again = true
  read : ∃ n, s.read = some n ∧ sigkeyEncodedSize B.toParams ≤ n
  keyid : ∃ keyid, s.keyid = some keyid
  writePubkey : ∃ n, s.writePubkey = some n ∧ B.pubkey.stringSize ≤ n
  writePrikey : ∃ n, s.writePrikey = some n ∧ sigkeyEncodedSize B.toParams ≤ n

/-- The key a start makes. -/
def Startup.made (G : A.Keygen) (s : Startup A) (keyid : Octets keyidSize) :
    QsmpServerSignatureKey B.toParams :=
  ⟨s.now + UInt64.ofNat pubkeyDurationSeconds, B.configString, keyid, (G s.seed).2, (G s.seed).1⟩

/-- The public structure a keeper fills for its caller; the sender's own
stays with the dialogue. -/
def KeyKeeper.shown (keeper : KeyKeeper) {P : Params} (prik : QsmpServerSignatureKey P) :
    QsmpClientSignatureKey :=
  if keeper = .sender then .zero else QsmpClientSignatureKey.zero.copyOf prik

/-- Loading a file that reads whole. -/
theorem loadPrikey_eq (hread : ∃ n, s.read = some n ∧ sigkeyEncodedSize B.toParams ≤ n)
    (hfile : d.files.prikey = some content) (hne : content ≠ []) :
    ∃ prik, prik.serialized = paddedKey B.toParams content ∧ loadPrikey B s d =
      ⟨true, prik, d.pubk.copyOf prik, prik.keyid, d.files⟩ := by
  obtain ⟨n, hn, hle⟩ := hread
  refine ⟨_, serialized_qsmpDeserializeSignatureKey
    (Mem.zero.write 0 (content.take (sigkeyEncodedSize B.toParams))), ?_⟩
  have hlen : (content.take (sigkeyEncodedSize B.toParams)).length ≠ 0 := fun h => by
    rw [List.length_eq_zero_iff, List.take_eq_nil_iff] at h
    exact h.elim (fun h => absurd h (Nat.ne_of_gt sigkeyEncodedSize_pos)) hne
  unfold loadPrikey qscFileutilsCopyFileToStream
  rw [hn, hfile]
  dsimp only
  rw [Nat.min_eq_right hle, if_pos hlen]

/-- Nothing is read from an empty file. -/
theorem loadPrikey_empty (hfile : d.files.prikey = some []) : (loadPrikey B s d).res = false := by
  unfold loadPrikey qscFileutilsCopyFileToStream
  rw [hfile]
  cases s.read with
  | none => rfl
  | some n =>
    dsimp only
    rw [List.take_nil, List.length_nil, if_neg (by decide)]

/-- A write that reports success has written something. -/
theorem copyStreamToFile_true {answer : Option ℕ} {file : Option Bytes} {stream : Bytes}
    (h : (qscFileutilsCopyStreamToFile answer file stream).1 = true) :
    ∃ n, answer = some n ∧ stream.take n ≠ [] ∧
      (qscFileutilsCopyStreamToFile answer file stream).2 = some (stream.take n) := by
  cases answer with
  | none => exact absurd h Bool.false_ne_true
  | some n =>
    refine ⟨n, rfl, fun hnil => ?_, rfl⟩
    simp only [qscFileutilsCopyStreamToFile, hnil, List.length_nil] at h
    exact absurd h (by decide)

/-- A start that makes a key, where there is a directory and randomness. -/
theorem createPrikey_eq {keyid : Octets keyidSize} (hagain : s.again = true)
    (hkeyid : s.keyid = some keyid) :
    createPrikey B C G s d =
      let prik := s.made G keyid
      let pub := qscFileutilsCopyStreamToFile s.writePubkey d.files.pubkey
        ((qsmpEncodePublicKey B C .zero prik).read 0 B.pubkey.stringSize)
      let pri := qscFileutilsCopyStreamToFile s.writePrikey d.files.prikey prik.serialized
      if pub.1 = true then
        (⟨true, prik, d.pubk.copyOf prik, keyid, ⟨pub.2, pri.2⟩⟩, pri.1)
      else (⟨false, prik, d.pubk.copyOf prik, keyid, { d.files with pubkey := pub.2 }⟩, false) := by
  have hspri : (qsmpSerializeSignatureKey B.toParams Mem.zero (s.made G keyid)).read 0
      (sigkeyEncodedSize B.toParams) = (s.made G keyid).serialized := by
    rw [qsmpSerializeSignatureKey_eq, Mem.read_write_of_length (length_serialized _)]
  have hmade : qsmpGenerateKeypair G s.now s.seed d.pubk keyid =
    (d.pubk.copyOf (s.made G keyid), s.made G keyid) := rfl
  unfold createPrikey
  rw [hagain, hkeyid]
  dsimp only
  rw [hmade]
  dsimp only
  rw [hspri]

/-- **What a start that makes a key leaves**, if it returns true: the key,
and of each file's bytes what has been written. -/
theorem createPrikey_res (h : (createPrikey B C G s d).1.res = true) :
    ∃ keyid, let pub := (qsmpEncodePublicKey B C .zero (s.made G keyid)).read 0 B.pubkey.stringSize
      ∃ n, s.writePubkey = some n ∧
      let pri := qscFileutilsCopyStreamToFile s.writePrikey d.files.prikey
        (s.made G keyid).serialized
      createPrikey B C G s d =
        (⟨true, s.made G keyid, d.pubk.copyOf (s.made G keyid), keyid,
          ⟨some (pub.take n), pri.2⟩⟩, pri.1) := by
  cases hagain : s.again with
  | false =>
    rw [createPrikey, hagain] at h
    exact absurd h Bool.false_ne_true
  | true =>
    cases hkeyid : s.keyid with
    | none =>
      rw [createPrikey, hagain, hkeyid] at h
      exact absurd h Bool.false_ne_true
    | some keyid =>
      have heq := createPrikey_eq (C := C) (G := G) (d := d) hagain hkeyid
      rw [heq] at h ⊢
      dsimp only at h ⊢
      by_cases hpub : (qscFileutilsCopyStreamToFile s.writePubkey d.files.pubkey
          ((qsmpEncodePublicKey B C .zero (s.made G keyid)).read 0
            B.pubkey.stringSize)).1 = true
      · obtain ⟨n, hn, -, hfile⟩ := copyStreamToFile_true hpub
        refine ⟨keyid, n, hn, ?_⟩
        rw [if_pos hpub, hfile]
      · rw [if_neg hpub] at h
        exact absurd h Bool.false_ne_true

/-! ## One start of each program -/

/-- A dialogue that hands out a key: its caller sees the key, and the files
are these. -/
structure KeyDialogue.HandsOut {P : Params} (d : KeyDialogue P) (keeper : KeyKeeper)
    (prik : QsmpServerSignatureKey P) (files : KeyFiles) : Prop where
  res : d.res = true
  key : d.prik = prik
  shown : d.pubk = keeper.shown prik
  kept : d.files = files

/-- **A healthy start loads what is there**, and changes no file. -/
theorem dialogue_loads (keeper : KeyKeeper) (hs : s.Healthy) (hfile : files.prikey = some content)
    (hne : content ≠ []) :
    ∃ prik, prik.serialized = paddedKey B.toParams content ∧
      (keeper.dialogue B C G s (.zero _ files)).HandsOut keeper prik files := by
  obtain ⟨prik, hprik, hload⟩ :=
    loadPrikey_eq (d := .zero _ files) hs.read hfile hne
  have hexists : (s.storage && qscFileutilsExists s.opens files.prikey) = true := by
    rw [hs.storage, qscFileutilsExists, hs.opens, hfile]
    rfl
  refine ⟨prik, hprik, ?_⟩
  cases keeper with
  | server =>
    have hd : KeyKeeper.server.dialogue B C G s (.zero _ files) = _ :=
      (if_pos hexists).trans ((if_pos hs.again).trans hload)
    exact hd ▸ ⟨rfl, rfl, rfl, rfl⟩
  | listener =>
    have hd : KeyKeeper.listener.dialogue B C G s (.zero _ files) = _ :=
      (if_pos hexists).trans hload
    exact hd ▸ ⟨rfl, rfl, rfl, rfl⟩
  | sender =>
    have hd : KeyKeeper.sender.dialogue B C G s (.zero _ files) = _ := if_pos hexists
    rw [hd, hload]
    exact ⟨rfl, rfl, rfl, rfl⟩

/-- An empty file is no key, whatever the keeper. -/
theorem dialogue_empty (keeper : KeyKeeper) (hs : s.Healthy) (hfile : files.prikey = some []) :
    (keeper.dialogue B C G s (.zero _ files)).res = false := by
  have hload := loadPrikey_empty (s := s) (d := .zero _ files) hfile
  have hexists : (s.storage && qscFileutilsExists s.opens files.prikey) = true := by
    rw [hs.storage, qscFileutilsExists, hs.opens, hfile]
    rfl
  cases keeper with
  | server =>
    have hd : KeyKeeper.server.dialogue B C G s (.zero _ files) = _ :=
      (if_pos hexists).trans (if_pos hs.again)
    exact hd ▸ hload
  | listener =>
    have hd : KeyKeeper.listener.dialogue B C G s (.zero _ files) = _ := if_pos hexists
    exact hd ▸ hload
  | sender =>
    have hd : KeyKeeper.sender.dialogue B C G s (.zero _ files) = _ := if_pos hexists
    exact hd ▸ hload

/-- **A start without a private key makes one**, if it returns true. The
sender returns true only if something of it has been written. -/
theorem dialogue_creates (keeper : KeyKeeper) (hfile : files.prikey = none)
    (h : (keeper.dialogue B C G s (.zero _ files)).res = true) :
    ∃ keyid n, s.writePubkey = some n ∧
      (keeper = .sender → ∃ m, s.writePrikey = some m ∧ (s.made G keyid).serialized.take m ≠ []) ∧
      (keeper.dialogue B C G s (.zero _ files)).HandsOut keeper (s.made G keyid)
        ⟨some (((qsmpEncodePublicKey B C .zero (s.made G keyid)).read 0
          B.pubkey.stringSize).take n), s.writePrikey.map (s.made G keyid).serialized.take⟩ := by
  have hexists : ¬ (s.storage && qscFileutilsExists s.opens files.prikey) = true := by
    rw [qscFileutilsExists, hfile, Option.isSome_none, Bool.and_false, Bool.and_false]
    exact Bool.false_ne_true
  obtain ⟨c, hc⟩ : ∃ c, c = createPrikey B C G s (.zero _ files) := ⟨_, rfl⟩
  have hmap : ∀ bytes, (qscFileutilsCopyStreamToFile s.writePrikey files.prikey bytes).2 =
      s.writePrikey.map bytes.take := fun bytes => by
    rw [hfile]
    cases s.writePrikey <;> rfl
  cases keeper with
  | server =>
    have hd : KeyKeeper.server.dialogue B C G s (.zero _ files) = c.1 := hc ▸ if_neg hexists
    rw [hd] at h ⊢
    obtain ⟨keyid, n, hn, hcreate⟩ := createPrikey_res (hc ▸ h)
    refine ⟨keyid, n, hn, fun hne => absurd hne (by decide), ?_⟩
    rw [hc, hcreate]
    exact ⟨rfl, rfl, rfl, by rw [← hmap]; rfl⟩
  | listener =>
    have hd : KeyKeeper.listener.dialogue B C G s (.zero _ files) = c.1 := hc ▸ if_neg hexists
    rw [hd] at h ⊢
    obtain ⟨keyid, n, hn, hcreate⟩ := createPrikey_res (hc ▸ h)
    refine ⟨keyid, n, hn, fun hne => absurd hne (by decide), ?_⟩
    rw [hc, hcreate]
    exact ⟨rfl, rfl, rfl, by rw [← hmap]; rfl⟩
  | sender =>
    have hd : KeyKeeper.sender.dialogue B C G s (.zero _ files) =
        { c.1 with res := c.1.res && c.2, pubk := .zero, keyid := .zero _ } :=
      hc ▸ if_neg hexists
    rw [hd] at h ⊢
    obtain ⟨hres, hstored⟩ := Bool.and_eq_true_iff.1 h
    obtain ⟨keyid, n, hn, hcreate⟩ := createPrikey_res (hc ▸ hres)
    rw [hc, hcreate] at hstored
    obtain ⟨m, hm, hne, -⟩ := copyStreamToFile_true hstored
    refine ⟨keyid, n, hn, fun _ => ⟨m, hm, hne⟩, ?_⟩
    rw [hc, hcreate] at h ⊢
    exact ⟨h, rfl, rfl, by rw [← hmap]; rfl⟩

/-- **A healthy start without a private key** writes both files whole. -/
theorem dialogue_first (keeper : KeyKeeper) (hs : s.Healthy) (hfile : files.prikey = none) :
    ∃ keyid, s.keyid = some keyid ∧
      (keeper.dialogue B C G s (.zero _ files)).HandsOut keeper (s.made G keyid)
        ⟨some ((qsmpEncodePublicKey B C .zero (s.made G keyid)).read 0 B.pubkey.stringSize),
          some (s.made G keyid).serialized⟩ := by
  obtain ⟨keyid, hkeyid⟩ := hs.keyid
  obtain ⟨n, hn, hlen⟩ := hs.writePubkey
  obtain ⟨m, hm, hlen'⟩ := hs.writePrikey
  obtain ⟨spub, hspub⟩ : ∃ spub, spub = (qsmpEncodePublicKey B C Mem.zero
    (s.made G keyid)).read 0 B.pubkey.stringSize := ⟨_, rfl⟩
  have hspublen : spub.length = B.pubkey.stringSize := by rw [hspub, Mem.length_read]
  have hstring : 0 < B.pubkey.stringSize := by
    obtain ⟨-, hstr, -, -, -⟩ := B.sizes
    omega
  have hpub : qscFileutilsCopyStreamToFile s.writePubkey files.pubkey spub = (true, some spub) := by
    have htake : spub.take n = spub := List.take_of_length_le (by omega)
    rw [hn, qscFileutilsCopyStreamToFile]
    simp only [htake, hspublen]
    exact Prod.ext (decide_eq_true (by omega)) rfl
  have hpri : qscFileutilsCopyStreamToFile s.writePrikey files.prikey
      (s.made G keyid).serialized = (true, some (s.made G keyid).serialized) := by
    have hsize := length_serialized (s.made G keyid)
    have hpos := sigkeyEncodedSize_pos (P := B.toParams)
    have htake : (s.made G keyid).serialized.take m = (s.made G keyid).serialized :=
      List.take_of_length_le (by omega)
    rw [hm, qscFileutilsCopyStreamToFile]
    simp only [htake, hsize]
    exact Prod.ext (decide_eq_true (by omega)) rfl
  have hexists : ¬ (s.storage && qscFileutilsExists s.opens files.prikey) = true := by
    rw [qscFileutilsExists, hfile, Option.isSome_none, Bool.and_false, Bool.and_false]
    exact Bool.false_ne_true
  have hcreate : createPrikey B C G s (.zero _ files) =
      (⟨true, s.made G keyid, QsmpClientSignatureKey.zero.copyOf (s.made G keyid), keyid,
        ⟨some spub, some (s.made G keyid).serialized⟩⟩, true) := by
    rw [createPrikey_eq hs.again hkeyid]
    dsimp only [KeyDialogue.zero]
    rw [← hspub, hpub, hpri, if_pos rfl]
  refine ⟨keyid, hkeyid, ?_⟩
  rw [← hspub]
  cases keeper with
  | server =>
    have hd : KeyKeeper.server.dialogue B C G s (.zero _ files) =
      (createPrikey B C G s (.zero _ files)).1 := if_neg hexists
    rw [hd, hcreate]
    exact ⟨rfl, rfl, rfl, rfl⟩
  | listener =>
    have hd : KeyKeeper.listener.dialogue B C G s (.zero _ files) =
      (createPrikey B C G s (.zero _ files)).1 := if_neg hexists
    rw [hd, hcreate]
    exact ⟨rfl, rfl, rfl, rfl⟩
  | sender =>
    have hd : KeyKeeper.sender.dialogue B C G s (.zero _ files) =
        let created := createPrikey B C G s (.zero _ files)
        { created.1 with res := created.1.res && created.2, pubk := .zero, keyid := .zero _ } :=
      if_neg hexists
    rw [hd, hcreate]
    exact ⟨rfl, rfl, rfl, rfl⟩

/-! ## Starts one after the other -/

/-- **A file that is read back as the key keeps it**: every healthy start
from there on hands it out again, and changes no file. -/
theorem starts_handOut (keeper : KeyKeeper) {prik : QsmpServerSignatureKey B.toParams}
    (hne : content ≠ []) (hfile : files.prikey = some content)
    (hkept : paddedKey B.toParams content = prik.serialized) :
    ∀ later : List (Startup A), (∀ s ∈ later, s.Healthy) →
      ∀ d ∈ starts B (keeper.dialogue B C G) later files, d.HandsOut keeper prik files := by
  intro later
  induction later with
  | nil => exact fun _ d hd => absurd hd List.not_mem_nil
  | cons s later ih =>
    intro hhealthy d hd
    obtain ⟨prik', hprik', hout⟩ := dialogue_loads (C := C) (G := G) keeper
      (hhealthy s (List.mem_cons_self ..)) hfile hne
    have hsame : prik' = prik := serialized_injective (hprik'.trans hkept)
    rw [starts, List.mem_cons] at hd
    rcases hd with rfl | hd
    · exact hsame ▸ hout
    · rw [hout.kept] at hd
      exact ih (fun s hs => hhealthy s (List.mem_cons_of_mem _ hs)) d hd

/-- **The key of the first start is the key of every later one** exactly
if the private file was written up to its last byte that is not zero. The
server and the listener return true from a first start that has written
none of it, and make another key at the next one; a file that has been cut
short is loaded with zeros in the place of what is missing. -/
theorem key_kept_iff (keeper : KeyKeeper) (s : Startup A) (files : KeyFiles)
    (hfile : files.prikey = none) (hres : (keeper.dialogue B C G s (.zero _ files)).res = true) :
    let d := keeper.dialogue B C G s (.zero _ files)
    (∀ later : List (Startup A), (∀ s ∈ later, s.Healthy) →
      ∀ d' ∈ starts B (keeper.dialogue B C G) later d.files,
        d'.HandsOut keeper d.prik d.files) ↔
      ∃ n, s.writePrikey = some n ∧ n ≠ 0 ∧ ∀ b ∈ d.prik.serialized.drop n, b = 0 := by
  obtain ⟨keyid, k, hk, -, hout⟩ := dialogue_creates keeper hfile hres
  obtain ⟨d, hd⟩ : ∃ d, d = keeper.dialogue B C G s (.zero _ files) := ⟨_, rfl⟩
  rw [← hd] at hout ⊢
  dsimp only
  constructor
  · intro hall
    -- A start at another time tells the missing file, the empty one and the cut one apart.
    obtain ⟨s', hs'⟩ : ∃ s' : Startup A, s' = ⟨true, true, true,
      some (sigkeyEncodedSize B.toParams), some keyid, s.now + 1, s.seed,
      some B.pubkey.stringSize, some (sigkeyEncodedSize B.toParams)⟩ := ⟨_, rfl⟩
    have hhealthy : s'.Healthy := hs' ▸ ⟨rfl, rfl, rfl, ⟨_, rfl, le_rfl⟩, ⟨_, rfl⟩,
      ⟨_, rfl, le_rfl⟩, ⟨_, rfl, le_rfl⟩⟩
    have hnext := hall [s'] (fun s hs => (List.mem_singleton.1 hs) ▸ hhealthy) _
      (List.mem_cons_self ..)
    have hprikey : d.files.prikey = s.writePrikey.map (s.made G keyid).serialized.take := by
      rw [hout.kept]
    cases hwrite : s.writePrikey with
    | none =>
      rw [hwrite, Option.map_none] at hprikey
      obtain ⟨keyid', n', -, -, hout'⟩ := dialogue_creates keeper hprikey hnext.res
      have hexp := congrArg QsmpServerSignatureKey.expiration
        (hout'.key.symm.trans (hnext.key.trans hout.key))
      have hnow : s'.now = s.now := by
        simpa only [Startup.made, UInt64.add_left_inj] using hexp
      rw [hs'] at hnow
      exact absurd hnow (by simp)
    | some n =>
      rw [hwrite, Option.map_some] at hprikey
      have hne : (s.made G keyid).serialized.take n ≠ [] := fun hnil => by
        rw [hnil] at hprikey
        have hfalse := dialogue_empty (C := C) (G := G) keeper hhealthy hprikey
        exact absurd (hfalse.symm.trans hnext.res) Bool.false_ne_true
      obtain ⟨prik, hprik, hout'⟩ := dialogue_loads (C := C) (G := G) keeper hhealthy
        hprikey hne
      have hsame : prik = s.made G keyid :=
        hout'.key.symm.trans (hnext.key.trans hout.key)
      refine ⟨n, rfl, fun hzero => hne (by rw [hzero, List.take_zero]), ?_⟩
      rw [hout.key]
      exact (paddedKey_take_iff (length_serialized _)).1 (hprik.symm.trans (by rw [hsame]))
  · rintro ⟨n, hn, hpos, hzeros⟩
    rw [hout.key] at hzeros ⊢
    have hprikey : d.files.prikey = some ((s.made G keyid).serialized.take n) := by
      rw [hout.kept, hn, Option.map_some]
    have hlen := length_serialized (s.made G keyid)
    refine starts_handOut keeper (fun hnil => ?_) hprikey
      ((paddedKey_take_iff (length_serialized _)).2 hzeros)
    rw [List.take_eq_nil_iff, ← List.length_eq_zero_iff, hlen] at hnil
    have hsize := sigkeyEncodedSize_pos (P := B.toParams)
    omega

/-- A start of the default build where everything works. -/
def Startup.may : Startup (Asymmetric.plain PubkeyParams.dilithiumKyber.toParams) :=
  ⟨true, true, true, some 4000, some (.repeated _ 7), 1683443289, (3 : UInt8), some 4000, some 4000⟩

/-- A scheme whose pairs sign. -/
def Asymmetric.Keygen.plain (P : Params) : (Asymmetric.plain P).Keygen :=
  fun seed => (.repeated _ seed, .repeated _ seed)

theorem Startup.may_healthy : Startup.may.Healthy :=
  ⟨rfl, rfl, rfl, ⟨_, rfl, by decide⟩, ⟨_, rfl⟩, ⟨_, rfl, by decide⟩, ⟨_, rfl, by decide⟩⟩

/-- So the server that starts in May keeps its key. -/
theorem key_kept_may :
    let d := KeyKeeper.server.dialogue .dilithiumKyber .may (.plain _) .may (.zero _ ⟨none, none⟩)
    ∀ later : List (Startup (Asymmetric.plain PubkeyParams.dilithiumKyber.toParams)),
      (∀ s ∈ later, s.Healthy) →
      ∀ d' ∈ starts .dilithiumKyber (KeyKeeper.server.dialogue .dilithiumKyber .may (.plain _))
        later d.files, d'.HandsOut .server d.prik d.files := by
  have hmissing : (⟨none, none⟩ : KeyFiles).prikey = none := rfl
  obtain ⟨keyid, -, hout⟩ := dialogue_first (C := .may) (G := .plain _) .server
    Startup.may_healthy hmissing
  refine (key_kept_iff .server .may ⟨none, none⟩ rfl hout.res).2 ⟨4000, rfl, by decide, ?_⟩
  rw [List.drop_eq_nil_of_le]
  · exact fun b hb => absurd hb List.not_mem_nil
  · rw [length_serialized]
    decide

end Qsmp
