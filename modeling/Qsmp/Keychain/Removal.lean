import Qsmp.Common.Histories
import Qsmp.Keychain.Functions
/-!
# Taking keys out of a keychain

What a removal promises is said of the entries of the keychain, the tags
with the keys stored beside them. The function never counts an entry off,
so it keeps the promise just if there is no entry to take out. A history
of additions and removals is followed as far as it keeps the promise: as
long as it does, the arrays are as long as the count says.
-/

namespace Qsmp

variable {P : Params} {s s' : QsmpAsymmetricKeychain}
variable {keypair : QsmpAsymmetricCipherKeypair P} {tag : UInt64} {g : KeychainGrants}
variable {pubkey : Octets P.publicKeySize} {prikey : Octets P.privateKeySize}
variable {ktag : Octets keytagSize}

/-! ## The promise -/

/-- Entry `idx` of a keychain: its tag, and the keys next to it. -/
def QsmpAsymmetricKeychain.entry (P : Params) (s : QsmpAsymmetricKeychain) (idx : ℕ) :
    UInt64 × QsmpAsymmetricCipherKeypair P :=
  (s.ktag idx,
    { pubkey := (pointee s.pubkeys).mem.octets (idx * P.publicKeySize) P.publicKeySize
      prikey := (pointee s.prikeys).mem.octets (idx * P.privateKeySize) P.privateKeySize })

/-- The entries of a keychain. -/
def QsmpAsymmetricKeychain.entries (P : Params) (s : QsmpAsymmetricKeychain) :
    List (UInt64 × QsmpAsymmetricCipherKeypair P) :=
  (List.range s.count.toNat).map (s.entry P)

/-- **What a removal promises**: the keys of an entry that is there are
handed out and the entry, and no other, is gone; for a tag that is not
there nothing happens; and no access leaves the arrays. -/
structure RemovesEntry (s : QsmpAsymmetricKeychain) (keypair : QsmpAsymmetricCipherKeypair P)
    (tag : UInt64) (r : KeychainResult × QsmpAsymmetricCipherKeypair P) : Prop where
  present : ∀ e ∈ s.entries P, e.1 = tag →
    r.1.res = true ∧ r.2 = e.2 ∧ r.1.keychain.count.toNat + 1 = s.count.toNat ∧
      (e :: r.1.keychain.entries P).Perm (s.entries P)
  absent : (∀ e ∈ s.entries P, e.1 ≠ tag) → r.1.res = false ∧ r.2 = keypair ∧ r.1.keychain = s
  inside : Access.AllInside r.1.accesses

/-- What building the keychain rests on: an addition the allocator grants is
done, and no access leaves the arrays. -/
structure AddsEntry (g : KeychainGrants) (r : KeychainResult) : Prop where
  done : g.All → r.res = true
  inside : Access.AllInside r.accesses

/-- An operation on the keychain, with what it is given. -/
inductive KeychainOp (P : Params) where
  | add (pubkey : Octets P.publicKeySize) (prikey : Octets P.privateKeySize)
      (ktag : Octets keytagSize) (grants : KeychainGrants)
  | remove (keypair : QsmpAsymmetricCipherKeypair P) (tag : UInt64) (grants : KeychainGrants)

namespace KeychainOp

/-- The keychain after an operation. -/
def step (s : QsmpAsymmetricKeychain) : KeychainOp P → Option QsmpAsymmetricKeychain
  | add pubkey prikey ktag g => some (qsmpKeychainAdd s pubkey prikey ktag g).keychain
  | remove keypair tag g => some (qsmpKeychainRemove s keypair tag g).1.keychain

/-- The operation keeps its promise. -/
def Keeps (s : QsmpAsymmetricKeychain) (op : KeychainOp P) (_ : QsmpAsymmetricKeychain) : Prop :=
  match op with
  | add pubkey prikey ktag g => AddsEntry g (qsmpKeychainAdd s pubkey prikey ktag g)
  | remove keypair tag g => RemovesEntry s keypair tag (qsmpKeychainRemove s keypair tag g)

/-- Another key of `size` bytes has room in an array whose length is
reckoned in 32 bits. -/
def KeyFits (count : UInt32) (size : ℕ) : Prop :=
  0 < size ∧ (count ≠ 0 → (count.toNat + 1) * size < 2 ^ 32)

/-- **The harmless operations**: an addition that is granted has room in both
arrays of keys; a removal is of a tag that is not there, from a keychain
that has not lost its tags to a failed allocation. -/
def Harmless (s : QsmpAsymmetricKeychain) (op : KeychainOp P) (_ : QsmpAsymmetricKeychain) :
    Prop :=
  match op with
  | add _ _ _ g => g.All → KeyFits s.count P.privateKeySize ∧ KeyFits s.count P.publicKeySize
  | remove _ tag _ => tag ∉ s.tags ∧ (s.count ≠ 0 → s.ktags ≠ none)

end KeychainOp

/-! ## Removing -/

/-- **No entry is ever counted off.** -/
theorem qsmpKeychainRemove_count :
    (qsmpKeychainRemove s keypair tag g).1.keychain.count = s.count := by
  simp only [qsmpKeychainRemove]
  split
  · split
    · rfl
    · split <;> rfl
  · rfl

/-- A tag that is not there is searched for to the end. -/
theorem qsmpKeychainRemove_absent (h : tag ∉ s.tags) :
    qsmpKeychainRemove s keypair tag g =
      (⟨false, s, searchAccesses s s.count.toNat⟩, keypair) := by
  have hidx : s.tags.findIdx (· == tag) = s.count.toNat := by
    rw [← s.length_tags]
    refine List.findIdx_eq_length.2 fun t ht => ?_
    simp only [beq_eq_false_iff_ne]
    rintro rfl
    exact h ht
  simp only [qsmpKeychainRemove, hidx, if_neg (lt_irrefl _)]

theorem mem_tags_iff : tag ∈ s.tags ↔ ∃ e ∈ s.entries P, e.1 = tag := by
  simp only [QsmpAsymmetricKeychain.tags, QsmpAsymmetricKeychain.entries,
    QsmpAsymmetricKeychain.entry, List.mem_map, exists_exists_and_eq_and]

/-- The search stays inside an array that is as long as the count says, and
inside no shorter one. -/
theorem searchAccesses_inside :
    Access.AllInside (searchAccesses s s.count.toNat) ↔
      keytagSize * s.count.toNat ≤ (pointee s.ktags).size := by
  have hmin : min (s.count.toNat + 1) s.count.toNat = s.count.toNat := by omega
  simp only [Access.AllInside, searchAccesses, hmin, List.forall_mem_map, List.mem_range,
    Access.inside_iff, keytagSize]
  constructor
  · intro h
    rcases Nat.eq_zero_or_pos s.count.toNat with hzero | hpos
    · omega
    · have := h (s.count.toNat - 1) (by omega)
      omega
  · intro h i hi
    omega

/-! ## What an addition stores -/

/-- **The arrays hold the entries**, as many as the count says. -/
structure Stored (P : Params) (s : QsmpAsymmetricKeychain) : Prop where
  pubkeys : s.count.toNat * P.publicKeySize ≤ (pointee s.pubkeys).size
  prikeys : s.count.toNat * P.privateKeySize ≤ (pointee s.prikeys).size
  ktags : s.count.toNat * keytagSize ≤ (pointee s.ktags).size

/-- An array that has grown is what it was as far as it was long. -/
theorem resized_read {old b : Block} {n len idx size : ℕ} {grant : Option Mem}
    (h : qscMemutilsRealloc old len grant = some b) (hidx : idx < n) (hold : n * size ≤ old.size)
    (hlen : n * size ≤ len) : b.mem.read (idx * size) size = old.mem.read (idx * size) size := by
  have hend : idx * size + size ≤ n * size := by
    rw [← Nat.succ_mul]
    exact Nat.mul_le_mul_right _ hidx
  rw [qscMemutilsRealloc] at h
  split at h
  · obtain ⟨m, -, rfl⟩ := Option.map_eq_some_iff.1 h
    exact Block.resize_read (by omega)
  · exact absurd h.symm (Option.some_ne_none b)

/-! ## The invariant -/

/-- **What a history that has kept its promises leaves**: an array of tags
that is as long as the count says, and a count whose keys have a 32-bit
length. -/
structure Kept (P : Params) (s : QsmpAsymmetricKeychain) : Prop where
  ktags : s.ktags ≠ none → keytagSize * s.count.toNat ≤ (pointee s.ktags).size
  prikeys : 2 ≤ s.count.toNat → s.count.toNat * P.privateKeySize < 2 ^ 32
  pubkeys : 2 ≤ s.count.toNat → s.count.toNat * P.publicKeySize < 2 ^ 32

theorem keytags_le_iff (h : s.ktags ≠ none → keytagSize * s.count.toNat ≤ (pointee s.ktags).size) :
    keytagSize * s.count.toNat ≤ (pointee s.ktags).size ↔ (s.count ≠ 0 → s.ktags ≠ none) := by
  cases hk : s.ktags with
  | some b => exact iff_of_true (hk ▸ h (hk ▸ nofun)) fun _ => nofun
  | none =>
    have hsize : (pointee none).size = 0 := rfl
    rw [hsize, ← UInt32.toNat_inj.ne]
    simp only [keytagSize, UInt32.toNat_zero]
    constructor
    · intro hle hne
      omega
    · intro hne
      by_contra hlt
      exact hne (by omega) rfl

/-- **A removal keeps its promise just if it is harmless.** -/
theorem removesEntry_iff (hs : Kept P s) :
    RemovesEntry s keypair tag (qsmpKeychainRemove s keypair tag g) ↔
      tag ∉ s.tags ∧ (s.count ≠ 0 → s.ktags ≠ none) := by
  constructor
  · intro h
    have habsent : tag ∉ s.tags := by
      intro hmem
      obtain ⟨e, he, htag⟩ := mem_tags_iff (P := P) |>.1 hmem
      have hcount := (h.present e he htag).2.2.1
      rw [qsmpKeychainRemove_count] at hcount
      omega
    have hinside := h.inside
    rw [qsmpKeychainRemove_absent habsent, searchAccesses_inside] at hinside
    exact ⟨habsent, (keytags_le_iff hs.ktags).1 hinside⟩
  · rintro ⟨habsent, htags⟩
    rw [qsmpKeychainRemove_absent habsent]
    refine ⟨fun e he htag => absurd (mem_tags_iff.2 ⟨e, he, htag⟩) habsent,
      fun _ => ⟨rfl, rfl, rfl⟩, ?_⟩
    exact searchAccesses_inside.2 ((keytags_le_iff hs.ktags).2 htags)

/-! ## Adding -/

/-- The length asked for. -/
def grownLength (count : UInt32) (size : ℕ) : ℕ :=
  if count = 0 then size else (count.toNat + 1) * size % 2 ^ 32

theorem growKeys_eq {count : UInt32} {keys : Option Block} {size : ℕ} {grant : Option Mem} :
    growKeys count keys size grant = if count = 0 then qscMemutilsMalloc size grant
      else qscMemutilsRealloc (pointee keys) (grownLength count size) grant := by
  have hlen : ((count + 1) * UInt32.ofNat size).toNat = (count.toNat + 1) * size % 2 ^ 32 := by
    rw [UInt32.toNat_mul, UInt32.toNat_add, UInt32.toNat_ofNat', UInt32.toNat_one, ← Nat.mul_mod]
  rw [growKeys, ite_not]
  split
  · rfl
  · rename_i hne
    rw [grownLength, if_neg hne, hlen]

/-- The array grows unless no byte is asked for, or none granted. -/
theorem growKeys_eq_none {count : UInt32} {keys : Option Block} {size : ℕ}
    {grant : Option Mem} : growKeys count keys size grant = none ↔
      grownLength count size = 0 ∨ grant = none := by
  rw [growKeys_eq]
  split
  · rename_i heq
    rw [qscMemutilsMalloc_eq_none, grownLength, if_pos heq]
  · exact qscMemutilsRealloc_eq_none

theorem growKeys_size {count : UInt32} {keys : Option Block} {size : ℕ} {grant : Option Mem}
    {b : Block} (h : growKeys count keys size grant = some b) :
    b.size = grownLength count size := by
  rw [growKeys_eq] at h
  split at h
  · rename_i heq
    rw [qscMemutilsMalloc_size h, grownLength, if_pos heq]
  · exact qscMemutilsRealloc_size h

/-- The array of tags grows unless the count wraps around. -/
theorem growTags_eq_none {count : UInt32} {ktags : Option Block} {grant : Option Mem} :
    growTags count ktags grant = none ↔ count.toNat + 1 = 2 ^ 32 ∨ grant = none := by
  have hword : count.toNat < 2 ^ 32 := count.toNat_lt
  rw [growTags]
  split
  · rw [qscMemutilsRealloc_eq_none, UInt32.toNat_add, UInt32.toNat_one, keytagSize]
    refine or_congr_left ?_
    omega
  · rename_i heq
    rw [qscMemutilsMalloc_eq_none, not_not.1 heq, keytagSize]
    simp

theorem growTags_size {count : UInt32} {ktags : Option Block} {grant : Option Mem} {b : Block}
    (h : growTags count ktags grant = some b) : b.size = (count.toNat + 1) * keytagSize := by
  have hsucc : (count + 1).toNat = count.toNat + 1 := by
    have hword : count.toNat < 2 ^ 32 := count.toNat_lt
    have hne : ¬ count.toNat + 1 = 2 ^ 32 := fun hwrap =>
      nomatch h.symm.trans (growTags_eq_none.2 (.inl hwrap))
    rw [UInt32.toNat_add, UInt32.toNat_one, Nat.mod_eq_of_lt (by omega)]
  rw [growTags] at h
  split at h
  · rw [qscMemutilsRealloc_size h, hsucc]
  · rename_i heq
    rw [qscMemutilsMalloc_size h, not_not.1 heq]
    rfl

theorem keyOffset_eq {count : UInt32} {size : ℕ} :
    keyOffset count size = count.toNat * size % 2 ^ 32 := by
  rw [keyOffset, UInt32.toNat_mul, UInt32.toNat_ofNat', Nat.mul_mod_mod]

/-- **Another key has room just if it has room in 32 bits.** As long as the
keys there fit, a length that wraps around is too short for one more. -/
theorem keyFits_iff {count : UInt32} {size : ℕ}
    (hkept : 2 ≤ count.toNat → count.toNat * size < 2 ^ 32) :
    KeychainOp.KeyFits count size ↔ grownLength count size ≠ 0 ∧
      Access.Inside ⟨grownLength count size, keyOffset count size, size⟩ := by
  by_cases hcount : count = 0
  · subst hcount
    simp [KeychainOp.KeyFits, grownLength, keyOffset_eq, Access.inside_iff, Nat.pos_iff_ne_zero]
  · have hpos : 1 ≤ count.toNat := by
      rcases Nat.eq_zero_or_pos count.toNat with hzero | hpos
      · exact absurd (UInt32.toNat_inj.1 hzero) hcount
      · exact hpos
    have hsucc : (count.toNat + 1) * size = count.toNat * size + size := Nat.succ_mul _ _
    simp only [KeychainOp.KeyFits, grownLength, keyOffset_eq, if_neg hcount, Access.inside_iff]
    constructor
    · rintro ⟨hsize, hfits⟩
      have hlt := hfits hcount
      rw [Nat.mod_eq_of_lt hlt, Nat.mod_eq_of_lt (by omega)]
      omega
    · rintro ⟨hlen, hinside⟩
      have hsize : 0 < size := by
        rcases Nat.eq_zero_or_pos size with rfl | hsize
        · exact absurd rfl hlen
        · exact hsize
      have hend : count.toNat * size % 2 ^ 32 + size ≤ (count.toNat + 1) * size % 2 ^ 32 := by
        omega
      have hword : (count.toNat + 1) * size % 2 ^ 32 < 2 ^ 32 := Nat.mod_lt _ (by omega)
      have hheld : count.toNat * size < 2 ^ 32 := by
        rcases Nat.lt_or_ge count.toNat 2 with hone | htwo
        · rw [show count.toNat = 1 by omega]
          omega
        · exact hkept htwo
      refine ⟨hsize, fun _ => ?_⟩
      rw [Nat.mod_eq_of_lt hheld] at hend
      omega

/-- An array that has grown was asked for some bytes. -/
theorem growKeys_ne_zero {count : UInt32} {keys : Option Block} {size : ℕ} {grant : Option Mem}
    {b : Block} (h : growKeys count keys size grant = some b) : grownLength count size ≠ 0 :=
  fun hzero => nomatch h.symm.trans (growKeys_eq_none.2 (.inl hzero))

/-- Where all three arrays have grown all three requests were granted. -/
theorem all_of_grown {pub pri tag : Block}
    (hpub : growKeys s.count s.pubkeys P.publicKeySize g.pubkeys = some pub)
    (hpri : growKeys s.count s.prikeys P.privateKeySize g.prikeys = some pri)
    (htag : growTags s.count s.ktags g.ktags = some tag) : g.All :=
  ⟨fun h => Option.some_ne_none _ (hpub.symm.trans (growKeys_eq_none.2 (.inr h))),
    fun h => Option.some_ne_none _ (hpri.symm.trans (growKeys_eq_none.2 (.inr h))),
    fun h => Option.some_ne_none _ (htag.symm.trans (growTags_eq_none.2 (.inr h)))⟩

/-- Either an array has not grown or all three have. -/
theorem exists_grown
    (h : ¬ (growKeys s.count s.pubkeys P.publicKeySize g.pubkeys = none ∨
      growKeys s.count s.prikeys P.privateKeySize g.prikeys = none ∨
      growTags s.count s.ktags g.ktags = none)) :
    ∃ pub pri tag, growKeys s.count s.pubkeys P.publicKeySize g.pubkeys = some pub ∧
      growKeys s.count s.prikeys P.privateKeySize g.prikeys = some pri ∧
      growTags s.count s.ktags g.ktags = some tag := by
  rw [not_or, not_or] at h
  obtain ⟨pub, hpub⟩ := Option.ne_none_iff_exists'.1 h.1
  obtain ⟨pri, hpri⟩ := Option.ne_none_iff_exists'.1 h.2.1
  obtain ⟨tag, htag⟩ := Option.ne_none_iff_exists'.1 h.2.2
  exact ⟨pub, pri, tag, hpub, hpri, htag⟩

/-- What an addition does that every request of is granted. -/
theorem qsmpKeychainAdd_granted (pubkey : Octets P.publicKeySize)
    (prikey : Octets P.privateKeySize) (ktag : Octets keytagSize) {pub pri tag : Block}
    (hpub : growKeys s.count s.pubkeys P.publicKeySize g.pubkeys = some pub)
    (hpri : growKeys s.count s.prikeys P.privateKeySize g.prikeys = some pri)
    (htag : growTags s.count s.ktags g.ktags = some tag) :
    (qsmpKeychainAdd s pubkey prikey ktag g).res = true ∧
      (qsmpKeychainAdd s pubkey prikey ktag g).keychain =
        { pubkeys := some { pub with
            mem := pub.mem.write (keyOffset s.count P.publicKeySize) pubkey.val }
          prikeys := some { pri with
            mem := pri.mem.write (keyOffset s.count P.privateKeySize) prikey.val }
          ktags := some { tag with mem := tag.mem.write (s.count.toNat * keytagSize) ktag.val }
          count := s.count + 1 } ∧
      (qsmpKeychainAdd s pubkey prikey ktag g).accesses =
        [⟨pri.size, keyOffset s.count P.privateKeySize, P.privateKeySize⟩,
          ⟨pub.size, keyOffset s.count P.publicKeySize, P.publicKeySize⟩,
          ⟨tag.size, s.count.toNat * keytagSize, keytagSize⟩] := by
  simp only [qsmpKeychainAdd, hpub, hpri, htag]
  exact ⟨trivial, trivial, trivial⟩

/-- And one that is not. -/
theorem qsmpKeychainAdd_refused (pubkey : Octets P.publicKeySize)
    (prikey : Octets P.privateKeySize) (ktag : Octets keytagSize)
    (h : growKeys s.count s.pubkeys P.publicKeySize g.pubkeys = none ∨
      growKeys s.count s.prikeys P.privateKeySize g.prikeys = none ∨
      growTags s.count s.ktags g.ktags = none) :
    (qsmpKeychainAdd s pubkey prikey ktag g).res = false ∧
      (qsmpKeychainAdd s pubkey prikey ktag g).keychain.count = s.count ∧
      (qsmpKeychainAdd s pubkey prikey ktag g).keychain.ktags =
        growTags s.count s.ktags g.ktags ∧
      (qsmpKeychainAdd s pubkey prikey ktag g).accesses = [] := by
  simp only [qsmpKeychainAdd]
  split
  · rename_i hpub hpri htag
    simp [hpub, hpri, htag] at h
  · exact ⟨rfl, rfl, rfl, rfl⟩

theorem KeychainOp.KeyFits.count_lt {count : UInt32} {size : ℕ} (h : KeyFits count size) :
    count.toNat + 1 < 2 ^ 32 := by
  by_cases hcount : count = 0
  · subst hcount
    decide
  · exact lt_of_le_of_lt (Nat.le_mul_of_pos_right _ h.1) (h.2 hcount)

theorem ne_zero_of_lt {count : UInt32} {idx : ℕ} (h : idx < count.toNat) : count ≠ 0 := by
  rintro rfl
  exact Nat.not_lt_zero _ h

theorem grownLength_of_fits {count : UInt32} {size : ℕ} (h : KeychainOp.KeyFits count size) :
    grownLength count size = (count.toNat + 1) * size := by
  rw [grownLength]
  split
  · rename_i heq
    rw [heq, UInt32.toNat_zero, Nat.zero_add, Nat.one_mul]
  · rename_i hne
    exact Nat.mod_eq_of_lt (h.2 hne)

/-- The keys there are kept by an array that grows. -/
theorem growKeys_read {count : UInt32} {keys : Option Block} {size idx : ℕ} {grant : Option Mem}
    {b : Block} (h : growKeys count keys size grant = some b) (hidx : idx < count.toNat)
    (hold : count.toNat * size ≤ (pointee keys).size) (hfits : KeychainOp.KeyFits count size) :
    b.mem.read (idx * size) size = (pointee keys).mem.read (idx * size) size := by
  rw [growKeys_eq, if_neg (ne_zero_of_lt hidx), grownLength_of_fits hfits, Nat.succ_mul] at h
  exact resized_read h hidx hold (Nat.le_add_right _ _)

theorem growTags_read {count : UInt32} {ktags : Option Block} {idx : ℕ} {grant : Option Mem}
    {b : Block} (h : growTags count ktags grant = some b) (hidx : idx < count.toNat)
    (hold : count.toNat * keytagSize ≤ (pointee ktags).size) :
    b.mem.read (idx * keytagSize) keytagSize =
      (pointee ktags).mem.read (idx * keytagSize) keytagSize := by
  have hlen := growTags_size h
  rw [growTags, if_pos (ne_zero_of_lt hidx)] at h
  rw [qscMemutilsRealloc_size h] at hlen
  exact resized_read h hidx hold (by rw [hlen, Nat.succ_mul]; exact Nat.le_add_right _ _)

/-- The offset of the new key, where it fits. -/
theorem keyOffset_of_fits {count : UInt32} {size : ℕ} (h : KeychainOp.KeyFits count size) :
    keyOffset count size = count.toNat * size := by
  rw [keyOffset_eq]
  by_cases hcount : count = 0
  · rw [hcount, UInt32.toNat_zero, Nat.zero_mul, Nat.zero_mod]
  · have hfits := h.2 hcount
    rw [Nat.succ_mul] at hfits
    exact Nat.mod_eq_of_lt (by omega)

/-- Where both keys fit, an addition that is granted grows all arrays. -/
theorem not_refused (hs : Kept P s) (hall : g.All)
    (hpri : KeychainOp.KeyFits s.count P.privateKeySize)
    (hpub : KeychainOp.KeyFits s.count P.publicKeySize) :
    ¬ (growKeys s.count s.pubkeys P.publicKeySize g.pubkeys = none ∨
      growKeys s.count s.prikeys P.privateKeySize g.prikeys = none ∨
      growTags s.count s.ktags g.ktags = none) := by
  obtain ⟨hgpub, hgpri, hgtag⟩ := hall
  have hcount := hpri.count_lt
  rw [growKeys_eq_none, growKeys_eq_none, growTags_eq_none]
  rintro ((hzero | hnone) | (hzero | hnone) | hwrap | hnone)
  · exact ((keyFits_iff hs.pubkeys).1 hpub).1 hzero
  · exact hgpub hnone
  · exact ((keyFits_iff hs.prikeys).1 hpri).1 hzero
  · exact hgpri hnone
  · omega
  · exact hgtag hnone

/-- An entry is what its three parts are. -/
theorem entry_eq {idx : ℕ} (value : Octets keytagSize) (pubkey : Octets P.publicKeySize)
    (prikey : Octets P.privateKeySize)
    (htag : (pointee s.ktags).mem.read (idx * keytagSize) keytagSize = value.val)
    (hpub : (pointee s.pubkeys).mem.read (idx * P.publicKeySize) P.publicKeySize = pubkey.val)
    (hpri : (pointee s.prikeys).mem.read (idx * P.privateKeySize) P.privateKeySize =
      prikey.val) :
    s.entry P idx = (qscIntutilsLe8to64 (Mem.zero.write 0 value.val), ⟨prikey, pubkey⟩) := by
  have hkeytag : s.ktag idx = qscIntutilsLe8to64 (Mem.zero.write 0 value.val) := by
    have hread : (Mem.zero.write 0 value.val).read 0 8 = value.val :=
      Mem.read_write_of_length value.property
    have hheld : (pointee s.ktags).mem.read (keytagSize * idx) 8 = value.val := by
      rw [Nat.mul_comm]
      exact htag
    rw [QsmpAsymmetricKeychain.ktag, qscIntutilsLe8to64, qscIntutilsLe8to64, Mem.shift_read,
      hread, Nat.add_zero, hheld]
  rw [QsmpAsymmetricKeychain.entry, hkeytag]
  exact congrArg _ (congrArg₂ _ (Subtype.ext hpri) (Subtype.ext hpub))

/-- **An addition stores its keys together under their tag**, behind the
entries that are there. -/
theorem entries_add (hs : Kept P s) (hstored : Stored P s) (hall : g.All)
    (hprifits : KeychainOp.KeyFits s.count P.privateKeySize)
    (hpubfits : KeychainOp.KeyFits s.count P.publicKeySize) :
    (qsmpKeychainAdd s pubkey prikey ktag g).keychain.entries P =
      s.entries P ++ [(qscIntutilsLe8to64 (Mem.zero.write 0 ktag.val), ⟨prikey, pubkey⟩)] := by
  obtain ⟨pub, pri, tag, hpub, hpri, htag⟩ := exists_grown (not_refused hs hall hprifits hpubfits)
  have hsucc : (s.count + 1).toNat = s.count.toNat + 1 := by
    rw [UInt32.toNat_add, UInt32.toNat_one, Nat.mod_eq_of_lt hprifits.count_lt]
  obtain ⟨-, hkeychain, -⟩ := qsmpKeychainAdd_granted pubkey prikey ktag hpub hpri htag
  rw [keyOffset_of_fits hprifits, keyOffset_of_fits hpubfits] at hkeychain
  rw [hkeychain, QsmpAsymmetricKeychain.entries, QsmpAsymmetricKeychain.entries]
  simp only [hsucc, List.range_succ, List.map_append, List.map_singleton]
  refine congrArg₂ _ (List.map_congr_left fun idx hidx => ?_) (congrArg (fun e => [e]) ?_)
  · have hlt : idx < s.count.toNat := List.mem_range.1 hidx
    have hend : ∀ size, idx * size + size ≤ s.count.toNat * size := fun size => by
      rw [← Nat.succ_mul]
      exact Nat.mul_le_mul_right _ hlt
    have hold : s.entry P idx = _ :=
      entry_eq ((pointee s.ktags).mem.octets (idx * keytagSize) keytagSize)
        ((pointee s.pubkeys).mem.octets (idx * P.publicKeySize) P.publicKeySize)
        ((pointee s.prikeys).mem.octets (idx * P.privateKeySize) P.privateKeySize) rfl rfl rfl
    rw [hold]
    refine entry_eq _ _ _ ?_ ?_ ?_
    · exact (Mem.read_write_below (hend _)).trans (growTags_read htag hlt hstored.ktags)
    · exact (Mem.read_write_below (hend _)).trans (growKeys_read hpub hlt hstored.pubkeys hpubfits)
    · exact (Mem.read_write_below (hend _)).trans (growKeys_read hpri hlt hstored.prikeys hprifits)
  · exact entry_eq ktag pubkey prikey (Mem.read_write_of_length ktag.property)
      (Mem.read_write_of_length pubkey.property) (Mem.read_write_of_length prikey.property)

/-- And the arrays hold the entries after it. -/
theorem Stored.add (hs : Kept P s) (hall : g.All)
    (hprifits : KeychainOp.KeyFits s.count P.privateKeySize)
    (hpubfits : KeychainOp.KeyFits s.count P.publicKeySize) :
    Stored P (qsmpKeychainAdd s pubkey prikey ktag g).keychain := by
  obtain ⟨pub, pri, tag, hpub, hpri, htag⟩ := exists_grown (not_refused hs hall hprifits hpubfits)
  obtain ⟨-, hkeychain, -⟩ := qsmpKeychainAdd_granted pubkey prikey ktag hpub hpri htag
  have hsucc : (s.count + 1).toNat = s.count.toNat + 1 := by
    rw [UInt32.toNat_add, UInt32.toNat_one, Nat.mod_eq_of_lt hprifits.count_lt]
  rw [hkeychain]
  refine ⟨?_, ?_, ?_⟩
  · rw [hsucc, ← grownLength_of_fits hpubfits, ← growKeys_size hpub]
    rfl
  · rw [hsucc, ← grownLength_of_fits hprifits, ← growKeys_size hpri]
    rfl
  · rw [hsucc, ← growTags_size htag]
    rfl

/-- **An addition keeps its promise just if it is harmless.** -/
theorem addsEntry_iff (hs : Kept P s) :
    AddsEntry g (qsmpKeychainAdd s pubkey prikey ktag g) ↔
      (g.All → KeychainOp.KeyFits s.count P.privateKeySize ∧
        KeychainOp.KeyFits s.count P.publicKeySize) := by
  by_cases hrefused : growKeys s.count s.pubkeys P.publicKeySize g.pubkeys = none ∨
      growKeys s.count s.prikeys P.privateKeySize g.prikeys = none ∨
      growTags s.count s.ktags g.ktags = none
  · obtain ⟨hres, -, -, hacc⟩ := qsmpKeychainAdd_refused pubkey prikey ktag hrefused
    constructor
    · intro h hall
      exact absurd (hres.symm.trans (h.done hall)) Bool.false_ne_true
    · intro h
      refine ⟨fun hall => absurd hrefused (not_refused hs hall (h hall).1 (h hall).2), ?_⟩
      rw [hacc]
      exact Access.allInside_nil
  · obtain ⟨pub, pri, tag, hpub, hpri, htag⟩ := exists_grown hrefused
    obtain ⟨hres, -, hacc⟩ := qsmpKeychainAdd_granted pubkey prikey ktag hpub hpri htag
    have hall := all_of_grown hpub hpri htag
    have htags : Access.Inside ⟨tag.size, s.count.toNat * keytagSize, keytagSize⟩ := by
      rw [Access.inside_iff, growTags_size htag, Nat.succ_mul]
      exact .inr le_rfl
    rw [keyFits_iff hs.prikeys, keyFits_iff hs.pubkeys, ← growKeys_size hpri,
      ← growKeys_size hpub]
    have hsizes : pri.size ≠ 0 ∧ pub.size ≠ 0 :=
      ⟨growKeys_size hpri ▸ growKeys_ne_zero hpri, growKeys_size hpub ▸ growKeys_ne_zero hpub⟩
    constructor
    · intro h _
      have hinside := h.inside
      rw [hacc, Access.allInside_cons, Access.allInside_cons] at hinside
      exact ⟨⟨hsizes.1, hinside.1⟩, hsizes.2, hinside.2.1⟩
    · intro h
      obtain ⟨⟨-, hpriin⟩, -, hpubin⟩ := h hall
      refine ⟨fun _ => hres, ?_⟩
      rw [hacc, Access.allInside_cons, Access.allInside_cons, Access.allInside_cons]
      exact ⟨hpriin, hpubin, htags, Access.allInside_nil⟩

/-- The keys of a count that has gone up by one have a 32-bit length. -/
theorem KeychainOp.KeyFits.succ_mul_lt {count : UInt32} {size : ℕ} (h : KeyFits count size)
    (htwo : 2 ≤ (count + 1).toNat) : (count + 1).toNat * size < 2 ^ 32 := by
  have hle : (count + 1).toNat ≤ count.toNat + 1 := by
    rw [UInt32.toNat_add, UInt32.toNat_one]
    exact Nat.mod_le _ _
  have hne : count ≠ 0 := by
    rintro rfl
    exact absurd htwo (by decide)
  exact lt_of_le_of_lt (Nat.mul_le_mul_right _ hle) (h.2 hne)

theorem Kept.add (hs : Kept P s)
    (hfits : g.All → KeychainOp.KeyFits s.count P.privateKeySize ∧
      KeychainOp.KeyFits s.count P.publicKeySize) :
    Kept P (qsmpKeychainAdd s pubkey prikey ktag g).keychain := by
  by_cases hrefused : growKeys s.count s.pubkeys P.publicKeySize g.pubkeys = none ∨
      growKeys s.count s.prikeys P.privateKeySize g.prikeys = none ∨
      growTags s.count s.ktags g.ktags = none
  · obtain ⟨-, hcount, hktags, -⟩ := qsmpKeychainAdd_refused pubkey prikey ktag hrefused
    refine ⟨fun hne => ?_, hcount ▸ hs.prikeys, hcount ▸ hs.pubkeys⟩
    rw [hktags] at hne
    obtain ⟨b, hb⟩ := Option.ne_none_iff_exists'.1 hne
    have hsize : (pointee (some b)).size = (s.count.toNat + 1) * keytagSize := growTags_size hb
    rw [hktags, hcount, hb, hsize, keytagSize]
    omega
  · obtain ⟨pub, pri, tag, hpub, hpri, htag⟩ := exists_grown hrefused
    obtain ⟨-, hkeychain, -⟩ := qsmpKeychainAdd_granted pubkey prikey ktag hpub hpri htag
    have hall := all_of_grown hpub hpri htag
    obtain ⟨hprifits, hpubfits⟩ := hfits hall
    rw [hkeychain]
    refine ⟨fun _ => ?_, hprifits.succ_mul_lt, hpubfits.succ_mul_lt⟩
    have hle : (s.count + 1).toNat ≤ s.count.toNat + 1 := by
      rw [UInt32.toNat_add, UInt32.toNat_one]
      exact Nat.mod_le _ _
    change keytagSize * (s.count + 1).toNat ≤ tag.size
    rw [growTags_size htag, keytagSize]
    omega

namespace KeychainOp

/-- **An operation keeps its promise just if it is harmless.** -/
theorem keeps_iff (hs : Kept P s) {op : KeychainOp P} : op.Keeps s s' ↔ op.Harmless s s' := by
  cases op with
  | add pubkey prikey ktag g => exact addsEntry_iff hs
  | remove keypair tag g => exact removesEntry_iff hs

/-- Harmless operations keep the arrays as long as the count says. -/
theorem Harmless.kept {op : KeychainOp P} (hop : op.Harmless s s') (hs : Kept P s)
    (hstep : op.step s = some s') : Kept P s' := by
  cases op with
  | add pubkey prikey ktag g =>
    obtain rfl := Option.some.inj hstep
    exact hs.add hop
  | remove keypair tag g =>
    obtain rfl := Option.some.inj hstep
    rw [qsmpKeychainRemove_absent hop.1]
    exact hs

end KeychainOp

/-- The keychain before anything is added. -/
def QsmpAsymmetricKeychain.empty : QsmpAsymmetricKeychain := ⟨none, none, none, 0⟩

theorem kept_empty : Kept P .empty :=
  ⟨fun h => absurd rfl h, fun h => absurd h (by decide), fun h => absurd h (by decide)⟩

/-- **When a keychain keeps its promises**: in a history of additions and
removals each operation does just if each is harmless. -/
theorem keychain_keeps_iff (P : Params) (ops : List (KeychainOp P)) :
    Along KeychainOp.step KeychainOp.Keeps .empty ops ↔
      Along KeychainOp.step KeychainOp.Harmless .empty ops :=
  along_iff_along
    (fun _ _ _ hs hstep hkeeps => ((KeychainOp.keeps_iff hs).1 hkeeps).kept hs hstep)
    (fun _ _ _ hs _ => KeychainOp.keeps_iff hs) kept_empty

/-- The law for every history. -/
def KeychainSound (P : Params) : Prop :=
  ∀ ops : List (KeychainOp P), Along KeychainOp.step KeychainOp.Keeps .empty ops

/-- A keychain of two, with the tags 1 and 2. -/
def QsmpAsymmetricKeychain.two (P : Params) : QsmpAsymmetricKeychain :=
  let grants : KeychainGrants := ⟨some .zero, some .zero, some .zero⟩
  let one := (qsmpKeychainAdd (P := P) .empty (Octets.zero _) (Octets.zero _)
    ⟨[1, 0, 0, 0, 0, 0, 0, 0], rfl⟩ grants).keychain
  (qsmpKeychainAdd (P := P) one (Octets.zero _) (Octets.zero _)
    ⟨[2, 0, 0, 0, 0, 0, 0, 0], rfl⟩ grants).keychain

/-- The first of two keys is taken out. -/
theorem not_keychainSound_two : ¬ KeychainSound .dilithiumKyber := by
  intro hsound
  have hops := hsound [
    .add (Octets.zero _) (Octets.zero _) ⟨[1, 0, 0, 0, 0, 0, 0, 0], rfl⟩
      ⟨some .zero, some .zero, some .zero⟩,
    .add (Octets.zero _) (Octets.zero _) ⟨[2, 0, 0, 0, 0, 0, 0, 0], rfl⟩
      ⟨some .zero, some .zero, some .zero⟩,
    .remove ⟨Octets.zero _, Octets.zero _⟩ 1 ⟨some .zero, some .zero, some .zero⟩]
  have hremove : RemovesEntry (QsmpAsymmetricKeychain.two .dilithiumKyber)
      ⟨Octets.zero _, Octets.zero _⟩ 1 (qsmpKeychainRemove _ _ _ _) :=
    ((((hops _ rfl).2 _ rfl).2) _ rfl).1
  obtain ⟨e, he, htag⟩ := mem_tags_iff.1
    (by decide : (1 : UInt64) ∈ (QsmpAsymmetricKeychain.two .dilithiumKyber).tags)
  have hcount := (hremove.present e he htag).2.2.1
  rw [qsmpKeychainRemove_count] at hcount
  exact Nat.succ_ne_self _ hcount

end Qsmp
