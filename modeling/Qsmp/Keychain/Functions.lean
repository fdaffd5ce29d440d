import Qsmp.Config
import Qsmp.Qsc.Intutils
import Qsmp.Qsc.Memutils
/-!
# The keychain

Three arrays run in parallel: the public keys, the private keys and the
tags, of which entry `i` has its part in each. `qsmp_keychain_add` makes
them longer by an entry and `qsmp_keychain_remove` takes one out. Each
records the accesses it makes to the arrays.
-/

namespace Qsmp

/-- `sizeof(uint64_t)`, the size of a tag. -/
def keytagSize : ℕ := 8

/-- `qsmp_asymmetric_keychain`. A null pointer is no block. -/
structure QsmpAsymmetricKeychain where
  pubkeys : Option Block
  prikeys : Option Block
  ktags : Option Block
  count : UInt32

/-- `qsmp_asymmetric_cipher_keypair` -/
structure QsmpAsymmetricCipherKeypair (P : Params) where
  prikey : Octets P.privateKeySize
  pubkey : Octets P.publicKeySize
deriving DecidableEq

/-- What a pointer addresses: no byte at all if it is null. -/
def pointee (pointer : Option Block) : Block := pointer.getD ⟨0, Mem.zero⟩

/-- What the allocator answers to the three requests of an operation. -/
structure KeychainGrants where
  pubkeys : Option Mem
  prikeys : Option Mem
  ktags : Option Mem

/-- All three requests are granted. -/
def KeychainGrants.All (grants : KeychainGrants) : Prop :=
  grants.pubkeys ≠ none ∧ grants.prikeys ≠ none ∧ grants.ktags ≠ none

namespace QsmpAsymmetricKeychain

/-- `keychain->ktags[idx]`, on a little-endian host. -/
def ktag (keychain : QsmpAsymmetricKeychain) (idx : ℕ) : UInt64 :=
  qscIntutilsLe8to64 ((pointee keychain.ktags).mem.shift (keytagSize * idx))

/-- The tags of a keychain, in order. -/
def tags (keychain : QsmpAsymmetricKeychain) : List UInt64 :=
  (List.range keychain.count.toNat).map keychain.ktag

@[simp] theorem length_tags {keychain : QsmpAsymmetricKeychain} :
    keychain.tags.length = keychain.count.toNat := by
  simp only [tags, List.length_map, List.length_range]

end QsmpAsymmetricKeychain

/-- What an operation leaves: its result, the keychain, and its accesses to
the arrays. -/
structure KeychainResult where
  res : Bool
  keychain : QsmpAsymmetricKeychain
  accesses : List Access

/-! ## Adding -/

/-- An array of keys of `size` bytes made longer by a key. The size of the
array is reckoned in 32 bits. -/
def growKeys (count : UInt32) (keys : Option Block) (size : ℕ) (grant : Option Mem) :
    Option Block :=
  if count ≠ 0 then qscMemutilsRealloc (pointee keys) ((count + 1) * .ofNat size).toNat grant
  else qscMemutilsMalloc size grant

/-- The array of tags made longer by a tag. -/
def growTags (count : UInt32) (ktags : Option Block) (grant : Option Mem) : Option Block :=
  if count ≠ 0 then qscMemutilsRealloc (pointee ktags) ((count + 1).toNat * keytagSize) grant
  else qscMemutilsMalloc keytagSize grant

/-- Where `qsmp_keychain_add` stores a key: `keychain->count * size`. -/
def keyOffset (count : UInt32) (size : ℕ) : ℕ := (count * .ofNat size).toNat

/-- `qsmp_keychain_add`, where `ktag` is what `qsc_acp_generate` leaves. -/
def qsmpKeychainAdd {P : Params} (keychain : QsmpAsymmetricKeychain)
    (pubkey : Octets P.publicKeySize) (prikey : Octets P.privateKeySize)
    (ktag : Octets keytagSize) (grants : KeychainGrants) : KeychainResult :=
  let prikeys := growKeys keychain.count keychain.prikeys P.privateKeySize grants.prikeys
  let pubkeys := growKeys keychain.count keychain.pubkeys P.publicKeySize grants.pubkeys
  let ktags := growTags keychain.count keychain.ktags grants.ktags
  match pubkeys, prikeys, ktags with
  | some pub, some pri, some tag =>
    let ppos := keyOffset keychain.count P.privateKeySize
    let upos := keyOffset keychain.count P.publicKeySize
    let tpos := keychain.count.toNat * keytagSize
    { res := true
      keychain :=
        { prikeys := some { pri with mem := pri.mem.write ppos prikey.val }
          pubkeys := some { pub with mem := pub.mem.write upos pubkey.val }
          ktags := some { tag with mem := tag.mem.write tpos ktag.val }
          count := keychain.count + 1 }
      accesses := [⟨pri.size, ppos, P.privateKeySize⟩, ⟨pub.size, upos, P.publicKeySize⟩,
        ⟨tag.size, tpos, keytagSize⟩] }
  | _, _, _ => ⟨false, { keychain with pubkeys, prikeys, ktags }, []⟩

/-! ## Removing -/

/-- `lpos`, the offset of the last key, in 32 bits. -/
def lastOffset (count : UInt32) (size : ℕ) : ℕ := ((count - 1) * .ofNat size).toNat

/-- The reads of the search for a tag that ends at `idx`. -/
def searchAccesses (keychain : QsmpAsymmetricKeychain) (idx : ℕ) : List Access :=
  (List.range (min (idx + 1) keychain.count.toNat)).map fun i =>
    ⟨(pointee keychain.ktags).size, keytagSize * i, keytagSize⟩

/-- An array from which entry `pos` is cleared, filled from the memory `src`
at `lpos` unless it is the last, and the last entry is cleared; `size` is
the length of an entry of the array, `copied` of what is copied. -/
def compact (keys : Block) (src : Mem → Mem) (pos lpos size copied : ℕ) (nlast : Bool) : Block :=
  let mem := keys.mem.clear pos size
  let mem := if nlast then mem.write pos ((src mem).read lpos copied) else mem
  { keys with mem := mem.clear lpos copied }

/-- `qsmp_keychain_remove`; beside what it leaves, the key pair it has handed
out. -/
def qsmpKeychainRemove {P : Params} (keychain : QsmpAsymmetricKeychain)
    (keypair : QsmpAsymmetricCipherKeypair P) (tag : UInt64) (grants : KeychainGrants) :
    KeychainResult × QsmpAsymmetricCipherKeypair P :=
  let idx := keychain.tags.findIdx (· == tag)
  let search := searchAccesses keychain idx
  if idx < keychain.count.toNat then
    let nlast := idx != (keychain.count - 1).toNat
    let upos := idx * P.publicKeySize
    let ulast := lastOffset keychain.count P.publicKeySize
    let pub := pointee keychain.pubkeys
    let keypair := { keypair with pubkey := pub.mem.octets upos P.publicKeySize }
    let shrunk := compact pub id upos ulast P.publicKeySize P.publicKeySize nlast
    let uaccesses : List Access := [⟨pub.size, upos, P.publicKeySize⟩,
      ⟨pub.size, ulast, P.publicKeySize⟩]
    let keychain := { keychain with
      pubkeys := qscMemutilsRealloc shrunk ulast grants.pubkeys }
    match keychain.pubkeys with
    | none => (⟨false, keychain, search ++ uaccesses⟩, keypair)
    | some pub =>
      let ppos := idx * P.privateKeySize
      let plast := lastOffset keychain.count P.privateKeySize
      let pri := pointee keychain.prikeys
      let keypair := { keypair with prikey := pri.mem.octets ppos P.privateKeySize }
      -- The hole among the private keys is filled from the public keys.
      let shrunk := compact pri (fun _ => pub.mem) ppos plast P.privateKeySize P.publicKeySize nlast
      let paccesses : List Access := [⟨pri.size, ppos, P.privateKeySize⟩,
        ⟨pub.size, plast, if nlast then P.publicKeySize else 0⟩,
        ⟨pri.size, ppos, if nlast then P.publicKeySize else 0⟩,
        ⟨pri.size, plast, P.publicKeySize⟩]
      let keychain := { keychain with
        prikeys := qscMemutilsRealloc shrunk plast grants.prikeys }
      match keychain.prikeys with
      | none => (⟨false, keychain, search ++ uaccesses ++ paccesses⟩, keypair)
      | some _ =>
        let tpos := idx * keytagSize
        let tlast := (keychain.count - 1).toNat * keytagSize
        let ktags := pointee keychain.ktags
        -- The offsets count bytes, and the pointer counts tags.
        let moved := if nlast then
            ktags.mem.write (keytagSize * tpos) (ktags.mem.read (keytagSize * tlast) keytagSize)
          else ktags.mem
        let shrunk : Block := { ktags with mem := moved.clear tlast keytagSize }
        let taccesses : List Access :=
          [⟨ktags.size, keytagSize * tlast, if nlast then keytagSize else 0⟩,
            ⟨ktags.size, keytagSize * tpos, if nlast then keytagSize else 0⟩,
            ⟨ktags.size, tlast, keytagSize⟩]
        let keychain := { keychain with
          ktags := qscMemutilsRealloc shrunk tlast grants.ktags }
        (⟨keychain.ktags.isSome, keychain, search ++ uaccesses ++ paccesses ++ taccesses⟩,
          keypair)
  else (⟨false, keychain, search⟩, keypair)

end Qsmp
